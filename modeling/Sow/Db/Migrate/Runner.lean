import Sow.Db.Errors
import Sow.Js.Number

open sow.js sow.effect

namespace sow.db.migration

/-- A number read from disk as a schema version: an integer, or some other number,
    which is kept as the text it is printed with. -/
inductive Marker where
  | integer (n : Int)
  | other (text : JsString)
  deriving DecidableEq

/-- `String(schemaVersion)` -/
def Marker.print : Marker → JsString
  | .integer (.ofNat n) => decimal n
  | .integer (.negSucc n) => str "-" ++ decimal (n + 1)
  | .other text => text

/-- One recorded app-version to schema-version compatibility band. Schema versions
    are non-negative integers. -/
structure AppSchemaCompat where
  appVersion : JsString
  targetSchemaVersion : Nat
  minReadableSchemaVersion : Nat
  deriving DecidableEq

def CURRENT_SCHEMA_VERSION : Nat := 2

def APP_SCHEMA_COMPAT_TABLE : List AppSchemaCompat :=
  [⟨str "0.1.0", 1, 1⟩, ⟨str "0.2.0", 2, 1⟩]

inductive SchemaCompatReason where
  | schema_ahead_of_app
  | schema_below_minimum
  | unknown_app_version
  | schema_version_unreadable
  deriving DecidableEq

structure IncompatibleSchema where
  reason : SchemaCompatReason
  appVersion : JsString
  schemaVersion : Marker
  targetSchemaVersion : Option Nat
  minReadableSchemaVersion : Option Nat
  message : JsString
  repair : JsString
  deriving DecidableEq

/-- The on-disk schema state that the startup gate reasons over. -/
structure OnDiskSchema where
  version : Marker
  hasMigrationHistory : Bool
  deriving DecidableEq

section refusals

variable (appVersion : JsString) (schemaVersion : Marker)

def unknownAppVersion : IncompatibleSchema where
  reason := .unknown_app_version
  appVersion := appVersion
  schemaVersion := schemaVersion
  targetSchemaVersion := none
  minReadableSchemaVersion := none
  message := str "App version \"" ++ appVersion ++ str "\" is not in the schema-compatibility table."
  repair := str "This is a packaging/release error: install an officially released build, " ++
    str "or add a compatibility entry for this app version before running it."

variable (row : AppSchemaCompat)

def schemaVersionUnreadable : IncompatibleSchema where
  reason := .schema_version_unreadable
  appVersion := appVersion
  schemaVersion := schemaVersion
  targetSchemaVersion := some row.targetSchemaVersion
  minReadableSchemaVersion := some row.minReadableSchemaVersion
  message := str "Operational-DB schema-version marker is missing or corrupt (got " ++ schemaVersion.print ++ str ")."
  repair := str "Restore the operational DB from the most recent pre-migration backup, " ++
    str "or run the install doctor to re-derive the schema-version marker."

def schemaAheadOfApp : IncompatibleSchema where
  reason := .schema_ahead_of_app
  appVersion := appVersion
  schemaVersion := schemaVersion
  targetSchemaVersion := some row.targetSchemaVersion
  minReadableSchemaVersion := some row.minReadableSchemaVersion
  message := str "On-disk operational-DB schema v" ++ schemaVersion.print ++ str " was written by a newer app; " ++
    str "this app (v" ++ appVersion ++ str ") supports up to schema v" ++ decimal row.targetSchemaVersion ++ str "."
  repair := str "Refusing to run to avoid a silent forward-only break. " ++
    str "Upgrade the app to a version that supports schema v" ++ schemaVersion.print ++ str ", " ++
    str "or restore the pre-upgrade operational-DB backup."

def schemaBelowMinimum : IncompatibleSchema where
  reason := .schema_below_minimum
  appVersion := appVersion
  schemaVersion := schemaVersion
  targetSchemaVersion := some row.targetSchemaVersion
  minReadableSchemaVersion := some row.minReadableSchemaVersion
  message := str "On-disk operational-DB schema v" ++ schemaVersion.print ++ str " is older than the minimum " ++
    str "v" ++ decimal row.minReadableSchemaVersion ++ str " this app (v" ++ appVersion ++ str ") can migrate forward."
  repair := str "Upgrade through an intermediate app release that migrates " ++
    str "v" ++ schemaVersion.print ++ str " → v" ++ decimal row.minReadableSchemaVersion ++
    str ", or restore a compatible backup."

end refusals

def assertSchemaCompatible (appVersion : JsString) (schemaVersion : Marker) (table : List AppSchemaCompat) :
    Except IncompatibleSchema Unit :=
  match table.find? fun r => r.appVersion = appVersion with
  | none => .error (unknownAppVersion appVersion schemaVersion)
  | some row =>
    match schemaVersion with
    | .other _ => .error (schemaVersionUnreadable appVersion schemaVersion row)
    | .integer n =>
      if n < 0 then .error (schemaVersionUnreadable appVersion schemaVersion row)
      else if n > row.targetSchemaVersion then .error (schemaAheadOfApp appVersion schemaVersion row)
      else if n < row.minReadableSchemaVersion then .error (schemaBelowMinimum appVersion schemaVersion row)
      else .ok ()

/-- A fresh database, with marker 0 and no migration history, is brought to the target. -/
def assertBootSchemaCompatible (onDisk : OnDiskSchema) (appVersion : JsString) (table : List AppSchemaCompat) :
    Except IncompatibleSchema Unit :=
  if onDisk.version = .integer 0 ∧ onDisk.hasMigrationHistory = false then .ok ()
  else assertSchemaCompatible appVersion onDisk.version table

/-- The band of the app contains the marker. -/
def AppSchemaCompat.Contains (row : AppSchemaCompat) (version : Nat) : Prop :=
  row.minReadableSchemaVersion ≤ version ∧ version ≤ row.targetSchemaVersion

variable {table : List AppSchemaCompat} {appVersion : JsString} {row : AppSchemaCompat}

/-- The gate lets an app of the table pass exactly within its band. -/
theorem assertSchemaCompatible_ok_iff (hrow : table.find? (fun r => r.appVersion = appVersion) = some row) (version : Nat) :
    assertSchemaCompatible appVersion (.integer version) table = .ok () ↔ row.Contains version := by
  unfold assertSchemaCompatible AppSchemaCompat.Contains
  simp only [hrow]
  split_ifs with hnegative habove hbelow
  · omega
  · simp only [false_iff]
    omega
  · simp only [false_iff]
    omega
  · simp only [true_iff]
    omega

/-- An app whose target is below the marker is refused. -/
theorem assertBootSchemaCompatible_of_ahead (hrow : table.find? (fun r => r.appVersion = appVersion) = some row)
    {onDisk : OnDiskSchema} {version : Nat} (hversion : onDisk.version = .integer version)
    (hahead : row.targetSchemaVersion < version) :
    assertBootSchemaCompatible onDisk appVersion table = .error (schemaAheadOfApp appVersion onDisk.version row) := by
  unfold assertBootSchemaCompatible assertSchemaCompatible
  simp only [hversion, hrow]
  rw [if_neg, if_neg (by omega), if_pos (by omega)]
  rintro ⟨hzero, -⟩
  have hzero : (version : Int) = 0 := Marker.integer.inj hzero
  omega

/-- An app whose band contains the marker passes the gate. -/
theorem assertBootSchemaCompatible_of_contains (hrow : table.find? (fun r => r.appVersion = appVersion) = some row)
    {onDisk : OnDiskSchema} {version : Nat} (hversion : onDisk.version = .integer version) (hband : row.Contains version) :
    assertBootSchemaCompatible onDisk appVersion table = .ok () := by
  unfold assertBootSchemaCompatible
  split_ifs with hgenesis
  · rfl
  · rw [hversion, assertSchemaCompatible_ok_iff hrow]
    exact hband

inductive MigrationDialect where
  | sqlite
  | pg
  deriving DecidableEq

/-- A pre-migration backup; the snapshot is a black box to the runner. -/
structure MigrationBackup (Snap : Type) where
  dialect : MigrationDialect
  snapshot : Snap
  capturedAt : JsString

/-- The lifecycle primitives that the runner orchestrates. -/
inductive MigrationOp (Snap Folder : Type) where
  | backup
  | migrate (migrationsFolder : Folder)
  | restore (backup : MigrationBackup Snap)
  | recordApply (schemaVersion : Nat)
  | readOnDiskSchema

/-- `migrate` answers with the number of migrations newly applied. -/
@[reducible] def MigrationOp.Ret {Snap Folder : Type} : MigrationOp Snap Folder → Type
  | .backup => DbResult (MigrationBackup Snap)
  | .migrate _ => DbResult Nat
  | .restore _ => DbResult Unit
  | .recordApply _ => DbResult Unit
  | .readOnDiskSchema => DbResult OnDiskSchema

/-- The process is gone; nothing catches that. -/
inductive Crash where
  | crash

abbrev MigrationM (Snap Folder : Type) := Program (MigrationOp Snap Folder) MigrationOp.Ret Crash

section engine

variable {Snap Folder : Type}

def MigrationEngine.backup : MigrationM Snap Folder (DbResult (MigrationBackup Snap)) := .perform MigrationOp.backup
def MigrationEngine.migrate (migrationsFolder : Folder) : MigrationM Snap Folder (DbResult Nat) :=
  .perform (MigrationOp.migrate migrationsFolder)
def MigrationEngine.restore (backup : MigrationBackup Snap) : MigrationM Snap Folder (DbResult Unit) :=
  .perform (MigrationOp.restore backup)
def MigrationEngine.recordApply (schemaVersion : Nat) : MigrationM Snap Folder (DbResult Unit) :=
  .perform (MigrationOp.recordApply schemaVersion)
def MigrationEngine.readOnDiskSchema : MigrationM Snap Folder (DbResult OnDiskSchema) :=
  .perform MigrationOp.readOnDiskSchema

end engine

structure MigrationOutcome (Snap : Type) where
  dialect : MigrationDialect
  applied : Nat
  schemaVersion : Nat
  backup : MigrationBackup Snap

inductive MigrationFailureReason where
  /-- could not capture the mandatory backup, never applied -/
  | backup_failed
  /-- apply failed; restored to pre-migration state -/
  | apply_failed_restored
  /-- apply failed and restore failed -/
  | apply_failed_unrestorable
  /-- apply succeeded; the schema-version marker write failed -/
  | record_failed
  deriving DecidableEq

structure MigrationFailure where
  reason : MigrationFailureReason
  dialect : MigrationDialect
  restored : Bool
  message : JsString
  repair : JsString
  cause : DbError
  restoreCause : Option DbError
  deriving DecidableEq

section failures

variable (dialect : MigrationDialect) (cause : DbError)

def backupFailed : MigrationFailure where
  reason := .backup_failed
  dialect := dialect
  restored := false
  message := str "Could not capture the mandatory pre-migration backup; no migration was applied."
  repair := str "Refusing to migrate without a pre-migration backup (§4). Ensure the " ++
    str "operational DB is reachable with free disk space and write permission, " ++
    str "then retry. The database was not modified."
  cause := cause
  restoreCause := none

def applyFailedUnrestorable (restoreCause : DbError) : MigrationFailure where
  reason := .apply_failed_unrestorable
  dialect := dialect
  restored := false
  message := str "Migration failed AND automatic restore from the pre-migration backup failed."
  repair := str "CRITICAL: do NOT start. The operational DB may be in a half-applied " ++
    str "state. Restore it from the most recent external/periodic backup " ++
    str "manually (§16 Backup & Recovery), then retry the migration."
  cause := cause
  restoreCause := some restoreCause

def applyFailedRestored : MigrationFailure where
  reason := .apply_failed_restored
  dialect := dialect
  restored := true
  message := str "Migration failed; the operational DB was restored to its pre-migration state."
  repair := str "Refusing to start with a half-applied schema. The DB was restored from " ++
    str "the pre-migration backup. Fix the failing migration (or upgrade the app " ++
    str "to a compatible build), then retry. Down-migration / restore-from-backup " ++
    str "is the only rollback path — drizzle is forward-only."
  cause := cause
  restoreCause := none

def recordFailed : MigrationFailure where
  reason := .record_failed
  dialect := dialect
  restored := false
  message := str "Migrations applied successfully, but recording the schema-version marker failed."
  repair := str "The schema is correct and the apply is idempotent. Re-run the migration " ++
    str "step to record the schema-version marker (already-applied migrations are " ++
    str "skipped). No restore is needed."
  cause := cause
  restoreCause := none

end failures

variable {Snap Folder : Type}

/-- Back up, apply, restore on a failed apply, and record the marker of the target. -/
def applyMigrations (dialect : MigrationDialect) (migrationsFolder : Folder) (targetSchemaVersion : Nat) :
    MigrationM Snap Folder (Except MigrationFailure (MigrationOutcome Snap)) := do
  match ← MigrationEngine.backup with
  | .error cause => pure (.error (backupFailed dialect cause))
  | .ok backup =>
    match ← MigrationEngine.migrate migrationsFolder with
    | .error cause =>
      match ← MigrationEngine.restore backup with
      | .error restoreCause => pure (.error (applyFailedUnrestorable dialect cause restoreCause))
      | .ok () => pure (.error (applyFailedRestored dialect cause))
    | .ok applied =>
      match ← MigrationEngine.recordApply targetSchemaVersion with
      | .error cause => pure (.error (recordFailed dialect cause))
      | .ok () => pure (.ok ⟨dialect, applied, targetSchemaVersion, backup⟩)

/-- What `openDatabase` throws. -/
inductive BootError where
  | unreadable (cause : DbError)
  | incompatible (refusal : IncompatibleSchema)
  | failed (failure : MigrationFailure)

def SchemaCompatReason.text : SchemaCompatReason → JsString
  | .schema_ahead_of_app => str "schema_ahead_of_app"
  | .schema_below_minimum => str "schema_below_minimum"
  | .unknown_app_version => str "unknown_app_version"
  | .schema_version_unreadable => str "schema_version_unreadable"

def MigrationFailureReason.text : MigrationFailureReason → JsString
  | .backup_failed => str "backup_failed"
  | .apply_failed_restored => str "apply_failed_restored"
  | .apply_failed_unrestorable => str "apply_failed_unrestorable"
  | .record_failed => str "record_failed"

def BootError.message : BootError → JsString
  | .unreadable cause =>
    str "worker composition: could not read the operational-DB schema-version marker: " ++ cause.message
  | .incompatible refusal =>
    str "worker composition: refusing to start — incompatible operational-DB schema " ++
      str "(" ++ refusal.reason.text ++ str "): " ++ refusal.message ++ str " " ++ refusal.repair
  | .failed failure =>
    str "worker composition: genesis migration failed (" ++ failure.reason.text ++ str "): " ++ failure.message

/-- The constants of a worker build: `WORKER_APP_VERSION`, the migrations it ships,
    and `CURRENT_SCHEMA_VERSION`. -/
structure Build (Folder : Type) where
  appVersion : JsString
  migrationsFolder : Folder
  currentSchemaVersion : Nat

def WORKER_APP_VERSION : JsString := str "0.2.0"

/-- The boot of a worker: read the schema state, pass the gate, migrate. -/
def openDatabase (dialect : MigrationDialect) (table : List AppSchemaCompat) (build : Build Folder) :
    MigrationM Snap Folder (Except BootError (MigrationOutcome Snap)) := do
  match ← MigrationEngine.readOnDiskSchema with
  | .error cause => pure (.error (.unreadable cause))
  | .ok onDisk =>
    match assertBootSchemaCompatible onDisk build.appVersion table with
    | .error refusal => pure (.error (.incompatible refusal))
    | .ok () =>
      match ← applyMigrations dialect build.migrationsFolder build.currentSchemaVersion with
      | .error failure => pure (.error (.failed failure))
      | .ok outcome => pure (.ok outcome)

end sow.db.migration
