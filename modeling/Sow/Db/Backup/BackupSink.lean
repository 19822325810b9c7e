import Mathlib.Data.List.Lex
import Mathlib.Data.List.Sort
import Mathlib.Data.Prod.Lex
import Sow.Db.Errors
import Sow.Db.Migrate.Runner
import Sow.Js.Map
import Sow.Js.Number
import Sow.Knowledge.KnowledgeWriter.Revision

open sow.js sow.effect
open sow.db.migration (MigrationDialect)
open sow.knowledge_writer (Sha256)

namespace sow.db.backups

abbrev Bytes : Type := List UInt8

/-- A persisted artifact; its time is a text, and its location a path. -/
structure StoredBackup where
  backupId : JsString
  dialect : MigrationDialect
  createdAt : JsString
  sizeBytes : Nat
  rowDigest : JsString
  location : JsString
  deriving DecidableEq

structure StoredBackupInput where
  backupId : JsString
  dialect : MigrationDialect
  createdAt : JsString
  rowDigest : JsString
  bytes : Bytes

/-- What a file of the directory holds: bytes, the JSON text of a record, or a part of
    such a text. -/
inductive FileContent where
  | bytes (b : Bytes)
  | record (r : StoredBackup)
  | torn
  deriving DecidableEq

/-- The bytes of a file; a text is never read as bytes. -/
def FileContent.raw : FileContent → Bytes
  | .bytes b => b
  | _ => []

abbrev Files : Type := Map JsString FileContent

/-- Why an operation does not return: it throws, or the process ends. -/
inductive Stop where
  | thrown (cause : DriverError)
  | crash
  deriving DecidableEq

/-- The file operations of the sink, on the names of its directory, and the capture of the engine. -/
inductive BackupOp where
  | capture
  | readdir
  | readFile (name : JsString)
  | writeFile (name : JsString) (content : FileContent)
  | rm (name : JsString)
  deriving DecidableEq

/-- A snapshot of the store, with the digest of its rows. -/
structure OpStoreSnapshot where
  bytes : Bytes
  rowDigest : JsString
  deriving DecidableEq

abbrev BackupOp.Ret : BackupOp → Type
  | .capture => DbResult OpStoreSnapshot
  | .readdir => List JsString
  | .readFile _ => FileContent
  | .writeFile _ _ => Unit
  | .rm _ => Unit

abbrev BackupM : Type → Type := Program BackupOp BackupOp.Ret Stop

/-- What the sink takes from outside: the collation keys of `localeCompare`, the paths of the
    directory, the mapping of thrown errors, and the error that `JSON.parse` throws. -/
structure SinkKit where
  collationKey : JsString → List Nat
  location : JsString → JsString
  toDbError : DriverError → JsString → DbError
  syntaxError : DriverError

/-- `try { p } catch (cause) { err(toDbError(cause, message)) }`; a crash is not caught. -/
def guarded {α : Type} (kit : SinkKit) (message : JsString) (p : BackupM (DbResult α)) : BackupM (DbResult α) :=
  p.tryCatch fun stop =>
    match stop with
    | .thrown cause => pure (.error (kit.toDbError cause message))
    | .crash => .throw .crash

def binName (id : JsString) : JsString := id ++ str ".bin"

def metaName (id : JsString) : JsString := id ++ str ".json"

section sink

variable (kit : SinkKit)

/-- The place of a record: by its time, and then by its id. -/
def rank (r : StoredBackup) : List Nat ×ₗ List Nat := toLex (kit.collationKey r.createdAt, kit.collationKey r.backupId)

/-- Newest first. -/
def newestFirst (records : List StoredBackup) : List StoredBackup :=
  records.insertionSort fun a b => rank kit b ≤ rank kit a

/-- Every metadata file is parsed. -/
def readRecords : List JsString → BackupM (List StoredBackup)
  | [] => pure []
  | name :: names => do
    match ← Program.perform (BackupOp.readFile name) with
    | .record r => return r :: (← readRecords names)
    | _ => .throw (.thrown kit.syntaxError)

def list : BackupM (DbResult (List StoredBackup)) :=
  guarded kit (str "failed to list backup artifacts") do
    let names ← Program.perform BackupOp.readdir
    let records ← readRecords kit (names.filter fun name => endsWith name (str ".json"))
    pure (.ok (newestFirst kit records))

def storedOf (record : StoredBackupInput) : StoredBackup where
  backupId := record.backupId
  dialect := record.dialect
  createdAt := record.createdAt
  sizeBytes := record.bytes.length
  rowDigest := record.rowDigest
  location := kit.location (binName record.backupId)

/-- The bytes, then the metadata. -/
def write (record : StoredBackupInput) : BackupM (DbResult StoredBackup) :=
  guarded kit (str "failed to persist backup artifact") do
    Program.perform (BackupOp.writeFile (binName record.backupId) (.bytes record.bytes))
    Program.perform (BackupOp.writeFile (metaName record.backupId) (.record (storedOf kit record)))
    pure (.ok (storedOf kit record))

def read (backupId : JsString) : BackupM (DbResult Bytes) :=
  guarded kit (str "backup " ++ backupId ++ str " not readable") do
    let content ← Program.perform (BackupOp.readFile (binName backupId))
    pure (.ok content.raw)

/-- The bytes, then the metadata, of one artifact after another. -/
def removeAll : List StoredBackup → BackupM Unit
  | [] => pure ()
  | r :: removed => do
    Program.perform (BackupOp.rm (binName r.backupId))
    Program.perform (BackupOp.rm (metaName r.backupId))
    removeAll removed

def prune (keep : Nat) : BackupM (DbResult (List StoredBackup)) := do
  match ← list kit with
  | .error e => pure (.error e)
  | .ok listed =>
    let removed := listed.drop keep
    guarded kit (str "failed to prune old backup artifacts") do
      removeAll removed
      pure (.ok removed)

end sink

def DEFAULT_BACKUP_RETENTION : Nat := 7

structure PeriodicBackupOptions where
  intervalMs : Int
  now : Int
  keep : Option Nat
  force : Bool

inductive PeriodicBackupFailureReason where
  | list_failed
  | capture_failed
  | persist_failed
  | prune_failed
  deriving DecidableEq

structure PeriodicBackupFailure where
  reason : PeriodicBackupFailureReason
  dialect : MigrationDialect
  message : JsString
  repair : JsString
  cause : DbError
  deriving DecidableEq

structure PeriodicBackupOutcome where
  dialect : MigrationDialect
  performed : Bool
  skippedReason : Option JsString
  backup : Option StoredBackup
  pruned : List StoredBackup
  deriving DecidableEq

/-- What a backup takes from outside, besides its sink: the dates and the digest. -/
structure BackupKit extends SinkKit where
  dialect : MigrationDialect
  dates : IsoDates
  sha256 : Sha256

/-- A marker that cannot be read makes a backup due. -/
def isBackupDue (dates : IsoDates) (now : Int) (lastCreatedAt : JsString) (intervalMs : Int) : Bool :=
  match dates.parse lastCreatedAt with
  | none => true
  | some last => now - last ≥ intervalMs

/-- `createdAt.replace(/[:.]/g, "-")` and the first twelve digits of the digest. -/
def makeBackupId (sha256 : Sha256) (createdAt : JsString) (bytes : Bytes) : JsString :=
  let stamp := createdAt.map fun c => if c = unit ':' || c = unit '.' then unit '-' else c
  str "op-" ++ stamp ++ str "-" ++ (sha256 bytes).take 12

section run

variable (kit : BackupKit) (opts : PeriodicBackupOptions)

def backupFailed (reason : PeriodicBackupFailureReason) (message repair : JsString) (cause : DbError) :
    Except PeriodicBackupFailure PeriodicBackupOutcome :=
  .error ⟨reason, kit.dialect, message, repair, cause⟩

/-- The newest artifact is younger than the interval, and nothing forces a backup. -/
def notDue (existing : List StoredBackup) : Bool :=
  !opts.force && existing.head?.any fun latest => !isBackupDue kit.dates opts.now latest.createdAt opts.intervalMs

def backupInput (snapshot : OpStoreSnapshot) : StoredBackupInput :=
  let createdAt := kit.dates.toISOString opts.now
  ⟨makeBackupId kit.sha256 createdAt snapshot.bytes, kit.dialect, createdAt, snapshot.rowDigest, snapshot.bytes⟩

/-- Retention, once the artifact is stored. -/
def retain (stored : StoredBackup) : BackupM (Except PeriodicBackupFailure PeriodicBackupOutcome) := do
  match ← prune kit.toSinkKit (opts.keep.getD DEFAULT_BACKUP_RETENTION) with
  | .error cause =>
    pure (backupFailed kit .prune_failed
      (str "Backup was written, but pruning old backups beyond the retention limit failed.")
      (str "The new backup IS safe. Manually remove the oldest artifacts, or rerun once the backup directory is writable.")
      cause)
  | .ok pruned => pure (.ok ⟨kit.dialect, true, none, some stored, pruned⟩)

/-- Capture and persist. -/
def takeBackup : BackupM (Except PeriodicBackupFailure PeriodicBackupOutcome) := do
  match ← Program.perform BackupOp.capture with
  | .error cause =>
    pure (backupFailed kit .capture_failed (str "Could not capture the operational DB snapshot.")
      (str "Ensure the operational DB is reachable and not locked, then retry. No backup was written.") cause)
  | .ok snapshot =>
    match ← write kit.toSinkKit (backupInput kit opts snapshot) with
    | .error cause =>
      pure (backupFailed kit .persist_failed (str "Captured the operational DB but could not persist the backup.")
        (str "Ensure the backup directory is writable with free disk space, then retry.") cause)
    | .ok stored => retain kit opts stored

/-- Cadence, capture, persistence and retention, in this order. -/
def runPeriodicBackup : BackupM (Except PeriodicBackupFailure PeriodicBackupOutcome) := do
  match ← list kit.toSinkKit with
  | .error cause =>
    pure (backupFailed kit .list_failed (str "Could not read existing backups to decide whether one is due.")
      (str "Ensure the backup directory is readable, then retry. No backup was taken.") cause)
  | .ok existing =>
    if notDue kit opts existing then pure (.ok ⟨kit.dialect, false, some (str "not_due"), none, []⟩)
    else takeBackup kit opts

end run

/-- A store rebuilt from bytes, with what verifies it. -/
structure RebuiltStore (S : Type) where
  store : S
  bytes : Bytes
  rowDigest : JsString

structure RestoreEngine (S : Type) where
  dialect : MigrationDialect
  rebuild : Bytes → DbResult (RebuiltStore S)

structure RestoreVerification where
  bytesMatched : Bool
  rowDigestMatched : Bool
  deriving DecidableEq

inductive RestoreFailureReason where
  | no_backup_available
  | read_failed
  | rebuild_failed
  | integrity_check_failed
  deriving DecidableEq

structure RestoreFailure where
  reason : RestoreFailureReason
  dialect : MigrationDialect
  message : JsString
  repair : JsString
  verification : Option RestoreVerification
  cause : Option DbError
  deriving DecidableEq

structure RestoreOutcome (S : Type) where
  dialect : MigrationDialect
  store : S
  backup : StoredBackup
  verification : RestoreVerification

variable {S : Type} (kit : SinkKit) (engine : RestoreEngine S)

/-- The artifact of an id, or the newest. -/
def targetOf (listed : List StoredBackup) (backupId : Option JsString) : Option StoredBackup :=
  match backupId with
  | some id => listed.find? (·.backupId = id)
  | none => listed.head?

/-- The gate: the rows of the rebuilt store carry the digest that the backup recorded. -/
def verifyRebuilt (target : StoredBackup) (bytes : Bytes) (rebuilt : RebuiltStore S) :
    Except RestoreFailure (RestoreOutcome S) :=
  let verification := ⟨decide (rebuilt.bytes = bytes), decide (rebuilt.rowDigest = target.rowDigest)⟩
  if rebuilt.rowDigest = target.rowDigest then .ok ⟨engine.dialect, rebuilt.store, target, verification⟩
  else
    .error {
      reason := .integrity_check_failed
      dialect := engine.dialect
      message := str "Restored operational store diverges from backup \"" ++ target.backupId ++
        str "\"'s recorded integrity digest — refusing to return a corrupt store."
      repair := str "Do NOT use this restore. Restore a different (earlier) backup and re-verify, or run the install doctor (§13/§16)."
      verification := some verification
      cause := none }

def restoreFromBackup (backupId : Option JsString) : BackupM (Except RestoreFailure (RestoreOutcome S)) := do
  match ← list kit with
  | .error cause =>
    pure (.error ⟨.read_failed, engine.dialect, str "Could not list operational-DB backups to restore from.",
      str "Ensure the backup directory is readable, then retry.", none, some cause⟩)
  | .ok listed =>
    match targetOf listed backupId with
    | none =>
      let message := match backupId with
        | some id => str "No operational-DB backup with id \"" ++ id ++ str "\" was found."
        | none => str "No operational-DB backup is available to restore from."
      pure (.error ⟨.no_backup_available, engine.dialect, message,
        str "Take a periodic backup first (runPeriodicBackup), or point the restore at a valid backup directory / artifact id.",
        none, none⟩)
    | some target =>
      match ← read kit target.backupId with
      | .error cause =>
        pure (.error ⟨.read_failed, engine.dialect,
          str "Could not read backup artifact \"" ++ target.backupId ++ str "\".",
          str "Verify the artifact exists and is readable, or choose another backup.", none, some cause⟩)
      | .ok bytes =>
        match engine.rebuild bytes with
        | .error cause =>
          pure (.error ⟨.rebuild_failed, engine.dialect,
            str "Could not rebuild an operational store from backup \"" ++ target.backupId ++ str "\".",
            str "The artifact may be truncated/corrupt. Restore an earlier backup, or run the install doctor (§13).",
            none, some cause⟩)
        | .ok rebuilt => pure (verifyRebuilt engine target bytes rebuilt)

end sow.db.backups
