import Sow.Effect.Wp
import Sow.Db.Migrate.Runner

open sow.js sow.effect

namespace sow.db.migration

/-- An engine, by what its primitives do to the database when they take effect: a
    migration brings the level of the database up to what the folder produces, and a
    snapshot restores the database it was taken of. -/
structure Engine (Db Snap Folder : Type) where
  dialect : MigrationDialect
  fresh : Db
  onDisk : Db → OnDiskSchema
  /-- The schema version that the migrations applied to the database produce. -/
  level : Db → Nat
  /-- The schema version that the migrations of the folder produce. -/
  produces : Folder → Nat
  capture : Db → Snap
  load : Snap → Db
  pending : Folder → Db → Nat
  migrate : Folder → Db → Db
  record : Nat → Db → Db
  fresh_version : (onDisk fresh).version = .integer 0
  load_capture : ∀ db, load (capture db) = db
  level_migrate : ∀ folder db, level (migrate folder db) = max (level db) (produces folder)
  version_migrate : ∀ folder db, (onDisk (migrate folder db)).version = (onDisk db).version
  level_record : ∀ version db, level (record version db) = level db
  version_record : ∀ version db, (onDisk (record version db)).version = .integer version

/-- What becomes of a call. A primitive that fails, or during which the process
    crashes, has taken effect as a whole or not at all. -/
inductive Fate where
  | answers (now : JsString)
  | faults (cause : DbError) (landed : Bool)
  | crashes (landed : Bool)

variable {Db Snap Folder : Type}

def Engine.answer (E : Engine Db Snap Folder) (db : Db) (now : JsString) : (op : MigrationOp Snap Folder) → op.Ret
  | .backup => .ok ⟨E.dialect, E.capture db, now⟩
  | .migrate folder => .ok (E.pending folder db)
  | .restore _ => .ok ()
  | .recordApply _ => .ok ()
  | .readOnDiskSchema => .ok (E.onDisk db)

def failing (cause : DbError) : (op : MigrationOp Snap Folder) → op.Ret
  | .backup => .error cause
  | .migrate _ => .error cause
  | .restore _ => .error cause
  | .recordApply _ => .error cause
  | .readOnDiskSchema => .error cause

def Engine.effect (E : Engine Db Snap Folder) (db : Db) : MigrationOp Snap Folder → Db
  | .backup => db
  | .migrate folder => E.migrate folder db
  | .restore backup => E.load backup.snapshot
  | .recordApply version => E.record version db
  | .readOnDiskSchema => db

def Engine.handler (E : Engine Db Snap Folder) : Handler (MigrationOp Snap Folder) MigrationOp.Ret Crash Db Fate where
  exec db op fate := match fate with
    | .answers now => (.ok (E.answer db now op), E.effect db op)
    | .faults cause landed => (.ok (failing cause op), if landed then E.effect db op else db)
    | .crashes landed => (.error .crash, if landed then E.effect db op else db)

/-- An app of the table: a build whose schema version is the target of its row, and
    is what its migrations produce. -/
structure App (E : Engine Db Snap Folder) (table : List AppSchemaCompat) extends Build Folder where
  row : AppSchemaCompat
  found : table.find? (fun r => r.appVersion = appVersion) = some row
  target : row.targetSchemaVersion = currentSchemaVersion
  ships : E.produces migrationsFolder = currentSchemaVersion

variable {E : Engine Db Snap Folder} {table : List AppSchemaCompat}

/-- How a boot may end, and what it leaves. -/
inductive Ends (app : App E table) (db : Db) : Except Crash (Except BootError (MigrationOutcome Snap)) → Db → Prop where
  | untouched (r) (hfailed : ∀ outcome, r ≠ .ok (.ok outcome)) : Ends app db r db
  | crashed_migrated : Ends app db (.error .crash) (E.migrate app.migrationsFolder db)
  | unrestorable (dialect cause restoreCause) :
      Ends app db (.ok (.error (.failed (applyFailedUnrestorable dialect cause restoreCause)))) (E.migrate app.migrationsFolder db)
  | unrecorded (dialect cause) :
      Ends app db (.ok (.error (.failed (recordFailed dialect cause)))) (E.migrate app.migrationsFolder db)
  | crashed_recorded : Ends app db (.error .crash) (E.record app.currentSchemaVersion (E.migrate app.migrationsFolder db))
  | recorded (dialect cause) : Ends app db (.ok (.error (.failed (recordFailed dialect cause))))
      (E.record app.currentSchemaVersion (E.migrate app.migrationsFolder db))
  | completed (outcome) (hversion : outcome.schemaVersion = app.currentSchemaVersion) :
      Ends app db (.ok (.ok outcome)) (E.record app.currentSchemaVersion (E.migrate app.migrationsFolder db))

/-- The rule of a call: it takes effect and answers, or fails or crashes with or
    without its effect. -/
theorem wp_call {α : Type} {op : MigrationOp Snap Folder} {f : op.Ret → MigrationM Snap Folder α}
    {Q : Except Crash α → Db → Prop} {db : Db}
    (hanswers : ∀ now, wp E.handler (fun _ _ => True) (f (E.answer db now op)) Q (E.effect db op))
    (hfaults : ∀ cause db', db' = db ∨ db' = E.effect db op → wp E.handler (fun _ _ => True) (f (failing cause op)) Q db')
    (hcrashes : ∀ db', db' = db ∨ db' = E.effect db op → Q (.error .crash) db') :
    wp E.handler (fun _ _ => True) (.perform op >>= f) Q db := by
  rw [wp_bind, wp_perform]
  intro fate _
  cases fate with
  | answers now => exact hanswers now
  | faults cause landed =>
    cases landed with
    | false => exact hfaults cause db (.inl rfl)
    | true => exact hfaults cause _ (.inr rfl)
  | crashes landed =>
    cases landed with
    | false => exact hcrashes db (.inl rfl)
    | true => exact hcrashes _ (.inr rfl)

/-- What a boot ends with when its migrations have ended so. -/
def bootOutcome : Except Crash (Except MigrationFailure (MigrationOutcome Snap)) →
    Except Crash (Except BootError (MigrationOutcome Snap))
  | .error e => .error e
  | .ok (.error failure) => .ok (.error (.failed failure))
  | .ok (.ok outcome) => .ok (.ok outcome)

theorem wp_applyMigrations (app : App E table) (db : Db) :
    wp E.handler (fun _ _ => True) (applyMigrations E.dialect app.migrationsFolder app.currentSchemaVersion)
      (fun r db' => Ends app db (bootOutcome r) db') db := by
  unfold applyMigrations
  apply wp_call
  case hfaults =>
    rintro cause db' (rfl | rfl)
    · exact .untouched _ fun _ h => nomatch h
    · exact .untouched _ fun _ h => nomatch h
  case hcrashes =>
    rintro db' (rfl | rfl)
    · exact .untouched _ fun _ h => nomatch h
    · exact .untouched _ fun _ h => nomatch h
  intro now
  apply wp_call
  case hanswers =>
    intro _
    apply wp_call
    · intro _
      exact .completed _ rfl
    · rintro cause db' (rfl | rfl)
      · exact .unrecorded _ _
      · exact .recorded _ _
    · rintro db' (rfl | rfl)
      · exact .crashed_migrated
      · exact .crashed_recorded
  case hfaults =>
    intro cause db' hdb'
    -- The restore brings back the database of the backup, whether or not the apply landed.
    have hload : E.load (E.capture db) = db := E.load_capture db
    apply wp_call
    · intro _
      change Ends app db _ (E.load (E.capture db))
      rw [hload]
      exact .untouched _ fun _ h => nomatch h
    · rintro restoreCause db'' (rfl | rfl)
      · rcases hdb' with rfl | rfl
        · exact .untouched _ fun _ h => nomatch h
        · exact .unrestorable _ _ _
      · change Ends app db _ (E.load (E.capture db))
        rw [hload]
        exact .untouched _ fun _ h => nomatch h
    · rintro db'' (rfl | rfl)
      · rcases hdb' with rfl | rfl
        · exact .untouched _ fun _ h => nomatch h
        · exact .crashed_migrated
      · change Ends app db _ (E.load (E.capture db))
        rw [hload]
        exact .untouched _ fun _ h => nomatch h
  case hcrashes =>
    rintro db' (rfl | rfl)
    · exact .untouched _ fun _ h => nomatch h
    · exact .crashed_migrated

/-- One boot, whatever fails and wherever it crashes. -/
theorem wp_openDatabase (app : App E table) (db : Db) :
    wp E.handler (fun _ _ => True) (openDatabase E.dialect table app.toBuild) (Ends app db) db := by
  unfold openDatabase
  apply wp_call
  case hfaults =>
    rintro cause db' (rfl | rfl)
    · exact .untouched _ fun _ h => nomatch h
    · exact .untouched _ fun _ h => nomatch h
  case hcrashes =>
    rintro db' (rfl | rfl)
    · exact .untouched _ fun _ h => nomatch h
    · exact .untouched _ fun _ h => nomatch h
  intro now
  simp only [Engine.answer]
  cases assertBootSchemaCompatible (E.onDisk db) app.appVersion table with
  | error refusal => exact .untouched _ fun _ h => nomatch h
  | ok =>
    rw [wp_bind]
    refine wp.mono (wp_applyMigrations app db) fun r db' hends => ?_
    rcases r with e | failure | outcome
    · exact hends
    · exact hends
    · exact hends

/-- The rule of a call that nothing befalls. -/
theorem wp_call_answers {α : Type} {op : MigrationOp Snap Folder} {f : op.Ret → MigrationM Snap Folder α}
    {Q : Except Crash α → Db → Prop} {db : Db}
    (hanswers : ∀ now, wp E.handler (fun _ fate => ∃ now, fate = .answers now) (f (E.answer db now op)) Q (E.effect db op)) :
    wp E.handler (fun _ fate => ∃ now, fate = .answers now) (.perform op >>= f) Q db := by
  rw [wp_bind, wp_perform]
  rintro fate ⟨now, rfl⟩
  exact hanswers now

/-- A boot that passes the gate, and that nothing befalls, records its target. -/
theorem wp_openDatabase_answers (app : App E table) (db : Db)
    (hgate : assertBootSchemaCompatible (E.onDisk db) app.appVersion table = .ok ()) :
    wp E.handler (fun _ fate => ∃ now, fate = .answers now) (openDatabase E.dialect table app.toBuild)
      (fun r db' => ∃ outcome, r = .ok (.ok outcome) ∧ outcome.schemaVersion = app.currentSchemaVersion ∧
        db' = E.record app.currentSchemaVersion (E.migrate app.migrationsFolder db)) db := by
  unfold openDatabase
  apply wp_call_answers
  intro now
  simp only [Engine.answer, hgate]
  unfold applyMigrations
  rw [wp_bind]
  apply wp_call_answers
  intro now
  apply wp_call_answers
  intro _
  apply wp_call_answers
  intro _
  exact ⟨_, rfl, rfl, rfl⟩

/-- A boot of an app, and what becomes of its calls. -/
structure Boot (E : Engine Db Snap Folder) (table : List AppSchemaCompat) where
  app : App E table
  fates : Nat → MigrationOp Snap Folder → Fate

def Boot.run (boot : Boot E table) (db : Db) : Except Crash (Except BootError (MigrationOutcome Snap)) × Db :=
  E.handler.run boot.fates 0 (openDatabase E.dialect table boot.app.toBuild) db

/-- The boot comes to a call of `migrate`. -/
def Boot.RunsMigrate (boot : Boot E table) (db : Db) : Prop :=
  ∃ folder k w, Passes (E.handler.scripted boot.fates) (openDatabase E.dialect table boot.app.toBuild) (db, 0)
    (.call (.migrate folder) k) w

/-- No call of the boot fails, and the process does not crash. -/
def Boot.FaultFree (boot : Boot E table) : Prop := ∀ n op, ∃ now, boot.fates n op = .answers now

/-- The database after a sequence of boots, each of them on what the last one left. -/
def history (E : Engine Db Snap Folder) (boots : List (Boot E table)) : Db :=
  boots.foldl (fun db boot => (boot.run db).2) E.fresh

/-- The errors after which the migrations may have been applied. -/
def BootError.MayHaveApplied : BootError → Prop
  | .failed failure => failure.reason = .record_failed ∨ failure.reason = .apply_failed_unrestorable
  | .unreadable _ => False
  | .incompatible _ => False

theorem Boot.ends (boot : Boot E table) (db : Db) : Ends boot.app db (boot.run db).1 (boot.run db).2 :=
  (wp_openDatabase boot.app db).run (fun _ _ => trivial) 0

/-- The marker is a schema version that the applied migrations cover. -/
def MarkerCovered (E : Engine Db Snap Folder) (db : Db) : Prop :=
  ∃ version : Nat, (E.onDisk db).version = .integer version ∧ version ≤ E.level db

theorem MarkerCovered.migrate {db : Db} (h : MarkerCovered E db) (folder : Folder) : MarkerCovered E (E.migrate folder db) := by
  obtain ⟨version, hversion, hle⟩ := h
  refine ⟨version, by rw [E.version_migrate, hversion], ?_⟩
  rw [E.level_migrate]
  omega

theorem markerCovered_record (app : App E table) (db : Db) :
    MarkerCovered E (E.record app.currentSchemaVersion (E.migrate app.migrationsFolder db)) := by
  refine ⟨app.currentSchemaVersion, E.version_record .., ?_⟩
  rw [E.level_record, E.level_migrate, app.ships]
  omega

theorem MarkerCovered.run {db : Db} (h : MarkerCovered E db) (boot : Boot E table) : MarkerCovered E (boot.run db).2 := by
  have hends := boot.ends db
  generalize boot.run db = ending at hends ⊢
  obtain ⟨r, db'⟩ := ending
  cases hends with
  | untouched => exact h
  | crashed_migrated => exact h.migrate _
  | unrestorable => exact h.migrate _
  | unrecorded => exact h.migrate _
  | crashed_recorded => exact markerCovered_record ..
  | recorded => exact markerCovered_record ..
  | completed => exact markerCovered_record ..

theorem markerCovered_history (boots : List (Boot E table)) : MarkerCovered E (history E boots) := by
  unfold history
  have hfresh : MarkerCovered E E.fresh := ⟨0, E.fresh_version, by omega⟩
  generalize E.fresh = db at hfresh
  induction boots generalizing db with
  | nil => exact hfresh
  | cons boot boots ih => exact ih _ (hfresh.run boot)

/-- A boot that the gate refuses makes no further call. -/
theorem Boot.not_runsMigrate_of_refused (boot : Boot E table) {db : Db} {refusal : IncompatibleSchema}
    (hgate : assertBootSchemaCompatible (E.onDisk db) boot.app.appVersion table = .error refusal) :
    ¬ boot.RunsMigrate db := by
  rintro ⟨folder, k, w, hpasses⟩
  cases hpasses with
  | step rest =>
    revert rest
    simp only [Handler.scripted, Engine.handler]
    cases boot.fates 0 .readOnDiskSchema with
    | answers now =>
      simp only [Program.ofExcept, Program.bind, Engine.answer, hgate]
      intro rest
      cases rest
    | faults cause landed =>
      intro rest
      cases rest
    | crashes landed =>
      intro rest
      cases rest

/-- What the boot migration guarantees of a database it has been left with. -/
structure SafeAndRecoverable (E : Engine Db Snap Folder) (table : List AppSchemaCompat) (db : Db) : Prop where
  marker_le : ∃ version : Nat, (E.onDisk db).version = .integer version ∧ version ≤ E.level db
  no_downgrade : ∀ (boot : Boot E table) (version : Nat), (E.onDisk db).version = .integer version →
    boot.app.row.targetSchemaVersion < version → ¬ boot.RunsMigrate db
  error_frame : ∀ (boot : Boot E table) (e : BootError), (boot.run db).1 = .ok (.error e) → ¬ e.MayHaveApplied →
    (boot.run db).2 = db
  recovers : ∀ (boot : Boot E table) (version : Nat), (E.onDisk db).version = .integer version →
    boot.app.row.Contains version → boot.FaultFree →
    ∃ outcome, (boot.run db).1 = .ok (.ok outcome) ∧ outcome.schemaVersion = boot.app.row.targetSchemaVersion ∧
      (E.onDisk (boot.run db).2).version = .integer boot.app.row.targetSchemaVersion

/-- Boot migration is safe and recoverable over any sequence of boots, whatever fails
    and wherever they crash. -/
theorem applyMigrations_safe (E : Engine Db Snap Folder) (table : List AppSchemaCompat) (boots : List (Boot E table)) :
    SafeAndRecoverable E table (history E boots) := by
  refine ⟨markerCovered_history boots, ?_, ?_, ?_⟩
  · intro boot version hversion hbelow
    exact boot.not_runsMigrate_of_refused (assertBootSchemaCompatible_of_ahead boot.app.found hversion hbelow)
  · intro boot e he hnot
    have hends := boot.ends (history E boots)
    generalize boot.run (history E boots) = ending at hends he ⊢
    obtain ⟨r, db'⟩ := ending
    obtain rfl : r = .ok (.error e) := he
    cases hends with
    | untouched => rfl
    | unrestorable => exact absurd (.inr rfl) hnot
    | unrecorded => exact absurd (.inl rfl) hnot
    | recorded => exact absurd (.inl rfl) hnot
  · intro boot version hversion hband hfree
    have hgate := assertBootSchemaCompatible_of_contains boot.app.found hversion hband
    obtain ⟨outcome, hok, hschema, hleft⟩ := (wp_openDatabase_answers boot.app _ hgate).run hfree 0
    refine ⟨outcome, hok, by rw [hschema, boot.app.target], ?_⟩
    rw [Boot.run, hleft, E.version_record, boot.app.target]

section ledger

/-- A database that counts its migrations. -/
structure Ledger where
  marker : Nat
  applied : Nat
  deriving DecidableEq

def ledgerEngine : Engine Ledger Ledger Nat where
  dialect := .sqlite
  fresh := ⟨0, 0⟩
  onDisk db := ⟨.integer db.marker, db.applied ≠ 0⟩
  level := Ledger.applied
  produces := id
  capture := id
  load := id
  pending folder db := folder - db.applied
  migrate folder db := { db with applied := max db.applied folder }
  record version db := { db with marker := version }
  fresh_version := rfl
  load_capture _ := rfl
  level_migrate _ _ := rfl
  version_migrate _ _ := rfl
  level_record _ _ := rfl
  version_record _ _ := rfl

/-- The worker of this repository is an app of its own table. -/
def worker : App ledgerEngine APP_SCHEMA_COMPAT_TABLE where
  appVersion := WORKER_APP_VERSION
  migrationsFolder := CURRENT_SCHEMA_VERSION
  currentSchemaVersion := CURRENT_SCHEMA_VERSION
  row := ⟨str "0.2.0", 2, 1⟩
  found := by decide
  target := rfl
  ships := rfl

/-- A boot that nothing befalls brings a fresh database to the current version. -/
example : history ledgerEngine [⟨worker, fun _ _ => .answers []⟩] = ⟨2, 2⟩ := by decide

end ledger

end sow.db.migration
