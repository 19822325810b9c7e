import Sow.Db.Backup.RunSpec

open sow.js sow.effect
open sow.knowledge_writer (Sha256)

namespace sow.db.backups

variable {S : Type} (M : Machine S) (kit : BackupKit)

/-- A call of `runPeriodicBackup`: its options, the store at that time, and what becomes of each operation. -/
structure Occasion (S : Type) where
  opts : PeriodicBackupOptions
  live : S
  fates : Nat → BackupOp → Fate

/-- The directory, with the artifacts that were completed in it, oldest first. -/
structure SinkState (S : Type) where
  files : Files
  completed : List (Artifact S)

def SinkState.empty : SinkState S := ⟨Map.empty, []⟩

def outcome (s : SinkState S) (o : Occasion S) : Except Stop (Except PeriodicBackupFailure PeriodicBackupOutcome) × World :=
  (M.ports o.live).run o.fates 0 (runPeriodicBackup kit o.opts) ⟨s.files, []⟩

/-- The sink after a run; the artifacts completed by it hold the store of that time. -/
def after (s : SinkState S) (o : Occasion S) : SinkState S where
  files := (outcome M kit s o).2.files
  completed := s.completed ++ (outcome M kit s o).2.written.map (·, o.live)

/-- A run that takes a backup takes it later than all that are listed, in the order of the sink
    and under an id of its own, and no metadata is left half written. -/
structure Orderly (s : SinkState S) (o : Occasion S) : Prop where
  untorn : ∀ n op, Untorn op (o.fates n op)
  later : notDue kit o.opts (listed M kit.toSinkKit s.files) = false → ∀ r ∈ listed M kit.toSinkKit s.files,
    rank kit.toSinkKit r < rank kit.toSinkKit (artifactOf M kit o.opts o.live) ∧
      r.backupId ≠ (artifactOf M kit o.opts o.live).backupId

/-- Every run of a history is orderly. -/
def OrderlyRuns (s : SinkState S) : List (Occasion S) → Prop
  | [] => True
  | o :: runs => Orderly M kit s o ∧ OrderlyRuns (after M kit s o) runs

/-- The last `keep` of the completed artifacts. -/
def SinkState.kept (s : SinkState S) (keep : Nat) : List (Artifact S) := s.completed.drop (s.completed.length - keep)

/-- The newest `keep` artifacts are complete, under ids of their own, and a restore without an id
    gives back what the last of them holds. -/
structure Restorable (keep : Nat) (s : SinkState S) : Prop where
  count : (s.kept keep).length = min keep s.completed.length
  complete : ∀ a ∈ s.kept keep, Complete M s.files a
  distinct : ((s.kept keep).map fun a => a.1.backupId).Nodup
  restores : ∀ a, s.completed.getLast? = some a → ∀ live,
    ((M.ports live).run (fun _ _ => .proceeds) 0 (restoreFromBackup kit.toSinkKit M.engine none) ⟨s.files, []⟩).1 =
      .ok (.ok ⟨M.engine.dialect, a.2, a.1, ⟨true, true⟩⟩)

section runs

variable {M kit} {keep : Nat} {s : SinkState S} {o : Occasion S} {completed : List (Artifact S)} {a : Artifact S}

theorem sound_empty : Sound M kit.toSinkKit keep (SinkState.empty : SinkState S).files (SinkState.empty : SinkState S).completed where
  metas := by
    intro name content hget _
    cases hget
  rising := List.Pairwise.nil
  kept := by
    intro a ha
    exact absurd (List.mem_of_mem_drop ha) List.not_mem_nil

theorem ends_outcome (h : Sound M kit.toSinkKit keep s.files s.completed) (hkeep : 1 ≤ keep)
    (hopts : o.opts.keep.getD DEFAULT_BACKUP_RETENTION = keep) (ho : Orderly M kit s o) :
    Ends M kit.toSinkKit keep s.completed (artifactOf M kit o.opts o.live, o.live) [] (outcome M kit s o).1 (outcome M kit s o).2 :=
  (runPeriodicBackup_wp (w := ⟨s.files, []⟩) h hkeep hopts ho.later).run ho.untorn 0

/-- One run keeps the sink sound. -/
theorem sound_after (h : Sound M kit.toSinkKit keep s.files s.completed) (hkeep : 1 ≤ keep)
    (hopts : o.opts.keep.getD DEFAULT_BACKUP_RETENTION = keep) (ho : Orderly M kit s o) :
    Sound M kit.toSinkKit keep (after M kit s o).files (after M kit s o).completed := by
  unfold after
  cases ends_outcome h hkeep hopts ho with
  | none sound unwritten report =>
    rw [unwritten, List.map_nil, List.append_nil]
    exact sound
  | one sound wrote report =>
    rw [wrote]
    exact sound

/-- And so do all runs of a history. -/
theorem sound_foldl {runs : List (Occasion S)} (h : Sound M kit.toSinkKit keep s.files s.completed) (hkeep : 1 ≤ keep)
    (hopts : ∀ o ∈ runs, o.opts.keep.getD DEFAULT_BACKUP_RETENTION = keep) (hruns : OrderlyRuns M kit s runs) :
    Sound M kit.toSinkKit keep (runs.foldl (after M kit) s).files (runs.foldl (after M kit) s).completed := by
  induction runs generalizing s with
  | nil => exact h
  | cons o runs ih =>
    refine ih (sound_after h hkeep (hopts o List.mem_cons_self) hruns.1) ?_ hruns.2
    exact fun other hother => hopts other (List.mem_cons_of_mem _ hother)

/-- The first part of a history is a history, and the rest one from where it ends. -/
theorem orderlyRuns_append {runs later : List (Occasion S)} :
    OrderlyRuns M kit s (runs ++ later) ↔ OrderlyRuns M kit s runs ∧ OrderlyRuns M kit (runs.foldl (after M kit) s) later := by
  induction runs generalizing s with
  | nil => exact ⟨fun h => ⟨trivial, h⟩, fun h => h.2⟩
  | cons o runs ih => rw [List.cons_append, OrderlyRuns, OrderlyRuns, ih, and_assoc, List.foldl_cons]

/-- Kept artifacts have distinct names. -/
theorem Sound.distinct_kept (h : Sound M kit.toSinkKit keep s.files s.completed) :
    ((s.kept keep).map fun a => a.1.backupId).Nodup := by
  have hrising : (s.kept keep).Pairwise fun a b => rank kit.toSinkKit a.1 < rank kit.toSinkKit b.1 :=
    h.rising.sublist (List.drop_sublist _ _)
  refine List.pairwise_map.mpr (hrising.imp_of_mem fun {a b} ha hb hlt heq => ?_)
  have hrecord := (h.kept a ha).record
  rw [heq, (h.kept b hb).record] at hrecord
  rw [FileContent.record.inj (Option.some.inj hrecord)] at hlt
  exact lt_irrefl _ hlt

/-- Undisturbed, a restore gives back the newest artifact. -/
theorem restoreFromBackup_wp {w : World} {live : S} (h : Sound M kit.toSinkKit keep w.files completed) (hkeep : 1 ≤ keep)
    (hlast : completed.getLast? = some a) :
    wp (M.ports live) (fun _ fate => fate = .proceeds) (restoreFromBackup kit.toSinkKit M.engine none)
      (fun r _ => r = .ok (.ok ⟨M.engine.dialect, a.2, a.1, ⟨true, true⟩⟩)) w := by
  have hquiet : ¬ Disturbed fun (_ : BackupOp) (fate : Fate) => fate = .proceeds := by
    rintro ⟨op, fate, hfate, hne⟩
    exact hne hfate
  obtain ⟨hhead, hcomplete⟩ := h.head?_listed hkeep hlast
  unfold restoreFromBackup
  rw [wp_bind]
  refine list_wp h ?_ (fun hdisturbed => absurd hdisturbed hquiet) (fun hdisturbed => absurd hdisturbed hquiet)
  simp only [targetOf, hhead]
  rw [wp_bind]
  unfold read
  refine guarded_wp ?_
  rw [wp_bind, wp_perform]
  rintro fate rfl
  have hexec : (M.ports live).exec w (.readFile (binName a.1.backupId)) .proceeds = (.ok (.bytes (M.capture a.2).bytes), w) := by
    simp only [Machine.ports, hcomplete.bin, Fate.answer]
  rw [hexec]
  simp only [wp_pure, FileContent.raw, M.rebuild_capture]
  unfold verifyRebuilt
  rw [if_pos hcomplete.digest.symm]
  simp only [hcomplete.digest, decide_true]

theorem Sound.restorable (h : Sound M kit.toSinkKit keep s.files s.completed) (hkeep : 1 ≤ keep) : Restorable M kit keep s where
  count := by
    unfold SinkState.kept
    rw [List.length_drop]
    omega
  complete := h.kept
  distinct := h.distinct_kept
  restores := fun a hlast live => (restoreFromBackup_wp (w := ⟨s.files, []⟩) h hkeep hlast).run (fun _ _ => rfl) 0

end runs

/-- At every moment of a history of orderly runs the sink is restorable, and a run that reports
    a backup has just completed it. -/
theorem runPeriodicBackup_restorable {keep : Nat} (hkeep : 1 ≤ keep) {runs : List (Occasion S)}
    (hopts : ∀ o ∈ runs, o.opts.keep.getD DEFAULT_BACKUP_RETENTION = keep) (hruns : OrderlyRuns M kit SinkState.empty runs)
    {before later : List (Occasion S)} (hsplit : runs = before ++ later) :
    Restorable M kit keep (before.foldl (after M kit) SinkState.empty) ∧
      ∀ o rest out, later = o :: rest →
        (outcome M kit (before.foldl (after M kit) SinkState.empty) o).1 = .ok (.ok out) → out.performed = true →
        ∃ r, out.backup = some r ∧
          (after M kit (before.foldl (after M kit) SinkState.empty) o).completed =
            (before.foldl (after M kit) SinkState.empty).completed ++ [(r, o.live)] ∧
          Complete M (after M kit (before.foldl (after M kit) SinkState.empty) o).files (r, o.live) := by
  rw [hsplit] at hruns hopts
  obtain ⟨hbefore, hlater⟩ := orderlyRuns_append.mp hruns
  have hsound := sound_foldl sound_empty hkeep (fun o ho => hopts o (List.mem_append_left _ ho)) hbefore
  generalize before.foldl (after M kit) SinkState.empty = s at hsound hlater
  refine ⟨hsound.restorable hkeep, ?_⟩
  rintro o rest out rfl hout hperformed
  have hkeepOf := hopts o (List.mem_append_right _ List.mem_cons_self)
  have hafter := sound_after hsound hkeep hkeepOf hlater.1
  cases ends_outcome hsound hkeep hkeepOf hlater.1 with
  | none sound unwritten report =>
    rw [report out hout] at hperformed
    cases hperformed
  | one sound wrote report =>
    have hcompleted : (after M kit s o).completed = s.completed ++ [(artifactOf M kit o.opts o.live, o.live)] := by
      unfold after
      rw [wrote]
      rfl
    refine ⟨_, report out hout, hcompleted, ?_⟩
    refine (hafter.head?_listed hkeep ?_).2
    rw [hcompleted, List.getLast?_concat]

section firstMillis

/-- A store that is its own image. -/
def imageMachine : Machine Bytes where
  readdir fs := fs.keys
  readdir_perm _ := List.Perm.refl _
  missing := ⟨[some (str "ENOENT")], some (str "no such file or directory")⟩
  captureError cause := ⟨.unknown, str "failed to serialize operational DB for backup", some cause⟩
  capture live := ⟨live, live.map fun b => b.toUInt16⟩
  engine := ⟨.sqlite, fun bytes => .ok ⟨bytes, bytes, bytes.map fun b => b.toUInt16⟩⟩
  rebuild_capture _ := rfl

/-- Clock readings of one and of two milliseconds. -/
def firstMillis : BackupKit where
  collationKey s := s.map UInt16.toNat
  location name := str "/backups/" ++ name
  toDbError cause message := ⟨.unknown, message, some cause⟩
  syntaxError := ⟨[], some (str "Unexpected end of JSON input")⟩
  dialect := .sqlite
  dates.parse text :=
    if text = str "1970-01-01T00:00:00.001Z" then some 1
    else if text = str "1970-01-01T00:00:00.002Z" then some 2 else none
  dates.toISOString ms := if ms = 1 then str "1970-01-01T00:00:00.001Z" else str "1970-01-01T00:00:00.002Z"
  sha256 bytes := if bytes = [1] then str "4bf5122f3445" else str "dbc1b4c900ff"

/-- A forced run that keeps one artifact. -/
def forcedRun (now : Int) (live : Bytes) : Occasion Bytes := ⟨⟨1, now, some 1, true⟩, live, fun _ _ => .proceeds⟩

theorem untorn_forcedRun (now : Int) (live : Bytes) : ∀ n op, Untorn op ((forcedRun now live).fates n op) := by
  intro n op
  cases op with
  | writeFile name content =>
    cases content with
    | record r => exact fun n => Residue.noConfusion
    | bytes b => trivial
    | torn => trivial
  | _ => trivial

theorem runPeriodicBackup_restorable_twoRuns :
    Restorable imageMachine firstMillis 1
      ([forcedRun 1 [1], forcedRun 2 [2]].foldl (after imageMachine firstMillis) SinkState.empty) := by
  have hruns : OrderlyRuns imageMachine firstMillis SinkState.empty [forcedRun 1 [1], forcedRun 2 [2]] := by
    refine ⟨⟨untorn_forcedRun 1 [1], ?_⟩, ⟨untorn_forcedRun 2 [2], ?_⟩, trivial⟩
    · intro _ r hr
      cases hr
    · intro _
      decide +kernel
  refine (runPeriodicBackup_restorable imageMachine firstMillis (Nat.le_refl 1) ?_ hruns (List.append_nil _).symm).1
  intro o ho
  rcases List.mem_cons.mp ho with rfl | ho
  · rfl
  · rw [List.mem_singleton.mp ho]
    rfl

/-- With the clock a millisecond back, retention takes the artifact that the run reports. -/
theorem runPeriodicBackup_prunes_its_own :
    ∃ out r, (outcome imageMachine firstMillis (after imageMachine firstMillis SinkState.empty (forcedRun 2 [1])) (forcedRun 1 [2])).1 =
        .ok (.ok out) ∧ out.performed = true ∧ out.backup = some r ∧
      (after imageMachine firstMillis (after imageMachine firstMillis SinkState.empty (forcedRun 2 [1])) (forcedRun 1 [2])).files.get
        (metaName r.backupId) = none := by
  have hresult :
      (outcome imageMachine firstMillis (after imageMachine firstMillis SinkState.empty (forcedRun 2 [1])) (forcedRun 1 [2])).1 =
        .ok (.ok ⟨.sqlite, true, none, some (artifactOf imageMachine firstMillis (forcedRun 1 [2]).opts [2]),
          [artifactOf imageMachine firstMillis (forcedRun 1 [2]).opts [2]]⟩) := by
    decide +kernel
  refine ⟨_, _, hresult, rfl, rfl, ?_⟩
  decide +kernel

end firstMillis

end sow.db.backups
