import Sow.Db.Backup.SinkSpec

open sow.js sow.effect

namespace sow.db.backups

variable {S : Type} {M : Machine S} {kit : SinkKit} {keep : Nat} {live : S} {w : World} {completed : List (Artifact S)}
  {adm : BackupOp → Fate → Prop}

/-- Some operation may fail. -/
def Disturbed (adm : BackupOp → Fate → Prop) : Prop := ∃ op fate, adm op fate ∧ fate ≠ .proceeds

/-- An error that is not a crash is reported, and a crash ends the run. -/
theorem guarded_wp {α : Type} {message : JsString} {p : BackupM (DbResult α)} {Q : Except Stop (DbResult α) → World → Prop}
    (h : wp (M.ports live) adm p (fun r w => match r with
      | .ok a => Q (.ok a) w
      | .error (.thrown cause) => Q (.ok (.error (kit.toDbError cause message))) w
      | .error .crash => Q (.error .crash) w) w) :
    wp (M.ports live) adm (guarded kit message p) Q w := by
  unfold guarded
  rw [wp_tryCatch]
  refine h.mono fun r w hr => ?_
  cases r with
  | ok a => exact hr
  | error stop =>
    cases stop with
    | thrown cause => exact hr
    | crash => exact hr

theorem readRecords_wp (h : Sound M kit keep w.files completed) {names : List JsString}
    (hnames : ∀ name ∈ names, name ∈ w.files.keys ∧ endsWith name (str ".json") = true)
    {Q : Except Stop (List StoredBackup) → World → Prop} (hok : Q (.ok (names.filterMap (recordAt w.files))) w)
    (hstop : Disturbed adm → ∀ stop, Q (.error stop) w) : wp (M.ports live) adm (readRecords kit names) Q w := by
  induction names generalizing Q with
  | nil => exact hok
  | cons name names ih =>
    obtain ⟨hkey, hjson⟩ := hnames name List.mem_cons_self
    obtain ⟨content, hget⟩ := Option.isSome_iff_exists.mp (Map.mem_keys_iff.mp hkey)
    obtain ⟨a, -, -, rfl⟩ := h.metas name content hget hjson
    have hrecord : recordAt w.files name = some a.1 := by
      unfold recordAt
      rw [hget]
    unfold readRecords
    rw [wp_bind, wp_perform]
    intro fate hadm
    have hexec : (M.ports live).exec w (.readFile name) fate = (fate.answer (.record a.1), w) := by
      simp only [Machine.ports, hget]
    rw [hexec]
    cases fate with
    | faults cause left => exact hstop ⟨_, _, hadm, Fate.noConfusion⟩ _
    | crashes left => exact hstop ⟨_, _, hadm, Fate.noConfusion⟩ _
    | proceeds =>
      change wp (M.ports live) adm (readRecords kit names >>= fun rest => pure (a.1 :: rest)) Q w
      rw [wp_bind]
      refine ih (fun other hother => hnames other (List.mem_cons_of_mem _ hother)) ?_ hstop
      rw [List.filterMap_cons, hrecord] at hok
      exact hok

/-- Listing changes nothing; unless an operation fails it gives the list of the sink. -/
theorem list_wp (h : Sound M kit keep w.files completed) {Q : Except Stop (DbResult (List StoredBackup)) → World → Prop}
    (hok : Q (.ok (.ok (listed M kit w.files))) w) (herr : Disturbed adm → ∀ e, Q (.ok (.error e)) w)
    (hcrash : Disturbed adm → Q (.error .crash) w) : wp (M.ports live) adm (list kit) Q w := by
  unfold list
  refine guarded_wp ?_
  rw [wp_bind, wp_perform]
  intro fate hadm
  cases fate with
  | faults cause left => exact herr ⟨_, _, hadm, Fate.noConfusion⟩ _
  | crashes left => exact hcrash ⟨_, _, hadm, Fate.noConfusion⟩
  | proceeds =>
    change wp (M.ports live) adm (readRecords kit ((M.readdir w.files).filter _) >>= _) _ w
    rw [wp_bind]
    refine readRecords_wp h ?_ hok ?_
    · intro name hname
      obtain ⟨hdir, hjson⟩ := List.mem_filter.mp hname
      exact ⟨(M.readdir_perm w.files).mem_iff.mp hdir, hjson⟩
    · intro hdisturbed stop
      cases stop with
      | thrown cause => exact herr hdisturbed _
      | crash => exact hcrash hdisturbed

/-- Removing artifacts that are not kept leaves the sink sound, however far it gets. -/
theorem removeAll_wp (h : Sound M kit keep w.files completed) {removed : List StoredBackup}
    (hremoved : ∀ r ∈ removed, ∀ a ∈ completed.drop (completed.length - keep), r.backupId ≠ a.1.backupId)
    {Q : Except Stop Unit → World → Prop}
    (hQ : ∀ r w', Sound M kit keep w'.files completed → w'.written = w.written → Q r w') :
    wp (M.ports live) adm (removeAll removed) Q w := by
  induction removed generalizing w with
  | nil => exact hQ _ w h rfl
  | cons r removed ih =>
    have hne := hremoved r List.mem_cons_self
    have hremove : ∀ {w : World} (name : JsString), Sound M kit keep w.files completed →
        (∀ a ∈ completed.drop (completed.length - keep), name ≠ binName a.1.backupId ∧ name ≠ metaName a.1.backupId) →
        ∀ left, Sound M kit keep (w.remove name left).files completed ∧ (w.remove name left).written = w.written := by
      intro w name hsound hname left
      cases left with
      | untouched => exact ⟨hsound, rfl⟩
      | part n => exact ⟨hsound, rfl⟩
      | whole => exact ⟨hsound.delete hname, rfl⟩
    unfold removeAll
    rw [wp_bind, wp_perform]
    intro fate _
    obtain ⟨hbin, hbinWritten⟩ := hremove (binName r.backupId) h
      (fun a ha => ⟨fun heq => hne a ha (binName_inj heq), binName_ne_metaName _ _⟩) fate.residue
    cases fate with
    | faults cause left => exact hQ _ _ hbin hbinWritten
    | crashes left => exact hQ _ _ hbin hbinWritten
    | proceeds =>
      change wp (M.ports live) adm (Program.perform (.rm (metaName r.backupId)) >>= fun _ => removeAll removed) Q _
      rw [wp_bind, wp_perform]
      intro fate _
      obtain ⟨hmeta, hmetaWritten⟩ := hremove (metaName r.backupId) hbin
        (fun a ha => ⟨(binName_ne_metaName _ _).symm, fun heq => hne a ha (metaName_inj heq)⟩) fate.residue
      cases fate with
      | faults cause left => exact hQ _ _ hmeta (hmetaWritten.trans hbinWritten)
      | crashes left => exact hQ _ _ hmeta (hmetaWritten.trans hbinWritten)
      | proceeds =>
        refine ih hmeta (fun other hother => hremoved other (List.mem_cons_of_mem _ hother)) ?_
        intro r' w' hsound hwritten
        exact hQ r' w' hsound (hwritten.trans (hmetaWritten.trans hbinWritten))

/-- Retention never reaches the last `keep` artifacts. -/
theorem prune_wp (h : Sound M kit keep w.files completed) {Q : Except Stop (DbResult (List StoredBackup)) → World → Prop}
    (hQ : ∀ r w', Sound M kit keep w'.files completed → w'.written = w.written → Q r w') :
    wp (M.ports live) adm (prune kit keep) Q w := by
  unfold prune
  rw [wp_bind]
  refine list_wp h ?_ (fun _ e => hQ _ w h rfl) (fun _ => hQ _ w h rfl)
  refine guarded_wp ?_
  rw [wp_bind]
  refine removeAll_wp h ?_ ?_
  · intro r hr a ha heq
    -- both are listed, under one name, so they are one record
    have hlisted := h.mem_listed_iff.mp (List.mem_of_mem_drop hr)
    have hrecord := (h.kept a ha).record
    rw [← heq, hlisted] at hrecord
    have hsame := FileContent.record.inj (Option.some.inj hrecord)
    have htake := h.mem_take_of_kept ha
    rw [← hsame] at htake
    exact List.disjoint_take_drop h.nodup_listed (Nat.le_refl _) htake hr
  · intro r w' hsound hwritten
    cases r with
    | ok u => exact hQ _ w' hsound hwritten
    | error stop =>
      cases stop with
      | thrown cause => exact hQ _ w' hsound hwritten
      | crash => exact hQ _ w' hsound hwritten

/-- A write completes the artifact or fails, and may do both. -/
theorem write_wp (h : Sound M kit keep w.files completed) (hkeep : 1 ≤ keep) {input : StoredBackupInput}
    (hbytes : input.bytes = (M.capture live).bytes) (hdigest : input.rowDigest = (M.capture live).rowDigest)
    (hnew : ∀ r ∈ listed M kit w.files, rank kit r < rank kit (storedOf kit input) ∧ r.backupId ≠ input.backupId)
    {Q : Except Stop (DbResult StoredBackup) → World → Prop}
    (hnone : ∀ r w', (∀ s, r ≠ .ok (.ok s)) → Sound M kit keep w'.files completed → w'.written = w.written → Q r w')
    (hone : ∀ r w', (∀ s, r = .ok (.ok s) → s = storedOf kit input) →
      Sound M kit keep w'.files (completed ++ [(storedOf kit input, live)]) →
      w'.written = w.written ++ [storedOf kit input] → Q r w') :
    wp (M.ports live) Untorn (write kit input) Q w := by
  have hid : ∀ r ∈ listed M kit w.files, r.backupId ≠ input.backupId := fun r hr => (hnew r hr).2
  have hbinSound : ∀ left, Sound M kit keep (w.write (binName input.backupId) (.bytes input.bytes) left).files completed ∧
      (w.write (binName input.backupId) (.bytes input.bytes) left).written = w.written := by
    intro left
    cases left with
    | untouched => exact ⟨h, rfl⟩
    | part n => exact ⟨h.set_bin hid _, rfl⟩
    | whole => exact ⟨h.set_bin hid _, rfl⟩
  unfold write
  refine guarded_wp ?_
  rw [wp_bind, wp_perform]
  intro fate _
  cases fate with
  | faults cause left => exact hnone _ _ (fun s hs => by cases hs) (hbinSound left).1 (hbinSound left).2
  | crashes left => exact hnone _ _ (fun s hs => by cases hs) (hbinSound left).1 (hbinSound left).2
  | proceeds =>
    obtain ⟨hsound, hwritten⟩ := hbinSound .whole
    -- the bytes are not listed, so the list is the one that the new artifact was compared with
    have hlisted : ∀ r ∈ listed M kit (w.files.set (binName input.backupId) (.bytes input.bytes)), r ∈ listed M kit w.files := by
      intro r hr
      have hget := hsound.mem_listed_iff.mp hr
      change (w.files.set (binName input.backupId) (.bytes input.bytes)).get _ = _ at hget
      rw [Map.get_set_of_ne _ _ (binName_ne_metaName _ _)] at hget
      exact h.mem_listed_iff.mpr hget
    have hcomplete : Sound M kit keep
        ((w.files.set (binName input.backupId) (.bytes input.bytes)).set (metaName input.backupId) (.record (storedOf kit input)))
        (completed ++ [(storedOf kit input, live)]) := by
      refine hsound.complete hkeep (a := (storedOf kit input, live)) ?_ ?_ ?_ hdigest
      · intro r hr
        exact (hnew r (hlisted r hr)).2
      · intro r hr
        exact (hnew r (hlisted r hr)).1
      · rw [← hbytes]
        exact Map.get_set_self _ _ _
    change wp (M.ports live) Untorn (Program.perform (.writeFile (metaName input.backupId) (.record (storedOf kit input))) >>= _) _
      ⟨w.files.set (binName input.backupId) (.bytes input.bytes), w.written⟩
    rw [wp_bind, wp_perform]
    intro fate huntorn
    cases fate with
    | proceeds => exact hone _ _ (fun s hs => (Except.ok.inj (Except.ok.inj hs)).symm) hcomplete rfl
    | faults cause left =>
      cases left with
      | untouched => exact hnone _ _ (fun s hs => by cases hs) hsound rfl
      | part n => exact absurd rfl (huntorn n)
      | whole => exact hone _ _ (fun s hs => by cases hs) hcomplete rfl
    | crashes left =>
      cases left with
      | untouched => exact hnone _ _ (fun s hs => by cases hs) hsound rfl
      | part n => exact absurd rfl (huntorn n)
      | whole => exact hone _ _ (fun s hs => by cases hs) hcomplete rfl

/-- How a run can end: it completes no artifact and reports none, or it completes one. -/
inductive Ends (M : Machine S) (kit : SinkKit) (keep : Nat) (completed : List (Artifact S)) (a : Artifact S) (written : List StoredBackup)
    (r : Except Stop (Except PeriodicBackupFailure PeriodicBackupOutcome)) (w : World) : Prop where
  | none (sound : Sound M kit keep w.files completed) (unwritten : w.written = written)
      (report : ∀ out, r = .ok (.ok out) → out.performed = false)
  | one (sound : Sound M kit keep w.files (completed ++ [a])) (wrote : w.written = written ++ [a.1])
      (report : ∀ out, r = .ok (.ok out) → out.backup = some a.1)

section periodic

variable {kit : BackupKit} {opts : PeriodicBackupOptions}

/-- The artifact of a run. -/
def artifactOf (M : Machine S) (kit : BackupKit) (opts : PeriodicBackupOptions) (live : S) : StoredBackup :=
  storedOf kit.toSinkKit (backupInput kit opts (M.capture live))

theorem takeBackup_wp (h : Sound M kit.toSinkKit keep w.files completed) (hkeep : 1 ≤ keep)
    (hopts : opts.keep.getD DEFAULT_BACKUP_RETENTION = keep)
    (hnew : ∀ r ∈ listed M kit.toSinkKit w.files,
      rank kit.toSinkKit r < rank kit.toSinkKit (artifactOf M kit opts live) ∧
        r.backupId ≠ (artifactOf M kit opts live).backupId) :
    wp (M.ports live) Untorn (takeBackup kit opts)
      (Ends M kit.toSinkKit keep completed (artifactOf M kit opts live, live) w.written) w := by
  unfold takeBackup
  rw [wp_bind, wp_perform]
  intro fate _
  cases fate with
  | faults cause left => exact .none h rfl (fun out hout => by cases hout)
  | crashes left => exact .none h rfl (fun out hout => by cases hout)
  | proceeds =>
    change wp (M.ports live) Untorn (write kit.toSinkKit (backupInput kit opts (M.capture live)) >>= _) _ w
    rw [wp_bind]
    refine write_wp h hkeep rfl rfl hnew ?_ ?_
    · intro r w' hfailed hsound hwritten
      cases r with
      | error stop => exact .none hsound hwritten (fun out hout => by cases hout)
      | ok answer =>
        cases answer with
        | error cause => exact .none hsound hwritten (fun out hout => by cases hout)
        | ok stored => exact absurd rfl (hfailed stored)
    · intro r w' hstored hsound hwritten
      cases r with
      | error stop => exact .one hsound hwritten (fun out hout => by cases hout)
      | ok answer =>
        cases answer with
        | error cause => exact .one hsound hwritten (fun out hout => by cases hout)
        | ok stored =>
          obtain rfl := hstored stored rfl
          -- retention follows; the artifact stays
          change wp (M.ports live) Untorn (retain kit opts _) _ w'
          unfold retain
          rw [wp_bind, hopts]
          refine prune_wp hsound fun answer w'' hsound' hwritten' => ?_
          cases answer with
          | error stop => exact .one hsound' (hwritten'.trans hwritten) (fun out hout => by cases hout)
          | ok answer =>
            cases answer with
            | error cause => exact .one hsound' (hwritten'.trans hwritten) (fun out hout => by cases hout)
            | ok pruned =>
              refine .one hsound' (hwritten'.trans hwritten) fun out hout => ?_
              rw [← Except.ok.inj (Except.ok.inj hout)]
              rfl

/-- A run whose artifact, if it takes one, sorts behind the listed ones keeps the sink sound. -/
theorem runPeriodicBackup_wp (h : Sound M kit.toSinkKit keep w.files completed) (hkeep : 1 ≤ keep)
    (hopts : opts.keep.getD DEFAULT_BACKUP_RETENTION = keep)
    (hnew : notDue kit opts (listed M kit.toSinkKit w.files) = false → ∀ r ∈ listed M kit.toSinkKit w.files,
      rank kit.toSinkKit r < rank kit.toSinkKit (artifactOf M kit opts live) ∧
        r.backupId ≠ (artifactOf M kit opts live).backupId) :
    wp (M.ports live) Untorn (runPeriodicBackup kit opts)
      (Ends M kit.toSinkKit keep completed (artifactOf M kit opts live, live) w.written) w := by
  unfold runPeriodicBackup
  rw [wp_bind]
  refine list_wp h ?_ ?_ ?_
  · change wp (M.ports live) Untorn (if notDue kit opts _ then _ else _) _ w
    cases hdue : notDue kit opts (listed M kit.toSinkKit w.files) with
    | true =>
      rw [if_pos rfl, wp_pure]
      refine .none h rfl fun out hout => ?_
      rw [← Except.ok.inj (Except.ok.inj hout)]
    | false =>
      rw [if_neg Bool.false_ne_true]
      exact takeBackup_wp h hkeep hopts (hnew hdue)
  · intro _ e
    exact .none h rfl (fun out hout => by cases hout)
  · intro _
    exact .none h rfl (fun out hout => by cases hout)

end periodic

end sow.db.backups
