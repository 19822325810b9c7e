import Sow.Worker.Gbrain.DrainModel

open sow.js sow.effect sow.contracts sow.db sow.gbrain sow.markdown_vault
open sow.knowledge_writer (Sha256 RevisionId computeRevisionId GbrainSyncStatus GbrainSyncOutboxEntry readSnapshot)

namespace sow.worker

variable {Stamp : Type} [LinearOrder Stamp]

/-- The job of an entry. -/
abbrev entryJob (entry : GbrainSyncOutboxEntry Stamp) : SyncJob Stamp := jobOf (entryToRow entry)

/-- The vault hashes to the revision of the job, and the facts of the vault derive. -/
def indexable (sha256 : Sha256) (listing : Listing) (fs : Files) (job : SyncJob Stamp) : Bool :=
  job.revisionId = headRevision listing fs sha256 &&
    (deriveCanonicalFacts sha256 ⟨job.workspaceId, job.revisionId, workingTree listing fs⟩).isOk

/-- What one job does: it is set aside, it is applied, or it stays due. -/
inductive JobStep (sha256 : Sha256) (listing : Listing) (w : GbrainWorld Stamp) (job : SyncJob Stamp) : GbrainWorld Stamp → Prop
  | setAside {row : GbrainSyncOutboxRow Stamp} (hjob : jobOf row = job) (hindexed : row.status = INDEXED_TERMINAL)
      (hsuperseded : superseded w.outbox job = true) : JobStep sha256 listing w job { w with outbox := w.outbox.upsert row }
  | applied {row : GbrainSyncOutboxRow Stamp} {facts : List DerivedFact} (hjob : jobOf row = job)
      (hindexed : row.status = INDEXED_TERMINAL) (hsuperseded : superseded w.outbox job = false)
      (hindexable : indexable sha256 listing w.files job = true) :
      JobStep sha256 listing w job
        { w with outbox := w.outbox.upsert row, applied := w.applied ++ [⟨job.workspaceId, job.revisionId, facts⟩] }
  | lagging {row : GbrainSyncOutboxRow Stamp} (hjob : jobOf row = job) (hdue : row.status ≠ INDEXED_TERMINAL)
      (hsuperseded : superseded w.outbox job = false) (hnot : indexable sha256 listing w.files job = false) :
      JobStep sha256 listing w job { w with outbox := w.outbox.upsert row }

section rows

variable {Stamp : Type}

theorem rowToEntry_branded {row : GbrainSyncOutboxRow Stamp} (h : isBrandedId row.revisionId = true) :
    rowToEntry row = .ok (entryOf row) := if_pos h

theorem entryOf_entryToRow (entry : GbrainSyncOutboxEntry Stamp) : entryOf (entryToRow entry) = entry := by
  have hstatus : toGbrainSyncStatus entry.status.text = entry.status := by
    cases entry.status <;> rfl
  unfold entryOf entryToRow
  simp only [hstatus]

theorem status_entryOf {row : GbrainSyncOutboxRow Stamp} (h : row.status ≠ INDEXED_TERMINAL) : (entryOf row).status ≠ .indexed := by
  change (([GbrainSyncStatus.gbrain_sync_queued, .sync_lagging, .indexed].find? fun s => s.text = row.status).getD .sync_lagging) ≠ _
  cases hfind : [GbrainSyncStatus.gbrain_sync_queued, .sync_lagging, .indexed].find? fun s => s.text = row.status with
  | none => exact GbrainSyncStatus.noConfusion
  | some status =>
    rintro rfl
    have htext := List.find?_some hfind
    exact h (of_decide_eq_true htext).symm

theorem mapM_rowToEntry {rows : List (GbrainSyncOutboxRow Stamp)} (h : ∀ row ∈ rows, isBrandedId row.revisionId = true) :
    rows.mapM rowToEntry = .ok (rows.map entryOf) := by
  induction rows with
  | nil => rfl
  | cons row rows ih =>
    rw [List.mapM_cons, rowToEntry_branded (h row List.mem_cons_self), ih fun r hr => h r (List.mem_cons_of_mem _ hr)]
    rfl

end rows

section adapter

variable {listing : Listing} {w : GbrainWorld Stamp}

theorem adaptResult_wp {α β : Type} {p : GbrainM Stamp (DbResult α)} {map : α → Except Cause β} {a : α} {b : β}
    {Q : Except Cause (DbResult β) → GbrainWorld Stamp → Prop} (hmap : map a = .ok b)
    (hp : wp (gbrainPorts listing) (fun _ _ => True) p (fun r w' => r = .ok (.ok a) ∧ Q (.ok (.ok b)) w') w) :
    wp (gbrainPorts listing) (fun _ _ => True) (adaptResult p map) Q w := by
  rw [adaptResult, wp_bind]
  refine wp.mono hp fun r w' hr => ?_
  obtain ⟨rfl, hQ⟩ := hr
  dsimp only
  rw [hmap]
  exact hQ

theorem update_wp {entry : GbrainSyncOutboxEntry Stamp} (hentry : isBrandedId entry.revisionId = true)
    {Q : Except Cause (DbResult (GbrainSyncOutboxEntry Stamp)) → GbrainWorld Stamp → Prop}
    (h : Q (.ok (.ok entry)) { w with outbox := w.outbox.upsert (entryToRow entry) }) :
    wp (gbrainPorts listing) (fun _ _ => True) (adaptRepositoryToStore.update entry) Q w := by
  refine adaptResult_wp (rowToEntry_branded hentry) (wp_perform.mpr fun d _ => ⟨rfl, ?_⟩)
  rw [entryOf_entryToRow]
  exact h

theorem indexedHighWater_wp (hbranded : Branded w.outbox) {workspaceId : JsString}
    {Q : Except Cause (DbResult (Option (GbrainSyncOutboxEntry Stamp))) → GbrainWorld Stamp → Prop}
    (h : Q (.ok (.ok ((w.outbox.indexedHighWater workspaceId).map entryOf))) w) :
    wp (gbrainPorts listing) (fun _ _ => True) (adaptRepositoryToStore.indexedHighWater workspaceId) Q w := by
  refine adaptResult_wp ?_ (wp_perform.mpr fun d _ => ⟨rfl, h⟩)
  cases hhw : w.outbox.indexedHighWater workspaceId with
  | none => rfl
  | some row =>
    obtain ⟨⟨hget, -⟩, -⟩ := GbrainSyncOutbox.indexedHighWater_eq_some_iff.mp hhw
    rw [Option.mapM_some, rowToEntry_branded (hbranded _ row hget)]
    rfl

theorem listDue_wp (hbranded : Branded w.outbox) {now : Stamp} {limit : Nat}
    {Q : Except Cause (DbResult (List (GbrainSyncOutboxEntry Stamp))) → GbrainWorld Stamp → Prop}
    (h : Q (.ok (.ok ((w.outbox.listDue now limit).map entryOf))) w) :
    wp (gbrainPorts listing) (fun _ _ => True) (adaptRepositoryToStore.listDue now limit) Q w := by
  refine adaptResult_wp (mapM_rowToEntry fun row hrow => ?_) (wp_perform.mpr fun d _ => ⟨rfl, h⟩)
  obtain ⟨hget, -⟩ := GbrainSyncOutbox.mem_due_iff.mp (List.mem_of_mem_take hrow)
  exact hbranded _ row hget

theorem vault_wp {α : Type} {p : VaultM α} {Q : Except Cause α → GbrainWorld Stamp → Prop}
    (hp : wp (vaultFs listing) (fun _ d => d = .proceed) p (fun r fs => Q r { w with files := fs }) w.files) :
    wp (gbrainPorts listing) (fun _ _ => True) (p.lift GbrainOp.vault fun _ => id) Q w := by
  refine wp_lift GbrainWorld.files (fun w fs => { w with files := fs }) (fun _ => Choice.proceed)
    ?_ (fun w op d => ?_) (fun _ _ _ => rfl) (fun _ _ => rfl) (fun _ _ _ => rfl) (fun _ => rfl) hp
  · exact fun _ _ _ => rfl
  · exact Except.map_id ▸ rfl

/-- The source answers with the working tree. -/
theorem loadSnapshot_wp {entry : GbrainSyncOutboxEntry Stamp} (hentry : isBrandedId entry.revisionId = true)
    {Q : Except Cause (Except SnapshotLoadError CanonicalVaultSnapshot) → GbrainWorld Stamp → Prop}
    (h : Q (.ok (.ok ⟨entry.workspaceId, entry.revisionId, workingTree listing w.files⟩)) w) :
    wp (gbrainPorts listing) (fun _ _ => True) (loadSnapshot gbrainIndexSyncDeps entry) Q w := by
  rw [loadSnapshot, wp_tryCatch]
  refine vault_wp ?_
  rw [createWorkingTreeMarkdownSource, wp_tryCatch, wp_bind]
  refine readSnapshot_exact ?_
  dsimp only
  rw [if_pos hentry]
  exact h

theorem runApply_wp {request : IndexApplyRequest} {Q : Except Cause (Except IndexApplyError IndexApplyReceipt) → GbrainWorld Stamp → Prop}
    (h : ∀ receipt, Q (.ok (.ok receipt)) { w with applied := w.applied ++ [request] }) :
    wp (gbrainPorts listing) (fun _ _ => True) (runApply gbrainIndexSyncDeps request) Q w := by
  rw [runApply, wp_tryCatch]
  exact wp_perform.mpr fun d _ => h d.receipt

/-- A job that lags stays due. -/
theorem lagging_wp {entry : GbrainSyncOutboxEntry Stamp} {reason : JsString} (hentry : isBrandedId entry.revisionId = true)
    {Q : Except Cause (GbrainIndexOutcome Stamp) → GbrainWorld Stamp → Prop}
    (h : ∀ outcome row, jobOf row = entryJob entry → row.status ≠ INDEXED_TERMINAL →
      Q (.ok outcome) { w with outbox := w.outbox.upsert row }) :
    wp (gbrainPorts listing) (fun _ _ => True) (lagging gbrainIndexSyncDeps entry reason) Q w := by
  unfold lagging
  refine wp_call fun d _ => ⟨d.clock, w, rfl, ?_⟩
  rw [wp_bind]
  refine update_wp ?branded ?_
  case branded => exact hentry
  dsimp only
  rw [buildSyncLaggingHealthItem, wp_bind, wp_bind]
  refine wp_perform.mpr fun d' _ => ?_
  refine wp_call fun d'' _ => ⟨d''.clock, _, rfl, ?_⟩
  exact h _ _ rfl (show str "sync_lagging" ≠ str "indexed" by decide)

/-- A job that is done leaves the queue. -/
theorem updateIndexed_wp {entry : GbrainSyncOutboxEntry Stamp} (outcome : GbrainSyncOutboxEntry Stamp → GbrainIndexOutcome Stamp)
    {reason : DbError → JsString} (hentry : isBrandedId entry.revisionId = true)
    {Q : Except Cause (GbrainIndexOutcome Stamp) → GbrainWorld Stamp → Prop}
    (h : ∀ outcome row, jobOf row = entryJob entry → row.status = INDEXED_TERMINAL →
      Q (.ok outcome) { w with outbox := w.outbox.upsert row }) :
    wp (gbrainPorts listing) (fun _ _ => True)
      (do
        let now ← gbrainIndexSyncDeps.now
        let indexedEntry := { entry with status := .indexed, lastAttemptAt := some now }
        match ← gbrainIndexSyncDeps.outbox.update indexedEntry with
        | .error e => lagging gbrainIndexSyncDeps entry (reason e)
        | .ok _ => return outcome indexedEntry) Q w := by
  refine wp_call fun d _ => ⟨d.clock, w, rfl, ?_⟩
  rw [wp_bind]
  refine update_wp ?branded ?_
  case branded => exact hentry
  exact h _ _ rfl rfl

/-- One entry, with the vault as it is. -/
theorem applyGbrainIndexJob_wp {sha256 : Sha256} {entry : GbrainSyncOutboxEntry Stamp} (hbranded : Branded w.outbox)
    (hentry : isBrandedId entry.revisionId = true) (hstatus : entry.status ≠ .indexed) :
    wp (gbrainPorts listing) (fun _ _ => True) (applyGbrainIndexJob sha256 gbrainIndexSyncDeps entry)
      (fun r w' => (∃ outcome, r = .ok outcome) ∧ JobStep sha256 listing w (entryJob entry) w') w := by
  unfold applyGbrainIndexJob
  rw [if_neg hstatus, wp_bind]
  refine indexedHighWater_wp hbranded ?_
  dsimp only
  have hsuperseded : isSuperseded ((w.outbox.indexedHighWater entry.workspaceId).map entryOf) entry =
      superseded w.outbox (entryJob entry) := Option.any_map ..
  rw [hsuperseded]
  split
  · next hset =>
    exact updateIndexed_wp .superseded hentry fun outcome row hjob hindexed => ⟨⟨outcome, rfl⟩, .setAside hjob hindexed hset⟩
  · next hnot =>
    rw [Bool.not_eq_true] at hnot
    unfold indexRevision
    rw [wp_bind]
    refine loadSnapshot_wp hentry ?_
    dsimp only
    split
    · next hother =>
      have hnothead : indexable sha256 listing w.files (entryJob entry) = false := by
        refine Bool.and_eq_false_imp.mpr fun heq => absurd (of_decide_eq_true heq).symm hother
      exact lagging_wp hentry fun outcome row hjob hdue => ⟨⟨outcome, rfl⟩, .lagging hjob hdue hnot hnothead⟩
    · next hsame =>
      have hhead : (entryJob entry).revisionId = headRevision listing w.files sha256 := (not_not.mp hsame).symm
      cases hderive : deriveCanonicalFacts sha256 ⟨entry.workspaceId, entry.revisionId, workingTree listing w.files⟩ with
      | error e =>
        have hunderivable : indexable sha256 listing w.files (entryJob entry) = false := by
          refine Bool.and_eq_false_imp.mpr fun _ => ?_
          exact congrArg Except.isOk hderive
        exact lagging_wp hentry fun outcome row hjob hdue => ⟨⟨outcome, rfl⟩, .lagging hjob hdue hnot hunderivable⟩
      | ok facts =>
        dsimp only
        rw [wp_bind]
        refine runApply_wp fun receipt => ?_
        dsimp only
        have hindexable : indexable sha256 listing w.files (entryJob entry) = true := by
          refine Bool.and_eq_true_iff.mpr ⟨decide_eq_true hhead, ?_⟩
          exact congrArg Except.isOk hderive
        exact updateIndexed_wp (fun e => .indexed e receipt) hentry fun outcome row hjob hindexed =>
          ⟨⟨outcome, rfl⟩, .applied hjob hindexed hnot hindexable⟩

end adapter

section due

variable {Stamp : Type} {table : GbrainSyncOutbox Stamp} {row : GbrainSyncOutboxRow Stamp} {job : SyncJob Stamp}

theorem isDue_upsert {other : SyncJob Stamp}
    (hdue : IsDue table (jobOf row)) :
    IsDue (table.upsert row) other ↔ IsDue table other ∧ (other = jobOf row → row.status ≠ INDEXED_TERMINAL) := by
  unfold IsDue
  rw [GbrainSyncOutbox.get_upsert]
  split
  · next hid =>
    constructor
    · rintro ⟨_, hrow, hstatus, rfl⟩
      obtain rfl := Option.some.inj hrow
      exact ⟨hdue, fun _ => hstatus⟩
    · rintro ⟨hother, hstatus⟩
      obtain rfl : other = jobOf row := IsDue.unique hother hdue hid.symm
      exact ⟨row, rfl, hstatus rfl, rfl⟩
  · next hid =>
    refine (and_iff_left_of_imp fun _ heq => absurd ?_ hid).symm
    rw [heq]
    rfl

theorem Branded.upsert (h : Branded table) (hdue : IsDue table (jobOf row)) : Branded (table.upsert row) := by
  intro k found hget
  change (table.upsert row).get k = some found at hget
  rw [GbrainSyncOutbox.get_upsert] at hget
  split at hget
  · obtain ⟨old, hold, -, hjob⟩ := hdue
    obtain rfl := Option.some.inj hget
    have hrevision : old.revisionId = row.revisionId := congrArg SyncJob.revisionId hjob
    rw [← hrevision]
    exact h _ old hold
  · exact h k found hget

/-- The row of a due job is not indexed. -/
theorem IsDue.status (h : IsDue table job) (hget : table.get job.outboxId = some row) : row.status ≠ INDEXED_TERMINAL := by
  obtain ⟨row', hget', hstatus, -⟩ := h
  rw [hget] at hget'
  rw [Option.some.inj hget']
  exact hstatus

end due

section drained

variable (sha256 : Sha256) (listing : Listing)

/-- A job that is next in turn for the index. -/
def served (w : GbrainWorld Stamp) (job : SyncJob Stamp) : Bool :=
  !superseded w.outbox job && indexable sha256 listing w.files job

/-- Jobs have been worked on, and none of them was for the index. -/
structure Quiet (w : GbrainWorld Stamp) (jobs : List (SyncJob Stamp)) (w' : GbrainWorld Stamp) : Prop where
  files : w'.files = w.files
  applied : w'.applied = w.applied
  superseded : ∀ job, superseded w'.outbox job = superseded w.outbox job
  due : ∀ job, IsDue w'.outbox job ↔ IsDue w.outbox job ∧ (job ∈ jobs → sow.worker.superseded w.outbox job = false)

/-- Jobs have been worked on: the index was asked for nothing but the head, and it was
    asked for the head if a job was next in turn for it. -/
structure Drained (w : GbrainWorld Stamp) (jobs : List (SyncJob Stamp)) (w' : GbrainWorld Stamp) : Prop where
  files : w'.files = w.files
  branded : Branded w'.outbox
  appended : ∃ requests, w'.applied = w.applied ++ requests ∧
    ∀ request ∈ requests, request.revisionId = headRevision listing w.files sha256
  head : (∃ job ∈ jobs, served sha256 listing w job = true) →
    ∃ request ∈ w'.applied, request.revisionId = headRevision listing w.files sha256
  quiet : (∀ job ∈ jobs, served sha256 listing w job = false) → Quiet w jobs w'

variable {sha256 listing} {w w' : GbrainWorld Stamp} {job : SyncJob Stamp} {jobs : List (SyncJob Stamp)}

theorem superseded_congr {table table' : GbrainSyncOutbox Stamp}
    (h : ∀ workspaceId, table'.indexedHighWater workspaceId = table.indexedHighWater workspaceId) (other : SyncJob Stamp) :
    superseded table' other = superseded table other := by
  rw [superseded, superseded, h]

/-- The row that supersedes a job comes after every row of the job. -/
theorem exists_highWater_of_superseded {table : GbrainSyncOutbox Stamp} {row : GbrainSyncOutboxRow Stamp}
    (h : superseded table (jobOf row) = true) :
    ∃ hw, table.indexedHighWater row.workspaceId = some hw ∧ GbrainSyncOutbox.rowOrder row < GbrainSyncOutbox.rowOrder hw := by
  unfold superseded at h
  cases hhw : table.indexedHighWater (jobOf row).workspaceId with
  | none =>
    rw [hhw] at h
    cases h
  | some hw =>
    rw [hhw, Option.any_some, Bool.and_eq_true, decide_eq_true_eq, decide_eq_true_eq] at h
    exact ⟨hw, hhw, Prod.Lex.toLex_lt_toLex.mpr (.inl h.2)⟩

/-- A row of a due job that is written without an apply leaves the others in their places. -/
theorem quiet_upsert {row : GbrainSyncOutboxRow Stamp} (hdue : IsDue w.outbox (jobOf row))
    (hstatus : row.status = INDEXED_TERMINAL ↔ superseded w.outbox (jobOf row) = true) :
    Quiet w [jobOf row] { w with outbox := w.outbox.upsert row } := by
  have hhigh : ∀ workspaceId, (w.outbox.upsert row).indexedHighWater workspaceId = w.outbox.indexedHighWater workspaceId :=
    GbrainSyncOutbox.indexedHighWater_upsert (fun old hold => hdue.status hold) fun hindexed =>
      exists_highWater_of_superseded (hstatus.mp hindexed)
  refine ⟨rfl, rfl, superseded_congr hhigh, fun other => ?_⟩
  rw [isDue_upsert hdue, List.mem_singleton]
  refine and_congr_right fun _ => forall_congr' fun heq => ?_
  rw [heq, ne_eq, hstatus, Bool.not_eq_true]

/-- A job that is not for the index is worked on quietly. -/
theorem JobStep.quiet (h : JobStep sha256 listing w job w') (hdue : IsDue w.outbox job)
    (hnot : served sha256 listing w job = false) : Quiet w [job] w' := by
  cases h with
  | setAside hjob hindexed hsuperseded =>
    subst hjob
    exact quiet_upsert hdue (iff_of_true hindexed hsuperseded)
  | applied hjob hindexed hsuperseded hindexable =>
    rw [served, hsuperseded, hindexable] at hnot
    cases hnot
  | lagging hjob hstatus hsuperseded hnotIndexable =>
    subst hjob
    exact quiet_upsert hdue (iff_of_false hstatus (by simp [hsuperseded]))

theorem JobStep.files (h : JobStep sha256 listing w job w') : w'.files = w.files := by
  cases h <;> rfl

theorem JobStep.branded (h : JobStep sha256 listing w job w') (hbranded : Branded w.outbox) (hdue : IsDue w.outbox job) :
    Branded w'.outbox := by
  cases h with
  | setAside hjob => exact hbranded.upsert (hjob ▸ hdue)
  | applied hjob => exact hbranded.upsert (hjob ▸ hdue)
  | lagging hjob => exact hbranded.upsert (hjob ▸ hdue)

/-- A job does not touch the rows of the others. -/
theorem JobStep.isDue_iff (h : JobStep sha256 listing w job w') (hdue : IsDue w.outbox job) {other : SyncJob Stamp}
    (hne : other ≠ job) : IsDue w'.outbox other ↔ IsDue w.outbox other := by
  cases h with
  | setAside hjob =>
    subst hjob
    exact (isDue_upsert hdue).trans (and_iff_left fun heq => absurd heq hne)
  | applied hjob =>
    subst hjob
    exact (isDue_upsert hdue).trans (and_iff_left fun heq => absurd heq hne)
  | lagging hjob =>
    subst hjob
    exact (isDue_upsert hdue).trans (and_iff_left fun heq => absurd heq hne)

theorem JobStep.appended (h : JobStep sha256 listing w job w') :
    ∃ requests, w'.applied = w.applied ++ requests ∧
      (∀ request ∈ requests, request.revisionId = headRevision listing w.files sha256) ∧
        (served sha256 listing w job = true → requests ≠ []) := by
  cases h with
  | setAside hjob hindexed hsuperseded =>
    refine ⟨[], by simp, by simp, fun hserved => ?_⟩
    rw [served, hsuperseded] at hserved
    cases hserved
  | @applied row facts hjob hindexed hsuperseded hindexable =>
    refine ⟨[⟨job.workspaceId, job.revisionId, facts⟩], rfl, fun request hrequest => ?_, fun _ => by simp⟩
    rw [List.mem_singleton.mp hrequest]
    exact of_decide_eq_true (Bool.and_eq_true_iff.mp hindexable).1
  | lagging hjob hstatus hsuperseded hnotIndexable =>
    refine ⟨[], by simp, by simp, fun hserved => ?_⟩
    rw [served, hnotIndexable, Bool.and_false] at hserved
    cases hserved

theorem Quiet.nil : Quiet w [] w :=
  ⟨rfl, rfl, fun _ => rfl, fun _ => (and_iff_left fun h => absurd h List.not_mem_nil).symm⟩

theorem Quiet.served_eq (h : Quiet w jobs w') (other : SyncJob Stamp) :
    served sha256 listing w' other = served sha256 listing w other := by
  rw [served, served, h.superseded, h.files]

theorem Quiet.trans {w'' : GbrainWorld Stamp} (h : Quiet w [job] w') (h' : Quiet w' jobs w'') : Quiet w (job :: jobs) w'' := by
  refine ⟨h'.files.trans h.files, h'.applied.trans h.applied, fun other => (h'.superseded other).trans (h.superseded other),
    fun other => ?_⟩
  rw [h'.due, h.due, h.superseded, List.mem_singleton, List.mem_cons, and_assoc]
  refine and_congr_right fun _ => ?_
  constructor
  · rintro ⟨hfirst, hrest⟩ (heq | hmem)
    · exact hfirst heq
    · exact hrest hmem
  · exact fun hall => ⟨fun heq => hall (.inl heq), fun hmem => hall (.inr hmem)⟩

theorem Drained.nil (hbranded : Branded w.outbox) : Drained sha256 listing w [] w where
  files := rfl
  branded := hbranded
  appended := ⟨[], by simp, by simp⟩
  head := by simp
  quiet := fun _ => .nil

/-- The first job, and then the others in the world that it leaves. -/
theorem Drained.cons {w'' : GbrainWorld Stamp} (hstep : JobStep sha256 listing w job w') (hdue : IsDue w.outbox job)
    (hrest : Drained sha256 listing w' jobs w'') : Drained sha256 listing w (job :: jobs) w'' := by
  obtain ⟨first, hfirst, hfirstHead, hnonempty⟩ := hstep.appended
  obtain ⟨rest, hrequests, hrestHead⟩ := hrest.appended
  have hhead : headRevision listing w'.files sha256 = headRevision listing w.files sha256 := by rw [hstep.files]
  have happlied : w''.applied = w.applied ++ (first ++ rest) := by rw [hrequests, hfirst, List.append_assoc]
  refine ⟨hrest.files.trans hstep.files, hrest.branded, ⟨first ++ rest, happlied, ?_⟩, ?_, ?_⟩
  · intro request hrequest
    rcases List.mem_append.mp hrequest with hmem | hmem
    · exact hfirstHead request hmem
    · exact (hrestHead request hmem).trans hhead
  · rintro ⟨other, hother, hserved⟩
    by_cases hjob : served sha256 listing w job = true
    · obtain ⟨request, hrequest⟩ := List.exists_mem_of_ne_nil _ (hnonempty hjob)
      refine ⟨request, ?_, hfirstHead request hrequest⟩
      rw [happlied]
      exact List.mem_append_right _ (List.mem_append_left _ hrequest)
    · rw [Bool.not_eq_true] at hjob
      have hquiet := hstep.quiet hdue hjob
      rcases List.mem_cons.mp hother with rfl | hmem
      · rw [hjob] at hserved
        cases hserved
      · obtain ⟨request, hrequest, hrev⟩ := hrest.head ⟨other, hmem, (hquiet.served_eq other).trans hserved⟩
        exact ⟨request, hrequest, hrev.trans hhead⟩
  · intro hnone
    have hquiet := hstep.quiet hdue (hnone job List.mem_cons_self)
    refine hquiet.trans (hrest.quiet fun other hother => ?_)
    rw [hquiet.served_eq]
    exact hnone other (List.mem_cons_of_mem _ hother)

end drained

section loop

variable {sha256 : Sha256} {listing : Listing} {w : GbrainWorld Stamp}

/-- The entries are those of due jobs, each once. -/
structure Listed (table : GbrainSyncOutbox Stamp) (entries : List (GbrainSyncOutboxEntry Stamp)) : Prop where
  due : ∀ entry ∈ entries, IsDue table (entryJob entry)
  open' : ∀ entry ∈ entries, entry.status ≠ .indexed
  nodup : (entries.map entryJob).Nodup

theorem drainEntries_wp {entries : List (GbrainSyncOutboxEntry Stamp)} {indexed lagging : Nat} (hbranded : Branded w.outbox)
    (hlisted : Listed w.outbox entries) :
    wp (gbrainPorts listing) (fun _ _ => True) (drainEntries sha256 gbrainIndexSyncDeps indexed lagging entries)
      (fun r w' => (∃ counts, r = .ok counts) ∧ Drained sha256 listing w (entries.map entryJob) w') w := by
  induction entries generalizing w indexed lagging with
  | nil => exact ⟨⟨_, rfl⟩, .nil hbranded⟩
  | cons entry entries ih =>
    have hdue := hlisted.due entry List.mem_cons_self
    have hnodup := List.nodup_cons.mp hlisted.nodup
    have hentry : isBrandedId entry.revisionId = true := by
      obtain ⟨row, hget, -, hjob⟩ := hdue
      have hrevision : row.revisionId = entry.revisionId := congrArg SyncJob.revisionId hjob
      rw [← hrevision]
      exact hbranded _ row hget
    rw [drainEntries, wp_bind]
    refine wp.mono (applyGbrainIndexJob_wp hbranded hentry (hlisted.open' entry List.mem_cons_self)) fun r w' hr => ?_
    obtain ⟨⟨outcome, rfl⟩, hstep⟩ := hr
    have hlisted' : Listed w'.outbox entries := by
      refine ⟨fun e he => ?_, fun e he => hlisted.open' e (List.mem_cons_of_mem _ he), hnodup.2⟩
      refine (hstep.isDue_iff hdue ?_).mpr (hlisted.due e (List.mem_cons_of_mem _ he))
      exact fun heq => hnodup.1 (heq ▸ List.mem_map_of_mem he)
    have hrest : ∀ {indexed lagging : Nat},
        wp (gbrainPorts listing) (fun _ _ => True) (drainEntries sha256 gbrainIndexSyncDeps indexed lagging entries)
          (fun r w'' => (∃ counts, r = .ok counts) ∧ Drained sha256 listing w ((entry :: entries).map entryJob) w'') w' :=
      wp.mono (ih (hstep.branded hbranded hdue) hlisted') fun r w'' hr => ⟨hr.1, .cons hstep hdue hr.2⟩
    dsimp only
    split
    · exact hrest
    · exact hrest

/-- One call works on the first `limit` due jobs. -/
theorem drainGbrainSyncOutbox_wp {limit : Nat} (hbranded : Branded w.outbox) :
    wp (gbrainPorts listing) (fun _ _ => True) (drainGbrainSyncOutbox sha256 gbrainIndexSyncDeps limit)
      (fun r w' => (∃ result, r = .ok result) ∧ Drained sha256 listing w ((dueJobs w.outbox).take limit) w') w := by
  rw [drainGbrainSyncOutbox]
  refine wp_call fun d _ => ⟨d.clock, w, rfl, ?_⟩
  rw [wp_bind]
  refine listDue_wp hbranded ?_
  dsimp only
  have hjobs : ((w.outbox.listDue d.clock limit).map entryOf).map entryJob = (dueJobs w.outbox).take limit := by
    rw [List.map_map, GbrainSyncOutbox.listDue, List.map_take]
    rfl
  have hlisted : Listed w.outbox ((w.outbox.listDue d.clock limit).map entryOf) := by
    refine ⟨fun entry hentry => ?_, fun entry hentry => ?_, ?_⟩
    · have hmem := List.mem_map_of_mem (f := entryJob) hentry
      rw [hjobs] at hmem
      exact mem_dueJobs_iff.mp (List.mem_of_mem_take hmem)
    · obtain ⟨row, hrow, rfl⟩ := List.mem_map.mp hentry
      exact status_entryOf (GbrainSyncOutbox.mem_due_iff.mp (List.mem_of_mem_take hrow)).2
    · rw [hjobs]
      exact dueJobs_nodup.sublist (List.take_sublist ..)
  rw [wp_bind]
  refine wp.mono (drainEntries_wp hbranded hlisted) fun r w' hr => ?_
  obtain ⟨⟨counts, rfl⟩, hdrained⟩ := hr
  exact ⟨⟨_, rfl⟩, hjobs ▸ hdrained⟩

end loop

end sow.worker
