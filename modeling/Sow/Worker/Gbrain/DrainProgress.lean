import Sow.Knowledge.KnowledgeWriter.MemoryPorts
import Sow.Queue.BoundedDrain
import Sow.Worker.Gbrain.DrainSpec

open sow.js sow.effect sow.contracts sow.db sow.gbrain sow.markdown_vault sow.queue
open sow.knowledge_writer (Sha256 RevisionId memoryListing)

namespace sow.worker

variable {Stamp : Type} [LinearOrder Stamp]

section calls

variable (sha256 : Sha256) (listing : Listing) (limit : Nat) (choose : Nat → Nat → GbrainOp Stamp → GbrainChoice Stamp)

/-- The world after `n` calls of the drain, the `i`-th under the choices `choose i`. -/
def afterDrains (w : GbrainWorld Stamp) : Nat → GbrainWorld Stamp
  | 0 => w
  | n + 1 => ((gbrainPorts listing).run (choose n) 0 (drainGbrainSyncOutbox sha256 gbrainIndexSyncDeps limit) (afterDrains w n)).2

/-- A row for the revision that the vault hashes to is due. -/
def HeadDue (outbox : GbrainSyncOutbox Stamp) (files : Files) : Prop :=
  ∃ job, IsDue outbox job ∧ job.revisionId = headRevision listing files sha256

/-- If a row for the head is due, the calls come to apply the head; and they apply nothing else. -/
def DrainsToHead (outbox : GbrainSyncOutbox Stamp) (files : Files) : Prop :=
  (HeadDue sha256 listing outbox files →
    ∃ n, ∃ request ∈ (afterDrains sha256 listing limit choose ⟨outbox, files, []⟩ n).applied,
      request.revisionId = headRevision listing files sha256) ∧
    ∀ n, ∀ request ∈ (afterDrains sha256 listing limit choose ⟨outbox, files, []⟩ n).applied,
      request.revisionId = headRevision listing files sha256

/-- Some due row for the head can be indexed, is not superseded, and has fewer than `limit`
    rows before it in the queue that are not superseded either. -/
def HeadReachable (outbox : GbrainSyncOutbox Stamp) (files : Files) : Prop :=
  ∃ before job after, dueJobs outbox = before ++ job :: after ∧
    superseded outbox job = false ∧ indexable sha256 listing files job = true ∧
    (before.filter fun other => !superseded outbox other).length < limit

variable {sha256 listing limit choose} {w w' : GbrainWorld Stamp} {outbox : GbrainSyncOutbox Stamp} {files : Files}

theorem headReachable_iff :
    HeadReachable sha256 listing limit outbox files ↔
      Reachable (fun job => !superseded outbox job) (served sha256 listing ⟨outbox, files, []⟩) limit (dueJobs outbox) := by
  refine exists_congr fun before => exists_congr fun job => exists_congr fun after => and_congr_right fun _ => ?_
  rw [served, Bool.and_eq_true, Bool.not_eq_true', and_assoc]

/-- A quiet call is one round of the queue. -/
theorem Quiet.dueJobs (h : Quiet w ((dueJobs w.outbox).take limit) w') :
    sow.worker.dueJobs w'.outbox = round (fun job => !sow.worker.superseded w.outbox job) limit (sow.worker.dueJobs w.outbox) := by
  refine sow.sql.eq_of_strict SyncJob.order dueJobs_strict (dueJobs_strict.sublist (round_sublist _)) fun job => ?_
  rw [mem_round_iff dueJobs_nodup, mem_dueJobs_iff, mem_dueJobs_iff, h.due]
  simp only [Bool.not_eq_true']

/-- Up to some call the queue has gone round and the index has been asked for nothing. -/
structure Turning (w : GbrainWorld Stamp) (limit n : Nat) (w' : GbrainWorld Stamp) : Prop where
  files : w'.files = w.files
  applied : w'.applied = w.applied
  superseded : ∀ job, superseded w'.outbox job = superseded w.outbox job
  queue : dueJobs w'.outbox = (round (fun job => !sow.worker.superseded w.outbox job) limit)^[n] (dueJobs w.outbox)

theorem afterDrains_succ {n : Nat} (hbranded : Branded (afterDrains sha256 listing limit choose w n).outbox) :
    Drained sha256 listing (afterDrains sha256 listing limit choose w n)
      ((dueJobs (afterDrains sha256 listing limit choose w n).outbox).take limit)
      (afterDrains sha256 listing limit choose w (n + 1)) :=
  (wp.run (drainGbrainSyncOutbox_wp hbranded) (fun _ _ => trivial) 0).2

/-- Whatever the calls, the vault stays as it is and the index is asked for the head only. -/
theorem afterDrains_keeps (hbranded : Branded w.outbox) (n : Nat) :
    Branded (afterDrains sha256 listing limit choose w n).outbox ∧
      (afterDrains sha256 listing limit choose w n).files = w.files ∧
        ∃ requests, (afterDrains sha256 listing limit choose w n).applied = w.applied ++ requests ∧
          ∀ request ∈ requests, request.revisionId = headRevision listing w.files sha256 := by
  induction n with
  | zero => exact ⟨hbranded, rfl, [], by simp [afterDrains], by simp⟩
  | succ n ih =>
    obtain ⟨hb, hfiles, requests, hrequests, hhead⟩ := ih
    have hcall := afterDrains_succ hb
    obtain ⟨more, hmore, hmoreHead⟩ := hcall.appended
    refine ⟨hcall.branded, hcall.files.trans hfiles, requests ++ more, ?_, fun request hrequest => ?_⟩
    · rw [← List.append_assoc, ← hrequests]
      exact hmore
    · rcases List.mem_append.mp hrequest with hmem | hmem
      · exact hhead request hmem
      · rw [hmoreHead request hmem, hfiles]

variable (sha256 listing limit choose) in
theorem afterDrains_drained (hbranded : Branded w.outbox) (n : Nat) :
    Drained sha256 listing (afterDrains sha256 listing limit choose w n)
      ((dueJobs (afterDrains sha256 listing limit choose w n).outbox).take limit)
      (afterDrains sha256 listing limit choose w (n + 1)) := afterDrains_succ (afterDrains_keeps hbranded n).1

/-- The calls turn the queue round until a row that is next in turn for the index is among the first. -/
theorem afterDrains_turning (hbranded : Branded w.outbox) {n : Nat}
    (hnone : ∀ k < n, ¬ Reached (served sha256 listing w) limit
      ((round (fun job => !superseded w.outbox job) limit)^[k] (dueJobs w.outbox))) :
    Turning w limit n (afterDrains sha256 listing limit choose w n) := by
  induction n with
  | zero => exact ⟨rfl, rfl, fun _ => rfl, rfl⟩
  | succ n ih =>
    have hturning := ih fun k hk => hnone k (by omega)
    have hcall := afterDrains_drained sha256 listing limit choose hbranded n
    have hserved : ∀ job, served sha256 listing (afterDrains sha256 listing limit choose w n) job = served sha256 listing w job := by
      intro job
      rw [served, served, hturning.superseded, hturning.files]
    have hquiet := hcall.quiet fun job hjob => by
      rw [hserved, ← Bool.not_eq_true]
      intro hjobServed
      refine hnone n (Nat.lt_succ_self n) ⟨job, ?_, hjobServed⟩
      rw [← hturning.queue]
      exact hjob
    refine ⟨hquiet.files.trans hturning.files, hquiet.applied.trans hturning.applied,
      fun job => (hquiet.superseded job).trans (hturning.superseded job), ?_⟩
    rw [hquiet.dueJobs, hturning.queue, Function.iterate_succ_apply']
    simp only [hturning.superseded]

/-- The calls come to apply the head exactly if a row for it is reachable. -/
theorem exists_headApplied_iff (hbranded : Branded outbox) :
    (∃ n, ∃ request ∈ (afterDrains sha256 listing limit choose ⟨outbox, files, []⟩ n).applied,
      request.revisionId = headRevision listing files sha256) ↔ HeadReachable sha256 listing limit outbox files := by
  have hbranded' : Branded (⟨outbox, files, []⟩ : GbrainWorld Stamp).outbox := hbranded
  rw [headReachable_iff, ← exists_reached_iff]
  constructor
  · rintro ⟨n, request, hrequest, -⟩
    by_contra hnone
    have hturning : Turning ⟨outbox, files, []⟩ limit n (afterDrains sha256 listing limit choose ⟨outbox, files, []⟩ n) :=
      afterDrains_turning hbranded' fun k _ hreached => hnone ⟨k, hreached⟩
    rw [hturning.applied] at hrequest
    cases hrequest
  · intro hreached
    -- The first round in which a row for the head stands among the first.
    classical
    let n := Nat.find hreached
    have hturning : Turning ⟨outbox, files, []⟩ limit n (afterDrains sha256 listing limit choose ⟨outbox, files, []⟩ n) :=
      afterDrains_turning hbranded' fun k hk => Nat.find_min hreached hk
    obtain ⟨job, hjob, hserved⟩ := Nat.find_spec hreached
    have hcall := afterDrains_drained sha256 listing limit choose hbranded' n
    have hhead := hcall.head ⟨job, hturning.queue ▸ hjob, by rw [served, hturning.superseded, hturning.files]; exact hserved⟩
    rw [hturning.files] at hhead
    exact ⟨n + 1, hhead⟩

/-- No call applies another revision than the head. -/
theorem applied_head (hbranded : Branded outbox) (n : Nat) {request : IndexApplyRequest}
    (hrequest : request ∈ (afterDrains sha256 listing limit choose ⟨outbox, files, []⟩ n).applied) :
    request.revisionId = headRevision listing files sha256 := by
  have hbranded' : Branded (⟨outbox, files, []⟩ : GbrainWorld Stamp).outbox := hbranded
  obtain ⟨-, -, requests, happlied, hhead⟩ := afterDrains_keeps hbranded' n
  rw [happlied, List.nil_append] at hrequest
  exact hhead request hrequest

/-- A drain comes to the head exactly if no row for it is due, or one of them is reachable. -/
theorem drainGbrainSyncOutbox_toHead_iff (sha256 : Sha256) (listing : Listing) (limit : Nat)
    (choose : Nat → Nat → GbrainOp Stamp → GbrainChoice Stamp) (outbox : GbrainSyncOutbox Stamp) (files : Files)
    (hbranded : Branded outbox) :
    DrainsToHead sha256 listing limit choose outbox files ↔
      (HeadDue sha256 listing outbox files → HeadReachable sha256 listing limit outbox files) := by
  unfold DrainsToHead
  rw [exists_headApplied_iff hbranded]
  exact and_iff_left fun n request hrequest => applied_head hbranded n hrequest

end calls

section starved

/-- The digest of an empty input. -/
def sha256OfNothing : Sha256 := fun _ => str "e3b0c44298fc1c149afbf4c8996fb92427ae41e4649b934ca495991b7852b855"

def queuedRow (outboxId revisionId : JsString) (enqueuedAt : Nat) : GbrainSyncOutboxRow Nat where
  outboxId := outboxId
  workspaceId := str "work"
  revisionId := revisionId
  planId := str "plan"
  status := str "gbrain_sync_queued"
  attempts := 0
  auditRef := str "audit"
  sourceEventRef := none
  enqueuedAt := enqueuedAt
  lastAttemptAt := none
  lastError := none

/-- The row of a revision that the vault has left, and after it one for the head of the empty vault. -/
def staleFirst : GbrainSyncOutbox Nat :=
  (GbrainSyncOutbox.empty.upsert (queuedRow (str "a") (str "rev:old") 1)).upsert
    (queuedRow (str "b") (str "rev:e3b0c44298fc1c149afbf4c8996fb92427ae41e4649b934ca495991b7852b855") 2)

def tick (_ _ : Nat) (_ : GbrainOp Nat) : GbrainChoice Nat := ⟨3, str "h1", ⟨str "work", str "r", 0, true⟩⟩

theorem staleFirst_branded : Branded staleFirst := by
  intro k row hget
  have hmem : (k, row) ∈ staleFirst.rows.entries := Map.get_eq_some_iff.mp hget
  have hall : ∀ e ∈ staleFirst.rows.entries, isBrandedId e.2.revisionId = true := by decide
  exact hall (k, row) hmem

theorem drainGbrainSyncOutbox_toHead_staleFirst :
    Branded staleFirst ∧
      (DrainsToHead sha256OfNothing memoryListing 2 tick staleFirst .empty ↔
        (HeadDue sha256OfNothing memoryListing staleFirst .empty → HeadReachable sha256OfNothing memoryListing 2 staleFirst .empty)) :=
  ⟨staleFirst_branded, drainGbrainSyncOutbox_toHead_iff sha256OfNothing memoryListing 2 tick staleFirst .empty staleFirst_branded⟩

/-- With a limit of one, the stale row is all that the drain ever works on. -/
theorem staleFirst_not_drainsToHead : ¬ DrainsToHead sha256OfNothing memoryListing 1 tick staleFirst .empty := by
  rintro ⟨hprogress, -⟩
  have hqueue : dueJobs staleFirst = [jobOf (queuedRow (str "a") (str "rev:old") 1),
      jobOf (queuedRow (str "b") (str "rev:e3b0c44298fc1c149afbf4c8996fb92427ae41e4649b934ca495991b7852b855") 2)] := by
    decide
  have hdue : HeadDue sha256OfNothing memoryListing staleFirst .empty := by
    refine ⟨_, mem_dueJobs_iff.mp (hqueue ▸ List.mem_cons_of_mem _ List.mem_cons_self), ?_⟩
    decide
  obtain ⟨before, job, after, hsplit, -, hindexable, hfew⟩ := (exists_headApplied_iff staleFirst_branded).mp (hprogress hdue)
  rw [hqueue] at hsplit
  cases before with
  | nil =>
    obtain ⟨rfl, -⟩ := List.cons.inj hsplit
    exact absurd hindexable (by decide)
  | cons first before =>
    obtain ⟨rfl, -⟩ := List.cons.inj hsplit
    have hstays : (!superseded staleFirst (jobOf (queuedRow (str "a") (str "rev:old") 1))) = true := by decide
    rw [List.filter_cons, if_pos hstays, List.length_cons] at hfew
    omega

end starved

end sow.worker
