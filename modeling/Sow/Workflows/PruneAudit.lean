import Sow.Workflows.RetentionPrune

open sow.js sow.effect sow.db
open sow.knowledge_writer (KnowledgeMutationPlan)

namespace sow.workflows.prune

/-- What the stores of a sweep have seen. -/
inductive Event where
  | offered (request : PruneSelectionRequest) (records : List PrunableRecord)
  | tombstoned (plan : KnowledgeMutationPlan)
  | deleted (recordId : JsString)
  | audited (entry : PruneAuditEntry)

def deletedIds (events : List Event) : List JsString :=
  events.filterMap fun
    | .deleted recordId => some recordId
    | _ => none

def auditedIds (events : List Event) : List JsString :=
  events.filterMap fun
    | .audited entry => some entry.recordId
    | _ => none

/-- What the environment does at a call: whether a write takes effect, and what it answers; it may
    answer anything, fail, or stop the sweep. -/
structure Fate where
  effect : Bool
  answer : (op : PruneOp) → Except Stopped op.Ret

/-- A deleted record is no longer offered. -/
def offer (events : List Event) (candidates : List PrunableRecord) : List PrunableRecord :=
  candidates.filter fun r => r.recordId ∉ deletedIds events

/-- An enumeration, as the store answers it. -/
def offering (events : List Event) (request : PruneSelectionRequest) :
    Except Stopped (Option (List PrunableRecord)) → Except Stopped (Option (List PrunableRecord)) × List Event
  | .ok (some candidates) => (.ok (some (offer events candidates)), events ++ [.offered request (offer events candidates)])
  | .ok none => (.ok none, events)
  | .error stopped => (.error stopped, events)

/-- The stores, whose writes leave an event where they take effect. -/
def stores : Handler PruneOp PruneOp.Ret Stopped (List Event) Fate where
  exec events op fate := match op with
    | .candidates request => offering events request (fate.answer (.candidates request))
    | .tombstone plan => (fate.answer (.tombstone plan), if fate.effect then events ++ [.tombstoned plan] else events)
    | .delete recordId => (fate.answer (.delete recordId), if fate.effect then events ++ [.deleted recordId] else events)
    | .record entry => (fate.answer (.record entry), if fate.effect then events ++ [.audited entry] else events)
    | op => (fate.answer op, events)

/-- A tombstone that reports success has been committed. -/
def Honest : PruneOp → Fate → Prop
  | .tombstone plan, fate => ∀ success, fate.answer (.tombstone plan) = .ok (.ok success) → fate.effect = true
  | _, _ => True

/-- A deletion that takes effect is reported as done, and the audit after it is written: no sweep
    is cut between the two. -/
def Covered : PruneOp → Fate → Prop
  | .delete recordId, fate => fate.effect = true → fate.answer (.delete recordId) = .ok (.ok ())
  | .record _, fate => fate.effect = true
  | _, _ => True

/-- A deletion is of a record that was offered and is prunable, and comes after its tombstone. -/
def Lawful (dates : IsoDates) (events : List Event) : Prop :=
  ∀ before recordId later, events = before ++ .deleted recordId :: later →
    ∃ request records r, .offered request records ∈ before ∧ r ∈ records ∧ r.recordId = recordId ∧
      Prunable dates request r ∧ ∀ plan, r.markdownRemoval = some plan → .tombstoned plan ∈ before

/-- Every deletion has an audit record. -/
def Audited (events : List Event) : Prop := deletedIds events ⊆ auditedIds events

/-- The calls that leave no event. -/
def Silent : PruneOp → Prop
  | .candidates _ => False
  | .tombstone _ => False
  | .delete _ => False
  | .record _ => False
  | _ => True

section log

variable {dates : IsoDates} {events : List Event} {e : Event}

/-- An event that is no deletion breaks no law. -/
theorem Lawful.concat (h : Lawful dates events) (he : ∀ recordId, e ≠ .deleted recordId) : Lawful dates (events ++ [e]) := by
  intro before recordId later hsplit
  rcases List.eq_nil_or_concat later with rfl | ⟨rest, last, rfl⟩
  · exact absurd (List.append_inj' hsplit rfl).2 (by simpa using he recordId)
  · rw [List.concat_eq_append, ← List.cons_append, ← List.append_assoc] at hsplit
    exact h before recordId rest (List.append_inj' hsplit rfl).1

theorem Lawful.concat_deleted (h : Lawful dates events) {request : PruneSelectionRequest} {records : List PrunableRecord}
    {r : PrunableRecord} (hoffered : .offered request records ∈ events) (hr : r ∈ records)
    (hprunable : Prunable dates request r) (htombstone : ∀ plan, r.markdownRemoval = some plan → .tombstoned plan ∈ events) :
    Lawful dates (events ++ [.deleted r.recordId]) := by
  intro before recordId later hsplit
  rcases List.eq_nil_or_concat later with rfl | ⟨rest, last, rfl⟩
  · obtain ⟨rfl, hlast⟩ := List.append_inj' hsplit rfl
    obtain rfl := Event.deleted.inj (List.cons.inj hlast).1
    exact ⟨request, records, r, hoffered, hr, rfl, hprunable, htombstone⟩
  · rw [List.concat_eq_append, ← List.cons_append, ← List.append_assoc] at hsplit
    exact h before recordId rest (List.append_inj' hsplit rfl).1

theorem deletedIds_append (events later : List Event) : deletedIds (events ++ later) = deletedIds events ++ deletedIds later :=
  List.filterMap_append

theorem auditedIds_append (events later : List Event) : auditedIds (events ++ later) = auditedIds events ++ auditedIds later :=
  List.filterMap_append

/-- An event that is no deletion leaves every deletion audited. -/
theorem Audited.concat (h : Audited events) (he : deletedIds [e] = []) : Audited (events ++ [e]) := by
  unfold Audited
  rw [deletedIds_append, auditedIds_append, he, List.append_nil]
  exact List.Subset.trans h (List.subset_append_left _ _)

theorem Audited.concat_deleted (h : Audited events) (entry : PruneAuditEntry) :
    Audited (events ++ [.deleted entry.recordId] ++ [.audited entry]) := by
  unfold Audited
  rw [deletedIds_append, deletedIds_append, auditedIds_append, auditedIds_append]
  intro recordId hmem
  simp only [List.mem_append, deletedIds, auditedIds, List.filterMap_cons, List.filterMap_nil, List.not_mem_nil, or_false,
    List.mem_singleton] at hmem ⊢
  exact hmem.imp_left fun hold => h hold

end log

/-- What a sweep keeps: its log grows, lawfully, and every deletion in it is audited. -/
structure Kept (dates : IsoDates) (events later : List Event) : Prop where
  grows : events ⊆ later
  lawful : Lawful dates later
  audited : Audited later

section sweep

variable {dates : IsoDates} {events : List Event} {adm : PruneOp → Fate → Prop} {α : Type}

theorem Kept.refl (hlawful : Lawful dates events) (haudited : Audited events) : Kept dates events events :=
  ⟨List.Subset.refl _, hlawful, haudited⟩

theorem Kept.trans {middle later : List Event} (h : Kept dates events middle) (h' : Kept dates middle later) :
    Kept dates events later := ⟨List.Subset.trans h.grows h'.grows, h'.lawful, h'.audited⟩

/-- Silent calls leave the log as it is. -/
theorem silent_wp {p : PruneM α} (hp : p.Within Silent) : wp stores adm p (fun _ later => later = events) events := by
  refine wp_of_within hp rfl fun op later fate hop _ hlater => ?_
  cases op with
  | candidates request => exact hop.elim
  | tombstone plan => exact hop.elim
  | delete recordId => exact hop.elim
  | record entry => exact hop.elim
  | _ => exact hlater

/-- The environment of a covered sweep. -/
def Sound (op : PruneOp) (fate : Fate) : Prop := Honest op fate ∧ Covered op fate

/-- A deletion goes through its audit. -/
theorem deletePayload_wp {request : PruneSelectionRequest} {records : List PrunableRecord} {r : PrunableRecord}
    (hlawful : Lawful dates events) (haudited : Audited events) (hoffered : .offered request records ∈ events) (hr : r ∈ records)
    (hprunable : Prunable dates request r) (htombstone : ∀ plan, r.markdownRemoval = some plan → .tombstoned plan ∈ events)
    (revisionId : Option JsString) :
    wp stores Sound (deletePayload r revisionId) (fun _ later => Kept dates events later) events := by
  have hrecord : ∀ (fate : Fate) (middle : List Event), Sound (.record ⟨r.recordId, r.workspaceId, revisionId⟩) fate →
      (stores.exec middle (.record ⟨r.recordId, r.workspaceId, revisionId⟩) fate).2 =
        middle ++ [.audited ⟨r.recordId, r.workspaceId, revisionId⟩] := by
    intro fate middle hfate
    have heffect : fate.effect = true := hfate.2
    exact if_pos heffect
  unfold deletePayload
  rw [wp_bind, wp_perform]
  intro fate hfate
  have hexec : stores.exec events (.delete r.recordId) fate =
      (fate.answer (.delete r.recordId), if fate.effect then events ++ [.deleted r.recordId] else events) := rfl
  rw [hexec]
  cases heffect : fate.effect with
  | true =>
    rw [hfate.2 heffect, if_pos rfl]
    change wp stores Sound (Program.perform _ >>= _) _ _
    rw [wp_bind, wp_perform]
    intro fate' hfate'
    rw [hrecord fate' _ hfate']
    have hkept : Kept dates events (events ++ [.deleted r.recordId] ++ [.audited ⟨r.recordId, r.workspaceId, revisionId⟩]) :=
      ⟨by rw [List.append_assoc]; exact List.subset_append_left _ _,
        (hlawful.concat_deleted hoffered hr hprunable htombstone).concat (fun _ => Event.noConfusion),
        haudited.concat_deleted ⟨r.recordId, r.workspaceId, revisionId⟩⟩
    split
    · exact hkept
    · exact hkept
  | false =>
    -- nothing is deleted, though an audit record may be written
    rw [if_neg Bool.false_ne_true]
    cases fate.answer (.delete r.recordId) with
    | error stopped => exact .refl hlawful haudited
    | ok answer =>
      cases answer with
      | error code => exact .refl hlawful haudited
      | ok u =>
        change wp stores Sound (Program.perform _ >>= _) _ _
        rw [wp_bind, wp_perform]
        intro fate' hfate'
        rw [hrecord fate' _ hfate']
        have hkept : Kept dates events (events ++ [.audited ⟨r.recordId, r.workspaceId, revisionId⟩]) :=
          ⟨List.subset_append_left _ _, hlawful.concat (fun _ => Event.noConfusion), haudited.concat rfl⟩
        split
        · exact hkept
        · exact hkept

/-- A removal goes through its tombstone first. -/
theorem removeRecord_wp {request : PruneSelectionRequest} {records : List PrunableRecord} {r : PrunableRecord}
    (hlawful : Lawful dates events) (haudited : Audited events) (hoffered : .offered request records ∈ events) (hr : r ∈ records)
    (hprunable : Prunable dates request r) :
    wp stores Sound (removeRecord r) (fun _ later => Kept dates events later) events := by
  unfold removeRecord tombstoneMarkdown
  cases hremoval : r.markdownRemoval with
  | none =>
    change wp stores Sound (deletePayload r none) _ events
    exact deletePayload_wp hlawful haudited hoffered hr hprunable (fun plan hplan => by rw [hremoval] at hplan; cases hplan) none
  | some plan =>
    rw [wp_bind, wp_bind, wp_perform]
    intro fate hfate
    have hexec : stores.exec events (.tombstone plan) fate =
        (fate.answer (.tombstone plan), if fate.effect then events ++ [.tombstoned plan] else events) := rfl
    rw [hexec]
    have hkept : Kept dates events (if fate.effect then events ++ [.tombstoned plan] else events) := by
      cases fate.effect with
      | true => exact ⟨List.subset_append_left _ _, hlawful.concat (fun _ => Event.noConfusion), haudited.concat rfl⟩
      | false => exact .refl hlawful haudited
    cases hanswer : fate.answer (.tombstone plan) with
    | error stopped => exact hkept
    | ok answer =>
      cases answer with
      | error code => exact hkept
      | ok success =>
        rw [if_pos (hfate.1 success hanswer)] at hkept ⊢
        change wp stores Sound (deletePayload r (some success.revisionId)) _ _
        refine (deletePayload_wp hkept.lawful hkept.audited (hkept.grows hoffered) hr hprunable ?_ _).mono fun _ _ h => hkept.trans h
        intro other hother
        rw [hremoval] at hother
        rw [← Option.some.inj hother]
        exact List.mem_append_right _ List.mem_cons_self

theorem removeDue_wp {request : PruneSelectionRequest} {records due : List PrunableRecord} {removed : List JsString}
    (hlawful : Lawful dates events) (haudited : Audited events) (hoffered : .offered request records ∈ events)
    (hdue : ∀ r ∈ due, r ∈ records ∧ Prunable dates request r) :
    wp stores Sound (removeDue due removed) (fun _ later => Kept dates events later) events := by
  induction due generalizing events removed with
  | nil => exact .refl hlawful haudited
  | cons r due ih =>
    obtain ⟨hr, hprunable⟩ := hdue r List.mem_cons_self
    unfold removeDue
    rw [wp_bind]
    refine (removeRecord_wp hlawful haudited hoffered hr hprunable).mono fun result later hkept => ?_
    cases result with
    | error stopped => exact hkept
    | ok result =>
      cases result with
      | some park => exact hkept
      | none =>
        refine (ih hkept.lawful hkept.audited (hkept.grows hoffered) ?_).mono fun _ _ h => hkept.trans h
        exact fun other hother => hdue other (List.mem_cons_of_mem _ hother)

theorem within_resolveRun (input : CreateWorkflowRunInput) : (resolveRun runs input).Within Silent := by
  have hlookup : ∀ key, (runs.getByIdempotencyKey key).Within Silent := fun key => Program.within_perform trivial
  have hcreate : (createWorkflowRun runs input).Within Silent := by
    unfold createWorkflowRun
    split
    · refine Program.Within.bind (Program.within_perform trivial) fun answer => ?_
      cases answer <;> trivial
    · trivial
  unfold resolveRun
  refine Program.Within.bind (hlookup _) fun answer => ?_
  cases answer with
  | ok run => trivial
  | error e =>
    dsimp only
    split
    · refine Program.Within.bind hcreate fun created => ?_
      cases created with
      | ok run => trivial
      | error lost =>
        refine Program.Within.bind (hlookup _) fun again => ?_
        cases again <;> trivial
    · trivial

theorem within_clock : clock.now.Within Silent ∧ clock.monotonicMs.Within Silent ∧ clock.monotonicEpoch.Within Silent :=
  ⟨Program.within_perform trivial, Program.within_perform trivial, Program.within_perform trivial⟩

theorem within_catchUp (dates : IsoDates) (input : RetentionPruneInput) : (catchUp dates input).Within Silent := by
  obtain ⟨hnow, hmono, hepoch⟩ := within_clock
  have hwall : ∀ bookkeeping, (computeElapsed.wallElapsed dates clock bookkeeping).Within Silent := by
    intro bookkeeping
    refine Program.Within.bind hnow fun now => ?_
    split <;> trivial
  have helapsed : ∀ bookkeeping, (computeElapsed dates clock bookkeeping).Within Silent := by
    intro bookkeeping
    refine Program.Within.bind hmono fun nowMono => Program.Within.bind hepoch fun nowEpoch => ?_
    split
    · split
      · trivial
      · exact hwall bookkeeping
    · exact hwall bookkeeping
  unfold catchUp
  refine Program.Within.bind (Program.within_perform trivial) fun bookkeeping => ?_
  cases bookkeeping with
  | none => trivial
  | some bookkeeping =>
    refine Program.Within.bind ?_ fun result => trivial
    exact Program.Within.bind (helapsed bookkeeping) fun elapsed => Program.Within.bind hnow fun now => trivial

theorem within_park (input : RetentionPruneInput) (outcome : RetentionPruneOutcome) (failState : RetentionPruneState) (message : JsString) :
    (park input outcome failState message).Within Silent :=
  Program.Within.bind (Program.within_perform trivial) fun _ => trivial

theorem within_advanceBookkeeping (scheduleId : JsString) : (advanceBookkeeping clock scheduleId).Within Silent := by
  obtain ⟨hnow, hmono, hepoch⟩ := within_clock
  refine Program.Within.bind hmono fun mono => Program.Within.bind hnow fun now => ?_
  cases mono with
  | none => trivial
  | some mono => exact Program.Within.bind hepoch fun epoch => trivial

/-- Silent calls keep what holds of the log. -/
theorem silent_kept {p : PruneM α} (hp : p.Within Silent) (hlawful : Lawful dates events) (haudited : Audited events) :
    wp stores adm p (fun _ later => Kept dates events later) events :=
  (silent_wp hp).mono fun _ later hlater => by rw [hlater]; exact .refl hlawful haudited

variable {input : RetentionPruneInput}

theorem sweep_wp (hwindow : atLeast 0 (input.retention.getD DEFAULT_RETENTION_POLICY).rawRetentionDays = false)
    (hlawful : Lawful dates events) (haudited : Audited events) (outcome : RetentionPruneOutcome) :
    wp stores Sound (sweep dates input outcome) (fun _ later => Kept dates events later) events := by
  unfold sweep
  rw [wp_bind]
  refine (silent_wp within_clock.1).mono fun result later hlater => ?_
  subst hlater
  cases result with
  | error stopped => exact .refl hlawful haudited
  | ok now =>
    dsimp only
    rw [wp_bind, wp_perform]
    intro fate _
    have hexec : ∀ request, stores.exec later (.candidates request) fate = offering later request (fate.answer (.candidates request)) :=
      fun _ => rfl
    rw [hexec]
    cases fate.answer (.candidates ⟨input.workspaceId, input.retention.getD DEFAULT_RETENTION_POLICY, now⟩) with
    | error stopped => exact .refl hlawful haudited
    | ok answer =>
      cases answer with
      | none => exact silent_kept (within_park _ _ _ _) hlawful haudited
      | some candidates =>
        -- the due records are prunable, and they have just been offered
        change wp stores Sound (removeDue (select dates _ (offer later candidates)).due [] >>= _) _ _
        rw [wp_bind]
        have hoffered : Kept dates later (later ++ [.offered ⟨input.workspaceId, input.retention.getD DEFAULT_RETENTION_POLICY, now⟩
            (offer later candidates)]) :=
          ⟨List.subset_append_left _ _, hlawful.concat (fun _ => Event.noConfusion), haudited.concat rfl⟩
        refine (removeDue_wp hoffered.lawful hoffered.audited (List.mem_append_right _ List.mem_cons_self) ?_).mono ?_
        · intro r hr
          obtain ⟨hmem, hdue⟩ := List.mem_filter.mp hr
          exact ⟨hmem, skipReason_eq_none hwindow (of_decide_eq_true hdue)⟩
        · intro removal after hkept
          have hkept := hoffered.trans hkept
          cases removal with
          | error stopped => exact hkept
          | ok removal =>
            obtain ⟨removed, parked⟩ := removal
            cases parked with
            | some parked => exact (silent_kept (within_park _ _ _ _) hkept.lawful hkept.audited).mono fun _ _ h => hkept.trans h
            | none =>
              refine (silent_kept (Program.Within.bind (within_advanceBookkeeping _) fun bookkeeping => ?_) hkept.lawful
                hkept.audited).mono fun _ _ h => hkept.trans h
              exact Program.Within.bind (Program.within_perform trivial) fun _ => trivial

/-- One sweep. -/
theorem runRetentionPrune_wp (hwindow : atLeast 0 (input.retention.getD DEFAULT_RETENTION_POLICY).rawRetentionDays = false)
    (hlawful : Lawful dates events) (haudited : Audited events) :
    wp stores Sound (runRetentionPrune dates input) (fun _ later => Kept dates events later) events := by
  unfold runRetentionPrune
  rw [wp_bind]
  refine (silent_wp (within_resolveRun input.run)).mono fun resolved later hlater => ?_
  subst hlater
  cases resolved with
  | error stopped => exact .refl hlawful haudited
  | ok resolved =>
    dsimp only
    rw [wp_bind]
    refine (silent_wp (within_catchUp dates input)).mono fun collapsed again hagain => ?_
    subst hagain
    cases collapsed with
    | error stopped => exact .refl hlawful haudited
    | ok collapsed =>
      cases collapsed with
      | none => exact silent_kept (within_park _ _ _ _) hlawful haudited
      | some collapsed => exact sweep_wp hwindow hlawful haudited _

end sweep

/-- A call of `runRetentionPrune`, with what its environment does. -/
structure Sweep where
  input : RetentionPruneInput
  fates : Nat → PruneOp → Fate

/-- The log after a sweep. -/
def Sweep.after (dates : IsoDates) (events : List Event) (s : Sweep) : List Event :=
  (stores.run s.fates 0 (runRetentionPrune dates s.input) events).2

/-- Under windows that no age of zero reaches, and with no sweep cut between a deletion and its audit,
    every deletion is lawful, follows its tombstone, and is audited. -/
theorem runRetentionPrune_audited (dates : IsoDates) {sweeps : List Sweep}
    (hhonest : ∀ s ∈ sweeps, ∀ n op, Honest op (s.fates n op))
    (hwindow : ∀ s ∈ sweeps, atLeast 0 (s.input.retention.getD DEFAULT_RETENTION_POLICY).rawRetentionDays = false)
    (hcovered : ∀ s ∈ sweeps, ∀ n op, Covered op (s.fates n op)) :
    Lawful dates (sweeps.foldl (Sweep.after dates) []) ∧ Audited (sweeps.foldl (Sweep.after dates) []) := by
  have hrun : ∀ events, Lawful dates events → Audited events →
      Lawful dates (sweeps.foldl (Sweep.after dates) events) ∧ Audited (sweeps.foldl (Sweep.after dates) events) := by
    induction sweeps with
    | nil => exact fun events hlawful haudited => ⟨hlawful, haudited⟩
    | cons s sweeps ih =>
      intro events hlawful haudited
      have hs := List.mem_cons_self (a := s) (l := sweeps)
      have hkept := (runRetentionPrune_wp (hwindow s hs) hlawful haudited).run
        (fun n op => ⟨hhonest s hs n op, hcovered s hs n op⟩) 0
      refine ih ?_ ?_ ?_ _ hkept.lawful hkept.audited
      · exact fun other hother => hhonest other (List.mem_cons_of_mem _ hother)
      · exact fun other hother => hwindow other (List.mem_cons_of_mem _ hother)
      · exact fun other hother => hcovered other (List.mem_cons_of_mem _ hother)
  refine hrun [] ?_ (List.nil_subset _)
  intro before recordId later hsplit
  cases before <;> cases hsplit

section oneRecording

/-- Answers without a fault; the store offers what `candidates` says. -/
def faultless (candidates : List PrunableRecord) (op : PruneOp) : Except Stopped op.Ret :=
  match op with
  | .getByIdempotencyKey _ => .ok (.error (notFound (str "workflow run")))
  | .create ref => .ok (.ok ref)
  | .getBookkeeping _ => .ok none
  | .put _ => .ok ()
  | .now => .ok (str "2026-06-01T00:00:00.000Z")
  | .monotonicMs => .ok none
  | .monotonicEpoch => .ok none
  | .candidates _ => .ok (some candidates)
  | .tombstone _ => .ok (.ok ⟨str "rev-1", false⟩)
  | .delete _ => .ok (.ok ())
  | .record _ => .ok true
  | .surface _ => .ok true

/-- A recording whose synthesis has been audited. -/
def recording : PrunableRecord where
  recordId := str "rec-1"
  workspaceId := str "personal"
  contentClass := str "raw_audio"
  assistantHeld := true
  externallyAuthoritative := false
  humanOwned := false
  capturedAt := none
  auditedSynthesisExists := some true
  dispositionState := some .dispositioned
  alreadyPruned := none
  markdownRemoval := none

def nightly : RetentionPruneInput :=
  ⟨⟨str "retention-1", str "schedule", str "retention:1", some (str "personal")⟩, str "retention", 86400000, 604800000, str "personal", none⟩

def undated : IsoDates := ⟨fun _ => none, fun _ => str "1970-01-01T00:00:00.000Z"⟩

/-- A sweep in which nothing goes wrong. -/
def cleanSweep (candidates : List PrunableRecord) : Sweep := ⟨nightly, fun _ _ => ⟨true, faultless candidates⟩⟩

/-- A sweep whose process ends when the audit is to be written. -/
def cutSweep (candidates : List PrunableRecord) : Sweep where
  input := nightly
  fates _ op := match op with
    | .record _ => ⟨false, fun _ => .error ⟨⟩⟩
    | _ => ⟨true, faultless candidates⟩

theorem runRetentionPrune_audited_recording :
    Lawful undated ([cleanSweep [recording], cleanSweep []].foldl (Sweep.after undated) []) ∧
      Audited ([cleanSweep [recording], cleanSweep []].foldl (Sweep.after undated) []) := by
  refine runRetentionPrune_audited undated ?_ ?_ ?_
  · intro s hs n op
    simp only [List.mem_cons, List.not_mem_nil, or_false] at hs
    obtain rfl | rfl := hs <;> cases op <;> first | trivial | exact fun _ _ => rfl
  · intro s hs
    simp only [List.mem_cons, List.not_mem_nil, or_false] at hs
    obtain rfl | rfl := hs <;> decide
  · intro s hs n op
    simp only [List.mem_cons, List.not_mem_nil, or_false] at hs
    obtain rfl | rfl := hs <;> cases op <;> first | trivial | exact fun _ => rfl

/-- Cut there, the recording is deleted, and no later sweep writes its audit. -/
theorem runRetentionPrune_unaudited :
    deletedIds ([cutSweep [recording], cleanSweep [recording]].foldl (Sweep.after undated) []) = [str "rec-1"] ∧
      auditedIds ([cutSweep [recording], cleanSweep [recording]].foldl (Sweep.after undated) []) = [] := by
  decide +kernel

end oneRecording

end sow.workflows.prune
