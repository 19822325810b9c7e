import Sow.Effect.Wp
import Sow.Integrations.Tools.ToolModel

open sow.js sow.effect sow.contracts sow.db sow.sql

namespace sow.tools

variable {Time Payload : Type}

theorem not_mem_of_getOutboxEntry {outbox : List (OutboxEntry Time Payload)} {k : JsString} {e : DbError}
    (h : tables.getOutboxEntry outbox k = .error e) : ∀ entry ∈ outbox, entry.idempotencyKey ≠ k := by
  unfold tables.getOutboxEntry at h
  cases hfind : outbox.find? fun r => r.idempotencyKey = k with
  | none => simpa using hfind
  | some found =>
    rw [hfind] at h
    cases h

variable [LinearOrder Time]

/-- The entry is listed as due at every sufficiently late time, given room in the page. -/
def EventuallyDue (outbox : List (OutboxEntry Time Payload)) (entry : OutboxEntry Time Payload) : Prop :=
  ∃ late, ∀ now, late ≤ now → ∀ limit, outbox.length ≤ limit → entry ∈ tables.listDue outbox now limit

/-- The outbox has an entry of the key that has been written or is going to be driven. -/
def Redriven (outbox : List (OutboxEntry Time Payload)) (idempotencyKey : JsString) : Prop :=
  ∃ entry ∈ outbox, entry.idempotencyKey = idempotencyKey ∧ (entry.writeReceipt.isSome ∨ EventuallyDue outbox entry)

/-- An entry that is not terminal is eventually due. -/
theorem eventuallyDue_of_not_terminal {outbox : List (OutboxEntry Time Payload)} {entry : OutboxEntry Time Payload}
    (hmem : entry ∈ outbox) (hstatus : entry.status ∉ OUTBOX_TERMINAL) : EventuallyDue outbox entry := by
  refine ⟨entry.nextAttemptAt.getD entry.enqueuedAt, fun now hnow limit hlimit => ?_⟩
  have hdue : tables.isDue now entry = true := by
    unfold tables.isDue
    rw [Bool.and_eq_true, decide_eq_true_eq]
    refine ⟨hstatus, ?_⟩
    cases hnext : entry.nextAttemptAt with
    | none => rfl
    | some t =>
      rw [hnext] at hnow
      simpa using hnow
  unfold tables.listDue
  rw [List.take_of_length_le, mem_orderBy, List.mem_filter]
  · exact ⟨hmem, hdue⟩
  · rw [length_orderBy]
    exact (List.length_filter_le ..).trans hlimit

/-- A terminal entry is never due. -/
theorem not_eventuallyDue_of_terminal {outbox : List (OutboxEntry Time Payload)} {entry : OutboxEntry Time Payload}
    (hstatus : entry.status ∈ OUTBOX_TERMINAL) : ¬ EventuallyDue outbox entry := by
  rintro ⟨late, hdue⟩
  have hmem := List.mem_of_mem_take (hdue late (le_refl _) _ (le_refl _))
  rw [mem_orderBy, List.mem_filter] at hmem
  simp [tables.isDue, hstatus] at hmem

/-- What is going to be driven, by the status of the entries. -/
theorem redriven_iff (outbox : List (OutboxEntry Time Payload)) (k : JsString) :
    Redriven outbox k ↔
      ∃ entry ∈ outbox, entry.idempotencyKey = k ∧ (entry.status ∉ OUTBOX_TERMINAL ∨ entry.writeReceipt.isSome) := by
  constructor
  · rintro ⟨entry, hmem, hkey, hreceipt | hdue⟩
    · exact ⟨entry, hmem, hkey, .inr hreceipt⟩
    · exact ⟨entry, hmem, hkey, .inl fun hstatus => not_eventuallyDue_of_terminal hstatus hdue⟩
  · rintro ⟨entry, hmem, hkey, hstatus | hreceipt⟩
    · exact ⟨entry, hmem, hkey, .inr (eventuallyDue_of_not_terminal hmem hstatus)⟩
    · exact ⟨entry, hmem, hkey, .inl hreceipt⟩

/-- A hold is never terminal. -/
theorem toOutboxStatus_not_terminal (reason : HoldReason) : toOutboxStatus reason ∉ OUTBOX_TERMINAL := by
  cases reason <;> decide

/-- What a hold that answers with an entry leaves in the outbox. -/
def Held (k : JsString) (r : Except Cause (DbResult (OutboxEntry Time Payload))) (w : ToolWorld Time Payload) : Prop :=
  ∀ entry, r = .ok (.ok entry) → Redriven w.outbox k

/-- An entry of the key, if there is one, is going to be driven. -/
def KeptUnder (outbox : List (OutboxEntry Time Payload)) (k : JsString) : Prop :=
  (∃ entry ∈ outbox, entry.idempotencyKey = k) → Redriven outbox k

/-- A lookup that finds an entry finds one of the key. -/
theorem KeptUnder.found {outbox : List (OutboxEntry Time Payload)} {k : JsString} {entry : OutboxEntry Time Payload}
    (hkept : KeptUnder outbox k) (h : tables.getOutboxEntry outbox k = .ok entry) : Redriven outbox k := by
  unfold tables.getOutboxEntry at h
  cases hfind : outbox.find? fun r => r.idempotencyKey = k with
  | none => simp [hfind] at h
  | some found =>
    refine hkept ⟨found, List.mem_of_find?_eq_some hfind, ?_⟩
    simpa using List.find?_some hfind

/-- A held entry is going to be driven once it is in the outbox. -/
theorem redriven_enqueue {outbox : List (OutboxEntry Time Payload)} {entry : OutboxEntry Time Payload}
    (hstatus : entry.status ∉ OUTBOX_TERMINAL) : Redriven (outbox ++ [entry]) entry.idempotencyKey := by
  have hmem : entry ∈ outbox ++ [entry] := List.mem_append_right _ (List.mem_singleton_self _)
  exact ⟨entry, hmem, rfl, .inr (eventuallyDue_of_not_terminal hmem hstatus)⟩

section hold

variable {epoch : Time} {redactString : JsString → JsString} {w : ToolWorld Time Payload}

theorem wp_outboxHealth (deps : OutboxHealthDeps Time) :
    wp (toolHandler epoch) (fun _ _ => True) (outboxHealth redactString deps : ToolM Time Payload OutboxHealthProbe)
      (fun _ w' => w' = w) w := by
  unfold outboxHealth
  apply wp_answers (fun d _ => stored_answers d w w (.ok (tables.listDue w.outbox deps.now deps.limit)))
  rintro r w' (⟨rfl, rfl⟩ | ⟨e, rfl, rfl | rfl⟩)
  · rfl
  · rfl
  · rfl

/-- The health probe reads the outbox and leaves it alone. -/
theorem wp_runHealthProbe (health : Option (OutboxHealthDeps Time)) :
    wp (toolHandler epoch) (fun _ _ => True) (runHealthProbe redactString health : ToolM Time Payload Unit)
      (fun r w' => r = .ok () ∧ w' = w) w := by
  cases health with
  | none => exact ⟨rfl, rfl⟩
  | some deps =>
    unfold runHealthProbe
    rw [wp_tryCatch, wp_bind]
    refine wp.mono (wp_outboxHealth deps) fun r w' hw => ?_
    subst hw
    cases r with
    | error e => exact ⟨rfl, rfl⟩
    | ok probe =>
      unfold Hooks.health
      dsimp only
      rw [wp_perform]
      intro d _
      simp only [toolHandler]
      cases d.sink with
      | error e => exact ⟨rfl, rfl⟩
      | ok u => exact ⟨trivial, trivial⟩

/-- After the probe a hold answers, with the outbox as it was. -/
theorem wp_probed (health : Option (OutboxHealthDeps Time)) {k : JsString} {entry : OutboxEntry Time Payload}
    (hredriven : Redriven w.outbox k) :
    wp (toolHandler epoch) (fun _ _ => True) (do
      runHealthProbe redactString health
      pure (.ok entry) : ToolM Time Payload (DbResult (OutboxEntry Time Payload))) (Held k) w := by
  rw [wp_bind]
  refine wp.mono (wp_runHealthProbe health) ?_
  rintro r w' ⟨rfl, rfl⟩
  exact fun _ _ => hredriven

theorem wp_reuseWinner (k : JsString) (e : DbError) (hkept : KeptUnder w.outbox k) :
    wp (toolHandler epoch) (fun _ _ => True) (reuseWinner k e) (Held k) w := by
  unfold reuseWinner
  apply wp_answers (fun d _ => stored_answers d w w (tables.getOutboxEntry w.outbox k))
  rintro r w' (⟨rfl, rfl⟩ | ⟨e', rfl, rfl | rfl⟩)
  · cases hfound : tables.getOutboxEntry w'.outbox k with
    | ok winner => exact fun _ _ => hkept.found hfound
    | error e' => exact fun _ h => nomatch h
  · exact fun _ h => nomatch h
  · exact fun _ h => nomatch h

theorem wp_holdFresh (health : Option (OutboxHealthDeps Time)) (args : HoldWriteArgs Payload)
    (hkept : KeptUnder w.outbox args.env.idempotencyKey) :
    wp (toolHandler epoch) (fun _ _ => True) (holdFresh redactString health args) (Held args.env.idempotencyKey) w := by
  unfold holdFresh
  apply wp_answers (P := fun _ w' => w'.outbox = w.outbox) (fun d _ => ⟨_, _, rfl, rfl⟩)
  intro now w₁ hclock
  apply wp_answers (P := fun _ w' => w₁ = w') (fun d _ => ⟨_, _, rfl, rfl⟩)
  rintro outboxId _ rfl
  rw [← hclock] at hkept
  have hstatus : (heldEntry args outboxId now : OutboxEntry Time Payload).status ∉ OUTBOX_TERMINAL :=
    toOutboxStatus_not_terminal args.reason
  -- Whatever becomes of the insertion, an entry under the key is going to be driven.
  have hinserted : KeptUnder (tables.enqueue w₁.outbox (heldEntry args outboxId now)).2 args.env.idempotencyKey := by
    unfold tables.enqueue
    split_ifs with hduplicate
    · exact hkept
    · exact fun _ => redriven_enqueue hstatus
  have hlost : ∀ e w', KeptUnder w'.outbox args.env.idempotencyKey → wp (toolHandler epoch) (fun _ _ => True)
      (if e.code = DbErrorCode.conflict then reuseWinner args.env.idempotencyKey e else pure (.error e))
      (@Held Time Payload _ args.env.idempotencyKey) w' := by
    intro e w' hkept'
    split_ifs with hconflict
    · exact wp_reuseWinner _ _ hkept'
    · exact fun _ h => nomatch h
  apply wp_answers (fun d _ => stored_answers d w₁ { w₁ with outbox := (tables.enqueue w₁.outbox (heldEntry args outboxId now)).2 }
    (tables.enqueue w₁.outbox (heldEntry args outboxId now)).1)
  rintro r w' (⟨rfl, rfl⟩ | ⟨e, rfl, rfl | rfl⟩)
  · by_cases hduplicate : w₁.outbox.any fun r => r.outboxId = outboxId
    · have hrefused : (tables.enqueue w₁.outbox (heldEntry args outboxId now)).1 = .error duplicateKey := by
        unfold tables.enqueue
        exact congrArg Prod.fst (if_pos hduplicate)
      rw [hrefused]
      exact hlost _ _ hinserted
    · have hdone : tables.enqueue w₁.outbox (heldEntry args outboxId now) =
          (.ok (heldEntry args outboxId now), w₁.outbox ++ [heldEntry args outboxId now]) := by
        unfold tables.enqueue
        exact if_neg hduplicate
      rw [hdone]
      exact wp_probed health (redriven_enqueue hstatus)
  · exact hlost _ _ hkept
  · exact hlost _ _ hinserted

/-- A hold that answers with an entry leaves one that is going to be driven, provided
    that an entry it finds under the key was. -/
theorem wp_holdWrite (health : Option (OutboxHealthDeps Time)) (args : HoldWriteArgs Payload)
    (hkept : KeptUnder w.outbox args.env.idempotencyKey) :
    wp (toolHandler epoch) (fun _ _ => True) (holdWrite redactString health args) (Held args.env.idempotencyKey) w := by
  unfold holdWrite
  apply wp_answers (fun d _ => stored_answers d w w (tables.getOutboxEntry w.outbox args.env.idempotencyKey))
  rintro r w' (⟨rfl, rfl⟩ | ⟨e, rfl, rfl | rfl⟩)
  · cases hfound : tables.getOutboxEntry w'.outbox args.env.idempotencyKey with
    | ok existing => exact wp_probed health (hkept.found hfound)
    | error e => exact wp_holdFresh health args hkept
  · exact wp_holdFresh health args hkept
  · exact wp_holdFresh health args hkept

/-- Without faults a hold of a key that is there answers with the entry it finds. -/
theorem wp_holdWrite_existing (health : Option (OutboxHealthDeps Time)) (args : HoldWriteArgs Payload)
    {entry : OutboxEntry Time Payload} (hfound : tables.getOutboxEntry w.outbox args.env.idempotencyKey = .ok entry) :
    wp (toolHandler epoch) (fun _ d => d.fault = none) (holdWrite redactString health args)
      (fun r w' => r = .ok (.ok entry) ∧ w' = w) w := by
  unfold holdWrite
  apply wp_answers (P := fun r w' => r = .ok entry ∧ w = w')
  · intro d hd
    refine ⟨.ok entry, w, ?_, rfl, rfl⟩
    simp only [toolHandler, stored, hd, hfound]
  · rintro _ _ ⟨rfl, rfl⟩
    dsimp only
    rw [wp_bind]
    refine wp.mono (wp.mono_adm (fun _ _ _ => trivial) (wp_runHealthProbe health)) ?_
    rintro _ _ ⟨rfl, rfl⟩
    exact ⟨rfl, rfl⟩

end hold

theorem holdWrite_calm (epoch : Time) (redactString : JsString → JsString) (health : Option (OutboxHealthDeps Time))
    (args : HoldWriteArgs Payload) (w : ToolWorld Time Payload) {entry : OutboxEntry Time Payload}
    (hfound : tables.getOutboxEntry w.outbox args.env.idempotencyKey = .ok entry) :
    (toolHandler epoch).run (fun _ _ => Choice.calm w.now) 0 (holdWrite redactString health args) w = (.ok (.ok entry), w) := by
  have hexisting : wp (toolHandler epoch) (fun _ d => d.fault = none) (holdWrite redactString health args)
      (fun r w' => r = .ok (.ok entry) ∧ w' = w) w := wp_holdWrite_existing health args hfound
  obtain ⟨hr, hw⟩ := hexisting.run (fun _ _ => rfl : ∀ _ _, (Choice.calm w.now).fault = none) 0
  exact Prod.ext hr hw

/-- A held write is always going to be driven, whatever fails during the hold, exactly
    if the outbox does not hold dead entries only under its key. -/
theorem holdWrite_redriven_iff (epoch : Time) (redactString : JsString → JsString) (health : Option (OutboxHealthDeps Time))
    (args : HoldWriteArgs Payload) (w : ToolWorld Time Payload) :
    (∀ (choose : Nat → ToolOp Time Payload → Choice Time) (entry : OutboxEntry Time Payload),
      ((toolHandler epoch).run choose 0 (holdWrite redactString health args) w).1 = .ok (.ok entry) →
      Redriven ((toolHandler epoch).run choose 0 (holdWrite redactString health args) w).2.outbox args.env.idempotencyKey) ↔
    (∀ entry ∈ w.outbox, entry.idempotencyKey ≠ args.env.idempotencyKey) ∨
      ∃ entry ∈ w.outbox, entry.idempotencyKey = args.env.idempotencyKey ∧
        (entry.status ∉ OUTBOX_TERMINAL ∨ entry.writeReceipt.isSome) := by
  rw [← redriven_iff]
  constructor
  · intro hdriven
    cases hfound : tables.getOutboxEntry w.outbox args.env.idempotencyKey with
    | ok entry =>
      have hkept := hdriven (fun _ _ => Choice.calm w.now) entry
      rw [holdWrite_calm epoch redactString health args w hfound] at hkept
      exact .inr (hkept rfl)
    | error e => exact .inl (not_mem_of_getOutboxEntry hfound)
  · intro hkept choose
    have hunder : KeptUnder w.outbox args.env.idempotencyKey := by
      rintro ⟨entry, hmem, hkey⟩
      exact hkept.resolve_left fun hnone => hnone entry hmem hkey
    exact (wp_holdWrite health args hunder).run (fun _ _ => trivial) 0

section stranded

/-- A write that the vendor refused once. -/
def refusedWrite : HoldWriteArgs Unit where
  env := ⟨str "a1", .todoist, str "t1", str "k1", [], str "h1"⟩
  action := ⟨str "a1", .todoist, str "t1", (), str "p", str "k1"⟩
  reason := .unreachable
  workspaceId := str "w1"

/-- Its entry is as a drain leaves it on a conflict. -/
def refusedWorld : ToolWorld Nat Unit where
  outbox := [closeRejected (heldEntry refusedWrite (str "o1") 0) 1]
  receipts := .empty
  applications := .empty
  preexisting := fun _ => none
  calls := []
  now := 1

theorem holdWrite_strands_refused :
    ¬ ∀ (choose : Nat → ToolOp Nat Unit → Choice Nat) (entry : OutboxEntry Nat Unit),
      ((toolHandler 0).run choose 0 (holdWrite id none refusedWrite) refusedWorld).1 = .ok (.ok entry) →
      Redriven ((toolHandler 0).run choose 0 (holdWrite id none refusedWrite) refusedWorld).2.outbox (str "k1") := by
  intro hdriven
  have hcalm : (toolHandler 0).run (fun _ _ => Choice.calm 1) 0 (holdWrite id none refusedWrite) refusedWorld =
      (.ok (.ok (closeRejected (heldEntry refusedWrite (str "o1") 0) 1)), refusedWorld) :=
    holdWrite_calm 0 id none refusedWrite refusedWorld rfl
  have hkept := hdriven (fun _ _ => Choice.calm 1) (closeRejected (heldEntry refusedWrite (str "o1") 0) 1)
  rw [hcalm] at hkept
  have hdead := (redriven_iff _ _).mp (hkept rfl)
  revert hdead
  decide

end stranded

end sow.tools
