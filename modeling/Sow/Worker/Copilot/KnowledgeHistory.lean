import Sow.Domain.State.Machines
import Sow.Worker.Copilot.SemanticDispatch

open sow.js sow.effect sow.contracts sow.db sow.domain sow.integrations sow.markdown_vault
open sow.knowledge_writer (Sha256 KwOp KnowledgeMutationPlan)
open sow.tools (duplicateKey)
open sow.worker (readWorkspace)
open sow.workflows (SlugTables)

namespace sow.copilot

/-- What the channel of the proposals is built with. -/
structure KnowledgeChannel where
  tables : CaseTables
  sink : KnowledgeProposeSinkDeps
  dispatch : SemanticDispatchDeps

def KnowledgeChannel.sha256 (channel : KnowledgeChannel) : Sha256 := channel.dispatch.commit.deps.sha256

/-- The note that the proposals are for. -/
structure ProposedNote where
  workspaceId : JsString
  path : Path

/-- A card that no decision has ended. -/
def isUndecided (card : Approval) : Bool := card.status = .pending || card.status = .deferred

def KnowledgeWorld.withCard (w : KnowledgeWorld) (id : JsString) (card : Approval) : KnowledgeWorld :=
  { w with approvals := w.approvals.set id card }

/-- A decision sets who has made it, where and until when, and keeps what the card is for. -/
def decidedCard (card : Approval) (status : ApprovalStatus) (actor : JsString) (via : Channel) (snoozeUntil : Option JsString) : Approval :=
  { card with status := status, actor := actor, channel := via, snoozeUntil := snoozeUntil }

/-- The bytes of which the digest of a plan is taken. -/
def canonicalBytes (plan : Json) : List UInt8 := utf8 (Json.stringify (canonicalize plan))

section channel

variable (listing : Listing) (channel : KnowledgeChannel) (note : ProposedNote)

def KnowledgeChannel.planIdOf : JsString := proposePlanId channel.tables channel.sha256 note.path

def KnowledgeChannel.cardIdOf : JsString :=
  knowledgeApprovalId channel.tables channel.sha256 (channel.planIdOf note) note.workspaceId

def KnowledgeChannel.record (plan : KnowledgeMutationPlan) : KnowledgeM (Except FailureVariant CopilotKnowledgeProposeReceipt) :=
  recordKnowledge channel.tables channel.sha256 channel.sink plan note.workspaceId

/-- A plan that is derived for the note from what the model supplies. -/
def KnowledgeChannel.Proposes (plan : KnowledgeMutationPlan) : Prop :=
  ∃ intent deps, deps.workspaceId = note.workspaceId ∧ intentNotePath channel.dispatch.slugs note.workspaceId intent = some note.path ∧
    deriveCopilotProjectKnowledgePlan channel.dispatch.slugs channel.tables channel.sha256 channel.dispatch.schema intent deps = .ok plan

/-- One step of the history of the note: a plan is recorded, its card is decided or expires, or the card is
    dispatched. A call may crash between any two accesses to the stores, and any access may fail. -/
inductive KnowledgeStep (w : KnowledgeWorld) : KnowledgeWorld → Prop
  | record {plan : KnowledgeMutationPlan} {w' : KnowledgeWorld} (hplan : channel.Proposes note plan)
      (hleaves : Leaves (knowledgePorts listing) (fun _ _ => True) (channel.record note plan) w w') : KnowledgeStep w w'
  | decide {card : Approval} {status : ApprovalStatus} (actor : JsString) (via : Channel) (snoozeUntil : Option JsString)
      (hcard : w.approvals.get (channel.cardIdOf note) = some card) (hedge : approvalMachine.transition card.status status = .ok status) :
      KnowledgeStep w (w.withCard (channel.cardIdOf note) (decidedCard card status actor via snoozeUntil))
  | dispatch {card : Approval} {w' : KnowledgeWorld} (hcard : w.approvals.get (channel.cardIdOf note) = some card)
      (hleaves : Leaves (knowledgePorts listing) (fun _ _ => True) (semanticMutationDispatch channel.dispatch card) w w') : KnowledgeStep w w'

/-- The note has no plan and no card. -/
structure Unproposed (w : KnowledgeWorld) : Prop where
  plan : w.plans.get (channel.planIdOf note) = none
  card : w.approvals.get (channel.cardIdOf note) = none

/-- The worlds after any history of the note. -/
def KnowledgeHistory : KnowledgeWorld → KnowledgeWorld → Prop := Relation.ReflTransGen (KnowledgeStep listing channel note)

/-- No store fails. -/
def StoresProceed (_ : KnowledgeOp) (d : KnowledgeChoice) : Prop := d.fault = none

/-- What the channel owes to a proposal. -/
structure HonestRecord (plan : KnowledgeMutationPlan) (w : KnowledgeWorld) : Prop where
  /-- Where no card is undecided, the proposal gets its card. -/
  live : (∀ card, w.approvals.get (channel.cardIdOf note) = some card → isUndecided card = false) →
    wp (knowledgePorts listing) StoresProceed (channel.record note plan) (fun _ w' => ∃ card,
      w'.approvals.get (channel.cardIdOf note) = some card ∧ card.status = .pending ∧ card.planRef = some plan.planId ∧
        card.payloadHash = payloadHash channel.sha256 plan.data) w
  /-- A receipt is for an undecided card, and for the plan that is stored. -/
  receipt : wp (knowledgePorts listing) (fun _ _ => True) (channel.record note plan) (fun r w' => ∀ receipt, r = .ok (.ok receipt) →
    (∃ card, w'.approvals.get receipt.approvalRef = some card ∧ isUndecided card = true) ∧
      ∃ row, w'.plans.get plan.planId = some row ∧ canonicalBytes row.plan = canonicalBytes plan.data) w
  /-- A proposal is refused for a conflict only while a card for a different plan is undecided. -/
  conflict : wp (knowledgePorts listing) (fun _ _ => True) (channel.record note plan) (fun r _ =>
    ∀ e, r = .ok (.error e) → e.cause = some PLAN_CONFLICT → ∃ card, w.approvals.get (channel.cardIdOf note) = some card ∧
      isUndecided card = true ∧ card.payloadHash ≠ payloadHash channel.sha256 plan.data) w

/-- The note has no plan yet, or its card is undecided, or it has no card and its plan is the one proposed. -/
def Recordable (plan : KnowledgeMutationPlan) (w : KnowledgeWorld) : Prop :=
  ∀ row, w.plans.get (channel.planIdOf note) = some row →
    (∃ card, w.approvals.get (channel.cardIdOf note) = some card ∧ isUndecided card = true) ∨
      (w.approvals.get (channel.cardIdOf note) = none ∧ row.payloadHash = payloadHash channel.sha256 plan.data)

/-- The row and the card of the note belong together. -/
structure NoteSound (w : KnowledgeWorld) : Prop where
  digest : ∀ row, w.plans.get (channel.planIdOf note) = some row → row.payloadHash = payloadHash channel.sha256 row.plan
  bound : ∀ card, w.approvals.get (channel.cardIdOf note) = some card → card.id = channel.cardIdOf note ∧
    ∃ row, w.plans.get (channel.planIdOf note) = some row ∧ row.payloadHash = card.payloadHash

end channel

section sound

variable {listing : Listing} {channel : KnowledgeChannel} {note : ProposedNote} {w w' : KnowledgeWorld}

/-- Settling a row leaves the plan of every row. -/
theorem get_settlePlan {plans : Map JsString PendingKnowledgeMutation} {entry row : PendingKnowledgeMutation} {planId : JsString}
    (h : (settlePlan plans entry).2.get planId = some row) :
    ∃ row', plans.get planId = some row' ∧ row.plan = row'.plan ∧ row.payloadHash = row'.payloadHash := by
  unfold settlePlan at h
  cases hentry : plans.get entry.planId with
  | none =>
    rw [hentry] at h
    exact ⟨row, h, rfl, rfl⟩
  | some stored =>
    rw [hentry] at h
    simp only [Map.get_set] at h
    split at h
    · next heq =>
      obtain rfl := Option.some.inj h
      exact ⟨stored, by rw [← heq, hentry], rfl, rfl⟩
    · exact ⟨row, h, rfl, rfl⟩

theorem isSome_settlePlan {plans : Map JsString PendingKnowledgeMutation} (entry : PendingKnowledgeMutation)
    {row : PendingKnowledgeMutation} {planId : JsString} (h : plans.get planId = some row) : ∃ row', (settlePlan plans entry).2.get planId = some row' ∧ row'.payloadHash = row.payloadHash := by
  unfold settlePlan
  cases hentry : plans.get entry.planId with
  | none => exact ⟨row, h, rfl⟩
  | some stored =>
    simp only [Map.get_set]
    split
    · next heq =>
      rw [← heq, hentry] at h
      obtain rfl := Option.some.inj h
      exact ⟨_, rfl, rfl⟩
    · exact ⟨row, h, rfl⟩

/-- Rows that keep their plans, and cards that stay, keep the note sound. -/
theorem NoteSound.settle (h : NoteSound channel note w) (entry : PendingKnowledgeMutation) :
    NoteSound channel note { w with plans := (settlePlan w.plans entry).2 } := by
  refine ⟨fun row hrow => ?_, fun card hcard => ?_⟩
  · obtain ⟨row', hrow', hplan, hhash⟩ := get_settlePlan hrow
    rw [hhash, hplan]
    exact h.digest row' hrow'
  · obtain ⟨hid, row, hrow, hhash⟩ := h.bound card hcard
    obtain ⟨row', hrow', hhash'⟩ := isSome_settlePlan entry hrow
    exact ⟨hid, row', hrow', hhash'.trans hhash⟩

theorem NoteSound.step (h : NoteSound channel note w) {op : KnowledgeOp} (d : KnowledgeChoice) (hop : op.settlesOnly) :
    NoteSound channel note ((knowledgePorts listing).exec w op d).2 := by
  cases op with
  | recordPlan entry => exact hop.elim
  | createApproval card => exact hop.elim
  | updatePlan entry =>
    simp only [knowledgePorts]
    split
    · exact h.settle entry
    · exact h
  | kw op => exact ⟨h.digest, h.bound⟩
  | _ => exact h

theorem NoteSound.decide (h : NoteSound channel note w) {card : Approval} (hcard : w.approvals.get (channel.cardIdOf note) = some card)
    (status : ApprovalStatus) (actor : JsString) (via : Channel) (snoozeUntil : Option JsString) :
    NoteSound channel note (w.withCard (channel.cardIdOf note) (decidedCard card status actor via snoozeUntil)) := by
  refine ⟨h.digest, fun card' hcard' => ?_⟩
  unfold KnowledgeWorld.withCard at hcard'
  simp only [Map.get_set_self, Option.some.injEq] at hcard'
  subst hcard'
  exact h.bound card hcard

/-- No failure of a store is reported as a conflict of plans. -/
theorem cause_dbErrorToKnowledgeFailure (e : DbError) : (dbErrorToKnowledgeFailure e).cause ≠ some PLAN_CONFLICT := by
  unfold dbErrorToKnowledgeFailure
  split <;> decide

section record

variable {plan : KnowledgeMutationPlan}

/-- The stored plan of the note is the one proposed. -/
def Adopted (channel : KnowledgeChannel) (note : ProposedNote) (plan : KnowledgeMutationPlan) (w : KnowledgeWorld) : Prop :=
  ∃ row, w.plans.get (channel.planIdOf note) = some row ∧ row.payloadHash = payloadHash channel.sha256 plan.data

/-- The card that a receipt is for: it was there, or there was none and it is new. -/
def Receipted (channel : KnowledgeChannel) (note : ProposedNote) (w : KnowledgeWorld) (receipt : CopilotKnowledgeProposeReceipt) (w' : KnowledgeWorld) :
    Prop :=
  receipt.approvalRef = channel.cardIdOf note ∧ ∃ card, w'.approvals.get (channel.cardIdOf note) = some card ∧
    (w.approvals.get (channel.cardIdOf note) = some card ∨ (w.approvals.get (channel.cardIdOf note) = none ∧ card.status = .pending))

/-- How a proposal ends that starts in `w`. -/
structure RecordSpec (channel : KnowledgeChannel) (note : ProposedNote) (plan : KnowledgeMutationPlan) (w : KnowledgeWorld)
    (r : Except Cause (Except FailureVariant CopilotKnowledgeProposeReceipt)) (w' : KnowledgeWorld) : Prop where
  receipt : ∀ receipt, r = .ok (.ok receipt) → Adopted channel note plan w' ∧ Receipted channel note w receipt w'
  conflict : ∀ e, r = .ok (.error e) → e.cause = some PLAN_CONFLICT →
    ∃ row, w.plans.get (channel.planIdOf note) = some row ∧ row.payloadHash ≠ payloadHash channel.sha256 plan.data

theorem RecordSpec.fails {e : FailureVariant} (he : e.cause ≠ some PLAN_CONFLICT) :
    RecordSpec channel note plan w (.ok (.error e)) w' :=
  ⟨fun _ h => by simp at h, fun e' h hcause => absurd (Except.error.inj (Except.ok.inj h) ▸ hcause) he⟩

theorem recordSpec_dbError (e : DbError) : RecordSpec channel note plan w (.ok (.error (dbErrorToKnowledgeFailure e))) w' :=
  .fails (cause_dbErrorToKnowledgeFailure e)

/-- A card of the note is for its stored plan. -/
theorem reconcileApproval_eq (hsound : NoteSound channel note w) (hadopted : Adopted channel note plan w) {card : Approval}
    (hcard : w.approvals.get (channel.cardIdOf note) = some card) :
    reconcileApproval card (payloadHash channel.sha256 plan.data) plan.planId = .ok ⟨channel.cardIdOf note, plan.planId, false⟩ := by
  obtain ⟨hid, row, hrow, hhash⟩ := hsound.bound card hcard
  obtain ⟨row', hrow', hhash'⟩ := hadopted
  rw [hrow] at hrow'
  obtain rfl := Option.some.inj hrow'
  unfold reconcileApproval
  rw [if_pos (hhash.symm.trans hhash'), hid]

theorem get_of_readApproval {table : Approvals} {id : JsString} {card : Approval} {fault : Option DbError}
    (h : fault.elim (readApproval table id) .error = .ok card) : table.get id = some card := by
  cases fault with
  | some e => cases h
  | none =>
    unfold readApproval at h
    simp only [Option.elim_none] at h
    split at h
    · next row hrow =>
      rw [hrow, Except.ok.inj h]
    · cases h

/-- A new card of the stored plan belongs to the note. -/
theorem NoteSound.create (hsound : NoteSound channel note w) (hadopted : Adopted channel note plan w) (hplan : plan.planId = channel.planIdOf note)
    (now : JsString) : NoteSound channel note { w with approvals := (insertApproval w.approvals
      (knowledgeCard channel.tables channel.sha256 channel.sink plan note.workspaceId (payloadHash channel.sha256 plan.data) now)).2 } := by
  have hid : (knowledgeCard channel.tables channel.sha256 channel.sink plan note.workspaceId (payloadHash channel.sha256 plan.data) now).id =
      channel.cardIdOf note := by
    unfold knowledgeCard KnowledgeChannel.cardIdOf
    rw [hplan]
  refine ⟨hsound.digest, fun card hcard => ?_⟩
  unfold insertApproval at hcard
  rw [hid] at hcard
  cases hbefore : w.approvals.get (channel.cardIdOf note) with
  | some existing =>
    simp only [hbefore] at hcard
    exact hsound.bound card (by rw [hbefore, hcard])
  | none =>
    simp only [hbefore, Map.get_set_self, Option.some.injEq] at hcard
    subst hcard
    exact ⟨hid, hadopted⟩

/-- What a call that stores a card leaves behind: the card that was there, or the new one. -/
theorem create_cases (listing : Listing) (hsound : NoteSound channel note w) (hadopted : Adopted channel note plan w) (hplan : plan.planId = channel.planIdOf note)
    (now : JsString) (d : KnowledgeChoice) :
    let new := knowledgeCard channel.tables channel.sha256 channel.sink plan note.workspaceId (payloadHash channel.sha256 plan.data) now
    let w' := ((knowledgePorts listing).exec w (.createApproval new) d).2
    NoteSound channel note w' ∧ w'.plans = w.plans ∧
      (∀ card, w'.approvals.get (channel.cardIdOf note) = some card →
        w.approvals.get (channel.cardIdOf note) = some card ∨ (w.approvals.get (channel.cardIdOf note) = none ∧ card.status = .pending)) ∧
      ∀ stored, d.fault.elim (insertApproval w.approvals new).1 .error = .ok stored →
        ∃ card, w'.approvals.get (channel.cardIdOf note) = some card ∧ w.approvals.get (channel.cardIdOf note) = none ∧ card.status = .pending := by
  intro new w'
  have hid : new.id = channel.cardIdOf note := by
    change knowledgeApprovalId channel.tables channel.sha256 plan.planId note.workspaceId = _
    unfold KnowledgeChannel.cardIdOf
    rw [hplan]
  have hinsert : ∀ card, (insertApproval w.approvals new).2.get (channel.cardIdOf note) = some card →
      w.approvals.get (channel.cardIdOf note) = some card ∨ (w.approvals.get (channel.cardIdOf note) = none ∧ card.status = .pending) := by
    intro card hcard
    unfold insertApproval at hcard
    rw [hid] at hcard
    cases hbefore : w.approvals.get (channel.cardIdOf note) with
    | some existing =>
      simp only [hbefore] at hcard
      exact .inl hcard
    | none =>
      simp only [hbefore, Map.get_set_self, Option.some.injEq] at hcard
      exact .inr ⟨rfl, by rw [← hcard]; rfl⟩
  refine ⟨?_, ?_, fun card hcard => ?_, fun stored hstored => ?_⟩
  · simp only [w', knowledgePorts]
    split
    · exact hsound.create hadopted hplan now
    · exact hsound
  · simp only [w', knowledgePorts]
    split <;> rfl
  · simp only [w', knowledgePorts] at hcard
    split at hcard
    · exact hinsert card hcard
    · exact .inl hcard
  · cases hfault : d.fault with
    | some e =>
      rw [hfault] at hstored
      cases hstored
    | none =>
      rw [hfault] at hstored
      simp only [Option.elim_none, insertApproval, hid] at hstored
      cases hbefore : w.approvals.get (channel.cardIdOf note) with
      | some existing => simp [hbefore] at hstored
      | none =>
        refine ⟨new, ?_, rfl, rfl⟩
        simp only [w', knowledgePorts, hfault, Option.isNone_none, Bool.true_or, if_true, insertApproval, hid, hbefore, Map.get_set_self]

/-- The card of a stored plan, from a world that is as the proposal has found it but for the plan. -/
theorem cardOfPlan_spec (hplan : plan.planId = channel.planIdOf note) {w₁ : KnowledgeWorld} (hsound : NoteSound channel note w₁)
    (hadopted : Adopted channel note plan w₁) (hsame : w₁.approvals = w.approvals) :
    wpInv (knowledgePorts listing) (fun _ _ => True) (NoteSound channel note)
      (cardOfPlan channel.tables channel.sha256 channel.sink plan note.workspaceId (payloadHash channel.sha256 plan.data))
      (RecordSpec channel note plan w) w₁ := by
  have hid : knowledgeApprovalId channel.tables channel.sha256 plan.planId note.workspaceId = channel.cardIdOf note := by
    unfold KnowledgeChannel.cardIdOf
    rw [hplan]
  have hok : ∀ {created : Bool} {card : Approval} {w₂ : KnowledgeWorld}, w₂.plans = w₁.plans → w₂.approvals.get (channel.cardIdOf note) = some card →
      (w.approvals.get (channel.cardIdOf note) = some card ∨ (w.approvals.get (channel.cardIdOf note) = none ∧ card.status = .pending)) →
      RecordSpec channel note plan w (.ok (.ok ⟨channel.cardIdOf note, plan.planId, created⟩)) w₂ := by
    intro created card w₂ hplans hcard hwhich
    refine ⟨fun receipt h => ?_, fun e h => by simp at h⟩
    obtain rfl := Except.ok.inj (Except.ok.inj h)
    refine ⟨?_, rfl, card, hcard, hwhich⟩
    unfold Adopted
    rw [hplans]
    exact hadopted
  -- A card that is found is the note's.
  have hreconcile : ∀ {card : Approval} {w₂ : KnowledgeWorld}, NoteSound channel note w₂ → w₂.plans = w₁.plans →
      w₂.approvals.get (channel.cardIdOf note) = some card →
      (w.approvals.get (channel.cardIdOf note) = some card ∨ (w.approvals.get (channel.cardIdOf note) = none ∧ card.status = .pending)) →
      wpInv (knowledgePorts listing) (fun _ _ => True) (NoteSound channel note)
        (pure (reconcileApproval card (payloadHash channel.sha256 plan.data) plan.planId)) (RecordSpec channel note plan w) w₂ := by
    intro card w₂ hsound₂ hplans hcard hwhich
    have hadopted₂ : Adopted channel note plan w₂ := by
      unfold Adopted
      rw [hplans]
      exact hadopted
    rw [reconcileApproval_eq hsound₂ hadopted₂ hcard]
    exact ⟨hsound₂, hok hplans hcard hwhich⟩
  unfold cardOfPlan
  rw [hid]
  refine wpInv_call hsound fun d _ => ⟨_, _, rfl, ?_⟩
  cases hread : d.fault.elim (readApproval w₁.approvals (channel.cardIdOf note)) .error with
  | ok card =>
    have hcard : w₁.approvals.get (channel.cardIdOf note) = some card := get_of_readApproval hread
    exact hreconcile hsound rfl hcard (.inl (hsame ▸ hcard))
  | error e =>
    refine wpInv_call hsound fun d _ => ⟨_, _, rfl, wpInv_call hsound fun d' _ =>
      ⟨_, ((knowledgePorts listing).exec w₁ (.createApproval (knowledgeCard channel.tables channel.sha256 channel.sink plan
        note.workspaceId (payloadHash channel.sha256 plan.data) d.clock)) d').2, rfl, ?_⟩⟩
    obtain ⟨hsound₂, hplans, hcards⟩ := create_cases listing hsound hadopted hplan d.clock d'
    generalize hw₂ : ((knowledgePorts listing).exec w₁ (.createApproval (knowledgeCard channel.tables channel.sha256 channel.sink plan
      note.workspaceId (payloadHash channel.sha256 plan.data) d.clock)) d').2 = w₂ at hsound₂ hplans hcards ⊢
    cases hcreated : d'.fault.elim (insertApproval w₁.approvals (knowledgeCard channel.tables channel.sha256 channel.sink plan
      note.workspaceId (payloadHash channel.sha256 plan.data) d.clock)).1 .error with
    | ok stored =>
      obtain ⟨card, hcard, hfree, hpending⟩ := hcards.2 stored hcreated
      exact ⟨hsound₂, hok hplans hcard (.inr ⟨hsame ▸ hfree, hpending⟩)⟩
    | error e =>
      simp only
      split
      · refine wpInv_call hsound₂ fun d _ => ⟨_, _, rfl, ?_⟩
        cases hread : d.fault.elim (readApproval w₂.approvals (channel.cardIdOf note)) .error with
        | ok card =>
          have hcard := get_of_readApproval hread
          exact hreconcile hsound₂ hplans hcard (hsame ▸ hcards.1 card hcard)
        | error e' => exact ⟨hsound₂, recordSpec_dbError e⟩
      · exact ⟨hsound₂, recordSpec_dbError e⟩

/-- The row of a proposal. -/
def pendingRow (channel : KnowledgeChannel) (note : ProposedNote) (plan : KnowledgeMutationPlan) (now : JsString) : PendingKnowledgeMutation :=
  ⟨plan.planId, note.workspaceId, plan.data, payloadHash channel.sha256 plan.data, str "pending", now, none⟩

/-- What a call that stores a plan leaves behind: the row that was there, or the new one. -/
theorem insert_cases (listing : Listing) (hsound : NoteSound channel note w) (hplan : plan.planId = channel.planIdOf note) (now : JsString)
    (d : KnowledgeChoice) :
    let w' := ((knowledgePorts listing).exec w (.recordPlan (pendingRow channel note plan now)) d).2
    NoteSound channel note w' ∧ w'.approvals = w.approvals ∧
      (∀ row, w'.plans.get (channel.planIdOf note) = some row →
        w.plans.get (channel.planIdOf note) = some row ∨ row.payloadHash = payloadHash channel.sha256 plan.data) ∧
      ∀ stored, d.fault.elim (insertPlan w.plans (pendingRow channel note plan now)).1 .error = .ok stored → Adopted channel note plan w' := by
  intro w'
  have hid : (pendingRow channel note plan now).planId = channel.planIdOf note := hplan
  have hinsert : ∀ row, (insertPlan w.plans (pendingRow channel note plan now)).2.get (channel.planIdOf note) = some row →
      w.plans.get (channel.planIdOf note) = some row ∨ w.plans.get (channel.planIdOf note) = none ∧ row = pendingRow channel note plan now := by
    intro row hrow
    unfold insertPlan at hrow
    rw [hid] at hrow
    cases hbefore : w.plans.get (channel.planIdOf note) with
    | some existing =>
      simp only [hbefore] at hrow
      exact .inl hrow
    | none =>
      simp only [hbefore, Map.get_set_self, Option.some.injEq] at hrow
      exact .inr ⟨rfl, hrow.symm⟩
  have hkept : ∀ row, w.plans.get (channel.planIdOf note) = some row →
      (insertPlan w.plans (pendingRow channel note plan now)).2.get (channel.planIdOf note) = some row := by
    intro row hrow
    unfold insertPlan
    rw [hid, hrow]
    exact hrow
  refine ⟨?_, ?_, fun row hrow => ?_, fun stored hstored => ?_⟩
  · simp only [w', knowledgePorts]
    split
    · refine ⟨fun row hrow => ?_, fun card hcard => ?_⟩
      · rcases hinsert row hrow with hbefore | ⟨-, rfl⟩
        · exact hsound.digest row hbefore
        · rfl
      · obtain ⟨hcardId, row, hrow, hhash⟩ := hsound.bound card hcard
        exact ⟨hcardId, row, hkept row hrow, hhash⟩
    · exact hsound
  · simp only [w', knowledgePorts]
    split <;> rfl
  · simp only [w', knowledgePorts] at hrow
    split at hrow
    · rcases hinsert row hrow with hbefore | ⟨-, rfl⟩
      · exact .inl hbefore
      · exact .inr rfl
    · exact .inl hrow
  · cases hfault : d.fault with
    | some e =>
      rw [hfault] at hstored
      cases hstored
    | none =>
      rw [hfault] at hstored
      simp only [Option.elim_none, insertPlan, hid] at hstored
      cases hbefore : w.plans.get (channel.planIdOf note) with
      | some existing => simp [hbefore] at hstored
      | none =>
        refine ⟨pendingRow channel note plan now, ?_, rfl⟩
        simp only [w', knowledgePorts, hfault, Option.isNone_none, Bool.true_or, if_true, insertPlan, hid, hbefore, Map.get_set_self]

theorem get_of_readPlan {plans : Map JsString PendingKnowledgeMutation} {planId : JsString} {row : PendingKnowledgeMutation} {fault : Option DbError}
    (h : fault.elim (readPlan plans planId) .error = .ok row) : plans.get planId = some row := by
  cases fault with
  | some e => cases h
  | none =>
    unfold readPlan at h
    simp only [Option.elim_none] at h
    split at h
    · next stored hstored =>
      rw [hstored, Except.ok.inj h]
    · cases h

/-- A proposal keeps the note sound wherever it crashes, and its answer tells of the note as the proposal has found it. -/
theorem record_spec (hplan : plan.planId = channel.planIdOf note) (hws : plan.workspaceId = note.workspaceId) (hsound : NoteSound channel note w) :
    wpInv (knowledgePorts listing) (fun _ _ => True) (NoteSound channel note) (channel.record note plan) (RecordSpec channel note plan w) w := by
  unfold KnowledgeChannel.record recordKnowledge
  refine wpInv_call hsound fun d _ => ⟨_, _, rfl, ?_⟩
  cases d.fault.elim (readWorkspace w.workspaces.rows note.workspaceId) .error with
  | error e => exact ⟨hsound, .fails (by decide)⟩
  | ok _ =>
    simp only
    rw [if_neg (not_not.mpr hws)]
    unfold recordThenCard
    refine wpInv_call hsound fun d _ => ⟨_, _, rfl, wpInv_call hsound fun d' _ =>
      ⟨d'.fault.elim (insertPlan w.plans (pendingRow channel note plan d.clock)).1 .error,
        ((knowledgePorts listing).exec w (.recordPlan (pendingRow channel note plan d.clock)) d').2, rfl, ?_⟩⟩
    obtain ⟨hsound₁, happrovals, hrows, hstored⟩ := insert_cases listing hsound hplan d.clock d'
    generalize hw₁ : ((knowledgePorts listing).exec w (.recordPlan (pendingRow channel note plan d.clock)) d').2 = w₁
      at hsound₁ happrovals hrows hstored ⊢
    cases hinserted : d'.fault.elim (insertPlan w.plans (pendingRow channel note plan d.clock)).1 .error with
    | ok stored => exact cardOfPlan_spec hplan hsound₁ (hstored stored hinserted) happrovals
    | error e =>
      simp only
      split
      · refine wpInv_call hsound₁ fun d _ => ⟨_, _, rfl, ?_⟩
        cases hread : d.fault.elim (readPlan w₁.plans plan.planId) .error with
        | error e' => exact ⟨hsound₁, recordSpec_dbError e'⟩
        | ok row =>
          have hrow := get_of_readPlan hread
          rw [hplan] at hrow
          simp only
          split
          · next hhash => exact cardOfPlan_spec hplan hsound₁ ⟨row, hrow, hhash⟩ happrovals
          · next hhash =>
            refine ⟨hsound₁, fun _ h => by simp at h, fun _ _ _ => ⟨row, ?_, hhash⟩⟩
            exact (hrows row hrow).resolve_right hhash
      · exact ⟨hsound₁, recordSpec_dbError e⟩

end record

/-- A history keeps the note sound. -/
theorem noteSound_of_history (hschema : KeepsIds channel.dispatch.schema) (hw : Unproposed channel note w) (h : KnowledgeHistory listing channel note w w') :
    NoteSound channel note w' := by
  induction h with
  | refl =>
    refine ⟨fun row hrow => ?_, fun card hcard => ?_⟩
    · rw [hw.plan] at hrow
      cases hrow
    · rw [hw.card] at hcard
      cases hcard
  | tail _ hstep ih =>
    cases hstep with
    | record hplan hleaves =>
      obtain ⟨intent, deps, hdeps, hpath, hderive⟩ := hplan
      obtain ⟨hid, hws⟩ := ids_of_derived hschema hderive (by rw [hdeps]; exact hpath)
      exact (record_spec hid (hws.trans hdeps) ih).leaves hleaves
    | decide actor via snoozeUntil hcard hedge => exact ih.decide hcard _ actor via snoozeUntil
    | @dispatch card _ hcard hleaves =>
      have hkeeps : wpInv (knowledgePorts listing) (fun _ _ => True) (NoteSound channel note) (semanticMutationDispatch channel.dispatch card)
          (fun _ => NoteSound channel note) _ :=
        wpInv_of_within (semanticMutationDispatch_settles channel.dispatch card) ih fun op w d hop _ hw => hw.step d hop
      exact hkeeps.leaves hleaves

end sound

end sow.copilot
