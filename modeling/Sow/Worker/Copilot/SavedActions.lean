import Sow.Effect.Interleave
import Sow.Worker.Copilot.ProposeSink

open sow.js sow.effect sow.contracts sow.db sow.domain sow.integrations
open sow.knowledge_writer (Sha256 isWorkspaceSlug trim_of_slug tabulated_law)
open sow.tools (ToolOp ToolM ToolWorld Cause Choice HoldWriteArgs holdWrite holdFresh reuseWinner heldEntry toolHandler duplicateKey
  tables.enqueue tables.getOutboxEntry stored)
open sow.worker (ApprovalDispatchWorld ApprovalDispatchOp ApprovalDispatchChoice Answers approvalDispatchPorts checkSavedAction checkEntry
  checkEntry_verified_iff checkSavedAction_wp isOwnEntry derivesCard payloadApproved isJsonObject readWorkspace UNASSIGNED_WORKSPACE issueSha256 issueDigests)
open sow.workflows (payloadHash_of_deriveAction deriveAction externalAction)

namespace sow.copilot

section view

variable {Time : Type}

/-- An entry as the dispatch of an approval reads it. -/
def storedEntry (entry : sow.tools.OutboxEntry Time Json) : OutboxEntry Time where
  outboxId := entry.outboxId
  actionRef := entry.actionRef
  workspaceId := entry.workspaceId
  targetSystem := entry.targetSystem.text
  canonicalObjectKey := entry.canonicalObjectKey
  idempotencyKey := entry.idempotencyKey
  payloadHash := entry.payloadHash
  approvalPolicy := entry.approvalPolicy
  status := entry.status
  payload := entry.payload
  writeReceipt := entry.writeReceipt
  attempts := entry.attempts
  enqueuedAt := entry.enqueuedAt
  nextAttemptAt := entry.nextAttemptAt
  updatedAt := entry.updatedAt

/-- The rows of the outbox by their ids. -/
def outboxOf : List (sow.tools.OutboxEntry Time Json) → Outbox Time
  | [] => ⟨.empty, fun _ _ h => by cases h⟩
  | entry :: rows => (outboxOf rows).set (storedEntry entry)

theorem get_outboxOf (rows : List (sow.tools.OutboxEntry Time Json)) (outboxId : JsString) :
    (outboxOf rows).get outboxId = (rows.find? fun r => r.outboxId = outboxId).map storedEntry := by
  induction rows with
  | nil => rfl
  | cons entry rows ih =>
    unfold outboxOf Outbox.set Outbox.get
    rw [Map.get_set, List.find?_cons]
    by_cases hid : entry.outboxId = outboxId
    · simp [storedEntry, hid]
    · unfold Outbox.get at ih
      simp [storedEntry, hid, ih]

/-- What `checkSavedAction` reads of the stores. -/
def CardWorld.dispatchWorld (w : CardWorld Time) : ApprovalDispatchWorld Time := ⟨outboxOf w.tools.outbox, w.workspaces.rows, []⟩

variable (tables : CaseTables) (sha256 : Sha256)

/-- The card passes `checkSavedAction` whenever the stores answer. -/
def HasSavedAction (w : CardWorld Time) (card : Approval) : Prop :=
  ∀ choose : Nat → ApprovalDispatchOp Time → ApprovalDispatchChoice Time, (∀ n op, Answers op (choose n op)) →
    ∃ entry, (approvalDispatchPorts.run choose 0 (checkSavedAction tables sha256 card) w.dispatchWorld).1 = .ok (.verified entry)

/-- Every card of an external write that is pending or approved has its saved action. -/
def AllSaved (w : CardWorld Time) : Prop :=
  ∀ id card, w.approvals.get id = some card → card.subjectKind = .external_action →
    (card.status = .pending ∨ card.status = .approved) → HasSavedAction tables sha256 w card

end view

section saved

variable {Time : Type} {tables : CaseTables} {sha256 : Sha256} {w : CardWorld Time} {card : Approval}

/-- A card that passes has a payload under its own digest. -/
theorem HasSavedAction.digest [Inhabited Time] (h : HasSavedAction tables sha256 w card) :
    ∃ payload, card.payloadHash = payloadHash sha256 payload := by
  let choose : Nat → ApprovalDispatchOp Time → ApprovalDispatchChoice Time :=
    fun _ _ => ⟨none, false, .ok .approval_pending, .ok (), default⟩
  obtain ⟨entry, hentry⟩ := h choose fun _ _ => rfl
  have hwp : wp approvalDispatchPorts (fun _ _ => True) (checkSavedAction tables sha256 card)
      (fun r _ => ∀ entry, r = .ok (.verified entry) → payloadApproved sha256 card entry = true) w.dispatchWorld := by
    refine checkSavedAction_wp (fun check hcheck entry heq => ?_) fun found _ _ _ hcheck entry heq => ?_
    · exact absurd (Except.ok.inj heq) (hcheck entry)
    · obtain rfl := sow.worker.SavedActionCheck.verified.inj (Except.ok.inj heq)
      exact (checkEntry_verified_iff.mp hcheck).2.2.2
  have happroved := wp.run hwp (fun _ _ => trivial) 0 entry hentry
  unfold payloadApproved at happroved
  rw [Option.any_eq_true] at happroved
  obtain ⟨payload, -, hpayload⟩ := happroved
  rw [Bool.and_eq_true, decide_eq_true_eq] at hpayload
  exact ⟨payload, hpayload.2.symm⟩

/-- The card of an item of a meeting does not pass. -/
theorem not_hasSavedAction_meetingCard [Inhabited Time] {deps : CardDeps Time} {fields : sow.workflows.ExtractionFields} {index : Nat}
    {d : sow.workflows.DerivedActionDescriptor} (hd : deriveAction fields deps.meetingWorkspaceId index = some d) :
    ¬ HasSavedAction tables sha256 w (meetingCard tables sha256 deps (externalAction tables sha256 d)) := by
  intro h
  obtain ⟨payload, hdigest⟩ := h.digest
  obtain ⟨rest, hrest⟩ := payloadHash_of_deriveAction hd
  have hcard : (meetingCard tables sha256 deps (externalAction tables sha256 d)).payloadHash = d.payloadHash := rfl
  rw [hcard, hrest] at hdigest
  unfold payloadHash at hdigest
  have hhead := congrArg List.head? hdigest
  simp [str] at hhead

/-- The entry is filed under the card that its key and its workspace derive, with the digest of its payload. -/
structure Filed (tables : CaseTables) (sha256 : Sha256) (workspaces : WorkspaceRegistry) (entry : sow.tools.OutboxEntry Time Json) : Prop where
  outboxId : entry.outboxId = approvalOutboxId (approvalIdFor tables sha256 entry.idempotencyKey entry.workspaceId)
  onboarded : workspaces.rows.get entry.workspaceId = some true
  payload : ∃ payload, entry.payload = some payload ∧ isJsonObject payload = true ∧ entry.payloadHash = payloadHash sha256 payload

/-- The entry is what the card stands for. -/
structure StandsFor (tables : CaseTables) (sha256 : Sha256) (card : Approval) (entry : sow.tools.OutboxEntry Time Json) : Prop where
  id : card.id = approvalIdFor tables sha256 entry.idempotencyKey entry.workspaceId
  workspace : entry.workspaceId = card.workspaceId
  digest : entry.payloadHash = card.payloadHash

/-- The outbox, filed by card. -/
structure FiledOutbox (tables : CaseTables) (sha256 : Sha256) (w : CardWorld Time) : Prop where
  ids : (w.tools.outbox.map fun e => e.outboxId).Nodup
  filed : ∀ entry ∈ w.tools.outbox, Filed tables sha256 w.workspaces entry

theorem find_of_mem {rows : List (sow.tools.OutboxEntry Time Json)} (hids : (rows.map fun e => e.outboxId).Nodup)
    {entry : sow.tools.OutboxEntry Time Json} (hmem : entry ∈ rows) :
    (rows.find? fun r => r.outboxId = entry.outboxId) = some entry := by
  induction rows with
  | nil => cases hmem
  | cons row rows ih =>
    rw [List.map_cons, List.nodup_cons] at hids
    rw [List.find?_cons]
    cases hmem with
    | head => simp
    | tail _ hmem =>
      have hne : row.outboxId ≠ entry.outboxId := by
        intro heq
        exact hids.1 (heq ▸ List.mem_map_of_mem hmem)
      simp only [decide_eq_false hne]
      exact ih hids.2 hmem

/-- The own entry of a card passes the checks. -/
theorem StandsFor.hasSavedAction {entry : sow.tools.OutboxEntry Time Json} (h : StandsFor tables sha256 card entry)
    (hfiled : FiledOutbox tables sha256 w) (hmem : entry ∈ w.tools.outbox) : HasSavedAction tables sha256 w card := by
  obtain ⟨hid, honboarded, payload, hpayload, hobject, hhash⟩ := hfiled.filed entry hmem
  have hslug := w.workspaces.slug _ honboarded
  have hassigned : card.workspaceId ≠ UNASSIGNED_WORKSPACE := by
    rw [← h.workspace]
    intro heq
    rw [heq] at hslug
    revert hslug
    decide
  have hsaved : w.dispatchWorld.outbox.get (approvalOutboxId card.id) = some (storedEntry entry) := by
    unfold CardWorld.dispatchWorld
    rw [get_outboxOf, h.id, ← hid, find_of_mem hfiled.ids hmem, Option.map_some]
  have hcheck : checkEntry tables sha256 card (storedEntry entry) = .verified (storedEntry entry) := by
    refine checkEntry_verified_iff.mpr ⟨rfl, ?_, h.digest, ?_⟩
    · unfold isOwnEntry derivesCard
      simp [storedEntry, h.workspace, h.id]
    · unfold payloadApproved
      rw [show (storedEntry entry).payload = some payload from hpayload, Option.any_some, hobject, ← h.digest, hhash]
      simp
  intro choose hchoose
  have hwp : wp approvalDispatchPorts Answers (checkSavedAction tables sha256 card)
      (fun r _ => ∃ found, r = .ok (.verified found)) w.dispatchWorld := by
    unfold checkSavedAction
    rw [if_neg hassigned]
    refine wp_call fun d hd => ⟨.ok (), w.dispatchWorld, ?_, wp_call fun d' hd' => ⟨.ok (storedEntry entry), w.dispatchWorld, ?_, ?_⟩⟩
    · have hrow : w.dispatchWorld.workspaces.get card.workspaceId = some true := h.workspace ▸ honboarded
      simp [approvalDispatchPorts, readWorkspace, hrow, show d.fault = none from hd]
    · simp [approvalDispatchPorts, Outbox.read, hsaved, show d'.fault = none from hd']
    · rw [wp_pure, hcheck]
      exact ⟨_, rfl⟩
  exact wp.run hwp hchoose 0

end saved

/-- What a producer has learned from its calls. -/
structure CardProgress (Time : Type) where
  onboarded : Bool
  outboxId : Option JsString
  found : Option (sow.tools.OutboxEntry Time Json)

section protocol

variable {Time : Type} (tables : CaseTables) (sha256 : Sha256) (deps : CardDeps Time)

def CardProposal.envelope (proposal : CardProposal) : ExternalWriteEnvelope :=
  buildEnvelopeFromAction sha256 proposal.action [COPILOT_PROPOSE_PRECONDITION]

def CardProposal.cardId (proposal : CardProposal) : JsString :=
  approvalIdFor tables sha256 proposal.action.idempotencyKey proposal.workspaceId

def CardProposal.hold (proposal : CardProposal) : HoldWriteArgs Json :=
  ⟨proposal.envelope sha256, proposal.action, .not_approved, proposal.workspaceId⟩

/-- The calls that are open to a producer. -/
def cardCalls (request : CardRequest) (s : CardProgress Time) : CardOp Time → Prop
  | .tool _ (.getOutboxEntry k) => ∃ proposal, request = .propose proposal ∧ s.onboarded = true ∧ k = proposal.action.idempotencyKey
  | .tool _ .clock => True
  | .tool outboxId .outboxId => ∃ proposal, request = .propose proposal ∧ outboxId = approvalOutboxId (proposal.cardId tables sha256)
  | .tool _ (.enqueue entry) => ∃ proposal outboxId now, request = .propose proposal ∧ s.onboarded = true ∧ s.outboxId = some outboxId ∧
      entry = heldEntry (proposal.hold sha256) outboxId now
  | .tool _ _ => False
  | .getWorkspace workspaceId => ∃ proposal, request = .propose proposal ∧ workspaceId = proposal.workspaceId
  | .getApproval _ => True
  | .createApproval card =>
    (∃ fields index d, request = .meeting fields index ∧ deriveAction fields deps.meetingWorkspaceId index = some d ∧
      card = meetingCard tables sha256 deps (externalAction tables sha256 d)) ∨
      ∃ proposal now saved, request = .propose proposal ∧ s.onboarded = true ∧ s.found = some saved ∧
        saved.payloadHash = (proposal.envelope sha256).payloadHash ∧ saved.outboxId = approvalOutboxId (proposal.cardId tables sha256) ∧
          card = proposalCard tables sha256 deps proposal (proposal.envelope sha256) now
  | .now => True
  | .decide _ _ => True

/-- What an answer adds. -/
def CardProgress.next (s : CardProgress Time) : (op : CardOp Time) → Except Cause op.Ret → CardProgress Time
  | .getWorkspace _, .ok (.ok _) => { s with onboarded := true }
  | .tool _ (.getOutboxEntry _), .ok (.ok entry) => { s with found := some entry }
  | .tool _ .outboxId, .ok outboxId => { s with outboxId := some outboxId }
  | .tool _ (.enqueue _), .ok (.ok entry) => { s with found := some entry }
  | _, _ => s

/-- The protocol of a request. -/
def cardProtocol (request : CardRequest) : Protocol (CardOp Time) CardOp.Ret Cause (CardProgress Time) where
  allows := cardCalls tables sha256 deps request
  next := CardProgress.next

end protocol

section follows

variable {Time : Type} {tables : CaseTables} {sha256 : Sha256} {deps : CardDeps Time} {proposal : CardProposal} {s : CardProgress Time}

/-- The protocol of the calls of the outbox among those of a proposal. -/
def holdProtocol (tables : CaseTables) (sha256 : Sha256) (deps : CardDeps Time) (proposal : CardProposal) :
    Protocol (ToolOp Time Json) ToolOp.Ret Cause (CardProgress Time) where
  allows s op := cardCalls tables sha256 deps (.propose proposal) s (.tool (approvalOutboxId (proposal.cardId tables sha256)) op)
  next s op r := s.next (.tool (approvalOutboxId (proposal.cardId tables sha256)) op) r

/-- A hold for a card ends with the entry that it answers. -/
def HoldEnds (s : CardProgress Time) (r : Except Cause (DbResult (sow.tools.OutboxEntry Time Json))) : Prop :=
  s.onboarded = true ∧ ∀ saved, r = .ok (.ok saved) → s.found = some saved

theorem keeps_reuseWinner (honboarded : s.onboarded = true) (e : DbError) :
    (holdProtocol tables sha256 deps proposal).Keeps HoldEnds (reuseWinner proposal.action.idempotencyKey e) s := by
  unfold reuseWinner
  refine Protocol.keeps_call ⟨proposal, rfl, honboarded, rfl⟩ (fun answer => ?_) fun cause => ⟨honboarded, by simp⟩
  cases answer with
  | ok winner => exact ⟨honboarded, by simp [holdProtocol, CardProgress.next]⟩
  | error e' => exact ⟨honboarded, by simp⟩

theorem keeps_holdFresh (honboarded : s.onboarded = true) :
    (holdProtocol tables sha256 deps proposal).Keeps HoldEnds (holdFresh deps.redactString none (proposal.hold sha256)) s := by
  unfold holdFresh
  refine Protocol.keeps_call trivial (fun now => ?_) fun cause => ⟨honboarded, by simp⟩
  refine Protocol.keeps_call ⟨proposal, rfl, rfl⟩ (fun outboxId => ?_) fun cause => ⟨honboarded, by simp⟩
  refine Protocol.keeps_call ⟨proposal, outboxId, now, rfl, honboarded, rfl, rfl⟩ (fun answer => ?_) fun cause => ⟨honboarded, by simp⟩
  cases answer with
  | ok enqueued => exact ⟨honboarded, by simp [holdProtocol, CardProgress.next]⟩
  | error e =>
    dsimp only
    split
    · apply keeps_reuseWinner
      exact honboarded
    · exact ⟨honboarded, by simp⟩

theorem keeps_holdWrite (honboarded : s.onboarded = true) :
    (holdProtocol tables sha256 deps proposal).Keeps HoldEnds (holdWrite deps.redactString none (proposal.hold sha256)) s := by
  unfold holdWrite
  refine Protocol.keeps_call ⟨proposal, rfl, honboarded, rfl⟩ (fun answer => ?_) fun cause => ⟨honboarded, by simp⟩
  cases answer with
  | ok existing => exact ⟨honboarded, by simp [holdProtocol, CardProgress.next]⟩
  | error e =>
    apply keeps_holdFresh
    exact honboarded

/-- A card is created from the entry that the hold has ended with. -/
theorem keeps_createCard {card : Approval} {envelope : ExternalWriteEnvelope}
    (hcard : cardCalls tables sha256 deps (.propose proposal) s (.createApproval card)) :
    (cardProtocol tables sha256 deps (.propose proposal)).Keeps (fun _ _ => True) (createCard card envelope) s := by
  unfold createCard
  refine Protocol.keeps_call hcard (fun answer => ?_) fun cause => trivial
  cases answer with
  | ok created => trivial
  | error e =>
    dsimp only
    split
    · refine Protocol.keeps_call trivial (fun answer => ?_) fun cause => trivial
      cases answer <;> trivial
    · trivial

theorem keeps_saveThenCreate (honboarded : s.onboarded = true) :
    (cardProtocol tables sha256 deps (.propose proposal)).Keeps (fun _ _ => True)
      (saveThenCreate tables sha256 deps proposal (proposal.envelope sha256)) s := by
  have hheld : (cardProtocol tables sha256 deps (.propose proposal)).Keeps HoldEnds
      (Program.lift (CardOp.tool (approvalOutboxId (proposal.cardId tables sha256))) (fun _ r => r)
        (holdWrite deps.redactString none (proposal.hold sha256))) s :=
    Protocol.Keeps.lift (keeps_holdWrite honboarded) (fun _ _ h => h) fun _ _ r => by cases r <;> rfl
  unfold saveThenCreate
  rw [Protocol.keeps_bind]
  refine Protocol.Keeps.mono hheld fun s' r hends => ?_
  obtain ⟨honboarded', hfound⟩ := hends
  cases r with
  | error cause => trivial
  | ok result =>
    cases result with
    | error e => trivial
    | ok saved =>
      dsimp only
      split
      · trivial
      · next hdigest =>
        split
        · trivial
        · next hid =>
          refine Protocol.keeps_call trivial (fun now => keeps_createCard (.inr ?_)) fun cause => trivial
          exact ⟨proposal, now, saved, rfl, honboarded', hfound saved rfl, not_not.mp hdigest, not_not.mp hid, rfl⟩

theorem keeps_record :
    (cardProtocol tables sha256 deps (.propose proposal)).Keeps (fun _ _ => True) (record tables sha256 deps proposal) s := by
  unfold record
  refine Protocol.keeps_call ⟨proposal, rfl, rfl⟩ (fun answer => ?_) fun cause => trivial
  cases answer with
  | error e => trivial
  | ok found =>
    refine Protocol.keeps_call trivial (fun answer => ?_) fun cause => trivial
    cases answer with
    | ok existing => trivial
    | error e => exact keeps_saveThenCreate rfl

/-- Every request keeps its protocol. -/
theorem keeps_program (request : CardRequest) :
    (cardProtocol tables sha256 deps request).Keeps (fun _ _ => True) (request.program tables sha256 deps) s := by
  cases request with
  | propose proposal =>
    change (cardProtocol tables sha256 deps (.propose proposal)).Keeps _ (CardAnswer.proposed <$> record tables sha256 deps proposal) s
    rw [← bind_pure_comp, Protocol.keeps_bind]
    refine Protocol.Keeps.mono keeps_record fun _ r _ => ?_
    cases r <;> trivial
  | meeting fields index =>
    unfold CardRequest.program
    dsimp only
    split
    · next d hd =>
      rw [← bind_pure_comp]
      exact Protocol.keeps_call (.inl ⟨fields, index, d, rfl, hd, rfl⟩) (fun _ => trivial) fun _ => trivial
    · trivial
  | decide id status => exact Protocol.keeps_call trivial (fun _ => trivial) fun _ => trivial

end follows

section invariant

variable {ι Time : Type} {tables : CaseTables} {sha256 : Sha256} {deps : CardDeps Time} {requests : ι → CardRequest}
  {s : ι → CardProgress Time} {w : CardWorld Time}

/-- What a proposal has learned is so. -/
structure Knows (tables : CaseTables) (sha256 : Sha256) (w : CardWorld Time) (proposal : CardProposal) (s : CardProgress Time) : Prop where
  onboarded : s.onboarded = true → w.workspaces.rows.get proposal.workspaceId = some true
  outboxId : ∀ outboxId, s.outboxId = some outboxId → outboxId = approvalOutboxId (proposal.cardId tables sha256)
  found : ∀ entry, s.found = some entry → entry ∈ w.tools.outbox

/-- What holds between any two calls of the producers. -/
structure CardsSound (tables : CaseTables) (sha256 : Sha256) (requests : ι → CardRequest) (s : ι → CardProgress Time)
    (w : CardWorld Time) : Prop where
  filed : FiledOutbox tables sha256 w
  cards : ∀ id card, w.approvals.get id = some card → card.subjectKind = .external_action →
    ∃ entry ∈ w.tools.outbox, StandsFor tables sha256 card entry
  knows : ∀ i proposal, requests i = .propose proposal → Knows tables sha256 w proposal (s i)

theorem CardsSound.allSaved (h : CardsSound tables sha256 requests s w) : AllSaved tables sha256 w := by
  intro id card hcard hexternal _
  obtain ⟨entry, hmem, hstands⟩ := h.cards id card hcard hexternal
  exact hstands.hasSavedAction h.filed hmem

/-- An entry that was filed under the card of a proposal stands for it. -/
theorem standsFor_of_filed (hsha : sha256.Law) {proposal : CardProposal} {entry : sow.tools.OutboxEntry Time Json} {now : Time}
    (hfiled : Filed tables sha256 w.workspaces entry) (honboarded : w.workspaces.rows.get proposal.workspaceId = some true)
    (hdigest : entry.payloadHash = (proposal.envelope sha256).payloadHash)
    (hid : entry.outboxId = approvalOutboxId (proposal.cardId tables sha256)) :
    StandsFor tables sha256 (proposalCard tables sha256 deps proposal (proposal.envelope sha256) now) entry := by
  have hids : proposal.cardId tables sha256 = approvalIdFor tables sha256 entry.idempotencyKey entry.workspaceId := by
    have h := hid.symm.trans hfiled.outboxId
    unfold approvalOutboxId at h
    exact List.append_cancel_left h
  refine ⟨hids, ?_, hdigest⟩
  have htrim := (approvalIdFor_inj hsha.injective hids).2
  rw [trim_of_slug (w.workspaces.slug _ hfiled.onboarded), trim_of_slug (w.workspaces.slug _ honboarded)] at htrim
  exact htrim.symm

/-- A step that leaves the outbox and the workspaces alone. -/
theorem CardsSound.of_same_outbox (h : CardsSound tables sha256 requests s w) {w' : CardWorld Time} {s' : ι → CardProgress Time}
    (houtbox : w'.tools.outbox = w.tools.outbox) (hworkspaces : w'.workspaces = w.workspaces)
    (hcards : ∀ id card, w'.approvals.get id = some card → card.subjectKind = .external_action →
      ∃ entry ∈ w.tools.outbox, StandsFor tables sha256 card entry)
    (hknows : ∀ i proposal, requests i = .propose proposal → Knows tables sha256 w proposal (s' i)) :
    CardsSound tables sha256 requests s' w' := by
  refine ⟨⟨?_, ?_⟩, ?_, fun i proposal hi => ?_⟩
  · rw [houtbox]
    exact h.filed.ids
  · rw [houtbox, hworkspaces]
    exact h.filed.filed
  · rw [houtbox]
    exact hcards
  · obtain ⟨h₁, h₂, h₃⟩ := hknows i proposal hi
    refine ⟨?_, h₂, ?_⟩
    · rw [hworkspaces]
      exact h₁
    · rw [houtbox]
      exact h₃

/-- A step that adds entries that are filed under free ids. -/
theorem CardsSound.of_longer_outbox (h : CardsSound tables sha256 requests s w) {outbox : List (sow.tools.OutboxEntry Time Json)}
    (hsub : ∀ entry ∈ w.tools.outbox, entry ∈ outbox) (hids : (outbox.map fun e => e.outboxId).Nodup)
    (hfiled : ∀ entry ∈ outbox, Filed tables sha256 w.workspaces entry) :
    CardsSound tables sha256 requests s { w with tools := { w.tools with outbox := outbox } } := by
  refine ⟨⟨hids, hfiled⟩, fun id card hcard hexternal => ?_, fun i proposal hi => ?_⟩
  · obtain ⟨entry, hmem, hstands⟩ := h.cards id card hcard hexternal
    exact ⟨entry, hsub entry hmem, hstands⟩
  · obtain ⟨h₁, h₂, h₃⟩ := h.knows i proposal hi
    exact ⟨h₁, h₂, fun entry hentry => hsub entry (h₃ entry hentry)⟩

/-- The entry of a hold for a proposal of an onboarded workspace is filed. -/
theorem filed_heldEntry {proposal : CardProposal} {now : Time} (honboarded : w.workspaces.rows.get proposal.workspaceId = some true) :
    Filed tables sha256 w.workspaces (heldEntry (proposal.hold sha256) (approvalOutboxId (proposal.cardId tables sha256)) now) :=
  ⟨rfl, honboarded, proposal.action.payload, rfl, proposal.payload_object, rfl⟩

/-- An entry is filed under a free id, or refused. -/
theorem CardsSound.enqueue (h : CardsSound tables sha256 requests s w) {entry : sow.tools.OutboxEntry Time Json}
    (hentry : Filed tables sha256 w.workspaces entry) :
    CardsSound tables sha256 requests s
      { w with tools := { w.tools with outbox := (sow.tools.tables.enqueue w.tools.outbox entry).2 } } := by
  unfold sow.tools.tables.enqueue
  split
  · exact h.of_longer_outbox (fun _ hmem => hmem) h.filed.ids h.filed.filed
  · next hfree =>
    refine h.of_longer_outbox (fun _ hmem => List.mem_append_left _ hmem) ?_ fun e hmem => ?_
    · rw [List.map_append, List.nodup_append]
      refine ⟨h.filed.ids, List.nodup_singleton _, ?_⟩
      rintro id hid id' hid' rfl
      obtain ⟨row, hrow, hrowid⟩ := List.mem_map.mp hid
      rw [List.map_singleton, List.mem_singleton] at hid'
      refine hfree (List.any_eq_true.mpr ⟨row, hrow, ?_⟩)
      simp [hrowid, hid']
    · rw [List.mem_append, List.mem_singleton] at hmem
      obtain hmem | rfl := hmem
      · exact h.filed.filed e hmem
      · exact hentry

variable [DecidableEq ι]

/-- Only the one that moves has learned something. -/
theorem knows_update (h : ∀ j proposal, requests j = .propose proposal → Knows tables sha256 w proposal (s j)) {i : ι}
    {s' : CardProgress Time} (hi : ∀ proposal, requests i = .propose proposal → Knows tables sha256 w proposal s') :
    ∀ j proposal, requests j = .propose proposal → Knows tables sha256 w proposal (Function.update s i s' j) := by
  intro j proposal hj
  by_cases hij : j = i
  · subst hij
    rw [Function.update_self]
    exact hi proposal hj
  · rw [Function.update_of_ne hij]
    exact h j proposal hj

/-- A call that changes no store, and tells the truth. -/
theorem CardsSound.learn (h : CardsSound tables sha256 requests s w) {w' : CardWorld Time} {i : ι} {s' : CardProgress Time}
    (houtbox : w'.tools.outbox = w.tools.outbox) (hworkspaces : w'.workspaces = w.workspaces) (happrovals : w'.approvals = w.approvals)
    (hi : ∀ proposal, requests i = .propose proposal → Knows tables sha256 w proposal s') :
    CardsSound tables sha256 requests (Function.update s i s') w' :=
  h.of_same_outbox houtbox hworkspaces (happrovals ▸ h.cards) (knows_update h.knows hi)

variable [LinearOrder Time] {epoch : Time}

/-- The call stores the card of an item of a meeting under a free id. -/
def StoresMeetingCard (request : CardRequest) (w : CardWorld Time) (op : CardOp Time) (d : Choice Time) : Prop :=
  ∃ fields index card, request = .meeting fields index ∧ op = .createApproval card ∧ w.approvals.get card.id = none ∧
    (d.fault = none ∨ d.landed = true)

/-- A call of the outbox. -/
theorem CardsSound.step_tool (h : CardsSound tables sha256 requests s w) {i : ι} {outboxId : JsString} {op : ToolOp Time Json}
    {d : Choice Time} (hallows : cardCalls tables sha256 deps (requests i) (s i) (.tool outboxId op)) :
    CardsSound tables sha256 requests (Function.update s i ((s i).next (.tool outboxId op) ((cardPorts epoch).exec w (.tool outboxId op) d).1))
      ((cardPorts epoch).exec w (.tool outboxId op) d).2 := by
  cases op with
  | clock => exact h.learn rfl rfl rfl (h.knows i)
  | outboxId =>
    obtain ⟨proposal, hi, hid⟩ := hallows
    refine h.learn rfl rfl rfl fun proposal' hi' => ?_
    obtain rfl := CardRequest.propose.inj (hi.symm.trans hi')
    refine ⟨(h.knows i proposal hi).onboarded, fun outboxId' hid' => ?_, (h.knows i proposal hi).found⟩
    exact (Option.some.inj hid').symm.trans hid
  | getOutboxEntry k =>
    obtain ⟨r, w₁, hexec, hanswer⟩ := sow.tools.stored_answers { d with id := outboxId } w.tools w.tools
      (sow.tools.tables.getOutboxEntry w.tools.outbox k)
    simp only [cardPorts, toolHandler, hexec]
    obtain ⟨rfl, rfl⟩ | ⟨e, rfl, hw⟩ := hanswer
    · refine h.learn rfl rfl rfl fun proposal hi => ?_
      have hknows := h.knows i proposal hi
      unfold sow.tools.tables.getOutboxEntry
      cases hfind : w.tools.outbox.find? fun r => r.idempotencyKey = k with
      | none => exact hknows
      | some entry =>
        refine ⟨hknows.onboarded, hknows.outboxId, fun found hfound => ?_⟩
        rw [← Option.some.inj hfound]
        exact List.mem_of_find?_eq_some hfind
    · obtain rfl : w₁ = w.tools := hw.elim id id
      exact h.learn rfl rfl rfl (h.knows i)
  | enqueue entry =>
    obtain ⟨proposal, id, now, hi, honboarded, hid, rfl⟩ := hallows
    have hknows := h.knows i proposal hi
    obtain rfl := hknows.outboxId id hid
    have hfiled : Filed tables sha256 w.workspaces
        (heldEntry (proposal.hold sha256) (approvalOutboxId (proposal.cardId tables sha256)) now) :=
      filed_heldEntry (hknows.onboarded honboarded)
    have hafter := h.enqueue hfiled
    obtain ⟨r, w₁, hexec, hanswer⟩ := sow.tools.stored_answers { d with id := outboxId } w.tools
      { w.tools with outbox := (sow.tools.tables.enqueue w.tools.outbox
        (heldEntry (proposal.hold sha256) (approvalOutboxId (proposal.cardId tables sha256)) now)).2 }
      (sow.tools.tables.enqueue w.tools.outbox
        (heldEntry (proposal.hold sha256) (approvalOutboxId (proposal.cardId tables sha256)) now)).1
    simp only [cardPorts, toolHandler, hexec]
    obtain ⟨rfl, rfl⟩ | ⟨e, rfl, rfl | rfl⟩ := hanswer
    · refine hafter.learn rfl rfl rfl fun proposal' hi' => ?_
      obtain rfl := CardRequest.propose.inj (hi.symm.trans hi')
      have hknows' := hafter.knows i proposal hi
      revert hknows'
      unfold sow.tools.tables.enqueue
      split
      · exact fun hknows' => hknows'
      · intro hknows'
        refine ⟨hknows'.onboarded, hknows'.outboxId, fun found hfound => ?_⟩
        rw [← Option.some.inj hfound]
        exact List.mem_append_right _ (List.mem_singleton_self _)
    · exact h.learn rfl rfl rfl (h.knows i)
    · exact hafter.learn rfl rfl rfl (hafter.knows i)
  | _ => exact hallows.elim

/-- A card is created for the entry that a proposal has found; the cards of a meeting are not stored. -/
theorem CardsSound.step_create (hsha : sha256.Law) (h : CardsSound tables sha256 requests s w) {i : ι} {card : Approval} {d : Choice Time}
    (hallows : cardCalls tables sha256 deps (requests i) (s i) (.createApproval card))
    (hmeeting : ¬ StoresMeetingCard (requests i) w (.createApproval card) d) :
    CardsSound tables sha256 requests (Function.update s i ((s i).next (.createApproval card) ((cardPorts epoch).exec w (.createApproval card) d).1))
      ((cardPorts epoch).exec w (.createApproval card) d).2 := by
  have hstays : ∀ w', w' = w → CardsSound tables sha256 requests
      (Function.update s i ((s i).next (.createApproval card) ((cardPorts epoch).exec w (.createApproval card) d).1)) w' := by
    rintro w' rfl
    exact h.learn rfl rfl rfl (h.knows i)
  by_cases hlands : (d.fault.isNone || d.landed) = true
  · cases hget : w.approvals.get card.id with
    | some existing =>
      refine hstays _ ?_
      simp [cardPorts, insertApproval, hget]
    | none =>
      obtain ⟨fields, index, -, hi, -⟩ | ⟨proposal, now, saved, hi, honboarded, hfound, hdigest, hid, rfl⟩ := hallows
      · refine absurd ⟨fields, index, card, hi, rfl, hget, ?_⟩ hmeeting
        simpa using hlands
      · have hknows := h.knows i proposal hi
        have hmem := hknows.found saved hfound
        have hstands : StandsFor tables sha256 (proposalCard tables sha256 deps proposal (proposal.envelope sha256) now) saved :=
          standsFor_of_filed hsha (h.filed.filed saved hmem) (hknows.onboarded honboarded) hdigest hid
        refine h.of_same_outbox ?_ ?_ ?_ (knows_update h.knows (h.knows i))
        · simp only [cardPorts, hlands, if_true]
        · simp only [cardPorts, hlands, if_true]
        · intro id' card' hcard'
          simp only [cardPorts, insertApproval, hget, hlands, if_true, Map.get_set] at hcard'
          split at hcard'
          · obtain rfl := Option.some.inj hcard'
            exact fun _ => ⟨saved, hmem, hstands⟩
          · exact h.cards id' card' hcard'
  · exact hstays _ (if_neg hlands)

/-- One call of a producer. -/
theorem CardsSound.step (hsha : sha256.Law) (h : CardsSound tables sha256 requests s w) {i : ι} {op : CardOp Time} {d : Choice Time}
    (hallows : cardCalls tables sha256 deps (requests i) (s i) op) (hmeeting : ¬ StoresMeetingCard (requests i) w op d) :
    CardsSound tables sha256 requests (Function.update s i ((s i).next op ((cardPorts epoch).exec w op d).1))
      ((cardPorts epoch).exec w op d).2 := by
  cases op with
  | tool outboxId op => exact h.step_tool hallows
  | createApproval card => exact h.step_create hsha hallows hmeeting
  | getApproval id => exact h.learn rfl rfl rfl (h.knows i)
  | now => exact h.learn rfl rfl rfl (h.knows i)
  | getWorkspace workspaceId =>
    obtain ⟨proposal, hi, rfl⟩ := hallows
    refine h.learn rfl rfl rfl fun proposal' hi' => ?_
    obtain rfl := CardRequest.propose.inj (hi.symm.trans hi')
    have hknows := h.knows i proposal hi
    simp only [cardPorts]
    cases d.fault with
    | some e => exact hknows
    | none =>
      simp only [Option.elim_none, readWorkspace]
      cases hget : w.workspaces.rows.get proposal.workspaceId with
      | none => exact hknows
      | some wellFormed =>
        cases wellFormed with
        | false => exact hknows
        | true => exact ⟨fun _ => hget, hknows.outboxId, hknows.found⟩
  | decide id status =>
    refine h.of_same_outbox rfl rfl ?_ (knows_update h.knows (h.knows i))
    intro id' card' hcard'
    simp only [cardPorts, setStatus] at hcard'
    split at hcard'
    · next card hcard =>
      rw [Map.get_set] at hcard'
      split at hcard'
      · obtain rfl := Option.some.inj hcard'
        intro hexternal
        obtain ⟨entry, hmem, hstands⟩ := h.cards id card hcard hexternal
        exact ⟨entry, hmem, hstands.id, hstands.workspace, hstands.digest⟩
      · exact h.cards id' card' hcard'
    · exact h.cards id' card' hcard'

end invariant

/-- The stores before any proposal. -/
def freshCards {Time : Type} (workspaces : WorkspaceRegistry) (now : Time) : CardWorld Time where
  tools := ⟨[], .empty, .empty, fun _ => none, [], now⟩
  approvals := .empty
  workspaces := workspaces

section runs

variable {ι Time : Type} [DecidableEq ι] [LinearOrder Time] (tables : CaseTables) (sha256 : Sha256) (deps : CardDeps Time) (epoch : Time)
  (requests : ι → CardRequest) (workspaces : WorkspaceRegistry) (now : Time)

/-- The requests with their stores after some of their calls; one that is not scheduled any more has crashed. -/
def afterCalls (schedule : List (ι × Choice Time)) : Pool ι (CardOp Time) CardOp.Ret Cause CardAnswer (CardWorld Time) :=
  Pool.run (cardPorts epoch) ⟨fun i => (requests i).program tables sha256 deps, freshCards workspaces now⟩ schedule

/-- The next call that is scheduled stores the card of an item of a meeting. -/
def StoresMeetingNext (c : Pool ι (CardOp Time) CardOp.Ret Cause CardAnswer (CardWorld Time)) (e : ι × Choice Time) : Prop :=
  ∃ op k, c.thread e.1 = .call op k ∧ StoresMeetingCard (requests e.1) c.world op e.2

end runs

section verdict

variable {ι Time : Type} {tables : CaseTables} {sha256 : Sha256} {deps : CardDeps Time}
  {requests : ι → CardRequest} {workspaces : WorkspaceRegistry} {now : Time}

theorem follows_start (workspaces : WorkspaceRegistry) (now : Time) : Pool.Follows (fun i => cardProtocol tables sha256 deps (requests i)) (fun _ _ _ => True)
    ⟨fun i => (requests i).program tables sha256 deps, freshCards workspaces now⟩ (fun _ => (⟨false, none, none⟩ : CardProgress Time)) :=
  fun i => keeps_program (requests i)

theorem cardsSound_start : CardsSound tables sha256 requests (fun _ => (⟨false, none, none⟩ : CardProgress Time))
    (freshCards workspaces now) where
  filed := ⟨List.nodup_nil, fun _ h => by cases h⟩
  cards := fun _ _ h => by cases h
  knows := fun _ _ _ => ⟨(fun h => nomatch h), (fun _ h => nomatch h), (fun _ h => nomatch h)⟩

variable [DecidableEq ι] [LinearOrder Time] {epoch : Time}

/-- At every point of a run each request keeps its protocol. -/
theorem follows_afterCalls (es : List (ι × Choice Time)) :
    ∃ s : ι → CardProgress Time, (afterCalls tables sha256 deps epoch requests workspaces now es).Follows
      (fun i => cardProtocol tables sha256 deps (requests i)) (fun _ _ _ => True) s := by
  obtain ⟨s, hfollows, -⟩ := Pool.invariant (h := cardPorts epoch) (follows_start workspaces now)
    (fun _ _ _ _ _ => True) (fun _ _ => True) trivial (fun _ _ _ _ _ _ _ _ => trivial) es fun _ _ _ _ _ _ _ _ _ _ => trivial
  exact ⟨s, hfollows⟩

/-- A card under a free id is stored, unless the call fails without effect. -/
theorem get_createApproval (epoch : Time) {w : CardWorld Time} {card : Approval} {d : Choice Time} (hfree : w.approvals.get card.id = none)
    (hlands : d.fault = none ∨ d.landed = true) :
    ((cardPorts epoch).exec w (.createApproval card) d).2.approvals.get card.id = some card := by
  have hlands' : (d.fault.isNone || d.landed) = true := by simpa using hlands
  simp only [cardPorts, hlands', if_true, insertApproval, hfree, Map.get_set_self]

/-- The card of a meeting that a call stores has no saved action. -/
theorem not_allSaved_of_storesMeeting {es : List (ι × Choice Time)} {e : ι × Choice Time}
    (h : StoresMeetingNext requests (afterCalls tables sha256 deps epoch requests workspaces now es) e) :
    ¬ AllSaved tables sha256 (afterCalls tables sha256 deps epoch requests workspaces now (es ++ [e])).world := by
  obtain ⟨i, d⟩ := e
  obtain ⟨op, k, hcall, fields, index, card, hi, rfl, hfree, hlands⟩ := h
  obtain ⟨s, hfollows⟩ : ∃ s : ι → CardProgress Time, (afterCalls tables sha256 deps epoch requests workspaces now es).Follows
      (fun i => cardProtocol tables sha256 deps (requests i)) (fun _ _ _ => True) s := follows_afterCalls es
  obtain ⟨hallows, -⟩ := hfollows.step (h := cardPorts epoch) (d := d) hcall
  have hmeeting : ∃ x, deriveAction fields deps.meetingWorkspaceId index = some x ∧
      card = meetingCard tables sha256 deps (externalAction tables sha256 x) := by
    obtain ⟨fields', index', x, hi', hx, hcard⟩ | ⟨proposal, -, -, hi', -⟩ := hallows
    · obtain ⟨rfl, rfl⟩ := CardRequest.meeting.inj (hi.symm.trans hi')
      exact ⟨x, hx, hcard⟩
    · rw [hi] at hi'
      cases hi'
  obtain ⟨x, hx, rfl⟩ := hmeeting
  intro hall
  have hstored : (afterCalls tables sha256 deps epoch requests workspaces now (es ++ [(i, d)])).world.approvals.get
      (meetingCard tables sha256 deps (externalAction tables sha256 x)).id = some (meetingCard tables sha256 deps (externalAction tables sha256 x)) := by
    unfold afterCalls at hcall hfree ⊢
    rw [Pool.run_concat, Pool.step_of_call hcall]
    exact get_createApproval epoch hfree hlands
  have : Inhabited Time := ⟨epoch⟩
  exact not_hasSavedAction_meetingCard hx (hall _ _ hstored rfl (.inl rfl))

end verdict

/-- Between any two calls of any producers every card has its saved action, exactly if none of the calls
    stores the card of an item of a meeting. -/
theorem cards_allSaved_iff {ι Time : Type} [DecidableEq ι] [LinearOrder Time] (tables : CaseTables) (sha256 : Sha256)
    (hsha : sha256.Law) (deps : CardDeps Time) (epoch : Time) (requests : ι → CardRequest) (workspaces : WorkspaceRegistry) (now : Time)
    (schedule : List (ι × Choice Time)) :
    (∀ es es', schedule = es ++ es' → AllSaved tables sha256 (afterCalls tables sha256 deps epoch requests workspaces now es).world) ↔
      ∀ es e es', schedule = es ++ e :: es' →
        ¬ StoresMeetingNext requests (afterCalls tables sha256 deps epoch requests workspaces now es) e := by
  constructor
  · intro h es e es' hes hstores
    exact not_allSaved_of_storesMeeting hstores (h (es ++ [e]) es' (by simp [hes]))
  · intro h es es' hes
    obtain ⟨s, -, hsound⟩ := Pool.invariant (h := cardPorts epoch) (follows_start workspaces now)
      (fun _ w i op d => ¬ StoresMeetingCard (requests i) w op d) (CardsSound tables sha256 requests) cardsSound_start
      (fun s w i op d hsound hallows hmeeting => hsound.step hsha hallows hmeeting) es
      fun es₁ i d es₂ hes₁ s op k _ hcall hstores => h es₁ (i, d) (es₂ ++ es') (by simp [hes, hes₁]) ⟨op, k, hcall, hstores⟩
    exact hsound.allSaved

section meeting

/-- An item of a meeting with its title and its owner. -/
def itemFields : sow.workflows.ExtractionFields :=
  (Map.empty.set (str "actionItems.0.title") ⟨.str (str "ship")⟩).set (str "actionItems.0.owner") ⟨.str (str "ada")⟩

def meetingDeps : CardDeps Nat where
  actor := str "copilot"
  expiryMs := 1000
  expiresAt := fun _ _ => str "2026-01-08T00:00:00.000Z"
  meetingWorkspaceId := str "work"
  commitActor := str "worker"
  redactString := id

def workRegistry : WorkspaceRegistry where
  rows := Map.empty.set (str "work") true
  slug := by
    intro ws h
    rw [Map.get_set] at h
    split at h
    · next heq =>
      rw [← heq]
      decide
    · cases h

/-- One meeting with one item, and nothing else: its card is pending, and the outbox is empty. -/
theorem meeting_not_allSaved :
    ¬ ∀ es es', [((), Choice.calm 0)] = es ++ es' →
      AllSaved asciiTables issueSha256 (afterCalls asciiTables issueSha256 meetingDeps 0
        (fun _ : Unit => .meeting itemFields 0) workRegistry 0 es).world := by
  intro h
  obtain ⟨d, hd⟩ : ∃ d, deriveAction itemFields meetingDeps.meetingWorkspaceId 0 = some d :=
    Option.isSome_iff_exists.mp (by decide)
  have hprogram : CardRequest.program asciiTables issueSha256 meetingDeps (.meeting itemFields 0) =
      .recorded <$> recordPendingApproval asciiTables issueSha256 meetingDeps (externalAction asciiTables issueSha256 d) := by
    unfold CardRequest.program
    dsimp only
    rw [hd]
  refine not_allSaved_of_storesMeeting ?_ (h ([] ++ [((), Choice.calm 0)]) [] (by simp))
  refine ⟨_, _, hprogram, itemFields, 0, _, rfl, rfl, rfl, .inl rfl⟩

/-- The verdict for the run that is the counterexample. -/
theorem cards_allSaved_iff_meeting :
    (∀ es es', [((), Choice.calm 0)] = es ++ es' →
      AllSaved asciiTables issueSha256 (afterCalls asciiTables issueSha256 meetingDeps 0
        (fun _ : Unit => .meeting itemFields 0) workRegistry 0 es).world) ↔
      ∀ es e es', [((), Choice.calm 0)] = es ++ e :: es' →
        ¬ StoresMeetingNext (fun _ : Unit => .meeting itemFields 0) (afterCalls asciiTables issueSha256 meetingDeps 0
          (fun _ : Unit => .meeting itemFields 0) workRegistry 0 es) e :=
  cards_allSaved_iff asciiTables issueSha256 (tabulated_law worker.issueDigests) meetingDeps 0 (fun _ => .meeting itemFields 0) workRegistry 0
    [((), Choice.calm 0)]

end meeting

end sow.copilot
