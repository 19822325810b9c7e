import Sow.Contracts.Models
import Sow.Db.Approvals
import Sow.Integrations.Tools.ToolModel
import Sow.Worker.Approvals.SentAsApproved
import Sow.Workflows.Activities.Projections.MeetingActions

open sow.js sow.effect sow.contracts sow.db sow.domain sow.integrations
open sow.knowledge_writer (Sha256 isWorkspaceSlug)
open sow.tools (ToolOp ToolM ToolWorld Cause Choice HoldWriteArgs holdWrite toolHandler duplicateKey)
open sow.worker (readWorkspace ApprovalDispatchWorld)
open sow.workflows (ExtractionFields MeetingExternalActionInput deriveAction externalAction)

namespace sow.copilot

def COPILOT_PROPOSE_PRECONDITION : JsString := str "copilot.proposal.requires_owner_approval"

/-- Proof that a proposal is recorded as a card. -/
structure CopilotProposeReceipt where
  approvalRef : JsString
  created : Bool
  deriving DecidableEq

/-- What the producers of cards call: the operations of the outbox, with the id that a fresh entry
    is given, and the stores of the workspaces and of the cards; and a decision of the owner. -/
inductive CardOp (Time : Type) where
  | tool (outboxId : JsString) (op : ToolOp Time Json)
  | getWorkspace (workspaceId : JsString)
  | getApproval (id : JsString)
  | createApproval (approval : Approval)
  | now
  | decide (id : JsString) (status : ApprovalStatus)

abbrev CardOp.Ret {Time : Type} : CardOp Time → Type
  | .tool _ op => op.Ret
  | .getWorkspace _ => DbResult Unit
  | .getApproval _ => DbResult Approval
  | .createApproval _ => DbResult Approval
  | .now => Time
  | .decide _ _ => Unit

abbrev CardM (Time : Type) := Program (CardOp Time) CardOp.Ret Cause

/-- An action on its way to a card, with the workspace that the server has bound. -/
structure CardProposal where
  action : ProposedAction Json
  workspaceId : JsString
  payload_object : sow.worker.isJsonObject action.payload = true

/-- What the producers are built with; `addMs` gives the time at which a card expires. -/
structure CardDeps (Time : Type) where
  actor : JsString
  expiryMs : Nat
  expiresAt : Time → Nat → JsString
  /-- The workspace of the meeting job, and its actor. -/
  meetingWorkspaceId : JsString
  commitActor : JsString
  redactString : JsString → JsString

def dbErrorToProposeFailure (e : DbError) : FailureVariant :=
  match e.code with
  | .conflict =>
    failure .write_conflict (str "copilot propose: approval record conflict") (some (str "COPILOT_PROPOSE_RECORD_CONFLICT")) false
  | .not_found =>
    failure .validation_rejected (str "copilot propose: approval not found") (some (str "COPILOT_PROPOSE_RECORD_NOT_FOUND")) false
  | .constraint_violation =>
    failure .write_conflict (str "copilot propose: approval record rejected") (some (str "COPILOT_PROPOSE_RECORD_CONSTRAINT")) false
  | .serialization_failure =>
    failure .degraded_unavailable (str "copilot propose: approval store retryable") (some (str "COPILOT_PROPOSE_STORE_SERIALIZATION")) true
  | .unavailable =>
    failure .degraded_unavailable (str "copilot propose: approval store unavailable") (some (str "COPILOT_PROPOSE_STORE_UNAVAILABLE")) true
  | _ => failure .degraded_unavailable (str "copilot propose: approval store error") (some (str "COPILOT_PROPOSE_STORE_UNKNOWN")) false

/-- The envelope of an action, with the digest of its payload. -/
def buildEnvelopeFromAction (sha256 : Sha256) (action : ProposedAction Json) (preconditions : List JsString) : ExternalWriteEnvelope where
  actionId := action.actionId
  targetSystem := action.targetSystem
  canonicalObjectKey := action.canonicalObjectKey
  idempotencyKey := action.idempotencyKey
  preconditions := preconditions
  payloadHash := payloadHash sha256 action.payload

/-- A card under this id is the same proposal, or a different one. -/
def reconcileExisting (existing : Approval) (envelope : ExternalWriteEnvelope) : Except FailureVariant CopilotProposeReceipt :=
  if existing.payloadHash = envelope.payloadHash then .ok ⟨existing.id, false⟩
  else .error (failure .write_conflict (str "copilot propose: a different proposal is already pending for this object")
    (some (str "COPILOT_PROPOSE_PAYLOAD_CONFLICT")) false)

section producers

variable {Time : Type} (tables : CaseTables) (sha256 : Sha256) (deps : CardDeps Time)

/-- The card of a proposal. -/
def proposalCard (proposal : CardProposal) (envelope : ExternalWriteEnvelope) (now : Time) : Approval where
  id := approvalIdFor tables sha256 envelope.idempotencyKey proposal.workspaceId
  actionRef := some proposal.action.actionId
  planRef := none
  subjectKind := .external_action
  workspaceId := proposal.workspaceId
  status := .pending
  actor := deps.actor
  channel := .mac
  payloadHash := envelope.payloadHash
  snoozeUntil := none
  expiresAt := some (deps.expiresAt now deps.expiryMs)

/-- The part of `record` behind the save: the card, and what a card of that id means. -/
def createCard (card : Approval) (envelope : ExternalWriteEnvelope) : CardM Time (Except FailureVariant CopilotProposeReceipt) := do
  match ← .perform (CardOp.createApproval card) with
  | .ok _ => return .ok ⟨card.id, true⟩
  | .error e =>
    if e.code = .conflict then
      match ← .perform (CardOp.getApproval card.id) with
      | .ok racer => return reconcileExisting racer envelope
      | .error _ => return .error (dbErrorToProposeFailure e)
    else return .error (dbErrorToProposeFailure e)

/-- Save the action before its card; an entry that was saved before is adopted only if it is this card's. -/
def saveThenCreate (proposal : CardProposal) (envelope : ExternalWriteEnvelope) :
    CardM Time (Except FailureVariant CopilotProposeReceipt) := do
  let id := approvalIdFor tables sha256 envelope.idempotencyKey proposal.workspaceId
  let held : ToolM Time Json _ := holdWrite deps.redactString none ⟨envelope, proposal.action, .not_approved, proposal.workspaceId⟩
  match ← held.lift (CardOp.tool (approvalOutboxId id)) fun _ r => r with
  | .error _ =>
    return .error (failure .degraded_unavailable (str "copilot propose: could not save the action to send")
      (some (str "COPILOT_PROPOSE_OUTBOX_UNAVAILABLE")) false)
  | .ok saved =>
    if saved.payloadHash ≠ envelope.payloadHash then
      return .error (failure .write_conflict (str "copilot propose: a different proposal is already saved for this object")
        (some (str "COPILOT_PROPOSE_PAYLOAD_CONFLICT")) false)
    else if saved.outboxId ≠ approvalOutboxId id then
      return .error (failure .write_conflict (str "copilot propose: this proposal is already saved for another card")
        (some (str "COPILOT_PROPOSE_SAVED_FOR_OTHER_CARD")) false)
    else
      let now ← .perform CardOp.now
      createCard (proposalCard tables sha256 deps proposal envelope now) envelope

/-- `record` of the sink that `createApprovalsProposeSink` makes, for the envelope of the action. -/
def record (proposal : CardProposal) : CardM Time (Except FailureVariant CopilotProposeReceipt) := do
  let envelope := buildEnvelopeFromAction sha256 proposal.action [COPILOT_PROPOSE_PRECONDITION]
  match ← .perform (CardOp.getWorkspace proposal.workspaceId) with
  | .error _ =>
    return .error (failure .validation_rejected (str "copilot propose: unknown workspace")
      (some (str "COPILOT_PROPOSE_UNKNOWN_WORKSPACE")) false)
  | .ok _ =>
    match ← .perform (CardOp.getApproval (approvalIdFor tables sha256 envelope.idempotencyKey proposal.workspaceId)) with
    | .ok existing => return reconcileExisting existing envelope
    | .error _ => saveThenCreate tables sha256 deps proposal envelope

/-- The card of a meeting's external proposal. -/
def meetingCard (proposed : MeetingExternalActionInput) : Approval where
  id := approvalIdFor tables sha256 proposed.envelope.idempotencyKey deps.meetingWorkspaceId
  actionRef := some proposed.action.actionId
  planRef := none
  subjectKind := .external_action
  workspaceId := deps.meetingWorkspaceId
  status := .pending
  actor := deps.commitActor
  channel := .mac
  payloadHash := proposed.envelope.payloadHash
  snoozeUntil := none
  expiresAt := none

/-- `recordPendingApproval` of the gateway that the meeting's proposals go through. -/
def recordPendingApproval (proposed : MeetingExternalActionInput) : CardM Time (DbResult Approval) :=
  .perform (CardOp.createApproval (meetingCard tables sha256 deps proposed))

/-- A request that reaches the stores of the cards: a proposal of the Copilot, an item of a
    meeting that needs approval, or a decision of the owner. -/
inductive CardRequest where
  | propose (proposal : CardProposal)
  | meeting (fields : ExtractionFields) (index : Nat)
  | decide (id : JsString) (status : ApprovalStatus)

inductive CardAnswer where
  | proposed (r : Except FailureVariant CopilotProposeReceipt)
  | recorded (r : DbResult Approval)
  | nothing_proposed
  | decided

def CardRequest.program : CardRequest → CardM Time CardAnswer
  | .propose proposal => .proposed <$> record tables sha256 deps proposal
  | .meeting fields index =>
    match deriveAction fields deps.meetingWorkspaceId index with
    | some d => .recorded <$> recordPendingApproval tables sha256 deps (externalAction tables sha256 d)
    | none => return .nothing_proposed
  | .decide id status => do
    let _ ← .perform (CardOp.decide id status)
    return .decided

end producers

/-- The stored workspaces; a row that reads back as a workspace has the slug that it is stored under. -/
structure WorkspaceRegistry where
  rows : Map JsString Bool
  slug : ∀ ws, rows.get ws = some true → isWorkspaceSlug ws = true

/-- The stores: the outbox among those of the tools, the cards and the workspaces. -/
structure CardWorld (Time : Type) where
  tools : ToolWorld Time Json
  approvals : Approvals
  workspaces : WorkspaceRegistry

section ports

variable {Time : Type}

def readApproval (table : Approvals) (id : JsString) : DbResult Approval :=
  match table.get id with
  | some card => .ok card
  | none => .error (notFound (str "approval " ++ id))

/-- `create` is refused under an id that has a card. -/
def insertApproval (table : Approvals) (card : Approval) : DbResult Approval × Approvals :=
  match table.get card.id with
  | some _ => (.error duplicateKey, table)
  | none => (.ok card, table.set card.id card)

/-- A decision moves the card of an id, where there is one. -/
def setStatus (table : Approvals) (id : JsString) (status : ApprovalStatus) : Approvals :=
  match table.get id with
  | some card => table.set id { card with status := status }
  | none => table

/-- The stores behind the producers; each call is atomic, and a failed write may have landed. -/
def cardPorts [LinearOrder Time] (epoch : Time) :
    Handler (CardOp Time) CardOp.Ret Cause (CardWorld Time) (Choice Time) where
  exec w op d := match op with
    | .tool outboxId op =>
      (((toolHandler epoch).exec w.tools op { d with id := outboxId }).1,
        { w with tools := ((toolHandler epoch).exec w.tools op { d with id := outboxId }).2 })
    | .getWorkspace workspaceId => (.ok (d.fault.elim (readWorkspace w.workspaces.rows workspaceId) .error), w)
    | .getApproval id => (.ok (d.fault.elim (readApproval w.approvals id) .error), w)
    | .createApproval card =>
      (.ok (d.fault.elim (insertApproval w.approvals card).1 .error),
        if d.fault.isNone || d.landed then { w with approvals := (insertApproval w.approvals card).2 } else w)
    | .now => (.ok d.time, w)
    | .decide id status => (.ok (), { w with approvals := setStatus w.approvals id status })

end ports

end sow.copilot
