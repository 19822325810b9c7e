import Sow.Integrations.Tools.Gateway
import Sow.Workflows.ApprovalFlow
import Sow.Workflows.Runtime.WorkflowRun
import Sow.Domain.Keys

open sow.js sow.effect sow.contracts sow.db sow.domain
open sow.knowledge_writer (Sha256)
open sow.tools (ToolOp ToolM Cause ExternalWriteDeps DispatchOptions ReceiptReservation ReceiptStore.reserve dispatchExternalWrite)

namespace sow.workflows

/-- What a decision of the approval flow calls: the registry of runs, the Tool Gateway with its stores, the
    cards, their renderer and the health sink. -/
inductive FlowOp (Time Payload : Type) where
  | resolveRun
  | tool (op : ToolOp Time Payload)
  | approval (op : ApprovalOp)
  | createApproval (card : Approval)
  | render (card : Approval) (channel : Channel)
  | health (failure : ApprovalWorkflowFailure)

abbrev FlowOp.Ret {Time Payload : Type} : FlowOp Time Payload → Type
  | .resolveRun => Except WorkflowRunError ResolveRunOutcome
  | .tool op => op.Ret
  | .approval op => op.Ret
  | .createApproval _ => DbResult Approval
  | .render _ _ => Except JsString Unit
  | .health _ => Unit

abbrev FlowM (Time Payload : Type) := Program (FlowOp Time Payload) FlowOp.Ret Cause

structure ApprovalFlowContext (Time Payload : Type) where
  workspaceId : JsString
  action : ProposedAction Payload
  envelope : ExternalWriteEnvelope
  intentCreatedAt : Option Time

/-- How a dispatch of an approved action fails. -/
inductive DispatchApprovedErrorCode where
  | held
  | conflict
  | rejected
  deriving DecidableEq

structure DispatchApprovedError where
  code : DispatchApprovedErrorCode
  message : JsString

/-- A dispatch that is done: the envelope with its receipt. -/
structure DispatchApprovedResult (Time : Type) where
  envelope : ExternalWriteEnvelope
  writeReceipt : WriteReceipt Time

/-- The bindings of the flow. -/
structure DecideFlowDeps (Payload : Type) where
  /-- The systems that have a write adapter. -/
  registered : TargetSystem → Bool
  gateway : ExternalWriteDeps Payload
  transition : ApplyTransitionActivityDeps
  recordActor : JsString
  seedChannel : Channel
  recordExpiresAt : JsString
  /-- The workspace of the job that the gateway is bound to. -/
  jobWorkspaceId : JsString

structure DecideOutcome (Time : Type) where
  state : ApprovalStatus
  approval : Option Approval
  dispatched : Option (DispatchApprovedResult Time)
  run : Except WorkflowRunError WorkflowRunRef
  runReused : Bool
  surfaced : Option ApprovalWorkflowFailure

/-- The failures of a decision. -/
inductive DecideFailureCode where
  | parity_failed
  | illegal_transition
  | expired
  | conflicting_approval
  | stale_card
  | apply_failed
  | record_failed
  | dispatch_held
  | dispatch_conflict
  | dispatch_rejected
  deriving DecidableEq

def decideFailureClass : DecideFailureCode → ApprovalFailureClass
  | .conflicting_approval => .conflict_review
  | .stale_card => .conflict_review
  | .illegal_transition => .conflict_review
  | .expired => .conflict_review
  | .dispatch_conflict => .conflict_review
  | _ => .write_through_failed

def DispatchApprovedErrorCode.text : DispatchApprovedErrorCode → JsString
  | .held => str "held"
  | .conflict => str "conflict"
  | .rejected => str "rejected"

def applyFailureCode : ApplyTransitionErrorCode → DecideFailureCode
  | .expired => .expired
  | .conflicting_approval => .conflicting_approval
  | .stale_card => .stale_card
  | .illegal_transition => .illegal_transition
  | .apply_failed => .apply_failed

section flow

variable {Time Payload : Type}

/-- A program on the cards, whose driver throws errors of its own. -/
def onApprovals {α : Type} (p : ApprovalM α) : FlowM Time Payload α :=
  p.embed FlowOp.approval (fun _ r => r) (fun _ => str "database error") fun _ => ⟨[], none⟩

def onTools {α : Type} (p : ToolM Time Payload α) : FlowM Time Payload α := p.lift FlowOp.tool fun _ r => r

/-- `reservePending` of `recordPendingGateway`: the row of the object is reserved for the card. -/
def reservePending (envelope : ExternalWriteEnvelope) : FlowM Time Payload Bool := do
  match ← onTools (ReceiptStore.reserve (envelope.targetSystem, envelope.canonicalObjectKey)) with
  | .committed _ => return false
  | .reserved => return true
  | .in_progress => return false

variable (tables : CaseTables) (sha256 : Sha256) (deps : DecideFlowDeps Payload) (ctx : ApprovalFlowContext Time Payload)

/-- The id of the card of the flow. -/
def flowCardId : JsString := approvalIdFor tables sha256 ctx.envelope.idempotencyKey ctx.workspaceId

/-- The card that the flow records. -/
def pendingCard : Approval where
  id := flowCardId tables sha256 ctx
  actionRef := some ctx.action.actionId
  planRef := none
  subjectKind := .external_action
  workspaceId := ctx.workspaceId
  status := .pending
  actor := deps.recordActor
  channel := deps.seedChannel
  payloadHash := ctx.envelope.payloadHash
  snoozeUntil := none
  expiresAt := some deps.recordExpiresAt

/-- `record` of the activity that `createRecordPendingActivity` makes. -/
def recordPending : FlowM Time Payload (Except JsString Approval) := do
  let _ ← reservePending ctx.envelope
  match ← onApprovals (approvals.get (flowCardId tables sha256 ctx)) with
  | .ok existing => return .ok existing
  | .error _ =>
    match ← .perform (FlowOp.createApproval (pendingCard tables sha256 deps ctx)) with
    | .ok created => return .ok created
    | .error e =>
      match ← onApprovals (approvals.get (flowCardId tables sha256 ctx)) with
      | .ok current => return .ok current
      | .error _ => return .error (str "pending approval create failed: " ++ dbErrorCodeText e.code)

/-- Both channels show the card, or none counts. -/
def surfaceCard (card : Approval) : FlowM Time Payload Bool := do
  let mac ← .perform (FlowOp.render card .mac)
  let telegram ← .perform (FlowOp.render card .telegram)
  return mac.isOk && telegram.isOk

/-- The adapter of a write is chosen by the system of its action. -/
def dispatchRouted [LinearOrder Time] (registered : TargetSystem → Bool) (gateway : ExternalWriteDeps Payload)
    (env : ExternalWriteEnvelope) (action : ProposedAction Payload) (opts : DispatchOptions Time) :
    ToolM Time Payload (sow.tools.ExternalWriteResult Time) :=
  if env.targetSystem ≠ action.targetSystem then return .rejected (str "envelope/action targetSystem mismatch") none
  else if !registered action.targetSystem then return .rejected (str "unregistered target system: no write adapter registered") none
  else dispatchExternalWrite gateway env action opts

/-- The outcome of a write as the flow takes it. -/
def foldDispatch (envelope : ExternalWriteEnvelope) : sow.tools.ExternalWriteResult Time → Except DispatchApprovedError (DispatchApprovedResult Time)
  | .created receipt => .ok ⟨envelope, receipt⟩
  | .updated receipt => .ok ⟨envelope, receipt⟩
  | .reused receipt => .ok ⟨envelope, receipt⟩
  | .conflict reason _ => .error ⟨.conflict, reason⟩
  | .held reason _ => .error ⟨.held, reason⟩
  | .approval_pending => .error ⟨.rejected, str "external write awaits approval"⟩
  | .superseded reason => .error ⟨.rejected, reason⟩
  | .rejected reason _ => .error ⟨.rejected, reason⟩

/-- `dispatch` of `approvedGateway`. -/
def dispatchApprovedAction [LinearOrder Time] : FlowM Time Payload (Except DispatchApprovedError (DispatchApprovedResult Time)) := do
  let outcome ← onTools (dispatchRouted deps.registered deps.gateway ctx.envelope ctx.action
    ⟨ctx.intentCreatedAt, some deps.jobWorkspaceId⟩)
  return foldDispatch ctx.envelope outcome

/-- Route a failure to the health sink, and rest in a state. -/
def surfaceDecision (resolved : Except WorkflowRunError ResolveRunOutcome) (failState : ApprovalStatus) (code : DecideFailureCode)
    (message : JsString) (approval : Option Approval) : FlowM Time Payload (DecideOutcome Time) := do
  let failure : ApprovalWorkflowFailure := ⟨decideFailureClass code, message⟩
  .perform (FlowOp.health failure)
  return ⟨failState, approval, none, resolved.map ResolveRunOutcome.run, (resolved.toOption.any ResolveRunOutcome.reused), some failure⟩

/-- Step 5: only an approved action is dispatched. -/
def routeDecision [LinearOrder Time] (resolved : Except WorkflowRunError ResolveRunOutcome) (decided : Approval) :
    FlowM Time Payload (DecideOutcome Time) := do
  let rest (dispatched : Option (DispatchApprovedResult Time)) (surfaced : Option ApprovalWorkflowFailure) : DecideOutcome Time :=
    ⟨decided.status, decided, dispatched, resolved.map ResolveRunOutcome.run, resolved.toOption.any ResolveRunOutcome.reused, surfaced⟩
  if decided.status = .deferred || decided.status = .rejected || decided.status = .edited then return rest none none
  else
    match ← dispatchApprovedAction deps ctx with
    | .ok result => return { rest (some result) none with state := .approved }
    | .error e =>
      let message := str "approved-action dispatch failed: " ++ e.code.text
      let healthCode : DecideFailureCode := match e.code with
        | .held => .dispatch_held
        | .conflict => .dispatch_conflict
        | .rejected => .dispatch_rejected
      .perform (FlowOp.health ⟨decideFailureClass healthCode, message⟩)
      let surfacedCode : DecideFailureCode := if e.code = .held then .dispatch_held else .dispatch_conflict
      return { rest none (some ⟨decideFailureClass surfacedCode, message⟩) with state := .approved }

/-- The `decide` path of `runApprovalFlow`. -/
def runDecide [LinearOrder Time] (decision : ApprovalDecision) : FlowM Time Payload (DecideOutcome Time) := do
  let resolved ← .perform FlowOp.resolveRun
  match ← recordPending tables sha256 deps ctx with
  | .error _ => surfaceDecision resolved .pending .record_failed (str "record pending failed: record_failed") none
  | .ok card =>
    if !(← surfaceCard card) then
      surfaceDecision resolved .pending .parity_failed (str "surface card failed: parity_failed") (some card)
    else
      match ← onApprovals (ApplyTransitionPort.apply deps.transition card decision) with
      | .error e =>
        surfaceDecision resolved (if e.code = .expired then .expired else .pending) (applyFailureCode e.code)
          (str "apply decision failed: " ++ e.code.text) (some card)
      | .ok applied =>
        -- A second decision rests in the state that is applied already, without a further effect.
        if !applied.applied then
          return ⟨applied.approval.status, applied.approval, none, resolved.map ResolveRunOutcome.run,
            resolved.toOption.any ResolveRunOutcome.reused, none⟩
        else routeDecision deps ctx resolved applied.approval

end flow

end sow.workflows
