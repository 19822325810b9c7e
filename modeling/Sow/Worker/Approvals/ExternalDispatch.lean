import Sow.Contracts.Models
import Sow.Db.Outbox
import Sow.Domain.Keys
import Sow.Integrations.Connectors.FileSource
import Sow.Integrations.Tools.OutboxDrain

open sow.js sow.effect sow.contracts sow.db sow.domain sow.integrations
open sow.knowledge_writer (Sha256)
open sow.tools (Cause ExternalWriteResult BackoffConfig nextDelayMs EXISTENCE_PRECONDITION REDRIVE_APPROVAL_POLICY)

namespace sow.worker

/-- The workspace of the cards that were made before cards had one. -/
def UNASSIGNED_WORKSPACE : JsString := str "__unassigned__"

inductive ApprovalSendRefusal where
  | unassigned_workspace
  | unknown_workspace
  | workspace_mismatch
  | not_this_cards_action
  | payload_mismatch
  deriving DecidableEq

inductive ApprovalSendState where
  | awaiting_approval
  | not_approved
  | writes_off
  | ready
  | held
  | sent
  | rejected
  | expired
  | refused
  | no_send_record
  | unknown
  deriving DecidableEq

/-- Why a write was refused before the gateway. -/
inductive ExternalApprovalRefusal where
  | integrity (refusal : ApprovalSendRefusal)
  | writes_off
  | no_saved_action
  | store_unavailable
  | unknown_status
  deriving DecidableEq

/-- The status of a write result. -/
inductive WriteStatus where
  | created
  | updated
  | superseded
  | reused
  | approval_pending
  | conflict
  | held
  | rejected
  deriving DecidableEq

inductive ExternalApprovalOutcome where
  | not_external
  | not_approved
  | closed
  | refused (reason : ExternalApprovalRefusal)
  | already_done
  | dispatched (status : WriteStatus)
  deriving DecidableEq

inductive ExternalApprovalFailureKind where
  | held
  | rejected
  | conflict
  | integrity
  | not_sent
  deriving DecidableEq

structure ExternalApprovalFailure where
  kind : ExternalApprovalFailureKind
  approvalId : JsString
  reason : Option ExternalApprovalRefusal
  deriving DecidableEq

/-- An envelope rebuilt from a stored entry. -/
structure SentEnvelope where
  actionId : JsString
  targetSystem : JsString
  canonicalObjectKey : JsString
  idempotencyKey : JsString
  preconditions : List JsString
  payloadHash : JsString

/-- An action rebuilt from a stored entry. -/
structure SentAction where
  actionId : JsString
  targetSystem : JsString
  canonicalObjectKey : JsString
  payload : Json
  approvalPolicy : JsString
  idempotencyKey : JsString

/-- One call of the routed gateway, with the approval hooks that the dispatch fixes: approval
    is always required, and it is given to the envelopes of one replay key. -/
structure RoutedDispatch (Time : Type) where
  env : SentEnvelope
  action : SentAction
  requiresApproval : Bool
  approvedKey : JsString
  workspaceId : JsString
  intentCreatedAt : Time

/-- What the dispatch calls. -/
inductive ApprovalDispatchOp (Time : Type) where
  | getWorkspace (workspaceId : JsString)
  | getEntry (outboxId : JsString)
  | updateEntry (entry : OutboxEntry Time)
  | dispatchRouted (dispatch : RoutedDispatch Time)
  | clock
  | onFailure (failure : ExternalApprovalFailure)
  | onSent (approvalId : JsString)

abbrev ApprovalDispatchOp.Ret {Time : Type} : ApprovalDispatchOp Time → Type
  | .getWorkspace _ => DbResult Unit
  | .getEntry _ => DbResult (OutboxEntry Time)
  | .updateEntry _ => DbResult (OutboxEntry Time)
  | .dispatchRouted _ => ExternalWriteResult Time
  | .clock => Time
  | .onFailure _ => Unit
  | .onSent _ => Unit

abbrev ApprovalDispatchM (Time : Type) := Program (ApprovalDispatchOp Time) ApprovalDispatchOp.Ret Cause

/-- The bound dependencies; `addMs` adds milliseconds to a timestamp. -/
structure ExternalApprovalDispatchDeps (Time : Type) where
  armedFor : JsString → JsString → Bool
  backoffCfg : Option BackoffConfig
  onFailure : Bool
  onSent : Bool
  addMs : Time → Nat → Time

def DEFAULT_DRAIN_BACKOFF : BackoffConfig := ⟨1000, 60000, 5⟩

def TERMINAL : List JsString := [str "receipt_recorded", str "rejected", str "expired"]

/-- What was found saved with a card. -/
inductive SavedActionCheck (Time : Type) where
  | verified (entry : OutboxEntry Time)
  | refused (reason : ApprovalSendRefusal)
  | no_saved_action
  | store_fault

section dispatch

variable {Time : Type}

def statusOf : ExternalWriteResult Time → WriteStatus
  | .created _ => .created
  | .updated _ => .updated
  | .superseded _ => .superseded
  | .reused _ => .reused
  | .approval_pending => .approval_pending
  | .conflict _ _ => .conflict
  | .held _ _ => .held
  | .rejected _ _ => .rejected

/-- `payload ?? {}` -/
def payloadOrEmpty : Option Json → Json
  | none => .obj []
  | some .null => .obj []
  | some payload => payload

def rebuildSentAction (entry : OutboxEntry Time) : SentAction where
  actionId := entry.actionRef
  targetSystem := entry.targetSystem
  canonicalObjectKey := entry.canonicalObjectKey
  payload := payloadOrEmpty entry.payload
  approvalPolicy := entry.approvalPolicy.getD REDRIVE_APPROVAL_POLICY
  idempotencyKey := entry.idempotencyKey

def rebuildSentEnvelope (entry : OutboxEntry Time) : SentEnvelope where
  actionId := entry.actionRef
  targetSystem := entry.targetSystem
  canonicalObjectKey := entry.canonicalObjectKey
  idempotencyKey := entry.idempotencyKey
  preconditions := [EXISTENCE_PRECONDITION]
  payloadHash := entry.payloadHash

/-- An object or an array, in the sense of `typeof`. -/
def isJsonObject : Json → Bool
  | .arr _ => true
  | .obj _ => true
  | _ => false

variable (tables : CaseTables) (sha256 : Sha256)

/-- The replay key and the workspace of the entry derive the id of the card. -/
def derivesCard (approval : Approval) (entry : OutboxEntry Time) : Bool :=
  approvalIdFor tables sha256 entry.idempotencyKey entry.workspaceId = approval.id

/-- The payload that would be sent hashes to what was approved. -/
def payloadApproved (approval : Approval) (entry : OutboxEntry Time) : Bool :=
  entry.payload.any fun payload => isJsonObject payload && payloadHash sha256 payload = approval.payloadHash

/-- The checks of a saved entry against its card. -/
def checkEntry (approval : Approval) (entry : OutboxEntry Time) : SavedActionCheck Time :=
  if entry.workspaceId ≠ approval.workspaceId then .refused .workspace_mismatch
  else if !derivesCard tables sha256 approval entry then .refused .not_this_cards_action
  else if entry.payloadHash ≠ approval.payloadHash then .refused .payload_mismatch
  else if !payloadApproved sha256 approval entry then .refused .payload_mismatch
  else .verified entry

def checkSavedAction (approval : Approval) : ApprovalDispatchM Time (SavedActionCheck Time) := do
  if approval.workspaceId = UNASSIGNED_WORKSPACE then return .refused .unassigned_workspace
  match ← .perform (ApprovalDispatchOp.getWorkspace approval.workspaceId) with
  | .error e => return if e.code = .not_found then .refused .unknown_workspace else .store_fault
  | .ok _ =>
    match ← .perform (ApprovalDispatchOp.getEntry (approvalOutboxId approval.id)) with
    | .error e => return if e.code = .not_found then .no_saved_action else .store_fault
    | .ok entry => return checkEntry tables sha256 approval entry

/-- The send state of a card that has its verified entry. -/
def entrySendState (armedFor : JsString → JsString → Bool) (approval : Approval) (entry : OutboxEntry Time) : ApprovalSendState :=
  if approval.status = .rejected || approval.status = .edited || approval.status = .expired then .not_approved
  else if entry.status = str "receipt_recorded" then .sent
  else if entry.status = str "rejected" then .rejected
  else if entry.status = str "expired" then .expired
  else if approval.status = .pending || approval.status = .deferred then .awaiting_approval
  else if approval.status ≠ .approved then .not_approved
  else if !armedFor entry.targetSystem entry.workspaceId then .writes_off
  else if entry.status = str "proposed" then .ready
  else if entry.status = str "retry_queued" then .held
  else .unknown

/-- The send state of a card with the refusal behind it; `none` after a store fault. -/
def sendStateOf (armedFor : JsString → JsString → Bool) (approval : Approval) :
    SavedActionCheck Time → Option (ApprovalSendState × Option ApprovalSendRefusal)
  | .store_fault => none
  | .refused reason => some (.refused, some reason)
  | .no_saved_action => some (.no_send_record, none)
  | .verified entry => some (entrySendState armedFor approval entry, none)

/-- The states in which a write is attempted. -/
def DISPATCHABLE : List ApprovalSendState := [.ready, .held]

/-- The outcome in a state in which no write is attempted. -/
def undispatched (refusal : Option ApprovalSendRefusal) : ApprovalSendState → ExternalApprovalOutcome
  | .refused => .refused (.integrity (refusal.getD .not_this_cards_action))
  | .no_send_record => .refused .no_saved_action
  | .writes_off => .refused .writes_off
  | .sent => .already_done
  | .rejected => .already_done
  | .expired => .already_done
  | _ => .refused .unknown_status

/-- The entry that a write result leads to. -/
def foldWriteResult (deps : ExternalApprovalDispatchDeps Time) (entry : OutboxEntry Time) (now updatedAt : Time) :
    ExternalWriteResult Time → OutboxEntry Time
  | .updated receipt => recorded receipt
  | .created receipt => recorded receipt
  | .reused receipt => recorded receipt
  | .superseded _ => rejected
  | .held _ _ => holdAgain (str "retry_queued")
  | .approval_pending => holdAgain (str "proposed")
  | .conflict _ _ => rejected
  | .rejected _ _ => rejected
where
  recorded (receipt : WriteReceipt Time) : OutboxEntry Time :=
    { entry with status := str "receipt_recorded", writeReceipt := some receipt, updatedAt := updatedAt }
  rejected : OutboxEntry Time := { entry with status := str "rejected", attempts := entry.attempts + 1, updatedAt := updatedAt }
  holdAgain (status : JsString) : OutboxEntry Time :=
    let cfg := deps.backoffCfg.getD DEFAULT_DRAIN_BACKOFF
    let attempts := entry.attempts + 1
    { entry with
      status := status
      attempts := attempts
      nextAttemptAt := some (deps.addMs now ((nextDelayMs attempts cfg none).getD cfg.maxMs))
      updatedAt := updatedAt }

/-- Dispatch the verified entry through the gateway, and fold the result onto it. -/
def sendEntry (deps : ExternalApprovalDispatchDeps Time) (approval : Approval) (entry : OutboxEntry Time) :
    ApprovalDispatchM Time ExternalApprovalOutcome := do
  let result ← .perform (ApprovalDispatchOp.dispatchRouted {
    env := rebuildSentEnvelope entry
    action := rebuildSentAction entry
    requiresApproval := true
    approvedKey := entry.idempotencyKey
    workspaceId := approval.workspaceId
    intentCreatedAt := entry.enqueuedAt })
  let now ← .perform ApprovalDispatchOp.clock
  let updatedAt ← .perform ApprovalDispatchOp.clock
  let _ ← .perform (ApprovalDispatchOp.updateEntry (foldWriteResult deps entry now updatedAt result))
  return .dispatched (statusOf result)

/-- The entry is provably the card's. -/
def isOwnEntry (approval : Approval) (entry : OutboxEntry Time) : Bool :=
  entry.workspaceId = approval.workspaceId && derivesCard tables sha256 approval entry

/-- Close the saved entry of a card that will never be sent. -/
def closeSavedEntry (approval : Approval) : ApprovalDispatchM Time ExternalApprovalOutcome := do
  match ← .perform (ApprovalDispatchOp.getEntry (approvalOutboxId approval.id)) with
  | .error _ => return .not_approved
  | .ok entry =>
    if !isOwnEntry tables sha256 approval entry then return .not_approved
    if entry.status ∉ TERMINAL then
      let updatedAt ← .perform ApprovalDispatchOp.clock
      let _ ← .perform (ApprovalDispatchOp.updateEntry { entry with status := str "rejected", updatedAt := updatedAt })
    return .closed

/-- The owner's own no. -/
def isClosing (approval : Approval) : Bool :=
  approval.status = .rejected || approval.status = .edited || approval.status = .expired

def decideAndSend (deps : ExternalApprovalDispatchDeps Time) (approval : Approval) :
    ApprovalDispatchM Time ExternalApprovalOutcome := do
  if approval.subjectKind = .semantic_mutation then return .not_external
  if isClosing approval then closeSavedEntry tables sha256 approval
  else if approval.status ≠ .approved then return .not_approved
  else
    let check ← checkSavedAction tables sha256 approval
    match sendStateOf deps.armedFor approval check with
    | none => return .refused .store_unavailable
    | some (state, refusal) =>
      if state ∉ DISPATCHABLE then return undispatched refusal state
      else match check with
        | .verified entry => sendEntry deps approval entry
        | _ => return .refused .no_saved_action

def failureOf (outcome : ExternalApprovalOutcome) (approvalId : JsString) : Option ExternalApprovalFailure :=
  match outcome with
  | .dispatched status =>
    if status = .held || status = .approval_pending then some ⟨.held, approvalId, none⟩
    else if status = .rejected || status = .superseded then some ⟨.rejected, approvalId, none⟩
    else if status = .conflict then some ⟨.conflict, approvalId, none⟩
    else none
  | .refused reason =>
    if reason = .integrity .workspace_mismatch || reason = .integrity .payload_mismatch || reason = .integrity .not_this_cards_action then
      some ⟨.integrity, approvalId, some reason⟩
    else some ⟨.not_sent, approvalId, some reason⟩
  | _ => none

/-- Report a failure; reporting never fails the dispatch. -/
def reportFailure (deps : ExternalApprovalDispatchDeps Time) (failure : Option ExternalApprovalFailure) : ApprovalDispatchM Time Unit :=
  match failure with
  | some failure =>
    if deps.onFailure then Program.tryCatch (.perform (ApprovalDispatchOp.onFailure failure)) fun _ => pure () else pure ()
  | none => pure ()

/-- Report a write that has gone out. -/
def reportSent (deps : ExternalApprovalDispatchDeps Time) (approval : Approval) (outcome : ExternalApprovalOutcome) :
    ApprovalDispatchM Time Unit :=
  if (outcome = .dispatched .created || outcome = .dispatched .updated || outcome = .dispatched .reused) && deps.onSent then
    Program.tryCatch (.perform (ApprovalDispatchOp.onSent approval.id)) fun _ => pure ()
  else pure ()

/-- Send the write that an approved external card stands for, or refuse without writing. -/
def dispatchExternalApproval (deps : ExternalApprovalDispatchDeps Time) (approval : Approval) :
    ApprovalDispatchM Time ExternalApprovalOutcome := do
  let outcome ← (decideAndSend tables sha256 deps approval).tryCatch fun _ => pure (.dispatched .rejected)
  reportFailure deps (failureOf outcome approval.id)
  reportSent deps approval outcome
  return outcome

end dispatch

end sow.worker
