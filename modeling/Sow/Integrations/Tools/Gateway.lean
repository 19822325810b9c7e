import Sow.Integrations.Tools.ReceiptStore

open sow.js sow.effect sow.contracts

namespace sow.tools

inductive ExternalWriteResult (Time : Type) where
  | created (receipt : WriteReceipt Time)
  | updated (receipt : WriteReceipt Time)
  | superseded (reason : JsString)
  | reused (receipt : WriteReceipt Time)
  | approval_pending
  | conflict (reason : JsString) (adapterCode : Option AdapterErrorCode)
  | held (reason : JsString) (adapterCode : Option AdapterErrorCode)
  | rejected (reason : JsString) (adapterCode : Option AdapterErrorCode)

/-- `schemaViolation` is the rejection message of the schema layers (ajv and Zod) for an
    envelope; the log sink, which nothing reads back, is left out. -/
structure ExternalWriteDeps (Payload : Type) where
  schemaViolation : ExternalWriteEnvelope → Option JsString
  requireApproval : ProposedAction Payload → Bool
  /-- Whether the credential seam is bound. -/
  secrets : Bool

structure DispatchOptions (Time : Type) where
  intentCreatedAt : Option Time
  workspaceId : Option JsString

/-- The keys of the external-write rule that are blank. -/
def missingWriteKeys (env : ExternalWriteEnvelope) : List JsString :=
  (if trim env.canonicalObjectKey = [] then [str "canonicalObjectKey"] else []) ++
    (if trim env.idempotencyKey = [] then [str "idempotencyKey"] else [])

/-- The message of the rejection, if the envelope is not admitted. -/
def admitExternalWriteEnvelope {Payload : Type} (schemaViolation : ExternalWriteEnvelope → Option JsString)
    (env : ExternalWriteEnvelope) (action : ProposedAction Payload) : Option JsString :=
  match schemaViolation env with
  | some message => some message
  | none =>
    if missingWriteKeys env ≠ [] then
      some (str "external-write-envelope missing external-write key(s): " ++ join (str ", ") (missingWriteKeys env))
    else if envelopeMatchesAction env action then none
    else some (str "envelope does not match the originating ProposedAction " ++
      str "(actionId/targetSystem/canonicalObjectKey/idempotencyKey)")

def writeSecretRef (targetSystem : TargetSystem) (workspaceId : JsString) : JsString :=
  match targetSystem with
  | .telegram => str "keychain://telegram-bot." ++ workspaceId ++ str "/bot"
  | _ => str "keychain://connector-write." ++ workspaceId ++ str "/" ++ targetSystem.text

structure WriteCredentialFault where
  reason : JsString
  retryable : Bool

section gateway

variable {Time Payload : Type}

/-- Without a workspace there is no credential; a locked or throwing accessor may be
    tried again, anything else needs an owner. -/
def resolveWriteCredentialFault (targetSystem : TargetSystem) (workspaceId : Option JsString) :
    ToolM Time Payload (Option WriteCredentialFault) :=
  let unscoped : WriteCredentialFault := ⟨str "write credential unavailable: workspace_unscoped", false⟩
  match workspaceId with
  | none => pure (some unscoped)
  | some workspaceId =>
    if trim workspaceId = [] then pure (some unscoped)
    else Program.tryCatch (do
      match ← Hooks.getSecret (writeSecretRef targetSystem workspaceId) with
      | .error reason =>
        pure (some ⟨str "write credential unavailable: " ++ reason.text, reason = .locked⟩)
      | .ok token =>
        if trim token = [] then pure (some ⟨str "write credential unavailable: empty", false⟩)
        else pure none) fun _ => pure (some ⟨str "write credential resolution faulted", true⟩)

/-- The result for a fault of the adapter; only an unreachable vendor holds the write. -/
def faultResult (what : JsString) (e : AdapterError) : ExternalWriteResult Time :=
  let reason := what ++ e.code.text ++ str "): " ++ e.message
  match e.code with
  | .conflict => .conflict reason (some e.code)
  | .unreachable => .held reason (some e.code)
  | .rejected => .rejected reason (some e.code)
  | .unknown => .rejected reason (some e.code)
  | .not_found => .rejected reason (some e.code)

/-- The result for a fault of the existence check, which is worded differently. -/
def existenceFaultResult (e : AdapterError) : ExternalWriteResult Time :=
  let reason := str "existence-check " ++ e.code.text ++ str ": " ++ e.message
  match e.code with
  | .unreachable => .held reason (some e.code)
  | .conflict => .conflict reason (some e.code)
  | .rejected => .rejected reason (some e.code)
  | .unknown => .rejected reason (some e.code)
  | .not_found => .rejected reason (some e.code)

def emitCommitDiagnostics (env : ExternalWriteEnvelope) (receipt : WriteReceipt Time) : ToolM Time Payload Unit := do
  let occurredAt ← Hooks.clock
  let recordedAt ← Hooks.clock
  Hooks.audit {
    actor := str "tool-gateway"
    event := str "external_write.created"
    refs := [
      str "ref:action:" ++ env.actionId,
      str "ref:object:" ++ env.canonicalObjectKey,
      str "ref:external:" ++ receipt.externalObjectId]
    payloadHash := env.payloadHash
    beforeSummary := str "no external object recorded for this canonical key"
    afterSummary := str "external object created; write receipt recorded"
    occurredAt := occurredAt
    recordedAt := recordedAt }

/-- The object has a receipt: reuse it, or update the object in place. -/
def dispatchStored [LinearOrder Time] (env : ExternalWriteEnvelope) (action : ProposedAction Payload)
    (opts : DispatchOptions Time) (ctx : AdapterCallContext) (current : ReceiptRecord Time) :
    ToolM Time Payload (ExternalWriteResult Time) := do
  if current.payloadHash = env.payloadHash then return .reused current.receipt
  -- Ordering: an intent older than what is applied is dropped.
  if opts.intentCreatedAt.any fun createdAt => createdAt < current.recordedAt then
    return .superseded (str "a newer payload is already applied to this object; this intent predates it")
  if !(← isAuthoredByThisSystem current) then
    return .rejected (str "object not authored by this system; refusing an in-place update") none
  match ← Adapter.update env action.payload (join (str ",") env.preconditions) ctx with
  | .ok receipt =>
    recordReceipt env receipt
    emitCommitDiagnostics env receipt
    return .updated receipt
  | .error e => return faultResult (str "update fault (") e

/-- The vendor has the object and the store does not: adopt it without a write. -/
def dispatchLive (env : ExternalWriteEnvelope) (object : ExistingObject) : ToolM Time Payload (ExternalWriteResult Time) := do
  let receipt : WriteReceipt Time := ⟨object.externalObjectId, object.externalUrl, ← Hooks.clock, object.rawRef⟩
  recordAdoptedObject env receipt
  return .reused receipt

/-- Nothing exists: reserve the right to create the object, and create it. -/
def dispatchCreate (env : ExternalWriteEnvelope) (action : ProposedAction Payload) (ctx : AdapterCallContext) :
    ToolM Time Payload (ExternalWriteResult Time) := do
  match ← ReceiptStore.reserve (env.targetSystem, env.canonicalObjectKey) with
  | .committed record => return .reused record.receipt
  | .in_progress =>
    return .held (str "another dispatch holds the create reservation for this object (in progress)") none
  | .reserved =>
    match ← Adapter.create env action.payload ctx with
    | .ok receipt =>
      recordReceipt env receipt
      emitCommitDiagnostics env receipt
      return .created receipt
    | .error e =>
      ReceiptStore.release (env.targetSystem, env.canonicalObjectKey)
      return faultResult (str "create fault (") e

/-- The existence check, and what it leads to. -/
def dispatchWrite [LinearOrder Time] (env : ExternalWriteEnvelope) (action : ProposedAction Payload)
    (opts : DispatchOptions Time) : ToolM Time Payload (ExternalWriteResult Time) := do
  let ctx : AdapterCallContext := ⟨opts.workspaceId⟩
  match ← resolveExisting env ctx with
  | .replay receipt => return .reused receipt
  | .stored current => dispatchStored env action opts ctx current
  | .live object => dispatchLive env object
  | .error e => return existenceFaultResult e
  | .none => dispatchCreate env action ctx

/-- The credential seam, before any call of the vendor. -/
def dispatchApproved [LinearOrder Time] (deps : ExternalWriteDeps Payload) (env : ExternalWriteEnvelope)
    (action : ProposedAction Payload) (opts : DispatchOptions Time) : ToolM Time Payload (ExternalWriteResult Time) := do
  if deps.secrets then
    match ← resolveWriteCredentialFault env.targetSystem opts.workspaceId with
    | some fault =>
      return if fault.retryable then .held fault.reason none else .rejected fault.reason none
    | none => dispatchWrite env action opts
  else dispatchWrite env action opts

/-- The only entry of external writes. -/
def dispatchExternalWrite [LinearOrder Time] (deps : ExternalWriteDeps Payload) (env : ExternalWriteEnvelope)
    (action : ProposedAction Payload) (opts : DispatchOptions Time) : ToolM Time Payload (ExternalWriteResult Time) := do
  match admitExternalWriteEnvelope deps.schemaViolation env action with
  | some message => return .rejected message none
  | none =>
    if deps.requireApproval action then
      if ← Hooks.isApproved env then dispatchApproved deps env action opts
      else
        Hooks.recordPendingApproval action env
        return .approval_pending
    else dispatchApproved deps env action opts

end gateway

end sow.tools
