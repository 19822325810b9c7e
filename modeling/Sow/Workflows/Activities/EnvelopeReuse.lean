import Sow.Integrations.Tools.Gateway

open sow.js sow.effect sow.contracts sow.tools

namespace sow.workflows

/-- The bundle of the live gateway, and the workspace that scopes the write credential. -/
structure EnvelopeReuseDeps (Payload : Type) where
  gatewayDeps : ExternalWriteDeps Payload
  workspaceId : Option JsString

inductive EnvelopeReuseStatus where
  | created
  | updated
  | reused
  deriving DecidableEq

structure EnvelopeReuseSuccess (Time : Type) where
  status : EnvelopeReuseStatus
  receipt : WriteReceipt Time

inductive EnvelopeReuseErrorCode where
  | held
  | approval_pending
  | conflict
  | rejected
  deriving DecidableEq

def EnvelopeReuseErrorCode.text : EnvelopeReuseErrorCode → JsString
  | .held => str "held"
  | .approval_pending => str "approval_pending"
  | .conflict => str "conflict"
  | .rejected => str "rejected"

structure EnvelopeReuseError where
  code : EnvelopeReuseErrorCode
  reason : JsString

variable {Time Payload : Type}

/-- A write that was dropped because a newer one is applied counts as rejected. -/
def reuseOutcome : ExternalWriteResult Time → Except EnvelopeReuseError (EnvelopeReuseSuccess Time)
  | .created receipt => .ok ⟨.created, receipt⟩
  | .updated receipt => .ok ⟨.updated, receipt⟩
  | .reused receipt => .ok ⟨.reused, receipt⟩
  | .superseded reason => .error ⟨.rejected, reason⟩
  | .approval_pending => .error ⟨.approval_pending, str "external write awaits approval"⟩
  | .held reason _ => .error ⟨.held, reason⟩
  | .conflict reason _ => .error ⟨.conflict, reason⟩
  | .rejected reason _ => .error ⟨.rejected, reason⟩

/-- Re-drive an external side effect with the envelope of the first time. -/
def reuseExternalWriteOnResume [LinearOrder Time] (env : ExternalWriteEnvelope) (action : ProposedAction Payload)
    (deps : EnvelopeReuseDeps Payload) (intentCreatedAt : Option Time) :
    ToolM Time Payload (Except EnvelopeReuseError (EnvelopeReuseSuccess Time)) := do
  let outcome ← dispatchExternalWrite deps.gatewayDeps env action ⟨intentCreatedAt, deps.workspaceId⟩
  return reuseOutcome outcome

end sow.workflows
