import Sow.Policy.Visibility
import Sow.Providers.Broker.RouteBinding

open sow.js sow.contracts sow.providers

namespace sow.contracts

inductive ToolPolicyMode where
  | read_only
  | scoped_write
  deriving DecidableEq

structure ToolPolicy where
  mode : ToolPolicyMode
  allowedTools : List JsString
  deniedTools : List JsString
  allowsMutating : Bool
  deriving DecidableEq

/-- What remains allowed: a denied tool is not. -/
def effectiveAllowedTools (p : ToolPolicy) : List JsString := p.allowedTools.filter (· ∉ p.deniedTools)

structure ContextRef where
  refKind : JsString
  ref : JsString
  deriving DecidableEq

inductive TrustLevel where
  | trusted
  | untrusted
  deriving DecidableEq

/-- What a job carries besides what the broker reads of it. -/
structure JobDetails where
  workflowRunId : JsString
  contextRefs : List ContextRef
  outputSchemaId : JsString
  toolPolicy : ToolPolicy
  trustLevel : TrustLevel
  maxRuntimeSeconds : Rat
  maxCostUsd : Option Rat
  deriving DecidableEq

end sow.contracts

namespace sow.policy

def ADMISSION_ACTOR : JsString := str "policy:admission"

/-- Whether a policy lets a tool change anything; `read_only` never does. -/
def admitsMutating (p : ToolPolicy) (isMutatingTool : Option (JsString → Bool)) : Bool :=
  if p.mode = .read_only then false
  else p.allowsMutating || p.mode = .scoped_write || isMutatingTool.any fun f => (effectiveAllowedTools p).any f

/-- Untrusted content may not carry a policy that changes anything. -/
def admitJob (job : BrokerJob JobDetails) (isMutatingTool : Option (JsString → Bool)) : PolicyDecision (BrokerJob JobDetails) :=
  let refs := [job.id, job.workspaceId]
  if job.rest.trustLevel ≠ .trusted ∧ admitsMutating job.rest.toolPolicy isMutatingTool = true then
    .deny .UNTRUSTED_CONTENT_MUTATING_TOOL
      (str "ING-7: an untrusted-content job may not carry a mutating tool policy (read-only only)") {
      actor := ADMISSION_ACTOR
      event := str "job.admission.rejected"
      refs := refs
      payloadHash := job.idempotencyKey
      beforeSummary := str "candidate agent job (untrusted content)"
      afterSummary := str "admission rejected: untrusted content declares a mutating tool policy"
      denialCode := some .UNTRUSTED_CONTENT_MUTATING_TOOL
      healthSignalClass := some visibility.POLICY_DENIAL_HEALTH_CLASS }
  else
    .allow job {
      actor := ADMISSION_ACTOR
      event := str "job.admission.allowed"
      refs := refs
      payloadHash := job.idempotencyKey
      beforeSummary := str "candidate agent job"
      afterSummary := str "admission allowed: ING-7 predicate satisfied"
      denialCode := none
      healthSignalClass := none }

/-- A policy without a catalogue of tools admits an untrusted job exactly when it is read-only or
    changes nothing. -/
theorem isAllow_admitJob {job : BrokerJob JobDetails} (huntrusted : job.rest.trustLevel = .untrusted) :
    isAllow (admitJob job none) = !admitsMutating job.rest.toolPolicy none := by
  unfold admitJob
  cases hmutating : admitsMutating job.rest.toolPolicy none with
  | true => simp [huntrusted, isAllow]
  | false => simp [isAllow]

end sow.policy
