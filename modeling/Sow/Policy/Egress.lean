import Sow.Policy.Processors

open sow.js sow.contracts

namespace sow.policy

/-- The denial codes: the hard denials, then the others. -/
inductive DenialReason where
  | EMPLOYER_RAW_EGRESS_UNACKNOWLEDGED
  | DIRECT_CROSS_WORKSPACE_RAW_RETRIEVAL
  | UNTRUSTED_CONTENT_MUTATING_TOOL
  | WRITE_ADAPTER_OUTSIDE_GATEWAY
  | PROVIDER_NOT_ALLOWED
  | NO_ROUTE_FOR_CAPABILITY
  | PROCESSOR_NOT_ALLOWED
  | LOCAL_ENDPOINT_NOT_CONFIGURED
  | NON_LOOPBACK_LOCAL_TREATED_AS_EGRESS
  | VISIBILITY_EXCEEDS_SOURCE
  | VISIBILITY_TYPE_MISMATCH
  | APPROVAL_REQUIRED
  | AUTH_TOKEN_INVALID
  | ORIGIN_NOT_ALLOWED
  | MALFORMED_POLICY_INPUT
  deriving DecidableEq

structure AuditSignal where
  actor : JsString
  event : JsString
  refs : List JsString
  payloadHash : JsString
  beforeSummary : JsString
  afterSummary : JsString
  denialCode : Option DenialReason
  healthSignalClass : Option JsString
  deriving DecidableEq

inductive PolicyDecision (α : Type) where
  | allow (value : α) (audit : AuditSignal)
  | deny (reason : DenialReason) (message : JsString) (audit : AuditSignal)
  deriving DecidableEq

def isAllow {α : Type} : PolicyDecision α → Bool
  | .allow _ _ => true
  | .deny _ _ _ => false

namespace egress

def EGRESS_ACTOR : JsString := str "policy:egress"
def EGRESS_PAYLOAD_MARKER : JsString := str "policy:egress-decision"
def EGRESS_STATUS_HEALTH_CLASS : JsString := str "egress_status"

def processorRef (proc : Option JsString) : JsString :=
  match proc with
  | none => str "ref:processor:LOCAL_NONE"
  | some proc => str "ref:processor:" ++ proc

def allow (route : ProviderRoute) (refs : List JsString) (afterSummary : JsString) : PolicyDecision ProviderRoute :=
  .allow route {
    actor := EGRESS_ACTOR
    event := str "egress.allowed"
    refs := refs
    payloadHash := EGRESS_PAYLOAD_MARKER
    beforeSummary := str "egress not evaluated"
    afterSummary := afterSummary
    denialCode := none
    healthSignalClass := some EGRESS_STATUS_HEALTH_CLASS }

def deny (reason : DenialReason) (message : JsString) (refs : List JsString) : PolicyDecision ProviderRoute :=
  .deny reason message {
    actor := EGRESS_ACTOR
    event := str "egress.denied"
    refs := refs
    payloadHash := EGRESS_PAYLOAD_MARKER
    beforeSummary := str "egress not evaluated"
    afterSummary := message
    denialCode := some reason
    healthSignalClass := some EGRESS_STATUS_HEALTH_CLASS }

end egress

open egress

/-- What the veto reads of a workspace. -/
structure PolicyWorkspace where
  type : Option WorkspaceType
  dataOwner : DataOwner
  deriving DecidableEq

/-- The inputs of the veto once the guard has found every field it decides by. -/
structure EgressInput where
  job : AgentJob
  route : ProviderRoute
  endpoint : JsString
  egressClass : EgressClass
  allowedProcessors : List JsString
  rawContentAllowedProcessors : List JsString
  acknowledged : Bool
  workspaceType : WorkspaceType
  dataOwner : DataOwner
  carriesRawContent : Bool

/-- The fail-closed guard. -/
def readInput (job : Option AgentJob) (route : Option ProviderRoute) (egress : Option EgressPolicy)
    (workspace : Option PolicyWorkspace) : Option EgressInput := do
  let job ← job
  let route ← route
  let endpoint ← route.endpoint
  let egressClass ← route.egressClass
  let egress ← egress
  let allowedProcessors ← egress.allowedProcessors
  let rawContentAllowedProcessors ← egress.rawContentAllowedProcessors
  let acknowledged ← egress.employerRawEgressAcknowledged
  let workspace ← workspace
  let workspaceType ← workspace.type
  let carriesRawContent ← job.carriesRawContent
  pure ⟨job, route, endpoint, egressClass, allowedProcessors, rawContentAllowedProcessors, acknowledged,
    workspaceType, workspace.dataOwner, carriesRawContent⟩

section

variable (tables : CaseTables)

def egressRefs (i : EgressInput) (proc : Option JsString) : List JsString :=
  [str "ref:job:" ++ i.job.id,
    str "ref:workspace:" ++ i.job.workspaceId,
    str "ref:workspace-type:" ++ i.workspaceType.text,
    str "ref:data-owner:" ++ i.dataOwner.text,
    endpointHostRef tables (some i.endpoint),
    str "ref:egress-class:" ++ i.egressClass.text,
    processorRef proc]

/-- The raw-egress veto for employer work, then the allowlists. A route that cannot be
    classified is denied before the allowlists could name it. -/
def egressVeto (job : Option AgentJob) (route : Option ProviderRoute) (egress : Option EgressPolicy)
    (workspace : Option PolicyWorkspace) : PolicyDecision ProviderRoute :=
  match readInput job route egress workspace with
  | none =>
    deny .MALFORMED_POLICY_INPUT
      (str "egress evaluation received missing or malformed job/route/egress/workspace input")
      [str "ref:egress:malformed-input"]
  | some i =>
    let proc := processorOfRoute tables (some i.route)
    let refs := egressRefs tables i proc
    let employerRawUnacked := i.workspaceType = .employer_work && i.carriesRawContent = true && i.acknowledged = false
    match proc with
    | some proc =>
      if employerRawUnacked then
        deny .EMPLOYER_RAW_EGRESS_UNACKNOWLEDGED
          (str "raw Employer-Work content may not egress with acknowledgment OFF; only a loopback-local provider is eligible (no cloud fallback)")
          refs
      else if proc = MALFORMED_ROUTE_PROCESSOR then
        deny .MALFORMED_POLICY_INPUT
          (str "route identity could not be classified; an unidentifiable route is never eligible to egress") refs
      else if proc ∉ i.allowedProcessors then
        deny .PROCESSOR_NOT_ALLOWED (str "resolved egress processor is not in the workspace allowedProcessors") refs
      else if i.carriesRawContent = true && proc ∉ i.rawContentAllowedProcessors then
        deny .PROCESSOR_NOT_ALLOWED
          (str "job carries raw content but the processor is not in rawContentAllowedProcessors") refs
      else allow i.route refs (str "egress processor allowlisted")
    | none => allow i.route refs (str "genuine loopback-local route (non-egress)")

end

end sow.policy
