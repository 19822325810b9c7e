import Sow.Policy.Admission
import Sow.Providers.Broker.ReplayLedger

open sow.js sow.contracts sow.policy sow.providers

namespace sow.workflows

structure EvidencedField where
  value : Json
  evidenceRef : Option JsString

/-- The extraction that a leg proposes. -/
structure AgentExtraction where
  fields : List (JsString × EvidencedField)

/-- What the broker accepts; a candidate of another kind has no fields to hand on. -/
inductive BrokerCandidate where
  | agentExtraction (fields : List (JsString × EvidencedField))
  | other

inductive AgentFailureCode where
  | admission_rejected
  | provider_failed
  | egress_vetoed
  | budget_exceeded
  | schema_rejected
  | unsupported_type
  deriving DecidableEq

structure AgentFailure where
  code : AgentFailureCode
  message : JsString
  deriving DecidableEq

/-- The failure of a job that died in a stage of the broker. -/
def BROKER_STAGE_FAILURE_CODE : BrokerStage → AgentFailureCode
  | .admission => .provider_failed
  | .route_resolution => .provider_failed
  | .egress_veto => .egress_vetoed
  | .health => .provider_failed
  | .budget_pre => .budget_exceeded
  | .run => .provider_failed
  | .budget_post => .budget_exceeded
  | .schema_gate => .schema_rejected
  | .emit => .provider_failed

def brokerRejectionFailureCode (rejection : BrokerRejection) : AgentFailureCode := BROKER_STAGE_FAILURE_CODE rejection.stage

def NO_INFERENCE_REJECTION_PREFIX : JsString := str "no-inference rejection (REQ-F-017)"

/-- The one message of the broker that may carry text of the model. -/
def brokerRejectionNeedsFixedMessage (rejection : BrokerRejection) : Bool :=
  if rejection.stage ≠ .schema_gate then false
  else if rejection.reason ≠ .failure .schema_rejected then false
  else startsWith rejection.message NO_INFERENCE_REJECTION_PREFIX

/-- Only an accepted extraction is handed on; anything else leaves it empty. -/
def mapAcceptedMeetingExtraction {Usage : Type} (accepted : BrokerAccepted Usage BrokerCandidate) : AgentExtraction :=
  match accepted.candidate with
  | .agentExtraction fields => ⟨fields⟩
  | .other => ⟨[]⟩

/-- What a leg is built with. -/
structure JobInputs where
  workflowRunId : JsString
  capability : JsString
  outputSchemaId : JsString
  maxRuntimeSeconds : Rat
  maxCostUsd : Option Rat
  idempotencyKey : JsString
  jobId : Option JsString
  contextRefs : Option (List ContextRef)
  toolPolicy : Option ToolPolicy
  providerRoute : Option ProviderRoute
  onePort : ∀ route ∈ providerRoute, route.OnePort

def READ_ONLY_TOOL_POLICY : ToolPolicy := ⟨.read_only, [], [], false⟩

/-- The route of a job that no matrix has resolved yet. -/
structure DefaultRoute where
  route : ProviderRoute
  onePort : route.OnePort

/-- The job of a leg in a workspace: always untrusted, always with raw content. -/
def JobInputs.job (i : JobInputs) (default_ : DefaultRoute) (workspaceId : JsString) : BrokerJob JobDetails where
  id := i.jobId.getD i.idempotencyKey
  workspaceId := workspaceId
  carriesRawContent := some true
  capability := i.capability
  idempotencyKey := i.idempotencyKey
  providerRoute := i.providerRoute.getD default_.route
  rest := {
    workflowRunId := i.workflowRunId
    contextRefs := i.contextRefs.getD []
    outputSchemaId := i.outputSchemaId
    toolPolicy := i.toolPolicy.getD READ_ONLY_TOOL_POLICY
    trustLevel := .untrusted
    maxRuntimeSeconds := i.maxRuntimeSeconds
    maxCostUsd := i.maxCostUsd }

theorem JobInputs.job_onePort (i : JobInputs) (default_ : DefaultRoute) (workspaceId : JsString) :
    (i.job default_ workspaceId).providerRoute.OnePort := by
  change (i.providerRoute.getD default_.route).OnePort
  cases hroute : i.providerRoute with
  | none => exact default_.onePort
  | some route => exact i.onePort route hroute

/-- What a leg asks the broker for besides the job. -/
structure JobPosture where
  matrix : WorkspaceMatrix
  egress : EgressPolicy
  workspace : PolicyWorkspace
  localConfig : Option LocalProviderConfig

section leg

variable {Output Usage Budget : Type}

/-- One call of a leg: the ledger it saw, the request it handed to the broker, what the broker
    accepted of it, what the leg answers and the ledger it leaves. -/
structure LegRun (Usage : Type) where
  seen : IdempotencyLedger Usage BrokerCandidate
  handed : Option (BrokerJobRequest JobDetails)
  accepted : Option (BrokerAccepted Usage BrokerCandidate)
  result : Except AgentFailure AgentExtraction
  ledger : IdempotencyLedger Usage BrokerCandidate

/-- A leg that refuses before the broker. -/
def refused (seen : IdempotencyLedger Usage BrokerCandidate) (failure : AgentFailure) : LegRun Usage :=
  ⟨seen, none, none, .error failure, seen⟩

variable (tables : CaseTables) (deps : BrokerDeps JobDetails Output Usage Budget BrokerCandidate)

/-- The job is admitted, or refused before the broker sees it. -/
def dispatchJob (schemaRejectedMessage : JsString) (job : BrokerJob JobDetails) (onePort : job.providerRoute.OnePort)
    (posture : JobPosture) (ledger : IdempotencyLedger Usage BrokerCandidate) : LegRun Usage :=
  match admitJob job none with
  | .deny _ message _ => refused ledger ⟨.admission_rejected, message⟩
  | .allow _ _ =>
    let req := ⟨job, some posture.matrix, posture.egress, posture.workspace, posture.localConfig, onePort⟩
    let run := runJob tables deps req ledger
    match run.outcome with
    | .error rejection =>
      let message := if brokerRejectionNeedsFixedMessage rejection then schemaRejectedMessage else rejection.message
      ⟨ledger, some req, none, .error ⟨brokerRejectionFailureCode rejection, message⟩, run.ledger⟩
    | .ok accepted => ⟨ledger, some req, some accepted, .ok (mapAcceptedMeetingExtraction accepted), run.ledger⟩

namespace meeting

def SCHEMA_REJECTED_MESSAGE : JsString :=
  str "meeting.close broker output failed the candidate-data schema gate: REQ-F-017 no-inference rejection (unbacked field names withheld)"

/-- Its egress class is none of the declared ones. -/
def DEFAULT_ROUTE : DefaultRoute where
  route := ⟨some (str "ollama"), none, str "local-default", some (str "http://127.0.0.1:11434"), none⟩
  onePort := ⟨.inl rfl, .inr rfl⟩

end meeting

structure MeetingJobInputs extends JobInputs where
  workspaceId : JsString

/-- The leg of a meeting, whose workspace is one of its inputs. -/
def createRunAgentJobActivity (inputs : MeetingJobInputs) (posture : JobPosture)
    (ledger : IdempotencyLedger Usage BrokerCandidate) : LegRun Usage :=
  dispatchJob tables deps meeting.SCHEMA_REJECTED_MESSAGE (inputs.job meeting.DEFAULT_ROUTE inputs.workspaceId)
    (inputs.job_onePort _ _) posture ledger

end leg

section spec

variable {Output Usage Budget : Type} {tables : CaseTables} {deps : BrokerDeps JobDetails Output Usage Budget BrokerCandidate}
  {message : JsString} {job : BrokerJob JobDetails} {onePort : job.providerRoute.OnePort} {posture : JobPosture}
  {ledger : IdempotencyLedger Usage BrokerCandidate}

/-- The broker is handed the very job, if it is admitted. -/
theorem handed_dispatchJob :
    (dispatchJob tables deps message job onePort posture ledger).handed.map (·.job) =
      if isAllow (admitJob job none) then some job else none := by
  unfold dispatchJob
  cases hadmission : admitJob job none with
  | deny reason text audit => rfl
  | allow value audit =>
    dsimp only
    split <;> rfl

theorem seen_dispatchJob : (dispatchJob tables deps message job onePort posture ledger).seen = ledger := by
  unfold dispatchJob
  split
  · rfl
  · dsimp only
    split <;> rfl

/-- What a leg may leave in the ledger: what the broker has just accepted and not served from it. -/
theorem ledger_dispatchJob (tables : CaseTables) :
    (dispatchJob tables deps message job onePort posture ledger).ledger = ledger ∨
      ∃ accepted, accepted.replayed = false ∧
        (dispatchJob tables deps message job onePort posture ledger).accepted = some accepted ∧
        (dispatchJob tables deps message job onePort posture ledger).ledger = ledger.map (·.set job.idempotencyKey accepted) := by
  unfold dispatchJob
  cases hadmission : admitJob job none with
  | deny reason text audit => exact .inl rfl
  | allow value audit =>
    dsimp only
    generalize hreq : (⟨job, some posture.matrix, posture.egress, posture.workspace, posture.localConfig, onePort⟩ : BrokerJobRequest JobDetails) = req
    have hkey : req.job.idempotencyKey = job.idempotencyKey := by rw [← hreq]
    cases hprior : ledger.prior req.job.idempotencyKey with
    | some prior =>
      have hrun : runJob tables deps req ledger = ⟨.ok { prior with replayed := true }, [], ledger⟩ := runJob_replays hprior
      rw [hrun]
      exact .inl rfl
    | none =>
      have hsound : Sound tables deps req ledger (runJob tables deps req ledger) := runJob_sound hprior
      rcases hsound.outcome with ⟨rejection, hrejects⟩ | ⟨accepted, haccepts⟩
      · rw [hrejects.outcome]
        exact .inl hrejects.ledger
      · rw [haccepts.outcome]
        refine .inr ⟨accepted, haccepts.fresh, rfl, ?_⟩
        rw [← hkey]
        exact haccepts.ledger

/-- A job whose key is in the ledger is answered from there. -/
theorem accepted_dispatchJob {prior : BrokerAccepted Usage BrokerCandidate} (hallow : isAllow (admitJob job none) = true)
    (hprior : ledger.prior job.idempotencyKey = some prior) :
    (dispatchJob tables deps message job onePort posture ledger).accepted = some { prior with replayed := true } := by
  unfold dispatchJob
  cases hadmission : admitJob job none with
  | deny reason text audit =>
    rw [hadmission] at hallow
    cases hallow
  | allow value audit =>
    dsimp only
    generalize hreq : (⟨job, some posture.matrix, posture.egress, posture.workspace, posture.localConfig, onePort⟩ : BrokerJobRequest JobDetails) = req
    have hkey : ledger.prior req.job.idempotencyKey = some prior := by
      rw [← hreq]
      exact hprior
    rw [runJob_replays hkey]

end spec

end sow.workflows
