import Sow.Providers.Broker.RouteBinding

open sow.js sow.contracts sow.policy sow.domain

namespace sow.providers

def NO_ELIGIBLE_PROVIDER_HEALTH_CLASS : JsString := str "provider_routing_unavailable"
def BROKER_ACTOR : JsString := str "broker:pipeline"
def BROKER_MARKER : JsString := str "broker:pipeline-decision"

/-- The failures of the gates that have no denial code. -/
inductive BrokerFailureReason where
  | no_eligible_provider
  | provider_unavailable
  | budget_exceeded
  | provider_error
  | provider_cancelled
  | schema_rejected
  | tool_policy_violation
  | lifecycle_fault
  deriving DecidableEq

inductive RejectionReason where
  | denial (reason : DenialReason)
  | failure (reason : BrokerFailureReason)
  deriving DecidableEq

/-- The stages in their order. -/
inductive BrokerStage where
  | admission
  | route_resolution
  | egress_veto
  | health
  | budget_pre
  | run
  | budget_post
  | schema_gate
  | emit
  deriving DecidableEq

def BrokerStage.text : BrokerStage → JsString
  | .admission => str "admission"
  | .route_resolution => str "route_resolution"
  | .egress_veto => str "egress_veto"
  | .health => str "health"
  | .budget_pre => str "budget_pre"
  | .run => str "run"
  | .budget_post => str "budget_post"
  | .schema_gate => str "schema_gate"
  | .emit => str "emit"

structure GateProceed (α : Type) where
  value : α
  audit : Option AuditSignal

structure GateDeny where
  reason : RejectionReason
  message : JsString
  audit : AuditSignal
  branch : JobBranch
  retryable : Bool

abbrev GateResult (α : Type) : Type := Except GateDeny (GateProceed α)

inductive AgentResultStatus where
  | completed
  | cancelled
  deriving DecidableEq

/-- The envelope of a finished run: `Output` is unvalidated candidate data. -/
structure AgentResult (Output Usage : Type) where
  status : AgentResultStatus
  candidateOutput : Output
  usage : Usage

structure BrokerHealthItem where
  healthClass : JsString
  message : JsString
  refs : List JsString

structure BrokerRejection where
  stage : BrokerStage
  reason : RejectionReason
  message : JsString
  audit : AuditSignal
  jobState : AgentJobState
  branch : JobBranch
  retryable : Bool
  healthItem : Option BrokerHealthItem
  audits : List AuditSignal

structure BrokerAccepted (Usage Candidate : Type) where
  jobState : AgentJobState
  route : ProviderRoute
  candidate : Candidate
  usage : Usage
  audits : List AuditSignal
  replayed : Bool

structure BrokerJobRequest (Rest : Type) where
  job : BrokerJob Rest
  matrix : Option WorkspaceMatrix
  egress : EgressPolicy
  workspace : PolicyWorkspace
  localConfig : Option LocalProviderConfig
  onePort : job.providerRoute.OnePort

/-- The injected gates. -/
structure BrokerDeps (Rest Output Usage Budget Candidate : Type) where
  admits : BrokerJob Rest → PolicyDecision (BrokerJob Rest)
  health : ProviderRoute → BrokerJob Rest → GateResult Unit
  budgetPre : BrokerJob Rest → GateResult Budget
  run : ProviderRoute → BrokerJob Rest → Budget → GateResult (AgentResult Output Usage)
  budgetPost : BrokerJob Rest → Usage → Budget → GateResult Unit
  schema : BrokerJob Rest → AgentResult Output Usage → GateResult Candidate

/-- The replay ledger, where there is one. -/
abbrev IdempotencyLedger (Usage Candidate : Type) : Type := Option (Map JsString (BrokerAccepted Usage Candidate))

/-- A port that the broker calls, with what it hands over. -/
inductive PortCall (Rest Output Usage Budget : Type) where
  | admits (job : BrokerJob Rest)
  | resolveRoute (job : BrokerJob Rest)
  | egressVeto (job : BrokerJob Rest) (route : ProviderRoute)
  | health (route : ProviderRoute) (job : BrokerJob Rest)
  | budgetPre (job : BrokerJob Rest)
  | run (route : ProviderRoute) (job : BrokerJob Rest) (budget : Budget)
  | budgetPost (job : BrokerJob Rest) (usage : Usage) (budget : Budget)
  | schema (job : BrokerJob Rest) (result : AgentResult Output Usage)

variable {Rest Output Usage Budget Candidate : Type}

/-- What `runJob` returns, the ports it called on the way and the ledger it leaves. -/
structure BrokerRun (Rest Output Usage Budget Candidate : Type) where
  outcome : Except BrokerRejection (BrokerAccepted Usage Candidate)
  calls : List (PortCall Rest Output Usage Budget)
  ledger : IdempotencyLedger Usage Candidate

/-- What one stage hands to the next: the lifecycle, the audits and the calls so far. -/
structure Progress (Rest Output Usage Budget : Type) where
  life : JobLifecycle
  audits : List AuditSignal
  calls : List (PortCall Rest Output Usage Budget)

namespace Progress

variable (p : Progress Rest Output Usage Budget)

def called (call : PortCall Rest Output Usage Budget) : Progress Rest Output Usage Budget :=
  { p with calls := p.calls ++ [call] }

def audited (audit : AuditSignal) : Progress Rest Output Usage Budget := { p with audits := p.audits ++ [audit] }

def noted (audit : Option AuditSignal) : Progress Rest Output Usage Budget :=
  { p with audits := p.audits ++ audit.toList }

end Progress

def brokerAudit (event afterSummary : JsString) (refs : List JsString) : AuditSignal where
  actor := BROKER_ACTOR
  event := event
  refs := refs
  payloadHash := BROKER_MARKER
  beforeSummary := str "broker pipeline in progress"
  afterSummary := afterSummary
  denialCode := none
  healthSignalClass := none

def reject (stage : BrokerStage) (reason : RejectionReason) (message : JsString) (audit : AuditSignal)
    (jobState : AgentJobState) (branch : JobBranch) (retryable : Bool) (audits : List AuditSignal) : BrokerRejection :=
  ⟨stage, reason, message, audit, jobState, branch, retryable, none, audits⟩

/-- No provider survived: the operator may repair the routing and drive the job again. -/
def failClosedNoProvider (stage : BrokerStage) (reason : RejectionReason) (message : JsString) (audit : AuditSignal)
    (jobState : AgentJobState) (job : BrokerJob Rest) (audits : List AuditSignal) : BrokerRejection where
  stage := stage
  reason := reason
  message := message
  audit := audit
  jobState := jobState
  branch := .failed_retryable
  retryable := true
  healthItem := some {
    healthClass := NO_ELIGIBLE_PROVIDER_HEALTH_CLASS
    message := str "no eligible provider after the gate sequence (" ++ stage.text ++ str "): " ++ message
    refs := [str "ref:job:" ++ job.id, str "ref:workspace:" ++ job.workspaceId,
      str "ref:capability:" ++ job.capability] }
  audits := audits

def lifecycleFault (stage : BrokerStage) (jobState : AgentJobState) (audits : List AuditSignal) : BrokerRejection :=
  let audit := brokerAudit (str "broker.lifecycle.fault")
    (str "internal lifecycle fault at " ++ stage.text ++ str ": illegal transition from " ++ jobState.text)
    [str "ref:stage:" ++ stage.text, str "ref:state:" ++ jobState.text]
  ⟨stage, .failure .lifecycle_fault, str "broker lifecycle fault at " ++ stage.text, audit, jobState, .failed_terminal,
    false, none, audits ++ [audit]⟩

section

variable (tables : CaseTables) (deps : BrokerDeps Rest Output Usage Budget Candidate) (req : BrokerJobRequest Rest)
  (ledger : IdempotencyLedger Usage Candidate) (p : Progress Rest Output Usage Budget)

def stopped (rejection : BrokerRejection) : BrokerRun Rest Output Usage Budget Candidate :=
  ⟨.error rejection, p.calls, ledger⟩

/-- The lifecycle moves on, or the run ends in a fault of the broker. -/
def advancing (stage : BrokerStage) (target : AgentJobState)
    (next : Progress Rest Output Usage Budget → BrokerRun Rest Output Usage Budget Candidate) :
    BrokerRun Rest Output Usage Budget Candidate :=
  match p.life.advance target with
  | .error _ => stopped ledger p (lifecycleFault stage p.life.state p.audits)
  | .ok life => next { p with life := life }

/-- 9: the candidate is emitted and recorded. -/
def emit (route : ProviderRoute) (usage : Usage) (candidate : Candidate) : BrokerRun Rest Output Usage Budget Candidate :=
  advancing ledger p .emit .accepted fun p =>
    let accepted := ⟨p.life.state, route, candidate, usage, p.audits, false⟩
    ⟨.ok accepted, p.calls, ledger.map (·.set req.job.idempotencyKey accepted)⟩

/-- 8: the schema gate, on a validated job. -/
def schemaGate (route : ProviderRoute) (job : BrokerJob Rest) (result : AgentResult Output Usage) :
    BrokerRun Rest Output Usage Budget Candidate :=
  advancing ledger p .schema_gate .schema_validated fun p =>
    let p := p.called (.schema job result)
    match deps.schema job result with
    | .error d =>
      let p := p.audited d.audit
      let life := match p.life.advance d.branch.state with
        | .error _ => p.life
        | .ok life => life
      stopped ledger p (reject .schema_gate d.reason d.message d.audit life.state d.branch d.retryable p.audits)
    | .ok gated => emit req ledger (p.noted gated.audit) route result.usage gated.value

/-- 7: a breach cancels the job before its output is looked at. -/
def budgetPost (route : ProviderRoute) (job : BrokerJob Rest) (budget : Budget) (result : AgentResult Output Usage) :
    BrokerRun Rest Output Usage Budget Candidate :=
  let p := p.called (.budgetPost job result.usage budget)
  match deps.budgetPost job result.usage budget with
  | .error d =>
    advancing ledger p .budget_post .cancelled_budget fun p =>
      let p := p.audited d.audit
      stopped ledger p
        (reject .budget_post d.reason d.message d.audit p.life.state .cancelled_budget d.retryable p.audits)
  | .ok post => schemaGate deps req ledger (p.noted post.audit) route job result

/-- 6: a failed run rests in `running`, since the machine has no edge from there to a failure. -/
def runRoute (route : ProviderRoute) (job : BrokerJob Rest) (budget : Budget) :
    BrokerRun Rest Output Usage Budget Candidate :=
  advancing ledger p .run .running fun p =>
    let p := p.called (.run route job budget)
    match deps.run route job budget with
    | .error d =>
      let p := p.audited d.audit
      stopped ledger p (reject .run d.reason d.message d.audit p.life.state d.branch d.retryable p.audits)
    | .ok ran =>
      let p := p.noted ran.audit
      if ran.value.status = .cancelled then
        advancing ledger p .run .cancelled_budget fun p =>
          let audit := brokerAudit (str "provider.run.cancelled")
            (str "provider run cancelled cooperatively; output discarded (no side effect)") [str "ref:job:" ++ req.job.id]
          let p := p.audited audit
          stopped ledger p
            (reject .run (.failure .provider_cancelled) (str "provider run cancelled; output discarded before any hand-off")
              audit p.life.state .cancelled_budget true p.audits)
      else budgetPost deps req ledger p route job budget ran.value

/-- 5: the caps of the job on the route that was cleared. -/
def budgetPre (route : ProviderRoute) : BrokerRun Rest Output Usage Budget Candidate :=
  let job := effectiveJob req.job route
  let p :=
    if routesEqual req.job.providerRoute route then p
    else p.audited (brokerAudit (str "provider.route.overridden")
      (str "job.providerRoute diverged from the matrix-resolved+vetoed route; the vetted route is authoritative for execution and budget")
      [str "ref:job:" ++ req.job.id])
  let p := p.called (.budgetPre job)
  match deps.budgetPre job with
  | .error d =>
    let p := p.audited d.audit
    stopped ledger p (reject .budget_pre d.reason d.message d.audit p.life.state d.branch d.retryable p.audits)
  | .ok pre => runRoute deps req ledger (p.noted pre.audit) route job pre.value

/-- 4: the health of the cleared route; with it the selection is committed. -/
def health (route : ProviderRoute) : BrokerRun Rest Output Usage Budget Candidate :=
  let p := p.called (.health route req.job)
  match deps.health route req.job with
  | .error d =>
    let p := p.audited d.audit
    stopped ledger p (failClosedNoProvider .health d.reason d.message d.audit p.life.state req.job p.audits)
  | .ok healthy =>
    advancing ledger (p.noted healthy.audit) .health .provider_selected fun p => budgetPre deps req ledger p route

/-- 3: the veto, behind the selection. -/
def egressStage (route : ProviderRoute) : BrokerRun Rest Output Usage Budget Candidate :=
  let p := p.called (.egressVeto req.job route)
  match vetoJobEgress tables req.job route req.egress req.workspace with
  | .deny reason message audit =>
    let p := p.audited audit
    stopped ledger p
      (failClosedNoProvider .egress_veto (.denial reason) message audit p.life.state req.job p.audits)
  | .allow route audit => health deps req ledger (p.audited audit) route

/-- 2: the route of the job's capability. -/
def routeStage : BrokerRun Rest Output Usage Budget Candidate :=
  let p := p.called (.resolveRoute req.job)
  match resolveJobRoute tables req.job req.matrix req.localConfig with
  | .deny reason message audit =>
    let p := p.audited audit
    stopped ledger p
      (failClosedNoProvider .route_resolution (.denial reason) message audit p.life.state req.job p.audits)
  | .allow route audit => egressStage tables deps req ledger (p.audited audit) route

/-- 1: the admission. -/
def admission : BrokerRun Rest Output Usage Budget Candidate :=
  let p := p.called (.admits req.job)
  match deps.admits req.job with
  | .deny reason message audit =>
    let p := p.audited audit
    stopped ledger p
      (reject .admission (.denial reason) message audit p.life.state .rejected false p.audits)
  | .allow _ audit =>
    advancing ledger (p.audited audit) .admission .admitted fun p => routeStage tables deps req ledger p

/-- A key that was accepted before is served from the ledger, ahead of every gate. -/
def runJob : BrokerRun Rest Output Usage Budget Candidate :=
  match ledger.bind (·.get req.job.idempotencyKey) with
  | some prior => ⟨.ok { prior with replayed := true }, [], ledger⟩
  | none => admission tables deps req ledger ⟨newJobLifecycle .created, [], []⟩

end

end sow.providers
