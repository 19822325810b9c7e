import Sow.Worker.Composition.SourceNotePath
import Sow.Workflows.Activities.RunAgentJob

open sow.js sow.contracts sow.policy sow.providers

namespace sow.workflows

/-- What the context of an ingestion or of a close-out tells its leg: the source that it is about,
    and the workspace it was routed to. -/
structure LegContext where
  source : SourceNoteIdentity
  workspaceId : Option JsString

/-- Runs for different sources. -/
structure DistinctSources where
  contexts : List LegContext
  distinct : (contexts.map (·.source)).Nodup

structure ResolvedWorkspace where
  type : WorkspaceType
  dataOwner : DataOwner
  providerMatrix : WorkspaceMatrix
  egressPolicy : EgressPolicy

structure SourceIngestionBinding where
  boundWorkspaceId : JsString
  sourceId : JsString
  outputSchemaId : Option JsString
  contextRefs : Option (List ContextRef)

/-- What the activities of the worker are built with, once. -/
structure ProofSpineParams where
  meetingJobInputs : MeetingJobInputs
  resolved : ResolvedWorkspace
  sourceIngestion : Option SourceIngestionBinding
  localConfig : Option LocalProviderConfig

def KNOWLEDGE_MUTATION_PLAN_SCHEMA_ID : JsString := str "sow:knowledge-mutation-plan"

namespace source

def SCHEMA_REJECTED_MESSAGE : JsString :=
  str "source-processing broker output failed the candidate-data schema gate: REQ-F-017 no-inference rejection (unbacked field names withheld)"

def LOCAL_EXTRACTION_ROUTE : DefaultRoute where
  route := ⟨some (str "ollama"), none, str "local-default", some (str "http://127.0.0.1:11434"), some .local⟩
  onePort := ⟨.inl rfl, .inr rfl⟩

/-- The inputs of the source leg: its key names the source of the binding. -/
def jobInputs (params : ProofSpineParams) (binding : SourceIngestionBinding) : JobInputs where
  workflowRunId := params.meetingJobInputs.workflowRunId
  capability := str "source.process"
  outputSchemaId := binding.outputSchemaId.getD KNOWLEDGE_MUTATION_PLAN_SCHEMA_ID
  maxRuntimeSeconds := params.meetingJobInputs.maxRuntimeSeconds
  maxCostUsd := none
  idempotencyKey := str "job:source:" ++ binding.boundWorkspaceId ++ str ":" ++ binding.sourceId
  jobId := none
  contextRefs := binding.contextRefs
  toolPolicy := none
  providerRoute := none
  onePort := by simp

end source

section legs

variable {Output Usage Budget : Type} (tables : CaseTables) (deps : BrokerDeps JobDetails Output Usage Budget BrokerCandidate)
  (params : ProofSpineParams)

/-- The leg of a source: its workspace is the one that it was routed to. -/
def createSourceAgentBrokerRouting (inputs : JobInputs) (posture : JsString → JobPosture) (ctx : LegContext)
    (ledger : IdempotencyLedger Usage BrokerCandidate) : LegRun Usage :=
  match ctx.workspaceId with
  | none => refused ledger ⟨.provider_failed,
      str "source-processing job reached with no routing-bound workspace (WS-2 precondition)"⟩
  | some workspaceId =>
    dispatchJob tables deps source.SCHEMA_REJECTED_MESSAGE (inputs.job source.LOCAL_EXTRACTION_ROUTE workspaceId)
      (inputs.job_onePort _ _) (posture workspaceId) ledger

/-- `sourceAgent.run`, as `buildProofSpineActivities` binds it. -/
def sourceAgent (ctx : LegContext) (ledger : IdempotencyLedger Usage BrokerCandidate) : LegRun Usage :=
  match params.sourceIngestion with
  | none => refused ledger ⟨.unsupported_type, str "no source-ingestion binding (C1)"⟩
  | some binding =>
    createSourceAgentBrokerRouting tables deps (source.jobInputs params binding) (fun workspaceId => {
      matrix := { params.resolved.providerMatrix with workspaceId := workspaceId }
      egress := { params.resolved.egressPolicy with workspaceId := workspaceId }
      workspace := ⟨some params.resolved.type, params.resolved.dataOwner⟩
      localConfig := params.localConfig }) ctx ledger

/-- `runAgentJob.run` of a close-out, which reads nothing of its context. -/
def runAgentJob (_ctx : LegContext) (ledger : IdempotencyLedger Usage BrokerCandidate) : LegRun Usage :=
  createRunAgentJobActivity tables deps params.meetingJobInputs {
    matrix := params.resolved.providerMatrix
    egress := params.resolved.egressPolicy
    workspace := ⟨some params.resolved.type, params.resolved.dataOwner⟩
    localConfig := params.localConfig } ledger

end legs

section runs

variable {Usage : Type} (leg : LegContext → IdempotencyLedger Usage BrokerCandidate → LegRun Usage)

/-- One call after the other over the ledger of one broker. -/
def runAll : List LegContext → IdempotencyLedger Usage BrokerCandidate → List (LegRun Usage)
  | [], _ => []
  | ctx :: rest, ledger => leg ctx ledger :: runAll rest (leg ctx ledger).ledger

def LegRun.job (run : LegRun Usage) : Option (BrokerJob JobDetails) := run.handed.map (·.job)

/-- The job of the run is not in the ledger that the run saw. -/
def LegRun.Unserved (run : LegRun Usage) : Prop := ∀ job ∈ run.job, run.seen.prior job.idempotencyKey = none

/-- A run is answered with what another one has recorded. -/
def LegRun.ServedFrom (run recorded : LegRun Usage) : Prop :=
  ∃ accepted, accepted.replayed = false ∧ recorded.accepted = some accepted ∧
    run.accepted = some { accepted with replayed := true } ∧
    ∃ job ∈ run.job, run.seen.prior job.idempotencyKey = some accepted

/-- No two runs hand over one job, and none is answered with the extraction of another. -/
structure KeptApart (runs : List (LegRun Usage)) : Prop where
  jobs : runs.Pairwise fun a b => ∀ ja ∈ a.job, ∀ jb ∈ b.job, ja ≠ jb
  extractions : runs.Pairwise fun a b => ¬ b.ServedFrom a

/-- What a run does with the ledger that it was given. -/
structure LegRun.Keeps (run : LegRun Usage) (ledger : IdempotencyLedger Usage BrokerCandidate) : Prop where
  seen : run.seen = ledger
  records : run.ledger = ledger ∨ ∃ accepted key, accepted.replayed = false ∧ run.accepted = some accepted ∧
    run.ledger = ledger.map (·.set key accepted)
  replays : ∀ job ∈ run.job, ∀ prior, ledger.prior job.idempotencyKey = some prior →
    run.accepted = some { prior with replayed := true }

def KeepsLedger : Prop := ∀ ctx ledger, (leg ctx ledger).Keeps ledger

/-- What the ledger holds was recorded by one of these runs. -/
def RecordedBy (ledger : IdempotencyLedger Usage BrokerCandidate) (runs : List (LegRun Usage)) : Prop :=
  ∀ key accepted, ledger.prior key = some accepted →
    accepted.replayed = false ∧ ∃ run ∈ runs, run.accepted = some accepted

variable {leg}

theorem KeepsLedger.recordedBy (hleg : KeepsLedger leg) {ctx : LegContext} {ledger : IdempotencyLedger Usage BrokerCandidate}
    {runs : List (LegRun Usage)} (h : RecordedBy ledger runs) : RecordedBy (leg ctx ledger).ledger (runs ++ [leg ctx ledger]) := by
  intro key accepted hprior
  rcases (hleg ctx ledger).records with hsame | ⟨fresh, recorded, hfresh, haccepted, hset⟩
  · rw [hsame] at hprior
    obtain ⟨hreplayed, run, hmem, hrun⟩ := h key accepted hprior
    exact ⟨hreplayed, run, List.mem_append_left _ hmem, hrun⟩
  · rw [hset] at hprior
    cases ledger with
    | none => cases hprior
    | some entries =>
      change (entries.set recorded fresh).get key = some accepted at hprior
      rw [Map.get_set] at hprior
      split at hprior
      · obtain rfl := Option.some.inj hprior
        exact ⟨hfresh, leg ctx (some entries), by simp, haccepted⟩
      · obtain ⟨hreplayed, run, hmem, hrun⟩ := h key accepted hprior
        exact ⟨hreplayed, run, List.mem_append_left _ hmem, hrun⟩

theorem KeepsLedger.eq_of_mem (hleg : KeepsLedger leg) {contexts : List LegContext}
    {ledger : IdempotencyLedger Usage BrokerCandidate} {run : LegRun Usage} (h : run ∈ runAll leg contexts ledger) :
    ∃ ctx, run = leg ctx run.seen := by
  induction contexts generalizing ledger with
  | nil => cases h
  | cons ctx contexts ih =>
    rw [runAll] at h
    rcases List.mem_cons.mp h with rfl | h
    · exact ⟨ctx, by rw [(hleg ctx ledger).seen]⟩
    · exact ih h

/-- What a run sees in the ledger was recorded by a run before it. -/
theorem KeepsLedger.seen_recordedBy (hleg : KeepsLedger leg) {contexts : List LegContext}
    {ledger : IdempotencyLedger Usage BrokerCandidate} {history before after : List (LegRun Usage)} {run : LegRun Usage}
    (hruns : runAll leg contexts ledger = before ++ run :: after) (h : RecordedBy ledger history) :
    RecordedBy run.seen (history ++ before) := by
  induction contexts generalizing ledger history before with
  | nil => cases before <;> cases hruns
  | cons ctx contexts ih =>
    rw [runAll] at hruns
    cases before with
    | nil =>
      obtain ⟨rfl, -⟩ := List.cons.inj hruns
      rw [(hleg ctx ledger).seen, List.append_nil]
      exact h
    | cons first before =>
      obtain ⟨rfl, hrest⟩ := List.cons.inj hruns
      have hseen := ih hrest (hleg.recordedBy h)
      rwa [List.append_assoc, List.singleton_append] at hseen

/-- From a ledger without entries, runs are kept apart when their jobs differ and none is served. -/
theorem KeepsLedger.keptApart_iff (hleg : KeepsLedger leg) {contexts : List LegContext}
    {ledger : IdempotencyLedger Usage BrokerCandidate} (hempty : RecordedBy ledger []) :
    KeptApart (runAll leg contexts ledger) ↔
      (runAll leg contexts ledger).Pairwise (fun a b => ∀ ja ∈ a.job, ∀ jb ∈ b.job, ja ≠ jb) ∧
        ∀ run ∈ runAll leg contexts ledger, run.Unserved := by
  constructor
  · intro happart
    refine ⟨happart.jobs, fun run hrun job hjob => ?_⟩
    obtain ⟨before, after, hsplit⟩ := List.append_of_mem hrun
    cases hprior : run.seen.prior job.idempotencyKey with
    | none => rfl
    | some prior =>
      exfalso
      obtain ⟨hreplayed, recorded, hmem, hrecorded⟩ := hleg.seen_recordedBy hsplit hempty job.idempotencyKey prior hprior
      rw [List.nil_append] at hmem
      have hpairs := happart.extractions
      rw [hsplit, List.pairwise_append] at hpairs
      refine hpairs.2.2 recorded hmem run List.mem_cons_self ⟨prior, hreplayed, hrecorded, ?_, job, hjob, hprior⟩
      obtain ⟨ctx, hctx⟩ := hleg.eq_of_mem hrun
      rw [hctx] at hjob
      rw [hctx]
      exact (hleg ctx run.seen).replays job hjob prior hprior
  · rintro ⟨hjobs, hunserved⟩
    refine ⟨hjobs, List.Pairwise.imp_of_mem ?_ hjobs⟩
    rintro a b - hb - ⟨accepted, -, -, -, job, hjob, hprior⟩
    rw [hunserved b hb job hjob] at hprior
    cases hprior

/-- Where the job of a run does not depend on the ledger, the jobs of a sequence are those of its contexts. -/
theorem map_job_runAll {jobOf : LegContext → Option (BrokerJob JobDetails)} (hjob : ∀ ctx ledger, (leg ctx ledger).job = jobOf ctx)
    (contexts : List LegContext) (ledger : IdempotencyLedger Usage BrokerCandidate) :
    (runAll leg contexts ledger).map LegRun.job = contexts.map jobOf := by
  induction contexts generalizing ledger with
  | nil => rfl
  | cons ctx contexts ih => rw [runAll, List.map_cons, List.map_cons, hjob, ih]

theorem pairwise_job_runAll {jobOf : LegContext → Option (BrokerJob JobDetails)} (hjob : ∀ ctx ledger, (leg ctx ledger).job = jobOf ctx)
    (contexts : List LegContext) (ledger : IdempotencyLedger Usage BrokerCandidate) :
    (runAll leg contexts ledger).Pairwise (fun a b => ∀ ja ∈ a.job, ∀ jb ∈ b.job, ja ≠ jb) ↔
      (contexts.filterMap jobOf).Nodup := by
  rw [← List.pairwise_map (f := LegRun.job) (R := fun a b => ∀ ja ∈ a, ∀ jb ∈ b, ja ≠ jb), map_job_runAll hjob, List.pairwise_map,
    List.Nodup, List.pairwise_filterMap]
  rfl

end runs

section binding

variable {Output Usage Budget : Type} {tables : CaseTables} {deps : BrokerDeps JobDetails Output Usage Budget BrokerCandidate}
  {params : ProofSpineParams}

theorem keeps_refused (failure : AgentFailure) (ledger : IdempotencyLedger Usage BrokerCandidate) : (refused ledger failure).Keeps ledger := by
  refine ⟨rfl, .inl rfl, fun job hjob => ?_⟩
  cases hjob

theorem keeps_dispatchJob {message : JsString} {job : BrokerJob JobDetails} {onePort : job.providerRoute.OnePort}
    {posture : JobPosture} {ledger : IdempotencyLedger Usage BrokerCandidate} :
    (dispatchJob tables deps message job onePort posture ledger).Keeps ledger := by
  refine ⟨seen_dispatchJob, ?_, fun j hj prior hprior => ?_⟩
  · rcases ledger_dispatchJob tables with hsame | ⟨accepted, hfresh, haccepted, hset⟩
    · exact .inl hsame
    · exact .inr ⟨accepted, job.idempotencyKey, hfresh, haccepted, hset⟩
  · unfold LegRun.job at hj
    rw [handed_dispatchJob] at hj
    split at hj
    · next hallow =>
      rw [← Option.mem_some_iff.mp hj] at hprior
      exact accepted_dispatchJob hallow hprior
    · cases hj

theorem keepsLedger_sourceAgent : KeepsLedger (sourceAgent tables deps params) := by
  intro ctx ledger
  unfold sourceAgent
  cases params.sourceIngestion with
  | none => exact keeps_refused _ ledger
  | some binding =>
    dsimp only
    unfold createSourceAgentBrokerRouting
    cases ctx.workspaceId with
    | none => exact keeps_refused _ ledger
    | some workspaceId => exact keeps_dispatchJob

theorem keepsLedger_runAgentJob : KeepsLedger (runAgentJob tables deps params) := fun _ _ => keeps_dispatchJob

/-- The job of a source names its workspace, and nothing of the source. -/
theorem job_sourceAgent (ctx : LegContext) (ledger : IdempotencyLedger Usage BrokerCandidate) :
    (sourceAgent tables deps params ctx ledger).job = params.sourceIngestion.bind fun binding =>
      ctx.workspaceId.map ((source.jobInputs params binding).job source.LOCAL_EXTRACTION_ROUTE) := by
  unfold sourceAgent
  cases params.sourceIngestion with
  | none => rfl
  | some binding =>
    dsimp only [Option.bind_some]
    unfold createSourceAgentBrokerRouting
    cases ctx.workspaceId with
    | none => rfl
    | some workspaceId =>
      unfold LegRun.job
      rw [handed_dispatchJob, isAllow_admitJob rfl]
      rfl

/-- The job of a close-out is the same for all of them. -/
theorem job_runAgentJob (ctx : LegContext) (ledger : IdempotencyLedger Usage BrokerCandidate) :
    (runAgentJob tables deps params ctx ledger).job =
      if admitsMutating (params.meetingJobInputs.toolPolicy.getD READ_ONLY_TOOL_POLICY) none then none
      else some (params.meetingJobInputs.job meeting.DEFAULT_ROUTE params.meetingJobInputs.workspaceId) := by
  have hjob : (runAgentJob tables deps params ctx ledger).job =
      if isAllow (admitJob (params.meetingJobInputs.job meeting.DEFAULT_ROUTE params.meetingJobInputs.workspaceId) none)
      then some (params.meetingJobInputs.job meeting.DEFAULT_ROUTE params.meetingJobInputs.workspaceId) else none :=
    handed_dispatchJob
  rw [hjob, isAllow_admitJob rfl]
  change (if !admitsMutating (params.meetingJobInputs.toolPolicy.getD READ_ONLY_TOOL_POLICY) none then _ else _) = _
  cases admitsMutating (params.meetingJobInputs.toolPolicy.getD READ_ONLY_TOOL_POLICY) none <;> rfl

end binding

/-- A ledger without entries, where there is one. -/
def freshLedger (Usage : Type) (present : Bool) : IdempotencyLedger Usage BrokerCandidate :=
  if present then some .empty else none

theorem recordedBy_freshLedger {Usage : Type} (present : Bool) : RecordedBy (freshLedger Usage present) [] := by
  intro key accepted hprior
  cases present <;> cases hprior

/-- The jobs of bound sources differ exactly where their workspaces do. -/
theorem nodup_jobInputs_iff (inputs : JobInputs) (contexts : List LegContext) :
    (contexts.filterMap fun ctx => ctx.workspaceId.map (inputs.job source.LOCAL_EXTRACTION_ROUTE)).Nodup ↔
      (contexts.filterMap (·.workspaceId)).Nodup := by
  have hmap : contexts.filterMap (fun ctx => ctx.workspaceId.map (inputs.job source.LOCAL_EXTRACTION_ROUTE)) =
      (contexts.filterMap (·.workspaceId)).map (inputs.job source.LOCAL_EXTRACTION_ROUTE) := List.map_filterMap.symm
  rw [hmap]
  exact List.nodup_map_iff fun a b h => congrArg (fun job : BrokerJob JobDetails => job.workspaceId) h

/-- Sources are kept apart exactly where they are routed to workspaces of their own and no job is in the
    ledger yet, and close-outs where there are no two of them; or no job is handed over at all. -/
theorem extractions_keptApart_iff {Output Usage Budget : Type} (tables : CaseTables)
    (deps : BrokerDeps JobDetails Output Usage Budget BrokerCandidate) (params : ProofSpineParams) (present : Bool) :
    (∀ sources : DistinctSources,
      KeptApart (runAll (sourceAgent tables deps params) sources.contexts (freshLedger Usage present)) ↔
        params.sourceIngestion = none ∨ (sources.contexts.filterMap (·.workspaceId)).Nodup ∧
          ∀ run ∈ runAll (sourceAgent tables deps params) sources.contexts (freshLedger Usage present), run.Unserved) ∧
    (∀ meetings : DistinctSources,
      KeptApart (runAll (runAgentJob tables deps params) meetings.contexts (freshLedger Usage present)) ↔
        admitsMutating (params.meetingJobInputs.toolPolicy.getD READ_ONLY_TOOL_POLICY) none = true ∨ meetings.contexts.length ≤ 1) := by
  constructor
  · intro sources
    rw [keepsLedger_sourceAgent.keptApart_iff (recordedBy_freshLedger present), pairwise_job_runAll job_sourceAgent]
    cases hbinding : params.sourceIngestion with
    | none =>
      simp only [Option.bind_none, List.filterMap_none, true_or, iff_true]
      refine ⟨List.nodup_nil, fun run hrun job hjob => ?_⟩
      obtain ⟨ctx, hctx⟩ := keepsLedger_sourceAgent.eq_of_mem hrun
      rw [hctx, job_sourceAgent, hbinding] at hjob
      cases hjob
    | some binding =>
      simp only [Option.bind_some, nodup_jobInputs_iff, reduceCtorEq, false_or]
  · intro meetings
    rw [keepsLedger_runAgentJob.keptApart_iff (recordedBy_freshLedger present), pairwise_job_runAll job_runAgentJob]
    cases hmutating : admitsMutating (params.meetingJobInputs.toolPolicy.getD READ_ONLY_TOOL_POLICY) none with
    | true =>
      simp only [if_true, List.filterMap_none, true_or, iff_true]
      refine ⟨List.nodup_nil, fun run hrun job hjob => ?_⟩
      obtain ⟨ctx, hctx⟩ := keepsLedger_runAgentJob.eq_of_mem hrun
      rw [hctx, job_runAgentJob, hmutating] at hjob
      cases hjob
    | false =>
      simp only [Bool.false_eq_true, if_false, false_or]
      rw [List.filterMap_eq_map', List.map_const', List.nodup_replicate]
      refine ⟨And.left, fun hlength => ⟨hlength, fun run hrun => ?_⟩⟩
      match hcontexts : meetings.contexts with
      | [] =>
        rw [hcontexts] at hrun
        cases hrun
      | [ctx] =>
        rw [hcontexts, runAll, runAll, List.mem_singleton] at hrun
        intro job hjob
        have hseen : run.seen = freshLedger Usage present := by rw [hrun, (keepsLedger_runAgentJob ctx _).seen]
        rw [hseen]
        cases present <;> rfl
      | ctx :: other :: rest =>
        rw [hcontexts] at hlength
        simp at hlength

section twoFiles

def legWorkspace : ResolvedWorkspace where
  type := .employer_work
  dataOwner := .employer
  providerMatrix := matrixOf (str "employer-work") (str "source.process")
  egressPolicy := ⟨str "employer-work", some [], some [], some false⟩

/-- The activities of a worker that was bound to the first file at boot. -/
def spineParams : ProofSpineParams where
  meetingJobInputs := {
    workflowRunId := str "wf-1"
    capability := str "meeting.close"
    outputSchemaId := KNOWLEDGE_MUTATION_PLAN_SCHEMA_ID
    maxRuntimeSeconds := 60
    maxCostUsd := none
    idempotencyKey := str "job:meeting:1"
    jobId := none
    contextRefs := none
    toolPolicy := none
    providerRoute := none
    onePort := by simp
    workspaceId := str "employer-work" }
  resolved := legWorkspace
  sourceIngestion := some ⟨str "employer-work", str "file:employer-work:a.txt", none, none⟩
  localConfig := none

def twoFiles : DistinctSources where
  contexts := [⟨⟨str "file:employer-work:a.txt", str "hash-a"⟩, some (str "employer-work")⟩,
    ⟨⟨str "file:employer-work:b.txt", str "hash-b"⟩, some (str "employer-work")⟩]
  distinct := by
    rw [List.map_cons, List.map_cons, List.map_nil, List.nodup_cons, List.mem_singleton]
    refine ⟨fun h => ?_, List.nodup_singleton _⟩
    have hname := congrArg SourceNoteIdentity.sourceId h
    revert hname
    decide

/-- A broker whose gates let every admitted job pass, and whose model answers with one field. -/
def ownerGates : BrokerDeps JobDetails JsString Unit Unit BrokerCandidate where
  admits job := admitJob job none
  health _ _ := .ok ⟨(), none⟩
  budgetPre _ := .ok ⟨(), none⟩
  run _ job _ := .ok ⟨⟨.completed, job.idempotencyKey, ()⟩, none⟩
  budgetPost _ _ _ := .ok ⟨(), none⟩
  schema _ result := .ok ⟨.agentExtraction [(str "owner", ⟨.str result.candidateOutput, none⟩)], none⟩

/-- Two files of one workspace hand the broker the same job. -/
theorem twoFiles_not_keptApart :
    ¬ KeptApart (runAll (sourceAgent asciiTables ownerGates spineParams) twoFiles.contexts (freshLedger Unit false)) := by
  intro h
  have hpair := (List.pairwise_cons.mp h.jobs).1 _ (List.mem_cons_self)
  refine hpair ((source.jobInputs spineParams ⟨str "employer-work", str "file:employer-work:a.txt", none, none⟩).job
    source.LOCAL_EXTRACTION_ROUTE (str "employer-work")) ?_ _ ?_ rfl
  · rw [job_sourceAgent]
    rfl
  · rw [job_sourceAgent]
    rfl

end twoFiles

end sow.workflows
