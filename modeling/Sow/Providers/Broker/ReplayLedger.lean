import Sow.Providers.Broker.GateBinding

open sow.js sow.contracts sow.policy sow.domain

namespace sow.providers

variable {Rest Output Usage Budget Candidate : Type}

def IdempotencyLedger.prior (ledger : IdempotencyLedger Usage Candidate) (key : JsString) :
    Option (BrokerAccepted Usage Candidate) :=
  ledger.bind (·.get key)

/-- A run of the broker that accepted its job, with the ledger as it read it. -/
structure AcceptedRun (tables : CaseTables) (Rest Output Usage Budget Candidate : Type) where
  deps : BrokerDeps Rest Output Usage Budget Candidate
  req : BrokerJobRequest Rest
  seen : IdempotencyLedger Usage Candidate
  accepted : BrokerAccepted Usage Candidate
  accepts : Accepts tables deps req seen (runJob tables deps req seen) accepted

/-- The ledger once a run has recorded its outcome. Runs may overlap: what the run read at its
    start may be older than what it writes to. -/
def AcceptedRun.record {tables : CaseTables} (run : AcceptedRun tables Rest Output Usage Budget Candidate)
    (ledger : IdempotencyLedger Usage Candidate) : IdempotencyLedger Usage Candidate :=
  ledger.map (·.set run.req.job.idempotencyKey run.accepted)

def recordAll {tables : CaseTables} (origin : IdempotencyLedger Usage Candidate)
    (history : List (AcceptedRun tables Rest Output Usage Budget Candidate)) : IdempotencyLedger Usage Candidate :=
  history.foldl (fun ledger run => run.record ledger) origin

section

variable {tables : CaseTables} {deps : BrokerDeps Rest Output Usage Budget Candidate} {req : BrokerJobRequest Rest}
  {origin ledger : IdempotencyLedger Usage Candidate}

/-- What a ledger holds was there from the start, or a run accepted it under this very key. -/
theorem recordAll_prior {history : List (AcceptedRun tables Rest Output Usage Budget Candidate)} {key : JsString}
    {accepted : BrokerAccepted Usage Candidate} (h : (recordAll origin history).prior key = some accepted) :
    origin.prior key = some accepted ∨
      ∃ run ∈ history, run.req.job.idempotencyKey = key ∧ run.accepted = accepted := by
  induction history using List.reverseRecOn with
  | nil => exact .inl h
  | append_singleton history run ih =>
    unfold recordAll at h ih
    rw [List.foldl_concat] at h
    generalize List.foldl _ origin history = ledger at h ih
    cases ledger with
    | none => cases h
    | some entries =>
      change (entries.set run.req.job.idempotencyKey run.accepted).get key = some accepted at h
      rw [Map.get_set] at h
      split at h
      · next hkey => exact .inr ⟨run, by simp, hkey, Option.some.inj h⟩
      · rcases ih h with hprior | ⟨earlier, hmem, hearlier⟩
        · exact .inl hprior
        · exact .inr ⟨earlier, List.mem_append_left _ hmem, hearlier⟩

theorem prior_record {entries : Map JsString (BrokerAccepted Usage Candidate)}
    (run : AcceptedRun tables Rest Output Usage Budget Candidate) :
    (recordAll (some entries) [run]).prior run.req.job.idempotencyKey = some run.accepted := by
  change (entries.set run.req.job.idempotencyKey run.accepted).get run.req.job.idempotencyKey = some run.accepted
  exact Map.get_set_self _ _ _

theorem runJob_replays {prior : BrokerAccepted Usage Candidate} (hprior : ledger.prior req.job.idempotencyKey = some prior) :
    runJob tables deps req ledger = ⟨.ok { prior with replayed := true }, [], ledger⟩ := by
  have hbind : ledger.bind (·.get req.job.idempotencyKey) = some prior := hprior
  unfold runJob
  rw [hbind]

theorem runJob_sound (hprior : ledger.prior req.job.idempotencyKey = none) :
    Sound tables deps req ledger (runJob tables deps req ledger) := by
  have hbind : ledger.bind (·.get req.job.idempotencyKey) = none := hprior
  unfold runJob
  rw [hbind]
  exact admission_sound

end

/-- No port stands twice in the order of the stages. -/
theorem count_port_le {calls : List (PortCall Rest Output Usage Budget)} (h : calls.map PortCall.port <+: PIPELINE)
    (port : Port) : (calls.map PortCall.port).count port ≤ 1 := by
  have hnodup : PIPELINE.Nodup := by decide
  exact List.nodup_iff_count_le_one.mp (hnodup.sublist h.sublist) port

/-- The gates bind what runs. A run serves what the ledger holds under the key of its job, which
    an earlier run of a job with that key has accepted, and calls no port; or every port it
    calls is bound to the route that was vetted. -/
theorem runJob_binds (tables : CaseTables) (deps : BrokerDeps Rest Output Usage Budget Candidate)
    (req : BrokerJobRequest Rest) (origin : IdempotencyLedger Usage Candidate)
    (history : List (AcceptedRun tables Rest Output Usage Budget Candidate)) :
    ((runJob tables deps req (recordAll origin history)).calls.map PortCall.port).count .run ≤ 1 ∧
      ((∃ prior, (recordAll origin history).prior req.job.idempotencyKey = some prior ∧
          runJob tables deps req (recordAll origin history) = ⟨.ok { prior with replayed := true }, [], recordAll origin history⟩ ∧
          (origin.prior req.job.idempotencyKey = some prior ∨
            ∃ run ∈ history, run.req.job.idempotencyKey = req.job.idempotencyKey ∧ run.accepted = prior)) ∨
        ((recordAll origin history).prior req.job.idempotencyKey = none ∧
          Sound tables deps req (recordAll origin history) (runJob tables deps req (recordAll origin history)))) := by
  generalize hledger : recordAll origin history = ledger
  cases hprior : ledger.prior req.job.idempotencyKey with
  | some prior =>
    have hrun : runJob tables deps req ledger = ⟨.ok { prior with replayed := true }, [], ledger⟩ := runJob_replays hprior
    rw [← hledger] at hprior
    refine ⟨?_, .inl ⟨prior, rfl, hrun, recordAll_prior hprior⟩⟩
    rw [hrun]
    exact Nat.zero_le 1
  | none =>
    have hsound : Sound tables deps req ledger (runJob tables deps req ledger) := runJob_sound hprior
    exact ⟨count_port_le hsound.order .run, .inr ⟨rfl, hsound⟩⟩

section foreign

/- Two jobs of two workspaces that were given one idempotency key. -/

def localRoute : ProviderRoute := ⟨some (str "ollama"), none, str "llama3.1", some (str "localhost"), some .local⟩

theorem localRoute_onePort : localRoute.OnePort := ⟨.inl rfl, .inr rfl⟩

def jobOf (workspaceId capability : JsString) : BrokerJob Unit where
  id := str "job-1"
  workspaceId := workspaceId
  carriesRawContent := some false
  capability := capability
  idempotencyKey := str "key-1"
  providerRoute := localRoute
  rest := ()

def matrixOf (workspaceId capability : JsString) : WorkspaceMatrix where
  allowedProviders := some [some (str "ollama")]
  capabilityDefaults := some [(capability, some localRoute)]
  rawCloudEgressEnabled := some false
  workspaceId := workspaceId
  routes := by
    intro record hrecord entry hentry
    rw [← Option.mem_some_iff.mp hrecord, List.mem_singleton] at hentry
    exact ⟨localRoute, by rw [hentry], localRoute_onePort⟩

def requestOf (workspaceId capability : JsString) : BrokerJobRequest Unit where
  job := jobOf workspaceId capability
  matrix := some (matrixOf workspaceId capability)
  egress := ⟨workspaceId, some [], some [], some false⟩
  workspace := ⟨some .personal_life, .user⟩
  localConfig := none
  onePort := localRoute_onePort

theorem requestOf_key (workspaceId capability : JsString) :
    (requestOf workspaceId capability).job.idempotencyKey = str "key-1" := rfl

theorem requestOf_workspaceId (workspaceId capability : JsString) :
    (requestOf workspaceId capability).job.workspaceId = workspaceId := rfl

def signal : AuditSignal := ⟨[], [], [], [], [], [], none, none⟩

def openGates : BrokerDeps Unit Unit Unit Unit Unit where
  admits job := .allow job signal
  health _ _ := .ok ⟨(), none⟩
  budgetPre _ := .ok ⟨(), none⟩
  run _ _ _ := .ok ⟨⟨.completed, (), ()⟩, none⟩
  budgetPost _ _ _ := .ok ⟨(), none⟩
  schema _ _ := .ok ⟨(), none⟩

theorem capabilityRoute_matrixOf (workspaceId capability : JsString) :
    capabilityRoute (matrixOf workspaceId capability).toProviderMatrix capability = some localRoute := by
  change ((Map.empty.set capability (some localRoute)).get capability).join = some localRoute
  rw [Map.get_set_self]
  rfl

/-- Open gates let a job pass on a route of this machine. -/
theorem openGates_allow {workspaceId capability : JsString} {c : PortCall Unit Unit Unit Unit}
    (h : c.Bound asciiTables (requestOf workspaceId capability)) :
    c.denied asciiTables openGates (requestOf workspaceId capability) = false := by
  cases c with
  | resolveRoute job =>
    change job = jobOf workspaceId capability at h
    subst h
    change (!isAllow (resolveJobRoute asciiTables (jobOf workspaceId capability) (some (matrixOf workspaceId capability)) none)) = false
    unfold resolveJobRoute resolveRoute
    have hworkspace : (some (matrixOf workspaceId capability)).filter (·.workspaceId = (jobOf workspaceId capability).workspaceId) =
        some (matrixOf workspaceId capability) := by
      rw [Option.filter_some]
      exact if_pos (decide_eq_true rfl)
    rw [hworkspace]
    dsimp only
    have hcapability : (jobOf workspaceId capability).capability = capability := rfl
    rw [if_neg (by exact Option.some_ne_none _), hcapability, capabilityRoute_matrixOf]
    rfl
  | egressVeto job route =>
    obtain ⟨rfl, m, hmatrix, -, hroute⟩ := h
    rw [← Option.some.inj hmatrix] at hroute
    rw [← Option.some.inj ((capabilityRoute_matrixOf workspaceId capability).symm.trans hroute)]
    have hfree : processorOfRoute asciiTables (some localRoute) = none := by decide
    change (!isAllow (vetoJobEgress asciiTables (jobOf workspaceId capability) localRoute
      ⟨workspaceId, some [], some [], some false⟩ ⟨some .personal_life, .user⟩)) = false
    have hread : readInput (some (jobOf workspaceId capability).toAgentJob) (some localRoute)
        (some ⟨workspaceId, some [], some [], some false⟩) (some ⟨some .personal_life, .user⟩) =
          some ⟨(jobOf workspaceId capability).toAgentJob, localRoute, str "localhost", .local, [], [], false, .personal_life, .user, false⟩ := rfl
    unfold vetoJobEgress egressVeto
    rw [hread]
    dsimp only
    rw [hfree]
    rfl
  | _ => rfl

theorem openGates_accepts (workspaceId capability : JsString) :
    ∃ accepted, Accepts asciiTables openGates (requestOf workspaceId capability) (some .empty)
      (runJob asciiTables openGates (requestOf workspaceId capability) (some .empty)) accepted := by
  have hsound : Sound asciiTables openGates (requestOf workspaceId capability) (some .empty)
      (runJob asciiTables openGates (requestOf workspaceId capability) (some .empty)) := runJob_sound rfl
  refine hsound.outcome.resolve_left ?_
  rintro ⟨rejection, hrejects⟩
  obtain ⟨c, hlast, hdenied⟩ := hrejects.denied
  rw [openGates_allow (hsound.bound c (List.mem_of_getLast? hlast))] at hdenied
  cases hdenied

/-- A job of one workspace is served the outcome of a job of another. -/
theorem runJob_replays_foreign :
    ¬ ∀ (tables : CaseTables) (deps : BrokerDeps Unit Unit Unit Unit Unit) (req : BrokerJobRequest Unit)
      (history : List (AcceptedRun tables Unit Unit Unit Unit Unit)) (prior : BrokerAccepted Unit Unit),
        runJob tables deps req (recordAll (some .empty) history) =
            ⟨.ok { prior with replayed := true }, [], recordAll (some .empty) history⟩ →
          (recordAll (some .empty) history).prior req.job.idempotencyKey = some prior →
            ∃ run ∈ history, run.accepted = prior ∧ run.req.job.workspaceId = req.job.workspaceId ∧
              run.req.job.capability = req.job.capability := by
  intro h
  obtain ⟨accepted, haccepts⟩ := openGates_accepts (str "employer-work") (str "meeting.close")
  generalize hearlier : requestOf (str "employer-work") (str "meeting.close") = earlier at haccepts
  generalize hlater : requestOf (str "personal-life") (str "daily.brief") = later
  have hkey : earlier.job.idempotencyKey = later.job.idempotencyKey := by
    rw [← hearlier, ← hlater, requestOf_key, requestOf_key]
  have hne : earlier.job.workspaceId ≠ later.job.workspaceId := by
    rw [← hearlier, ← hlater, requestOf_workspaceId, requestOf_workspaceId]
    decide
  let run : AcceptedRun asciiTables Unit Unit Unit Unit Unit := ⟨openGates, earlier, some .empty, accepted, haccepts⟩
  have hprior : (recordAll (some .empty) [run]).prior later.job.idempotencyKey = some accepted := by
    rw [← hkey]
    exact prior_record run
  obtain ⟨served, hmem, -, hworkspace, -⟩ := h asciiTables openGates later [run] accepted (runJob_replays hprior) hprior
  rw [List.mem_singleton.mp hmem] at hworkspace
  exact hne hworkspace

end foreign

end sow.providers
