import Sow.Providers.Broker.Pipeline

open sow.js sow.contracts sow.policy sow.domain

namespace sow.providers

variable {Rest Output Usage Budget Candidate : Type}

inductive Port where
  | admits
  | resolveRoute
  | egressVeto
  | health
  | budgetPre
  | run
  | budgetPost
  | schema
  deriving DecidableEq

/-- The ports in the order of their stages. -/
def PIPELINE : List Port := [.admits, .resolveRoute, .egressVeto, .health, .budgetPre, .run, .budgetPost, .schema]

def PortCall.port : PortCall Rest Output Usage Budget → Port
  | .admits _ => .admits
  | .resolveRoute _ => .resolveRoute
  | .egressVeto _ _ => .egressVeto
  | .health _ _ => .health
  | .budgetPre _ => .budgetPre
  | .run _ _ _ => .run
  | .budgetPost _ _ _ => .budgetPost
  | .schema _ _ => .schema

/-- The state that a job enters when the port lets it pass. -/
def Port.entered : Port → Option AgentJobState
  | .admits => some .admitted
  | .health => some .provider_selected
  | .budgetPre => some .running
  | .budgetPost => some .schema_validated
  | .schema => some .accepted
  | _ => none

section

variable (tables : CaseTables) (deps : BrokerDeps Rest Output Usage Budget Candidate) (req : BrokerJobRequest Rest)

/-- A denial of the port, or a run that comes back cancelled. -/
def PortCall.denied : PortCall Rest Output Usage Budget → Bool
  | .admits job => !isAllow (deps.admits job)
  | .resolveRoute job => !isAllow (resolveJobRoute tables job req.matrix req.localConfig)
  | .egressVeto job route => !isAllow (vetoJobEgress tables job route req.egress req.workspace)
  | .health route job => !(deps.health route job).toBool
  | .budgetPre job => !(deps.budgetPre job).toBool
  | .run route job budget =>
    match deps.run route job budget with
    | .error _ => true
    | .ok ran => ran.value.status = .cancelled
  | .budgetPost job usage budget => !(deps.budgetPost job usage budget).toBool
  | .schema job result => !(deps.schema job result).toBool

/-- The states of the stages that were passed. -/
def passed (calls : List (PortCall Rest Output Usage Budget)) : List AgentJobState :=
  (calls.filter fun c => !c.denied tables deps req).filterMap fun c => c.port.entered

/-- The entry of the job's own capability, in the matrix of the job's own workspace. -/
def Resolved (route : ProviderRoute) : Prop :=
  ∃ m, req.matrix = some m ∧ m.workspaceId = req.job.workspaceId ∧
    capabilityRoute m.toProviderMatrix req.job.capability = some route

/-- A resolved route that the policy's veto allows for this job and workspace. -/
structure Vetted (route : ProviderRoute) : Prop where
  resolved : Resolved req route
  onePort : route.OnePort
  cleared : isAllow (egressVeto tables (some req.job.toAgentJob) (some route) (some req.egress) (some req.workspace)) = true

/-- The job of the request, on `route`. -/
def onRoute (route : ProviderRoute) : BrokerJob Rest := { req.job with providerRoute := route }

/-- What each port is handed. -/
def PortCall.Bound : PortCall Rest Output Usage Budget → Prop
  | .admits job => job = req.job
  | .resolveRoute job => job = req.job
  | .egressVeto job route => job = req.job ∧ Resolved req route
  | .health route job => job = req.job ∧ Vetted tables req route
  | .budgetPre job => ∃ route, Vetted tables req route ∧ job = onRoute req route
  | .run route job _ => Vetted tables req route ∧ job = onRoute req route
  | .budgetPost job _ _ => ∃ route, Vetted tables req route ∧ job = onRoute req route
  | .schema job _ => ∃ route, Vetted tables req route ∧ job = onRoute req route

variable (ledger : IdempotencyLedger Usage Candidate)

/-- A rejected run: the last port denied, nothing is recorded, and the job rests where its
    stages took it or one edge further, at the branch of the denial. -/
structure Rejects (run : BrokerRun Rest Output Usage Budget Candidate) (rejection : BrokerRejection) : Prop where
  outcome : run.outcome = .error rejection
  ledger : run.ledger = ledger
  denied : ∃ c, run.calls.getLast? = some c ∧ c.denied tables deps req = true
  jobState : ∃ edge : Option AgentJobState, (∀ state ∈ edge, state = rejection.branch.state) ∧
    Walk .created (passed tables deps req run.calls ++ edge.toList) ∧
    rejection.jobState = (passed tables deps req run.calls ++ edge.toList).getLast?.getD .created

/-- An accepted run: every port was called, and none denied. -/
structure Accepts (run : BrokerRun Rest Output Usage Budget Candidate) (accepted : BrokerAccepted Usage Candidate) :
    Prop where
  outcome : run.outcome = .ok accepted
  ledger : run.ledger = ledger.map (·.set req.job.idempotencyKey accepted)
  ports : run.calls.map PortCall.port = PIPELINE
  allowed : ∀ c ∈ run.calls, c.denied tables deps req = false
  walk : Walk .created (passed tables deps req run.calls)
  jobState : (passed tables deps req run.calls).getLast? = some accepted.jobState
  route : Vetted tables req accepted.route
  fresh : accepted.replayed = false

/-- What holds of every run that is not a replay. -/
structure Sound (run : BrokerRun Rest Output Usage Budget Candidate) : Prop where
  order : run.calls.map PortCall.port <+: PIPELINE
  bound : ∀ c ∈ run.calls, c.Bound tables req
  halts : ∀ before c after, run.calls = before ++ c :: after → c.denied tables deps req = true → after = []
  outcome : (∃ rejection, Rejects tables deps req ledger run rejection) ∨
    ∃ accepted, Accepts tables deps req ledger run accepted

/-- The first `n` ports were called, and let the job pass. -/
structure Cleared (n : Nat) (calls : List (PortCall Rest Output Usage Budget)) : Prop where
  ports : calls.map PortCall.port = PIPELINE.take n
  allowed : ∀ c ∈ calls, c.denied tables deps req = false
  bound : ∀ c ∈ calls, c.Bound tables req

end

/-- The states behind the first `n` ports. -/
def spine (n : Nat) : List AgentJobState := (PIPELINE.take n).filterMap Port.entered

theorem spine_walk (n : Nat) : Walk .created (spine n) := by
  have hfull : Walk .created (spine 8) := by
    unfold Walk
    decide
  have htake : spine n <+: spine 8 := (List.take_prefix n PIPELINE).filterMap Port.entered
  exact List.IsChain.prefix hfull ((List.prefix_cons_inj AgentJobState.created).mpr htake)

section

variable {tables : CaseTables} {deps : BrokerDeps Rest Output Usage Budget Candidate} {req : BrokerJobRequest Rest}
  {ledger : IdempotencyLedger Usage Candidate} {p : Progress Rest Output Usage Budget} {n : Nat}
  {calls : List (PortCall Rest Output Usage Budget)} {c : PortCall Rest Output Usage Budget} {route : ProviderRoute}
  {rejection : BrokerRejection}

theorem Cleared.start : Cleared tables deps req 0 [] where
  ports := rfl
  allowed := fun _ hc => absurd hc List.not_mem_nil
  bound := fun _ hc => absurd hc List.not_mem_nil

theorem Cleared.passed (h : Cleared tables deps req n calls) : passed tables deps req calls = spine n := by
  unfold sow.providers.passed spine
  rw [List.filter_eq_self.mpr fun c hc => by rw [h.allowed c hc]; rfl, ← h.ports, List.filterMap_map]
  rfl

private theorem ports_concat (h : Cleared tables deps req n calls) (hport : PIPELINE[n]? = some c.port) :
    (calls ++ [c]).map PortCall.port = PIPELINE.take (n + 1) := by
  rw [List.map_append, h.ports, List.take_add_one, hport]
  rfl

/-- A port that lets the job pass. -/
theorem Cleared.called (h : Cleared tables deps req n calls) (hport : PIPELINE[n]? = some c.port)
    (hallowed : c.denied tables deps req = false) (hbound : c.Bound tables req) :
    Cleared tables deps req (n + 1) (calls ++ [c]) where
  ports := ports_concat h hport
  allowed := by
    intro d hd
    rcases List.mem_append.mp hd with hd | hd
    · exact h.allowed d hd
    · rw [List.mem_singleton.mp hd]
      exact hallowed
  bound := by
    intro d hd
    rcases List.mem_append.mp hd with hd | hd
    · exact h.bound d hd
    · rw [List.mem_singleton.mp hd]
      exact hbound

/-- A port that denies ends the run. -/
theorem Cleared.stopped (h : Cleared tables deps req n calls) (hport : PIPELINE[n]? = some c.port)
    (hdenied : c.denied tables deps req = true) (hbound : c.Bound tables req) (hcalls : p.calls = calls ++ [c])
    (edge : Option AgentJobState) (hbranch : ∀ state ∈ edge, state = rejection.branch.state)
    (hedge : ∀ state ∈ edge, agentJobMachine.canTransition ((spine n).getLast?.getD .created) state = true)
    (hstate : rejection.jobState = (spine n ++ edge.toList).getLast?.getD .created) :
    Sound tables deps req ledger (stopped ledger p rejection) := by
  have hpassed : sow.providers.passed tables deps req p.calls = spine n := by
    rw [← h.passed, hcalls]
    unfold sow.providers.passed
    rw [List.filter_append, List.filter_cons_of_neg (by simp [hdenied]), List.filter_nil, List.append_nil]
  refine ⟨?_, ?_, ?_, .inl ⟨rejection, rfl, rfl, ⟨c, ?_, hdenied⟩, edge, hbranch, ?_, ?_⟩⟩
  · change p.calls.map PortCall.port <+: PIPELINE
    rw [hcalls, ports_concat h hport]
    exact List.take_prefix _ _
  · change ∀ d ∈ p.calls, d.Bound tables req
    rw [hcalls]
    intro d hd
    rcases List.mem_append.mp hd with hd | hd
    · exact h.bound d hd
    · rw [List.mem_singleton.mp hd]
      exact hbound
  · intro before d after hsplit hd
    change p.calls = _ at hsplit
    rw [hcalls] at hsplit
    -- a denied call is none of those that were cleared, so it is the last one
    rcases List.append_eq_append_iff.mp hsplit with ⟨l, hl, hc⟩ | ⟨l, hl, hc⟩
    · cases l with
      | nil => exact (List.cons.inj hc).2.symm
      | cons e l =>
        have hnil := (List.cons.inj hc).2
        simp at hnil
    · cases l with
      | nil => exact (List.cons.inj hc).2
      | cons e l =>
        have hmem : d ∈ calls := by
          rw [hl, (List.cons.inj hc).1]
          simp
        rw [h.allowed d hmem] at hd
        cases hd
  · change p.calls.getLast? = some c
    rw [hcalls, List.getLast?_concat]
  · change Walk .created (sow.providers.passed tables deps req p.calls ++ edge.toList)
    rw [hpassed]
    cases edge with
    | none =>
      rw [Option.toList_none, List.append_nil]
      exact spine_walk n
    | some state => exact (spine_walk n).concat (hedge state rfl)
  · change rejection.jobState = (sow.providers.passed tables deps req p.calls ++ edge.toList).getLast?.getD .created
    rw [hpassed]
    exact hstate

theorem advancing_edge {stage : BrokerStage} {target : AgentJobState}
    {next : Progress Rest Output Usage Budget → BrokerRun Rest Output Usage Budget Candidate}
    (hedge : agentJobMachine.canTransition p.life.state target = true) :
    advancing ledger p stage target next = next { p with life := ⟨target⟩ } := by
  unfold advancing
  rw [JobLifecycle.advance_edge hedge]

theorem emit_sound (h : Cleared tables deps req 8 p.calls) (hlife : p.life = ⟨.schema_validated⟩)
    (hroute : Vetted tables req route) (usage : Usage) (candidate : Candidate) :
    Sound tables deps req ledger (emit req ledger p route usage candidate) := by
  unfold emit
  rw [advancing_edge (by rw [hlife]; rfl)]
  refine ⟨?_, h.bound, ?_, .inr ⟨_, rfl, rfl, h.ports, h.allowed, ?_, ?_, hroute, rfl⟩⟩
  · exact (congrArg (· <+: PIPELINE) h.ports).mpr (List.prefix_refl _)
  · intro before c after hsplit hdenied
    have hallowed := h.allowed c (by rw [show p.calls = _ from hsplit]; simp)
    rw [hdenied] at hallowed
    cases hallowed
  · change Walk .created (passed tables deps req p.calls)
    rw [h.passed]
    exact spine_walk 8
  · change (passed tables deps req p.calls).getLast? = some .accepted
    rw [h.passed]
    rfl

theorem schemaGate_sound (h : Cleared tables deps req 7 p.calls) (hlife : p.life = ⟨.running⟩)
    (hroute : Vetted tables req route) (result : AgentResult Output Usage) :
    Sound tables deps req ledger (schemaGate deps req ledger p route (onRoute req route) result) := by
  unfold schemaGate
  rw [advancing_edge (by rw [hlife]; rfl)]
  dsimp only
  cases hschema : deps.schema (onRoute req route) result with
  | error d =>
    have hdenied : PortCall.denied tables deps req (.schema (onRoute req route) result) = true := by
      simp [PortCall.denied, hschema, Except.toBool]
    -- every branch is an edge out of `schema_validated`
    refine h.stopped rfl hdenied ⟨route, hroute, rfl⟩ rfl (some d.branch.state) ?_ ?_ ?_
    · intro state hstate
      exact (Option.mem_some_iff.mp hstate).symm
    · intro state hstate
      rw [← Option.mem_some_iff.mp hstate]
      exact schema_validated_branch d.branch
    · have hadvance : JobLifecycle.advance ⟨.schema_validated⟩ d.branch.state = .ok ⟨d.branch.state⟩ :=
        JobLifecycle.advance_edge (schema_validated_branch d.branch)
      simp [reject, Progress.audited, Progress.called, hadvance]
  | ok gated =>
    have hallowed : PortCall.denied tables deps req (.schema (onRoute req route) result) = false := by
      simp [PortCall.denied, hschema, Except.toBool]
    refine emit_sound ?_ rfl hroute _ _
    exact h.called rfl hallowed ⟨route, hroute, rfl⟩

theorem budgetPost_sound (h : Cleared tables deps req 6 p.calls) (hlife : p.life = ⟨.running⟩)
    (hroute : Vetted tables req route) (budget : Budget) (result : AgentResult Output Usage) :
    Sound tables deps req ledger (budgetPost deps req ledger p route (onRoute req route) budget result) := by
  unfold budgetPost
  dsimp only
  cases hpost : deps.budgetPost (onRoute req route) result.usage budget with
  | error d =>
    have hdenied : PortCall.denied tables deps req (.budgetPost (onRoute req route) result.usage budget) = true := by
      simp [PortCall.denied, hpost, Except.toBool]
    dsimp only
    rw [advancing_edge (by rw [Progress.called, hlife]; rfl)]
    refine h.stopped rfl hdenied ⟨route, hroute, rfl⟩ rfl (some .cancelled_budget) ?_ ?_ rfl
    · intro state hstate
      exact (Option.mem_some_iff.mp hstate).symm
    · intro state hstate
      rw [← Option.mem_some_iff.mp hstate]
      rfl
  | ok post =>
    have hallowed : PortCall.denied tables deps req (.budgetPost (onRoute req route) result.usage budget) = false := by
      simp [PortCall.denied, hpost, Except.toBool]
    refine schemaGate_sound ?_ ?_ hroute result
    · exact h.called rfl hallowed ⟨route, hroute, rfl⟩
    · exact hlife

/-- A denial leaves the lifecycle where it stands. -/
theorem Cleared.rests (h : Cleared tables deps req n calls) (hport : PIPELINE[n]? = some c.port)
    (hdenied : c.denied tables deps req = true) (hbound : c.Bound tables req) (hcalls : p.calls = calls ++ [c])
    (hstate : rejection.jobState = (spine n).getLast?.getD .created) :
    Sound tables deps req ledger (sow.providers.stopped ledger p rejection) := by
  refine h.stopped hport hdenied hbound hcalls none ?_ ?_ ?_
  · intro state hstate
    cases hstate
  · intro state hstate
    cases hstate
  · rw [Option.toList_none, List.append_nil]
    exact hstate

theorem runRoute_sound (h : Cleared tables deps req 5 p.calls) (hlife : p.life = ⟨.provider_selected⟩)
    (hroute : Vetted tables req route) (budget : Budget) :
    Sound tables deps req ledger (runRoute deps req ledger p route (onRoute req route) budget) := by
  unfold runRoute
  rw [advancing_edge (by rw [hlife]; rfl)]
  dsimp only
  cases hrun : deps.run route (onRoute req route) budget with
  | error d =>
    have hdenied : PortCall.denied tables deps req (.run route (onRoute req route) budget) = true := by
      simp [PortCall.denied, hrun]
    refine h.rests rfl hdenied ⟨hroute, rfl⟩ rfl ?_
    rfl
  | ok ran =>
    dsimp only
    by_cases hcancelled : ran.value.status = .cancelled
    · have hdenied : PortCall.denied tables deps req (.run route (onRoute req route) budget) = true := by
        simp [PortCall.denied, hrun, hcancelled]
      rw [if_pos hcancelled, advancing_edge rfl]
      refine h.stopped rfl hdenied ⟨hroute, rfl⟩ rfl (some .cancelled_budget) ?_ ?_ rfl
      · intro state hstate
        exact (Option.mem_some_iff.mp hstate).symm
      · intro state hstate
        rw [← Option.mem_some_iff.mp hstate]
        rfl
    · have hallowed : PortCall.denied tables deps req (.run route (onRoute req route) budget) = false := by
        simp [PortCall.denied, hrun, hcancelled]
      rw [if_neg hcancelled]
      refine budgetPost_sound ?_ rfl hroute budget ran.value
      exact h.called rfl hallowed ⟨hroute, rfl⟩

theorem budgetPre_sound (h : Cleared tables deps req 4 p.calls) (hlife : p.life = ⟨.provider_selected⟩)
    (hroute : Vetted tables req route) : Sound tables deps req ledger (budgetPre deps req ledger p route) := by
  unfold budgetPre
  have hjob : effectiveJob req.job route = onRoute req route := effectiveJob_eq req.onePort hroute.onePort
  rw [hjob]
  dsimp only
  generalize hq : (if routesEqual req.job.providerRoute route = true then p else _) = q
  have hcalls : q.calls = p.calls := by
    rw [← hq]
    split <;> rfl
  have hqlife : q.life = ⟨.provider_selected⟩ := by
    rw [← hq]
    split <;> exact hlife
  rw [← hcalls] at h
  cases hpre : deps.budgetPre (onRoute req route) with
  | error d =>
    have hdenied : PortCall.denied tables deps req (.budgetPre (onRoute req route)) = true := by
      simp [PortCall.denied, hpre, Except.toBool]
    refine h.rests rfl hdenied ⟨route, hroute, rfl⟩ rfl ?_
    exact congrArg JobLifecycle.state hqlife
  | ok pre =>
    have hallowed : PortCall.denied tables deps req (.budgetPre (onRoute req route)) = false := by
      simp [PortCall.denied, hpre, Except.toBool]
    refine runRoute_sound ?_ ?_ hroute pre.value
    · exact h.called rfl hallowed ⟨route, hroute, rfl⟩
    · exact hqlife

theorem health_sound (h : Cleared tables deps req 3 p.calls) (hlife : p.life = ⟨.admitted⟩)
    (hroute : Vetted tables req route) : Sound tables deps req ledger (health deps req ledger p route) := by
  unfold health
  dsimp only
  cases hhealth : deps.health route req.job with
  | error d =>
    refine h.rests (c := .health route req.job) rfl ?_ ⟨rfl, hroute⟩ rfl ?_
    · simp [PortCall.denied, hhealth, Except.toBool]
    · exact congrArg JobLifecycle.state hlife
  | ok healthy =>
    dsimp only
    rw [advancing_edge (by rw [Progress.noted, Progress.called, hlife]; rfl)]
    refine budgetPre_sound (h.called (c := .health route req.job) rfl ?_ ⟨rfl, hroute⟩) rfl hroute
    simp [PortCall.denied, hhealth, Except.toBool]

theorem egressStage_sound (h : Cleared tables deps req 2 p.calls) (hlife : p.life = ⟨.admitted⟩)
    (hresolved : Resolved req route) (hone : route.OnePort) :
    Sound tables deps req ledger (egressStage tables deps req ledger p route) := by
  unfold egressStage
  dsimp only
  cases hveto : vetoJobEgress tables req.job route req.egress req.workspace with
  | deny reason message audit =>
    refine h.rests (c := .egressVeto req.job route) rfl ?_ ⟨rfl, hresolved⟩ rfl ?_
    · simp [PortCall.denied, hveto, isAllow]
    · exact congrArg JobLifecycle.state hlife
  | allow cleared audit =>
    obtain ⟨rfl, hallow⟩ := vetoJobEgress_allow hveto
    refine health_sound (h.called (c := .egressVeto req.job cleared) rfl ?_ ⟨rfl, hresolved⟩) hlife ⟨hresolved, hone, hallow⟩
    simp [PortCall.denied, hveto, isAllow]

theorem routeStage_sound (h : Cleared tables deps req 1 p.calls) (hlife : p.life = ⟨.admitted⟩) :
    Sound tables deps req ledger (routeStage tables deps req ledger p) := by
  unfold routeStage
  dsimp only
  cases hresolve : resolveJobRoute tables req.job req.matrix req.localConfig with
  | deny reason message audit =>
    refine h.rests (c := .resolveRoute req.job) rfl ?_ rfl rfl ?_
    · simp [PortCall.denied, hresolve, isAllow]
    · exact congrArg JobLifecycle.state hlife
  | allow route audit =>
    obtain ⟨m, hmatrix, hworkspace, hroute, hone⟩ := resolveJobRoute_allow hresolve
    refine egressStage_sound (h.called (c := .resolveRoute req.job) rfl ?_ rfl) hlife ⟨m, hmatrix, hworkspace, hroute⟩ hone
    simp [PortCall.denied, hresolve, isAllow]

theorem admission_sound : Sound tables deps req ledger (admission tables deps req ledger ⟨newJobLifecycle .created, [], []⟩) := by
  unfold admission
  dsimp only
  cases hadmit : deps.admits req.job with
  | deny reason message audit =>
    refine Cleared.start.rests (c := .admits req.job) rfl ?_ rfl rfl ?_
    · simp [PortCall.denied, hadmit, isAllow]
    · rfl
  | allow value audit =>
    dsimp only
    rw [advancing_edge rfl]
    refine routeStage_sound (Cleared.start.called (c := .admits req.job) rfl ?_ rfl) rfl
    simp [PortCall.denied, hadmit, isAllow]

end

end sow.providers
