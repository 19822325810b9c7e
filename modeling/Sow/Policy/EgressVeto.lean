import Sow.Policy.Egress
import Sow.Policy.Slips

open sow.js sow.contracts

namespace sow.policy

variable (tables : CaseTables)

/-- The route names a runtime, or a local provider. -/
def NamesLocal (route : ProviderRoute) : Prop :=
  route.runtime.isSome = true ∨ ∃ provider ∈ route.provider, provider ∈ LOCAL_PROVIDERS

/-- The route claims to stay on this machine, under exactly one name. -/
def ClaimsLocal (route : ProviderRoute) : Prop :=
  route.egressClass = some .local ∧
    ((∃ provider, route.provider = some provider ∧ route.runtime = none ∧ trim provider ≠ [] ∧ provider ∈ LOCAL_PROVIDERS) ∨
      ∃ runtime, route.provider = none ∧ route.runtime = some runtime ∧ trim runtime ≠ [])

theorem ClaimsLocal.namesLocal {route : ProviderRoute} (h : ClaimsLocal route) : NamesLocal route := by
  obtain ⟨-, ⟨provider, hprovider, -, -, hlocal⟩ | ⟨runtime, -, hruntime, -⟩⟩ := h
  · exact .inr ⟨provider, hprovider, hlocal⟩
  · exact .inl (by simp [hruntime])

/-- Raw employer work without the acknowledgment, or a workspace of zero egress. -/
def Bound (job : AgentJob) (egress : EgressPolicy) (workspace : PolicyWorkspace) (matrix : ProviderMatrix) : Prop :=
  (workspace.type = some .employer_work ∧ job.carriesRawContent = some true ∧ egress.employerRawEgressAcknowledged = some false) ∨
    isZeroEgressOnlyWorkspace tables (some egress) (some matrix) = true

/-- Where the veto binds, it allows only what stays on this machine. -/
def KeepsLocal (job : AgentJob) (route : ProviderRoute) (egress : EgressPolicy) (workspace : PolicyWorkspace)
    (matrix : ProviderMatrix) : Prop :=
  Bound tables job egress workspace matrix →
    isAllow (egressVeto tables (some job) (some route) (some egress) (some workspace)) = true →
      NamesLocal route ∧ ∃ endpoint ∈ route.endpoint, OnThisMachine endpoint

theorem processorOfIdentity_eq_none {route : ProviderRoute} {identity : JsString} {hasRuntime : Bool} :
    processorOfIdentity tables route identity hasRuntime = none ↔
      trim identity ≠ [] ∧ route.egressClass = some .local ∧ (hasRuntime = true ∨ identity ∈ LOCAL_PROVIDERS) ∧
        ∃ endpoint ∈ route.endpoint, isLoopbackEndpoint tables endpoint = true := by
  rcases route with ⟨provider, runtime, model, _ | endpoint, egressClass⟩
  · by_cases hblank : trim identity = [] <;> simp [processorOfIdentity, hblank]
  · by_cases hblank : trim identity = []
    · simp [processorOfIdentity, hblank]
    · simp [processorOfIdentity, hblank, and_comm, and_left_comm]

/-- A route has no processor when it claims to be local and its endpoint is taken for local. -/
theorem processorOfRoute_eq_none {route : ProviderRoute} :
    processorOfRoute tables (some route) = none ↔
      ClaimsLocal route ∧ ∃ endpoint ∈ route.endpoint, isLoopbackEndpoint tables endpoint = true := by
  unfold ClaimsLocal
  rcases route with ⟨_ | provider, _ | runtime, model, endpoint, egressClass⟩
  · simp [processorOfRoute]
  · simp [processorOfRoute, processorOfIdentity_eq_none, and_assoc, and_left_comm]
  · simp [processorOfRoute, processorOfIdentity_eq_none, and_assoc, and_left_comm]
  · simp [processorOfRoute]

/-- What the guard has read. -/
structure ReadsInput (job : AgentJob) (route : ProviderRoute) (egress : EgressPolicy) (workspace : PolicyWorkspace)
    (i : EgressInput) : Prop where
  route : i.route = route
  allowed : egress.allowedProcessors = some i.allowedProcessors
  acknowledged : egress.employerRawEgressAcknowledged = some i.acknowledged
  type : workspace.type = some i.workspaceType
  raw : job.carriesRawContent = some i.carriesRawContent

theorem readsInput {job : AgentJob} {route : ProviderRoute} {egress : EgressPolicy} {workspace : PolicyWorkspace}
    {i : EgressInput} (h : readInput (some job) (some route) (some egress) (some workspace) = some i) :
    ReadsInput job route egress workspace i := by
  simp only [readInput, Option.bind_eq_bind, Option.bind_some, Option.bind_eq_some_iff, Option.pure_def,
    Option.some.injEq] at h
  obtain ⟨_, _, _, _, allowed, hallowed, _, _, acknowledged, hacknowledged, type, htype, raw, hraw, rfl⟩ := h
  exact ⟨rfl, hallowed, hacknowledged, htype, hraw⟩

theorem allowedProcessors_of_zeroEgress {egress : EgressPolicy} {matrix : ProviderMatrix}
    (h : isZeroEgressOnlyWorkspace tables (some egress) (some matrix) = true) : egress.allowedProcessors = some [] := by
  unfold isZeroEgressOnlyWorkspace hasNoApprovedEgressDestination isEmptyProcessorList at h
  simp only [Bool.and_eq_true, decide_eq_true_eq] at h
  exact h.2.1

/-- Where the veto binds, it allows exactly the well-formed routes without a processor. -/
theorem egressVeto_bound {job : AgentJob} {route : ProviderRoute} {egress : EgressPolicy} {workspace : PolicyWorkspace}
    {matrix : ProviderMatrix} (h : Bound tables job egress workspace matrix) :
    isAllow (egressVeto tables (some job) (some route) (some egress) (some workspace)) = true ↔
      (readInput (some job) (some route) (some egress) (some workspace)).isSome = true ∧
        processorOfRoute tables (some route) = none := by
  unfold egressVeto
  cases hread : readInput (some job) (some route) (some egress) (some workspace) with
  | none => simp [sow.policy.egress.deny, isAllow]
  | some i =>
    have hi := readsInput hread
    simp only [hi.route, Option.isSome_some, true_and]
    cases hproc : processorOfRoute tables (some route) with
    | none => simp [sow.policy.egress.allow, isAllow]
    | some proc =>
      simp only [reduceCtorEq, iff_false, Bool.not_eq_true]
      rcases h with ⟨htype, hraw, hacknowledged⟩ | hzero
      · have hunacked : (decide (i.workspaceType = .employer_work) && decide (i.carriesRawContent = true) &&
            decide (i.acknowledged = false)) = true := by
          rw [hi.type] at htype
          rw [hi.raw] at hraw
          rw [hi.acknowledged] at hacknowledged
          simp [Option.some.inj htype, Option.some.inj hraw, Option.some.inj hacknowledged]
        rw [if_pos hunacked]
        rfl
      · have hempty : i.allowedProcessors = [] :=
          Option.some.inj (hi.allowed.symm.trans (allowedProcessors_of_zeroEgress tables hzero))
        rw [hempty]
        split
        · rfl
        · split
          · rfl
          · rw [if_pos (by simp)]
            rfl

/-- The veto keeps what it binds on this machine, except for the local routes whose endpoints
    slip through. -/
theorem egressVeto_keepsLocal_iff (job : AgentJob) (route : ProviderRoute) (egress : EgressPolicy)
    (workspace : PolicyWorkspace) (matrix : ProviderMatrix) :
    KeepsLocal tables job route egress workspace matrix ↔
      (Bound tables job egress workspace matrix →
        (readInput (some job) (some route) (some egress) (some workspace)).isSome = true → ClaimsLocal route →
          ∀ endpoint ∈ route.endpoint, ¬ Slips (trim endpoint)) := by
  refine forall_congr' fun hbound => ?_
  rw [egressVeto_bound tables hbound, processorOfRoute_eq_none]
  constructor
  · rintro hkeeps hread hclaims endpoint hendpoint hslips
    obtain ⟨hloop, hremote⟩ := (slips_iff tables endpoint).mp hslips
    obtain ⟨-, local', hlocal', hlocal⟩ := hkeeps ⟨hread, hclaims, endpoint, hendpoint, hloop⟩
    obtain rfl := Option.some.inj (hendpoint.symm.trans hlocal')
    exact hremote hlocal
  · rintro hslips ⟨hread, hclaims, endpoint, hendpoint, hloop⟩
    refine ⟨hclaims.namesLocal, endpoint, hendpoint, ?_⟩
    by_contra hremote
    exact hslips hread hclaims endpoint hendpoint ((slips_iff tables endpoint).mpr ⟨hloop, hremote⟩)

section share

def shareJob : AgentJob := ⟨str "job-1", str "work", some true⟩

/-- A file form that names a share of another machine. -/
def shareRoute : ProviderRoute :=
  ⟨some (str "ollama"), none, str "llama", some (str "file:\\\\host.example\\share"), some .local⟩

def sharePolicy : EgressPolicy := ⟨str "work", some [], some [], some false⟩

def shareWorkspace : PolicyWorkspace := ⟨some .employer_work, .employer⟩

def shareMatrix : ProviderMatrix := ⟨some [], some [], some false⟩

theorem egressVeto_allows_share :
    ¬ ∀ (tables : CaseTables) (job : AgentJob) (route : ProviderRoute) (egress : EgressPolicy)
      (workspace : PolicyWorkspace) (matrix : ProviderMatrix), KeepsLocal tables job route egress workspace matrix := by
  intro h
  have hkeeps := (egressVeto_keepsLocal_iff asciiTables shareJob shareRoute sharePolicy shareWorkspace shareMatrix).mp
    (h asciiTables shareJob shareRoute sharePolicy shareWorkspace shareMatrix)
  refine hkeeps (.inl ⟨rfl, rfl, rfl⟩) rfl ⟨rfl, .inl ⟨str "ollama", rfl, rfl, by decide, by decide⟩⟩
    (str "file:\\\\host.example\\share") rfl ?_
  have hremote : ¬ LocalAuthority (str "host.example") := by
    intro hlocal
    generalize hs : str "host.example" = s at hlocal
    cases hlocal with
    | host hh =>
      cases hh with
      | localhost hh => exact absurd (hs ▸ hh) (by decide)
      | ipv6 => exact absurd hs (by decide)
      | ipv6Long => exact absurd hs (by decide)
      | ipv4 => exact absurd (List.cons.inj hs).1 (by decide)
    | hostPort =>
      have hcolon : unit ':' ∈ str "host.example" := by
        rw [hs]
        simp
      exact absurd hcolon (by decide)
    | bracketed => exact absurd (List.cons.inj hs).1 (by decide)
    | bracketedPort => exact absurd (List.cons.inj hs).1 (by decide)
  exact .form (k := str "file:") (r := str "\\\\host.example\\share") (u := str "host.example/share") (by decide) (by decide)
    (by decide) (by decide) hremote

end share

end sow.policy
