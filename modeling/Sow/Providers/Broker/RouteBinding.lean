import Sow.Domain.State.Machines
import Sow.Policy.ProviderMatrix

open sow.js sow.contracts sow.policy

namespace sow.providers

/-- What the broker reads of a job; `Rest` is what it hands on unread. -/
structure BrokerJob (Rest : Type) extends AgentJob where
  capability : JsString
  idempotencyKey : JsString
  providerRoute : ProviderRoute
  rest : Rest

variable {Rest : Type}

def ROUTE_ACTOR : JsString := str "broker:route-resolution"
def ROUTE_MARKER : JsString := str "broker:route-binding-decision"
def EGRESS_VETO_ACTOR : JsString := str "broker:egress-veto"
def EGRESS_VETO_MARKER : JsString := str "broker:egress-veto-decision"

section

variable (tables : CaseTables) (job : BrokerJob Rest)

/-- The policy's resolution, for a matrix of the job's own workspace only. -/
def resolveJobRoute (matrix : Option WorkspaceMatrix) (localConfig : Option LocalProviderConfig) :
    PolicyDecision ProviderRoute :=
  match matrix.filter (·.workspaceId = job.workspaceId) with
  | some matrix => resolveRoute tables matrix job.capability localConfig
  | none =>
    .deny .MALFORMED_POLICY_INPUT (str "provider matrix is missing or does not belong to the job's workspace") {
      actor := ROUTE_ACTOR
      event := str "provider.route.workspace_mismatch"
      refs := [str "ref:job:" ++ job.id, str "ref:workspace:" ++ job.workspaceId,
        str "ref:matrix-workspace:" ++ (matrix.elim (str "MISSING") (·.workspaceId))]
      payloadHash := ROUTE_MARKER
      beforeSummary := str "provider route unresolved"
      afterSummary := str "provider matrix is missing or belongs to a different workspace than the job"
      denialCode := some .MALFORMED_POLICY_INPUT
      healthSignalClass := none }

def sameEgressTarget (a b : ProviderRoute) : Bool :=
  a.provider = b.provider && a.runtime = b.runtime && a.endpoint = b.endpoint && a.egressClass = b.egressClass

/-- Pass or deny: an allowed route is the one that was handed in. -/
def vetoJobEgress (route : ProviderRoute) (egress : EgressPolicy) (workspace : PolicyWorkspace) :
    PolicyDecision ProviderRoute :=
  match egressVeto tables (some job.toAgentJob) (some route) (some egress) (some workspace) with
  | .deny reason message audit => .deny reason message audit
  | .allow value audit =>
    if sameEgressTarget value route then .allow route audit
    else
      .deny .MALFORMED_POLICY_INPUT
        (str "egress veto returned a route it was not handed (widening/substitution); the broker treats the veto as pass-or-deny only") {
        actor := EGRESS_VETO_ACTOR
        event := str "egress.veto.route_substituted"
        refs := [str "ref:job:" ++ job.id, str "ref:workspace:" ++ job.workspaceId]
        payloadHash := EGRESS_VETO_MARKER
        beforeSummary := str "egress veto in progress"
        afterSummary := str "egress veto returned a widened/substituted route; refusing (broker fails closed)"
        denialCode := some .MALFORMED_POLICY_INPUT
        healthSignalClass := none }

end

/-- `p:` or `r:` before the port that a route names. -/
def routeKey (route : ProviderRoute) : JsString :=
  match route.provider, route.runtime with
  | some provider, _ => str "p:" ++ provider
  | none, some runtime => str "r:" ++ runtime
  | none, none => str "?"

def routesEqual (a b : ProviderRoute) : Bool :=
  routeKey a = routeKey b && a.model = b.model && a.endpoint = b.endpoint && a.egressClass = b.egressClass

/-- The job as every stage behind the selection sees it. -/
def effectiveJob (job : BrokerJob Rest) (route : ProviderRoute) : BrokerJob Rest :=
  if routesEqual job.providerRoute route then job else { job with providerRoute := route }

/-- The matrix binds a job only in the workspace of both. -/
theorem resolveJobRoute_allow {tables : CaseTables} {job : BrokerJob Rest} {matrix : Option WorkspaceMatrix}
    {localConfig : Option LocalProviderConfig} {route : ProviderRoute} {audit : AuditSignal}
    (h : resolveJobRoute tables job matrix localConfig = .allow route audit) :
    ∃ m, matrix = some m ∧ m.workspaceId = job.workspaceId ∧
      capabilityRoute m.toProviderMatrix job.capability = some route ∧ route.OnePort := by
  unfold resolveJobRoute at h
  cases hm : matrix.filter (·.workspaceId = job.workspaceId) with
  | none =>
    rw [hm] at h
    cases h
  | some m =>
    rw [hm] at h
    have hroute := (resolveRoute_allow h).1
    obtain ⟨hmatrix, hworkspace⟩ := Option.filter_eq_some_iff.mp hm
    exact ⟨m, hmatrix, of_decide_eq_true hworkspace, hroute, capabilityRoute_onePort hroute⟩

/-- A cleared route is the one the policy's veto was asked about. -/
theorem vetoJobEgress_allow {tables : CaseTables} {job : BrokerJob Rest} {route cleared : ProviderRoute}
    {egress : EgressPolicy} {workspace : PolicyWorkspace} {audit : AuditSignal}
    (h : vetoJobEgress tables job route egress workspace = .allow cleared audit) :
    cleared = route ∧
      isAllow (egressVeto tables (some job.toAgentJob) (some route) (some egress) (some workspace)) = true := by
  unfold vetoJobEgress at h
  cases hveto : egressVeto tables (some job.toAgentJob) (some route) (some egress) (some workspace) with
  | deny reason message audit =>
    rw [hveto] at h
    cases h
  | allow value audit =>
    rw [hveto] at h
    dsimp only at h
    split at h
    · injection h with hroute
      exact ⟨hroute.symm, rfl⟩
    · cases h

/-- Two routes of one port each agree once their keys and targets do. -/
theorem routesEqual_eq {a b : ProviderRoute} (ha : a.OnePort) (hb : b.OnePort) (h : routesEqual a b = true) : a = b := by
  unfold routesEqual at h
  simp only [Bool.and_eq_true, decide_eq_true_eq] at h
  obtain ⟨⟨⟨hkey, hmodel⟩, hendpoint⟩, hclass⟩ := h
  obtain ⟨ap, ar, am, ae, ac⟩ := a
  obtain ⟨bp, br, bm, be, bc⟩ := b
  obtain ⟨hanamed, haport⟩ := ha
  obtain ⟨hbnamed, hbport⟩ := hb
  unfold routeKey at hkey
  dsimp only at hkey hmodel hendpoint hclass hanamed haport hbnamed hbport
  subst hmodel hendpoint hclass
  have hletter : ∀ {s t : JsString}, str "p:" ++ s ≠ str "r:" ++ t := fun h => absurd (List.cons.inj h).1 (by decide)
  cases ap with
  | some p =>
    cases bp with
    | some q =>
      rw [List.append_cancel_left_eq] at hkey
      simp_all
    | none =>
      cases br with
      | some s => exact absurd hkey hletter
      | none => simp at hbnamed
  | none =>
    cases ar with
    | none => simp at hanamed
    | some r =>
      cases bp with
      | some q => exact absurd hkey.symm hletter
      | none =>
        cases br with
        | none => simp at hbnamed
        | some s =>
          have hrs : r = s := List.append_cancel_left hkey
          rw [hrs]

theorem effectiveJob_eq {job : BrokerJob Rest} {route : ProviderRoute} (hjob : job.providerRoute.OnePort)
    (hroute : route.OnePort) : effectiveJob job route = { job with providerRoute := route } := by
  unfold effectiveJob
  split
  · next hequal =>
    rw [← routesEqual_eq hjob hroute hequal]
  · rfl

end sow.providers
