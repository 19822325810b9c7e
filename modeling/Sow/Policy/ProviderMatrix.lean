import Sow.Js.Map
import Sow.Policy.Egress

open sow.js sow.contracts

namespace sow.contracts

/-- A route names one of the two ports, never both. -/
structure ProviderRoute.OnePort (r : ProviderRoute) : Prop where
  named : r.provider.isSome = true ∨ r.runtime.isSome = true
  exclusive : r.provider = none ∨ r.runtime = none

/-- The matrix of one workspace, every entry of which is a route. -/
structure WorkspaceMatrix extends ProviderMatrix where
  workspaceId : JsString
  routes : ∀ record ∈ capabilityDefaults, ∀ entry ∈ record, ∃ r, entry.2 = some r ∧ r.OnePort

end sow.contracts

namespace sow.policy

structure LocalProviderConfig where
  allowedLocalEndpoints : List JsString

def ROUTE_ACTOR : JsString := str "policy:provider-matrix"
def ROUTE_PAYLOAD_MARKER : JsString := str "policy:provider-route-decision"

/-- `capabilityDefaults[capability]`, where the record has that key itself. -/
def capabilityRoute (matrix : ProviderMatrix) (capability : JsString) : Option ProviderRoute :=
  match matrix.capabilityDefaults with
  | none => none
  | some record => ((Map.ofList record).get capability).join

def routeDenied (reason : DenialReason) (message : JsString) (refs : List JsString) : PolicyDecision ProviderRoute :=
  .deny reason message {
    actor := ROUTE_ACTOR
    event := str "provider.route.denied"
    refs := refs
    payloadHash := ROUTE_PAYLOAD_MARKER
    beforeSummary := str "provider route unresolved"
    afterSummary := message
    denialCode := some reason
    healthSignalClass := none }

/-- The route of a capability: no other entry, and no route of another matrix, stands in for
    a missing one. -/
def resolveRoute (tables : CaseTables) (matrix : WorkspaceMatrix) (capability : JsString)
    (localConfig : Option LocalProviderConfig) : PolicyDecision ProviderRoute :=
  let capRef := str "ref:capability:" ++ capability
  if matrix.capabilityDefaults = none then
    routeDenied .MALFORMED_POLICY_INPUT (str "provider matrix is missing or has no capabilityDefaults map")
      [str "ref:workspace:MISSING", capRef]
  else
    let baseRefs := [str "ref:workspace:" ++ matrix.workspaceId, capRef]
    match capabilityRoute matrix.toProviderMatrix capability with
    | none =>
      routeDenied .NO_ROUTE_FOR_CAPABILITY (str "no route configured for this capability (no implicit fallback)")
        baseRefs
    | some route =>
      let routeRefs := baseRefs ++ [endpointHostRef tables route.endpoint,
        str "ref:egress-class:" ++ (route.egressClass.elim (str "undefined") EgressClass.text)]
      if route.provider.isSome && route.provider ∉ matrix.allowedProviders.getD [] then
        routeDenied .PROVIDER_NOT_ALLOWED (str "resolved route names a provider outside allowedProviders") routeRefs
      else if route.egressClass = some .local &&
          localConfig.any (fun config => !route.endpoint.any (· ∈ config.allowedLocalEndpoints)) then
        routeDenied .LOCAL_ENDPOINT_NOT_CONFIGURED
          (str "local route endpoint is not in the explicit local-provider config") routeRefs
      else
        .allow route {
          actor := ROUTE_ACTOR
          event := str "provider.route.resolved"
          refs := routeRefs
          payloadHash := ROUTE_PAYLOAD_MARKER
          beforeSummary := str "provider route unresolved"
          afterSummary := str "route resolved from capabilityDefaults"
          denialCode := none
          healthSignalClass := none }

/-- What is resolved is the entry of the capability, on a provider the matrix allows. -/
theorem resolveRoute_allow {tables : CaseTables} {matrix : WorkspaceMatrix} {capability : JsString}
    {localConfig : Option LocalProviderConfig} {route : ProviderRoute} {audit : AuditSignal}
    (h : resolveRoute tables matrix capability localConfig = .allow route audit) :
    capabilityRoute matrix.toProviderMatrix capability = some route ∧
      (route.provider.isSome = true → route.provider ∈ matrix.allowedProviders.getD []) := by
  unfold resolveRoute at h
  dsimp only at h
  split at h
  · cases h
  · cases hroute : capabilityRoute matrix.toProviderMatrix capability with
    | none =>
      rw [hroute] at h
      cases h
    | some r =>
      rw [hroute] at h
      dsimp only at h
      split at h
      · cases h
      · next hallowed =>
        split at h
        · cases h
        · injection h with hr
          rw [← hr]
          refine ⟨rfl, fun hsome => ?_⟩
          simpa [hsome] using hallowed

/-- An entry of a matrix names one port. -/
theorem capabilityRoute_onePort {matrix : WorkspaceMatrix} {capability : JsString} {route : ProviderRoute}
    (h : capabilityRoute matrix.toProviderMatrix capability = some route) : route.OnePort := by
  unfold capabilityRoute at h
  cases hrecord : matrix.capabilityDefaults with
  | none =>
    rw [hrecord] at h
    cases h
  | some record =>
    rw [hrecord] at h
    obtain hget := Option.join_eq_some_iff.mp h
    obtain ⟨r, hr, hone⟩ := matrix.routes record hrecord _ (Map.mem_of_get_ofList hget)
    rw [Option.some.inj hr]
    exact hone

end sow.policy
