import Sow.Contracts.GclProjection
import Sow.Policy.Egress

open sow.js sow.contracts

namespace sow.policy

namespace visibility

def VISIBILITY_PAYLOAD_MARKER : JsString := str "policy:visibility-decision"
def CROSS_WS_PAYLOAD_MARKER : JsString := str "policy:cross-workspace-raw-decision"
def POLICY_DENIAL_HEALTH_CLASS : JsString := str "policy_denial"

end visibility

open visibility

def visibilityRank : VisibilityLevel → Nat
  | .isolated => 0
  | .coordination => 1
  | .sanitized => 2
  | .full => 3

def isWithinDefault (projectionLevel workspaceDefault : VisibilityLevel) : Bool :=
  visibilityRank projectionLevel ≤ visibilityRank workspaceDefault

/-- The own data properties of the taxonomy; the value of one is nothing where it is no array. -/
abbrev ProjectionTypeVisibilityTaxonomy : Type := JsString → Option (Option (List VisibilityLevel))

/-- A type that the taxonomy does not have is of any level. -/
def isVisibilityConsistentWithProjectionType (projectionType : JsString) (level : VisibilityLevel) (taxonomy : ProjectionTypeVisibilityTaxonomy) : Bool :=
  match taxonomy projectionType with
  | none => true
  | some permitted => permitted.any fun levels => levels.contains level

section projection

def denyProjection (reason : DenialReason) (refs : List JsString) (message afterSummary : JsString) : PolicyDecision GclProjection :=
  .deny reason message {
    actor := str "policy"
    event := str "visibility.projection.denied"
    refs := refs
    payloadHash := VISIBILITY_PAYLOAD_MARKER
    beforeSummary := str "projection visibility not validated"
    afterSummary := afterSummary
    denialCode := some reason
    healthSignalClass := none }

/-- The visibility of a projection that has its type, against its workspace. -/
def validateProjectionVisibility (projection : GclProjection) (sourceWorkspace : Workspace) (taxonomy : ProjectionTypeVisibilityTaxonomy) :
    PolicyDecision GclProjection :=
  let refs := [str "ref:workspace:" ++ (if projection.workspaceId = [] then str "MISSING"
      else if projection.workspaceId = sourceWorkspace.id then projection.workspaceId else str "UNVALIDATED"),
    str "ref:visibility:" ++ projection.visibilityLevel.text]
  if projection.workspaceId = [] then
    denyProjection .MALFORMED_POLICY_INPUT refs (str "projection omits workspaceId") (str "projection omits workspaceId")
  else if projection.workspaceId ≠ sourceWorkspace.id then
    denyProjection .MALFORMED_POLICY_INPUT refs (str "projection workspaceId does not match source workspace")
      (str "projection workspaceId does not match source workspace")
  else if !isWithinDefault projection.visibilityLevel sourceWorkspace.defaultVisibility then
    denyProjection .VISIBILITY_EXCEEDS_SOURCE refs (str "projection visibility level exceeds the workspace default")
      (str "projection level exceeds workspace default")
  else if !isVisibilityConsistentWithProjectionType projection.projectionType projection.visibilityLevel taxonomy then
    denyProjection .VISIBILITY_TYPE_MISMATCH refs (str "projection visibility level is not permitted for its projectionType")
      (str "projection level not permitted for its projectionType")
  else
    .allow projection {
      actor := str "policy"
      event := str "visibility.projection.allowed"
      refs := refs
      payloadHash := VISIBILITY_PAYLOAD_MARKER
      beforeSummary := str "projection visibility not validated"
      afterSummary := str "projection within workspace default visibility"
      denialCode := none
      healthSignalClass := none }

/-- A projection that is allowed is of its workspace, and of at most its level; it is passed on as it is. -/
theorem validateProjectionVisibility_allow {projection value : GclProjection} {sourceWorkspace : Workspace}
    {taxonomy : ProjectionTypeVisibilityTaxonomy} {audit : AuditSignal}
    (h : validateProjectionVisibility projection sourceWorkspace taxonomy = .allow value audit) :
    value = projection ∧ projection.workspaceId = sourceWorkspace.id ∧
      visibilityRank projection.visibilityLevel ≤ visibilityRank sourceWorkspace.defaultVisibility := by
  unfold validateProjectionVisibility denyProjection at h
  dsimp only at h
  split_ifs at h with hempty hother hlevel htype
  all_goals
    rw [Bool.not_eq_true', Bool.not_eq_false] at hlevel
    exact ⟨(PolicyDecision.allow.inj h).1.symm, not_not.mp hother, of_decide_eq_true hlevel⟩

end projection

/-- A recorded owner-approved link between workspaces. -/
structure ApprovedLink where
  level3 : Bool
  recordedApprovalRef : JsString
  deriving DecidableEq

structure CrossWorkspaceRawRequest where
  fromWorkspaceId : JsString
  toWorkspaceId : JsString
  approvedLink : Option ApprovedLink
  deriving DecidableEq

/-- The value of a permitted read. -/
structure RawPermit where
  permitted : Bool
  deriving DecidableEq

def ApprovedLink.isValid (link : ApprovedLink) : Bool := link.level3 && link.recordedApprovalRef ≠ []

/-- The ids as an audit may record them: one that is not of the id's shape is withheld. -/
def crossWorkspaceRefs (from_ to_ : JsString) : List JsString :=
  [str "ref:workspace:from:" ++ if isWorkspaceId from_ then from_ else str "UNVALIDATED",
    str "ref:workspace:to:" ++ if isWorkspaceId to_ then to_ else str "UNVALIDATED"]

/-- Raw content of another workspace is denied, unless a recorded link permits it. -/
def denyDirectCrossWorkspaceRaw (req : CrossWorkspaceRawRequest) : PolicyDecision RawPermit :=
  if req.fromWorkspaceId = [] ∨ req.toWorkspaceId = [] then
    .deny .MALFORMED_POLICY_INPUT (str "cross-workspace request omits a workspace id") {
      actor := str "policy"
      event := str "visibility.cross_workspace_raw.denied"
      refs := [str "ref:workspace:from:MISSING", str "ref:workspace:to:MISSING"]
      payloadHash := CROSS_WS_PAYLOAD_MARKER
      beforeSummary := str "cross-workspace raw retrieval not evaluated"
      afterSummary := str "cross-workspace request malformed"
      denialCode := some .MALFORMED_POLICY_INPUT
      healthSignalClass := none }
  else
    let refs := crossWorkspaceRefs req.fromWorkspaceId req.toWorkspaceId
    if req.fromWorkspaceId = req.toWorkspaceId then
      .allow ⟨true⟩ {
        actor := str "policy"
        event := str "visibility.cross_workspace_raw.same_workspace"
        refs := refs
        payloadHash := CROSS_WS_PAYLOAD_MARKER
        beforeSummary := str "cross-workspace raw retrieval not evaluated"
        afterSummary := str "same-workspace request — not a cross-workspace retrieval"
        denialCode := none
        healthSignalClass := none }
    else if req.approvedLink.any ApprovedLink.isValid then
      .allow ⟨true⟩ {
        actor := str "policy"
        event := str "visibility.cross_workspace_raw.permitted_via_link"
        refs := refs ++ [str "ref:approved-link:level3:recorded"]
        payloadHash := CROSS_WS_PAYLOAD_MARKER
        beforeSummary := str "cross-workspace raw retrieval not evaluated"
        afterSummary := str "cross-workspace raw retrieval permitted via recorded Level-3 link"
        denialCode := none
        healthSignalClass := none }
    else
      .deny .DIRECT_CROSS_WORKSPACE_RAW_RETRIEVAL
        (str "direct cross-workspace raw retrieval is denied absent a recorded Level-3 owner-approved link") {
        actor := str "policy"
        event := str "visibility.cross_workspace_raw.denied"
        refs := refs
        payloadHash := CROSS_WS_PAYLOAD_MARKER
        beforeSummary := str "cross-workspace raw retrieval not evaluated"
        afterSummary := str "direct cross-workspace raw retrieval denied (no recorded Level-3 link)"
        denialCode := some .DIRECT_CROSS_WORKSPACE_RAW_RETRIEVAL
        healthSignalClass := some POLICY_DENIAL_HEALTH_CLASS }

/-- Between two workspaces, the recorded link decides. -/
theorem isAllow_denyDirectCrossWorkspaceRaw {req : CrossWorkspaceRawRequest} (hfrom : req.fromWorkspaceId ≠ [])
    (hto : req.toWorkspaceId ≠ []) (hne : req.fromWorkspaceId ≠ req.toWorkspaceId) :
    isAllow (denyDirectCrossWorkspaceRaw req) = req.approvedLink.any ApprovedLink.isValid := by
  unfold denyDirectCrossWorkspaceRaw
  rw [if_neg (by simp [hfrom, hto])]
  simp only [if_neg hne]
  cases hlink : req.approvedLink.any ApprovedLink.isValid <;> simp [isAllow]

end sow.policy
