import Sow.Contracts.Models
import Sow.Js.Map
import Sow.Js.Sort
import Sow.Policy.Visibility

open sow.js sow.contracts sow.policy

namespace sow.knowledge.gcl

/-- A recorded, directional link. -/
structure CrossWorkspaceLink where
  fromWorkspaceId : JsString
  toWorkspaceId : JsString
  unlockedVisibility : VisibilityLevel
  approvalRef : JsString
  recordedAt : JsString
  expiresAt : Option JsString
  deriving DecidableEq

/-- The input of a record, with the visibility as it arrives and an approval that may be missing. -/
structure RecordLinkInput where
  fromWorkspaceId : JsString
  toWorkspaceId : JsString
  unlockedVisibility : JsString
  approval : Option Approval
  recordedAt : JsString
  deriving DecidableEq

inductive RecordLinkError where
  | malformed_endpoints (message : JsString)
  | invalid_visibility (message : JsString)
  | approval_not_recorded (message : JsString)
  | approval_not_approved (status : ApprovalStatus) (message : JsString)
  | approval_expired (expiresAt : JsString) (message : JsString)
  deriving DecidableEq

inductive RevokeLinkError where
  | malformed_endpoints (message : JsString)
  deriving DecidableEq

structure RawReadRequest where
  fromWorkspaceId : JsString
  toWorkspaceId : JsString
  «at» : Option JsString
  deriving DecidableEq

structure RawReadAuthorization where
  permitted : Bool
  unlockedVisibility : Option VisibilityLevel
  deriving DecidableEq

inductive CrossWorkspaceRawDenial where
  | direct_cross_workspace_raw_denied (message : JsString)
  | malformed_policy_input (message : JsString)
  deriving DecidableEq

/-- A timed link is active before its expiry, and only where the instant is known. -/
def linkActiveAt (link : CrossWorkspaceLink) (at_ : Option JsString) : Bool :=
  match link.expiresAt with
  | none => true
  | some expiresAt => at_.any fun instant => instant ≠ [] ∧ LtUnits instant expiresAt

/-- The key of an ordered pair. -/
def linkKey (from_ to_ : JsString) : JsString := from_ ++ [0] ++ to_

def endpointsValid (from_ to_ : JsString) : Bool := from_ ≠ [] ∧ to_ ≠ [] ∧ from_ ≠ to_

/-- The links of the identity map. -/
abbrev CrossWorkspaceLinkMap := Map JsString CrossWorkspaceLink

/-- The expiry of an approval that has one. -/
def approvalExpiry (approval : Approval) : Option JsString := approval.expiresAt.filter (· ≠ [])

/-- The link that a record stores, or why it stores none. -/
def linkOfInput (input : RecordLinkInput) : Except RecordLinkError CrossWorkspaceLink :=
  if endpointsValid input.fromWorkspaceId input.toWorkspaceId = false then
    .error (.malformed_endpoints (str "a cross-workspace link needs two distinct non-empty workspace ids"))
  else
    match isVisibilityLevel input.unlockedVisibility with
    | none => .error (.invalid_visibility (str "unlockedVisibility is not a valid VisibilityLevel: " ++ input.unlockedVisibility))
    | some unlockedVisibility =>
      match input.approval.filter (·.id ≠ []) with
      | none => .error (.approval_not_recorded (str "cross-workspace link requires a recorded Approval ref"))
      | some approval =>
        if approval.status ≠ .approved then
          .error (.approval_not_approved approval.status
            (str "cross-workspace link approval must be 'approved' (got '" ++ approval.status.text ++ str "')"))
        else
          match (approvalExpiry approval).filter fun expiresAt => LeUnits expiresAt input.recordedAt with
          | some expiresAt =>
            .error (.approval_expired expiresAt
              (str "cross-workspace link approval expired at " ++ expiresAt ++ str " (recorded " ++ input.recordedAt ++ str ")"))
          | none => .ok {
              fromWorkspaceId := input.fromWorkspaceId
              toWorkspaceId := input.toWorkspaceId
              unlockedVisibility := unlockedVisibility
              approvalRef := approval.id
              recordedAt := input.recordedAt
              expiresAt := approvalExpiry approval }

/-- What a record has to bring. -/
theorem linkOfInput_eq_ok_iff {input : RecordLinkInput} {link : CrossWorkspaceLink} :
    linkOfInput input = .ok link ↔
      endpointsValid input.fromWorkspaceId input.toWorkspaceId = true ∧
        ∃ level approval, isVisibilityLevel input.unlockedVisibility = some level ∧ input.approval = some approval ∧
          approval.id ≠ [] ∧ approval.status = .approved ∧
          (∀ expiresAt, approvalExpiry approval = some expiresAt → ¬ LeUnits expiresAt input.recordedAt) ∧
          link = ⟨input.fromWorkspaceId, input.toWorkspaceId, level, approval.id, input.recordedAt, approvalExpiry approval⟩ := by
  unfold linkOfInput
  cases hends : endpointsValid input.fromWorkspaceId input.toWorkspaceId with
  | false => simp
  | true =>
    cases hlevel : isVisibilityLevel input.unlockedVisibility with
    | none => simp
    | some level =>
      cases happroval : input.approval with
      | none => simp
      | some approval =>
        by_cases hid : approval.id = []
        · simp [Option.filter, hid]
        · by_cases hstatus : approval.status = .approved
          · cases hexpiry : approvalExpiry approval with
            | none => simp [Option.filter, hid, hstatus, hexpiry, eq_comm]
            | some expiresAt =>
              by_cases hle : LeUnits expiresAt input.recordedAt
              · simp [Option.filter, hid, hstatus, hexpiry, hle]
              · simp [Option.filter, hid, hstatus, hexpiry, hle, eq_comm]
          · simp [Option.filter, hid, hstatus]

namespace CrossWorkspaceLinkMap

def recordLink (links : CrossWorkspaceLinkMap) (input : RecordLinkInput) : Except RecordLinkError CrossWorkspaceLink × CrossWorkspaceLinkMap :=
  match linkOfInput input with
  | .error e => (.error e, links)
  | .ok link => (.ok link, links.set (linkKey input.fromWorkspaceId input.toWorkspaceId) link)

def getLink (links : CrossWorkspaceLinkMap) (from_ to_ : JsString) : Option CrossWorkspaceLink := links.get (linkKey from_ to_)

/-- Revoke a link, and say whether there was one. -/
def revokeLink (links : CrossWorkspaceLinkMap) (from_ to_ : JsString) : Except RevokeLinkError Bool × CrossWorkspaceLinkMap :=
  if endpointsValid from_ to_ then
    (.ok (links.has (linkKey from_ to_)), links.delete (linkKey from_ to_))
  else (.error (.malformed_endpoints (str "revoke needs two distinct non-empty workspace ids")), links)

end CrossWorkspaceLinkMap

def denialToCrossWorkspaceRawDenial (reason : DenialReason) (message : JsString) : CrossWorkspaceRawDenial :=
  match reason with
  | .DIRECT_CROSS_WORKSPACE_RAW_RETRIEVAL => .direct_cross_workspace_raw_denied message
  | .MALFORMED_POLICY_INPUT
  | .EMPLOYER_RAW_EGRESS_UNACKNOWLEDGED
  | .UNTRUSTED_CONTENT_MUTATING_TOOL
  | .WRITE_ADAPTER_OUTSIDE_GATEWAY
  | .PROVIDER_NOT_ALLOWED
  | .NO_ROUTE_FOR_CAPABILITY
  | .PROCESSOR_NOT_ALLOWED
  | .LOCAL_ENDPOINT_NOT_CONFIGURED
  | .NON_LOOPBACK_LOCAL_TREATED_AS_EGRESS
  | .VISIBILITY_EXCEEDS_SOURCE
  | .VISIBILITY_TYPE_MISMATCH
  | .APPROVAL_REQUIRED
  | .AUTH_TOKEN_INVALID
  | .ORIGIN_NOT_ALLOWED => .malformed_policy_input message

/-- The one read path across workspaces. -/
def guardCrossWorkspaceRawRead (req : CrossWorkspaceRawRequest) : Except CrossWorkspaceRawDenial RawPermit :=
  match denyDirectCrossWorkspaceRaw req with
  | .allow value _ => .ok value
  | .deny reason message _ => .error (denialToCrossWorkspaceRawDenial reason message)

namespace CrossWorkspaceLinkMap

/-- The link that a request may ride. -/
def activeLink (links : CrossWorkspaceLinkMap) (req : RawReadRequest) : Option CrossWorkspaceLink :=
  (links.getLink req.fromWorkspaceId req.toWorkspaceId).filter (linkActiveAt · req.at)

def authorizeCrossWorkspaceRawRead (links : CrossWorkspaceLinkMap) (req : RawReadRequest) :
    Except CrossWorkspaceRawDenial RawReadAuthorization := do
  let link := links.activeLink req
  let _ ← guardCrossWorkspaceRawRead {
    fromWorkspaceId := req.fromWorkspaceId
    toWorkspaceId := req.toWorkspaceId
    approvedLink := link.map fun link => ⟨true, link.approvalRef⟩ }
  return ⟨true, link.map (·.unlockedVisibility)⟩

/-- Between two workspaces, a recorded and active link decides. -/
theorem authorize_ok_iff {links : CrossWorkspaceLinkMap} {req : RawReadRequest} (hends : endpointsValid req.fromWorkspaceId req.toWorkspaceId = true) :
    (∃ authorization, links.authorizeCrossWorkspaceRawRead req = .ok authorization ∧ authorization.permitted = true) ↔
      ∃ link, links.activeLink req = some link ∧ link.approvalRef ≠ [] := by
  unfold endpointsValid at hends
  rw [decide_eq_true_eq] at hends
  obtain ⟨hfrom, hto, hne⟩ := hends
  unfold authorizeCrossWorkspaceRawRead guardCrossWorkspaceRawRead
  have hallow (link : Option ApprovedLink) :
      isAllow (denyDirectCrossWorkspaceRaw ⟨req.fromWorkspaceId, req.toWorkspaceId, link⟩) = link.any ApprovedLink.isValid :=
    isAllow_denyDirectCrossWorkspaceRaw hfrom hto hne
  cases hlink : links.activeLink req with
  | none =>
    cases hdecision : denyDirectCrossWorkspaceRaw ⟨req.fromWorkspaceId, req.toWorkspaceId, none⟩ with
    | allow value audit => simpa [hdecision, isAllow] using hallow none
    | deny reason message audit => simp [hdecision, bind, Except.bind]
  | some link =>
    have hvalid := hallow (some ⟨true, link.approvalRef⟩)
    cases hdecision : denyDirectCrossWorkspaceRaw ⟨req.fromWorkspaceId, req.toWorkspaceId, some ⟨true, link.approvalRef⟩⟩ with
    | allow value audit =>
      rw [hdecision] at hvalid
      have hne : link.approvalRef ≠ [] := by simpa [isAllow, ApprovedLink.isValid] using hvalid
      simp [hdecision, hne, bind, Except.bind, pure, Except.pure]
    | deny reason message audit =>
      rw [hdecision] at hvalid
      have heq : link.approvalRef = [] := by simpa [isAllow, ApprovedLink.isValid] using hvalid
      refine iff_of_false (by simp [hdecision, bind, Except.bind]) ?_
      rintro ⟨other, hother, hne⟩
      cases hother
      exact hne heq

end CrossWorkspaceLinkMap

end sow.knowledge.gcl
