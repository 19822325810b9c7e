import Sow.Js.Json
import Sow.Js.Map
import Sow.Js.String

open sow.js

namespace sow.contracts

inductive ApprovalStatus where
  | pending
  | approved
  | edited
  | rejected
  | deferred
  | expired
  deriving DecidableEq

def ApprovalStatus.text : ApprovalStatus → JsString
  | .pending => str "pending"
  | .approved => str "approved"
  | .edited => str "edited"
  | .rejected => str "rejected"
  | .deferred => str "deferred"
  | .expired => str "expired"

inductive Channel where
  | mac
  | telegram
  deriving DecidableEq

inductive ApprovalSubjectKind where
  | external_action
  | semantic_mutation
  deriving DecidableEq

structure Approval where
  id : JsString
  actionRef : Option JsString
  planRef : Option JsString
  subjectKind : ApprovalSubjectKind
  workspaceId : JsString
  status : ApprovalStatus
  actor : JsString
  channel : Channel
  payloadHash : JsString
  snoozeUntil : Option JsString
  expiresAt : Option JsString
  deriving DecidableEq

inductive TargetSystem where
  | calendar
  | todoist
  | linear
  | asana
  | drive
  | github
  | telegram
  deriving DecidableEq

def TargetSystem.text : TargetSystem → JsString
  | .calendar => str "calendar"
  | .todoist => str "todoist"
  | .linear => str "linear"
  | .asana => str "asana"
  | .drive => str "drive"
  | .github => str "github"
  | .telegram => str "telegram"

/-- The proof that an external write committed. -/
structure WriteReceipt (Time : Type) where
  externalObjectId : JsString
  externalUrl : Option JsString
  recordedAt : Time
  rawRef : Option JsString
  deriving DecidableEq

structure ProposedAction (Payload : Type) where
  actionId : JsString
  targetSystem : TargetSystem
  canonicalObjectKey : JsString
  payload : Payload
  approvalPolicy : JsString
  idempotencyKey : JsString
  deriving DecidableEq

structure ExternalWriteEnvelope where
  actionId : JsString
  targetSystem : TargetSystem
  canonicalObjectKey : JsString
  idempotencyKey : JsString
  preconditions : List JsString
  payloadHash : JsString
  deriving DecidableEq

/-- The envelope targets the object that its action was approved for. -/
def envelopeMatchesAction {Payload : Type} (env : ExternalWriteEnvelope) (action : ProposedAction Payload) : Bool :=
  env.actionId = action.actionId &&
    env.targetSystem = action.targetSystem &&
    env.canonicalObjectKey = action.canonicalObjectKey &&
    env.idempotencyKey = action.idempotencyKey

structure AuditRecord (Time : Type) where
  actor : JsString
  event : JsString
  refs : List JsString
  payloadHash : JsString
  beforeSummary : JsString
  afterSummary : JsString
  occurredAt : Time
  recordedAt : Time
  deriving DecidableEq

inductive FailureVariantKind where
  | validation_rejected
  | provider_failed
  | budget_exceeded
  | connector_unreachable
  | write_conflict
  | schema_rejected
  | degraded_unavailable
  deriving DecidableEq

/-- The failure of one operation; `cause` is a stable code, never a raw error. -/
structure FailureVariant where
  kind : FailureVariantKind
  message : JsString
  retryable : Bool
  cause : Option JsString
  deriving DecidableEq

/-- A failure with a cause, retryable when said so. -/
def failure (kind : FailureVariantKind) (message : JsString) (cause : Option JsString) (retryable : Bool) : FailureVariant :=
  ⟨kind, message, retryable, cause⟩

inductive HealthState where
  | «open»
  | acknowledged
  | resolved
  deriving DecidableEq

inductive FailureClass where
  | connector_unreachable
  | write_through_failed
  | budget_breach
  | missed_or_late_schedule
  | schema_rejection
  | worker_down
  | parity_defect
  | conflict_review
  | sync_lagging
  | rebuild_divergence
  | security_violation
  | policy_denial
  | egress_denied
  | isolation_breach
  | db_unavailable
  | provider_routing_unavailable
  | outbox_blocked
  | write_through_blocked
  deriving DecidableEq

structure HealthItem (Time : Type) where
  id : JsString
  failureClass : FailureClass
  severity : JsString
  message : JsString
  auditRef : JsString
  openedAt : Time
  state : HealthState
  resolvedAt : Option Time
  parityReportRef : Option JsString
  factIdentity : Option JsString
  deriving DecidableEq

inductive WorkspaceType where
  | employer_work
  | personal_business
  | personal_life
  deriving DecidableEq

def WorkspaceType.text : WorkspaceType → JsString
  | .employer_work => str "employer_work"
  | .personal_business => str "personal_business"
  | .personal_life => str "personal_life"

inductive DataOwner where
  | employer
  | user
  | client
  deriving DecidableEq

def DataOwner.text : DataOwner → JsString
  | .employer => str "employer"
  | .user => str "user"
  | .client => str "client"

inductive EgressClass where
  | «local»
  | cloud
  deriving DecidableEq

def EgressClass.text : EgressClass → JsString
  | .local => str "local"
  | .cloud => str "cloud"

/- A field that the policy reads through an untyped view is `none` where its value is absent
   or of another type than the declared one. -/

structure AgentJob where
  id : JsString
  workspaceId : JsString
  carriesRawContent : Option Bool
  deriving DecidableEq

structure ProviderRoute where
  provider : Option JsString
  runtime : Option JsString
  model : JsString
  endpoint : Option JsString
  egressClass : Option EgressClass
  deriving DecidableEq

structure EgressPolicy where
  workspaceId : JsString
  allowedProcessors : Option (List JsString)
  rawContentAllowedProcessors : Option (List JsString)
  employerRawEgressAcknowledged : Option Bool
  deriving DecidableEq

/-- A member of `allowedProviders` is `none` where the array has a hole or holds no string;
    `capabilityDefaults` lists the own keys of the record, whatever they hold. -/
structure ProviderMatrix where
  allowedProviders : Option (List (Option JsString))
  capabilityDefaults : Option (List (JsString × Option ProviderRoute))
  rawCloudEgressEnabled : Option Bool
  deriving DecidableEq

inductive VisibilityLevel where
  | isolated
  | coordination
  | sanitized
  | full
  deriving DecidableEq

def VisibilityLevel.text : VisibilityLevel → JsString
  | .isolated => str "isolated"
  | .coordination => str "coordination"
  | .sanitized => str "sanitized"
  | .full => str "full"

/-- The level that a text names. -/
def isVisibilityLevel (s : JsString) : Option VisibilityLevel :=
  [VisibilityLevel.isolated, .coordination, .sanitized, .full].find? (·.text = s)

theorem isVisibilityLevel_text (level : VisibilityLevel) : isVisibilityLevel level.text = some level := by
  cases level <;> rfl

/-- The egress policy of a workspace, as its row holds it. -/
structure WorkspaceEgressPolicy where
  workspaceId : JsString
  allowedProcessors : List JsString
  rawContentAllowedProcessors : List JsString
  employerRawEgressAcknowledged : Bool
  acknowledgedAt : Option JsString
  deriving DecidableEq

/-- The provider matrix of a workspace, as its row holds it. -/
structure WorkspaceProviderMatrix where
  workspaceId : JsString
  allowedProviders : List JsString
  capabilityDefaults : List (JsString × ProviderRoute)
  rawCloudEgressEnabled : Bool
  localProviderPreference : Option JsString
  deriving DecidableEq

structure Workspace where
  id : JsString
  name : JsString
  type : WorkspaceType
  dataOwner : DataOwner
  markdownRepoPath : JsString
  gbrainBrainId : JsString
  defaultVisibility : VisibilityLevel
  egressPolicy : WorkspaceEgressPolicy
  providerMatrix : WorkspaceProviderMatrix
  deriving DecidableEq

/-- The checks of a workspace that are made elsewhere: Zod's own of a datetime, and those of the matrix and its routes. -/
structure WorkspaceSchemas where
  datetime : JsString → Bool
  providerMatrix : WorkspaceProviderMatrix → Bool

def WORKSPACE_ID_MAX : Nat := 64

def isSlugUnit (c : UInt16) : Bool := (97 ≤ c.toNat && c.toNat ≤ 122) || (48 ≤ c.toNat && c.toNat ≤ 57)

/-- `/^[a-z0-9]([a-z0-9-]*[a-z0-9])?$/`, of a bounded length. -/
def WorkspaceIdSchema (s : JsString) : Bool :=
  s.length ≤ WORKSPACE_ID_MAX && s.head?.any isSlugUnit && s.getLast?.any isSlugUnit && s.all fun c => isSlugUnit c || c = unit '-'

/-- A branded id is not blank. -/
def brandedIdSchema (s : JsString) : Bool := trim s ≠ []

/-- The time of an acknowledgment is there if and only if the acknowledgment is on. -/
def WorkspaceEgressPolicy.coupled (p : WorkspaceEgressPolicy) : Bool := p.acknowledgedAt.isSome = p.employerRawEgressAcknowledged

def EgressPolicySchema (schemas : WorkspaceSchemas) (p : WorkspaceEgressPolicy) : Bool :=
  WorkspaceIdSchema p.workspaceId && p.allowedProcessors.all brandedIdSchema && p.rawContentAllowedProcessors.all brandedIdSchema &&
    p.acknowledgedAt.all schemas.datetime && p.coupled

def referentiallyConsistent (w : Workspace) : Bool := w.id = w.egressPolicy.workspaceId && w.id = w.providerMatrix.workspaceId

def WorkspaceSchema (schemas : WorkspaceSchemas) (w : Workspace) : Bool :=
  WorkspaceIdSchema w.id && w.name ≠ [] && w.markdownRepoPath ≠ [] && brandedIdSchema w.gbrainBrainId &&
    EgressPolicySchema schemas w.egressPolicy && schemas.providerMatrix w.providerMatrix && referentiallyConsistent w

structure DefaultWorkspacePartial where
  id : JsString
  name : JsString
  type : WorkspaceType
  markdownRepoPath : JsString
  gbrainBrainId : JsString
  dataOwner : Option DataOwner
  defaultVisibility : Option VisibilityLevel

/-- The workspace before its schema is checked: egress closed, an empty matrix. -/
def defaultAggregate (w : DefaultWorkspacePartial) : Workspace where
  id := w.id
  name := w.name
  type := w.type
  dataOwner := w.dataOwner.getD (if w.type = .employer_work then .employer else .user)
  markdownRepoPath := w.markdownRepoPath
  gbrainBrainId := w.gbrainBrainId
  defaultVisibility := w.defaultVisibility.getD .isolated
  egressPolicy := ⟨w.id, [], [], false, none⟩
  providerMatrix := ⟨w.id, [], [], false, none⟩

/-- `none` where the parse throws. -/
def defaultWorkspace (schemas : WorkspaceSchemas) (w : DefaultWorkspacePartial) : Option Workspace :=
  if WorkspaceSchema schemas (defaultAggregate w) then some (defaultAggregate w) else none

/-- What is registered of a source before any durable effect. -/
structure SourceEnvelope where
  sourceId : JsString
  workspaceId : JsString
  origin : JsString
  contentHash : JsString
  type : JsString
  sensitivity : JsString
  routingHints : Map JsString Json
  body : Option JsString

end sow.contracts
