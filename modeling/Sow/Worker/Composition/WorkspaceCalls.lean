import Sow.Db.WorkspaceConfig
import Sow.Policy.Processors

open sow.js sow.effect sow.contracts sow.db sow.policy

namespace sow.worker

/-- Its only code is `store_fault`. -/
structure RegistryUnionError where
  message : JsString

/-- Union an id into the registry. A missing registry is empty; a fault of the store is never taken for an empty one. -/
def registerWorkspace (workspaceId rebuiltAt : JsString) : ConfigM (Except RegistryUnionError Unit) := do
  let existing ← readModels.getRegistry
  match existing with
  | .error e =>
    if e.code = .not_found then putUnion []
    else return .error ⟨str "workspace registry get failed"⟩
  | .ok prior => putUnion prior
where
  putUnion (prior : List JsString) : ConfigM (Except RegistryUnionError Unit) := do
    let workspaceIds := if workspaceId ∈ prior then prior else prior ++ [workspaceId]
    let put ← readModels.putRegistry workspaceIds rebuiltAt
    match put with
    | .ok _ => return .ok ()
    | .error _ => return .error ⟨str "workspace registry put failed"⟩

/-- Seed the cloud-copilot allowlist; an employer workspace is also acknowledged, at the time of its provisioning. -/
def seedCloudCopilotAllowlist (workspace : Workspace) (now : JsString) : Workspace :=
  let claude := str "claude"
  match workspace.type with
  | .personal_business | .personal_life =>
    { workspace with egressPolicy := { workspace.egressPolicy with
        allowedProcessors := [claude], rawContentAllowedProcessors := [claude] } }
  | .employer_work =>
    { workspace with egressPolicy := { workspace.egressPolicy with
        allowedProcessors := [claude], rawContentAllowedProcessors := [claude]
        employerRawEgressAcknowledged := true, acknowledgedAt := some now } }

structure ProvisionWorkspaceSpec where
  id : JsString
  name : JsString
  type : WorkspaceType
  vaultRoot : JsString
  gbrainBrainId : JsString
  preset : JsString

inductive ProvisionWorkspaceErrorCode where
  | invalid_workspace
  | workspace_type_immutable
  | store_fault
  /-- The configuration is written, and the registry union is not complete. -/
  | partial_scaffold
  | stored_row_schema_violation
  deriving DecidableEq

structure ProvisionWorkspaceError where
  code : ProvisionWorkspaceErrorCode
  message : JsString

def partialScaffold : ProvisionWorkspaceError :=
  ⟨.partial_scaffold, str "workspace config written; registry union incomplete"⟩

/-- A provisioned workspace is a member of the registry. -/
structure ProvisionedWorkspace where
  id : JsString
  preset : JsString

/-- The last step of both ways. -/
def unionRegistry (spec : ProvisionWorkspaceSpec) (now : JsString) : ConfigM (Except ProvisionWorkspaceError ProvisionedWorkspace) := do
  let reg ← registerWorkspace spec.id now
  match reg with
  | .ok _ => return .ok ⟨spec.id, spec.preset⟩
  | .error _ => return .error partialScaffold

/-- The row exists and is of the same type: only the columns that provisioning owns are written. -/
def overwriteSameType (schemas : WorkspaceSchemas) (spec : ProvisionWorkspaceSpec) (workspace : Workspace) (now : JsString) :
    ConfigM (Except ProvisionWorkspaceError ProvisionedWorkspace) := do
  let updated ← workspaceConfig.updateProvisioningFields schemas spec.id ⟨workspace.name, workspace.markdownRepoPath, workspace.gbrainBrainId⟩
  match updated with
  | .error e =>
    if e.code = .stored_row_schema_violation then
      return .error ⟨.stored_row_schema_violation, str "workspace config update read-back failed re-validation"⟩
    else return .error ⟨.store_fault, str "workspace config update failed"⟩
  | .ok _ => unionRegistry spec now

/-- There was no row: the seeded workspace is inserted, unless a row has appeared since. -/
def createWorkspace (spec : ProvisionWorkspaceSpec) (workspace : Workspace) (now : JsString) :
    ConfigM (Except ProvisionWorkspaceError ProvisionedWorkspace) := do
  let up ← workspaceConfig.insertIfAbsent workspace
  match up with
  | .error _ => return .error ⟨.store_fault, str "workspace config insert failed"⟩
  | .ok inserted =>
    if inserted then unionRegistry spec now
    else return .error ⟨.store_fault, str "workspace was created concurrently"⟩

def provisionWorkspace (schemas : WorkspaceSchemas) (spec : ProvisionWorkspaceSpec) :
    ConfigM (Except ProvisionWorkspaceError ProvisionedWorkspace) := do
  let now : JsString ← .perform ConfigOp.now
  match defaultWorkspace schemas ⟨spec.id, spec.name, spec.type, spec.vaultRoot, spec.gbrainBrainId, none, none⟩ with
  | none => return .error ⟨.invalid_workspace, str "workspace validation rejected"⟩
  | some workspace =>
    let existing ← workspaceConfig.get schemas spec.id
    match existing with
    | .error e =>
      if e.code = .stored_row_schema_violation then
        return .error ⟨.stored_row_schema_violation, str "workspace config read failed re-validation"⟩
      else if e.code ≠ .not_found then return .error ⟨.store_fault, str "workspace config get failed"⟩
      else createWorkspace spec (seedCloudCopilotAllowlist workspace now) now
    | .ok row =>
      if row.type ≠ spec.type then
        return .error ⟨.workspace_type_immutable, str "workspace type is immutable through onboarding"⟩
      else overwriteSameType schemas spec workspace now

inductive RevokeEgressAckErrorCode where
  | workspace_not_found
  | stored_row_schema_violation
  | store_fault
  deriving DecidableEq

structure RevokeEgressAckError where
  code : RevokeEgressAckErrorCode
  message : JsString

structure UiSafeEgressStatus where
  workspaceId : JsString
  employerRawEgressAcknowledged : Bool
  zeroEgressOnly : Bool

/-- The acknowledgment is off and its time cleared; nothing else changes. -/
def revokedWorkspace (ws : Workspace) : Workspace :=
  { ws with egressPolicy := { ws.egressPolicy with employerRawEgressAcknowledged := false, acknowledgedAt := none } }

/-- The policy of a row, as the egress rules read it. -/
def egressView (p : WorkspaceEgressPolicy) : EgressPolicy :=
  ⟨p.workspaceId, some p.allowedProcessors, some p.rawContentAllowedProcessors, some p.employerRawEgressAcknowledged⟩

def matrixView (m : WorkspaceProviderMatrix) : ProviderMatrix :=
  ⟨some (m.allowedProviders.map some), some (m.capabilityDefaults.map fun e => (e.1, some e.2)), some m.rawCloudEgressEnabled⟩

def revocationRecord (wsId : JsString) (before : Bool) (occurredAt : JsString) : EgressAuditRecord where
  actor := str "owner"
  event := str "egress_ack_revoked"
  refs := [wsId]
  workspaceId := wsId
  payloadHash := str "egress-ack-revoked:" ++ wsId
  beforeSummary := str "employerRawEgressAcknowledged=" ++ (if before then str "true" else str "false")
  afterSummary := str "employerRawEgressAcknowledged=false; acknowledgedAt cleared"
  occurredAt := occurredAt

/-- What the command is given; the tables are those of the case folding of an endpoint. -/
structure EgressCommandDeps where
  schemas : WorkspaceSchemas
  isRedactionSafe : EgressAuditRecord → Bool
  tables : CaseTables

/-- The record of a revocation, and the status that is returned. -/
def recordRevocation (deps : EgressCommandDeps) (wsId : JsString) (ws : Workspace) :
    ConfigM (Except RevokeEgressAckError UiSafeEgressStatus) := do
  let occurredAt : JsString ← .perform ConfigOp.now
  let record := revocationRecord wsId ws.egressPolicy.employerRawEgressAcknowledged occurredAt
  if !deps.isRedactionSafe record then return .error ⟨.store_fault, str "audit rejected by redaction gate"⟩
  else
    let audited ← auditLog.append record
    match audited with
    | .error _ => return .error ⟨.store_fault, str "audit append failed"⟩
    | .ok _ =>
      let revoked := revokedWorkspace ws
      return .ok ⟨wsId, false,
        isZeroEgressOnlyWorkspace deps.tables (some (egressView revoked.egressPolicy)) (some (matrixView revoked.providerMatrix))⟩

/-- Turn the employer acknowledgment off; no throw leaves it. -/
def revokeEgressAck (deps : EgressCommandDeps) (wsId : JsString) : ConfigM (Except RevokeEgressAckError UiSafeEgressStatus) :=
  Program.tryCatch (do
    let existing ← workspaceConfig.get deps.schemas wsId
    match existing with
    | .error e =>
      if e.code = .not_found then return .error ⟨.workspace_not_found, str "workspace not found"⟩
      else if e.code = .stored_row_schema_violation then
        return .error ⟨.stored_row_schema_violation, str "workspace config read failed re-validation"⟩
      else return .error ⟨.store_fault, str "workspace config get failed"⟩
    | .ok ws =>
      let up ← workspaceConfig.upsert (revokedWorkspace ws)
      match up with
      | .error _ => return .error ⟨.store_fault, str "workspace config upsert failed"⟩
      | .ok _ => recordRevocation deps wsId ws)
    fun _ => return .error ⟨.store_fault, str "unexpected revoke fault"⟩

end sow.worker
