import Sow.Knowledge.Gbrain.Derive.CanonicalFactDeriver
import Sow.Knowledge.KnowledgeWriter.Ownership
import Sow.Knowledge.KnowledgeWriter.Projection
import Sow.Knowledge.KnowledgeWriter.ProvenanceStamp
import Sow.Knowledge.KnowledgeWriter.Revision

open sow.js sow.effect sow.markdown_vault

namespace sow.knowledge_writer

/-- The operations of the ports injected into the writer. -/
inductive KwOp where
  | vault (op : VaultOp)
  | secrets (op : SecretsOp)
  | getByIdempotencyKey (key : JsString)
  | record (revision : CommittedRevision)
  | append (record : AuditRecord)
  | now
  deriving DecidableEq

/-- What each operation resolves to; the writer ignores the result of `append`. -/
abbrev KwOp.Ret : KwOp → Type
  | .vault op => op.Ret
  | .secrets op => op.Ret
  | .getByIdempotencyKey _ => Option CommittedRevision
  | .record _ => Unit
  | .append _ => Unit
  | .now => JsString

abbrev KwM := Program KwOp KwOp.Ret Cause

abbrev callPort (op : KwOp) : KwM op.Ret := Program.perform op

def liftVault {α : Type} (p : VaultM α) : KwM α := p.lift KwOp.vault fun _ r => r
def liftSecrets {α : Type} (p : SecretsM α) : KwM α := p.lift KwOp.secrets fun _ r => r

structure SecretFound where
  path : Path
  kind : Option JsString
  deriving DecidableEq

/-- Blocking pre-commit secret scan of a path and its content. -/
abbrev SecretScan := Path → JsString → Except SecretFound Unit

def SECRET_SCAN_KIND : JsString := str "credential_shaped"

def scanForSecrets (contentContainsSecret : JsString → Bool) : SecretScan := fun path content =>
  if contentContainsSecret content then .error ⟨path, some SECRET_SCAN_KIND⟩ else .ok ()

/-- Foreign-workspace path guard: the path it refuses. -/
abbrev WorkspacePathCheck := Path → KnowledgeMutationPlan → Except Path Unit

structure KnowledgeWriteCommand where
  plan : Json
  expectedBaseRevision : RevisionId
  actor : JsString
  sourceEventRef : JsString
  workflowRunRef : WorkflowRunRef
  idempotencyKey : JsString

/-- The injected dependencies that are functions, and the functions of other
    packages that the writer calls. -/
structure KnowledgeWriterDeps where
  sha256 : Sha256
  gate : Gate
  contentContainsSecret : JsString → Bool
  isRedactionSafe : AuditSignal → Bool
  workspacePathCheck : WorkspacePathCheck
  writeFence : Option WriteFenceProbe
  ownershipCheck : Option OwnershipCheck
  secretScan : Option SecretScan
  signing : Option StamperDeps

structure WriteSuccess where
  revisionId : RevisionId
  auditRecord : AuditRecord
  replayed : Bool
  deriving DecidableEq

inductive WriteFailure where
  | write_fence_breached (reasons : List JsString)
  | schema_rejected (rejection : SchemaRejected)
  | write_conflict (expectedBaseRevision onDiskRevision : RevisionId)
  | ownership_violation (violation : OwnershipViolation)
  | secret_found (found : SecretFound)
  | workspace_path_violation (path : Path)
  | commit_failed (path : Path) (cause : Cause)
  | audit_record_failed (revisionId : RevisionId) (cause : Cause)
  | revision_record_failed (revisionId : RevisionId) (cause : Cause)
  deriving DecidableEq

def KW_AUDIT_REF_REDACTED_PLACEHOLDER : JsString := str "kw-audit-ref-redacted"

def isRefRedactionSafe (isRedactionSafe : AuditSignal → Bool) (ref : JsString) : Bool :=
  isRedactionSafe
    { actor := str "kw-ref-probe", event := str "kw-ref-probe", payloadHash := str "kw-ref-probe"
      beforeSummary := [], afterSummary := [], refs := [ref] }

/-- Validate or omit: only `refs` entries are ever replaced. -/
def sanitizeCommitAuditRecordForAppend (isRedactionSafe : AuditSignal → Bool) (record : AuditRecord) : AuditRecord :=
  let signal : AuditSignal :=
    { actor := record.actor, event := record.event, refs := record.refs, payloadHash := record.payloadHash
      beforeSummary := record.beforeSummary, afterSummary := record.afterSummary }
  if isRedactionSafe signal then record
  else { record with
    refs := record.refs.map fun ref =>
      if isRefRedactionSafe isRedactionSafe ref then ref else KW_AUDIT_REF_REDACTED_PLACEHOLDER }

/-- The declared counts that both summaries end with. -/
def declaredCounts (plan : KnowledgeMutationPlan) : JsString :=
  natToString plan.creates.length ++ str " create(s), " ++ natToString plan.patches.length ++ str " patch(es), " ++
    natToString plan.linkMutations.length ++ str " link(s), " ++ natToString plan.frontmatterUpdates.length ++
    str " frontmatter update(s)"

def summarize (plan : KnowledgeMutationPlan) (changedFiles : Nat) : JsString :=
  str "revision-applied: " ++ natToString changedFiles ++ str " file(s) changed; " ++ declaredCounts plan

def summarizeAlreadyApplied (plan : KnowledgeMutationPlan) : JsString :=
  str "already-present: 0 file(s) changed; the vault already contains this plan's projected end state — " ++
    declaredCounts plan

/-- Read every listed path in turn. -/
def readPaths (snapshot : VaultSnapshot) : List Path → VaultM VaultSnapshot
  | [] => pure snapshot
  | path :: paths => do
    match ← VaultFs.read path with
    | some content => readPaths (snapshot.set path content) paths
    | none => readPaths snapshot paths

def readSnapshot : VaultM VaultSnapshot := do
  let paths ← VaultFs.list
  readPaths .empty paths

def readVaultHeadRevision (sha256 : Sha256) : VaultM RevisionId := do
  return computeRevisionId sha256 (← readSnapshot)

structure StampMeta where
  sourceEventRef : JsString
  baseRevision : RevisionId

/-- What the stamp of a page binds. -/
def stampInputs (plan : KnowledgeMutationPlan) (path : Path) (page : gbrain.PageProvenance) (m : StampMeta)
    (committedAt : JsString) : StampInputs where
  workspaceId := plan.workspaceId
  factIdentity := page.pageIdentity
  originPath := path
  mdContentSha := page.pageSha
  kwRevision := m.baseRevision
  sourceEventRef := m.sourceEventRef
  committedAt := committedAt

/-- The `try` of `embedProvenanceStamps`: the clock is read inside it. -/
def mintStamp (plan : KnowledgeMutationPlan) (path : Path) (page : gbrain.PageProvenance) (signing : StamperDeps)
    (m : StampMeta) : KwM (Except StampError SignedProvenanceStamp) := do
  let committedAt ← callPort KwOp.now
  liftSecrets (stampProvenance (stampInputs plan path page m committedAt) signing)

/-- A note with its stamp under the reserved key. -/
def embedStamp (content : JsString) (stamp : SignedProvenanceStamp) : JsString :=
  let note := parseNote content
  composeNote (note.frontmatter.set KW_STAMP_FRONTMATTER_KEY (serializeStampFieldValue stamp)) note.body

/-- The page of a changed Markdown note, for which a stamp is minted. -/
def pageToStamp (sha256 : Sha256) (snapshot : VaultSnapshot) (path : Path) (content : JsString) :
    Option gbrain.PageProvenance :=
  if snapshot.get path = some content then none
  else if endsWith path (str ".md") = false then none
  else gbrain.computePageProvenance sha256 path content

def embedLoop (sha256 : Sha256) (snapshot : VaultSnapshot) (plan : KnowledgeMutationPlan) (signing : StamperDeps)
    (m : StampMeta) (stamped : VaultSnapshot) : List (Path × JsString) → KwM VaultSnapshot
  | [] => pure stamped
  | (path, content) :: rest =>
    match pageToStamp sha256 snapshot path content with
    | none => embedLoop sha256 snapshot plan signing m stamped rest
    | some page => do
      match ← (mintStamp plan path page signing m).attempt with
      | .ok (.ok stamp) =>
        embedLoop sha256 snapshot plan signing m (stamped.set path (embedStamp content stamp)) rest
      | _ => embedLoop sha256 snapshot plan signing m stamped rest

def embedProvenanceStamps (sha256 : Sha256) (snapshot projected : VaultSnapshot) (plan : KnowledgeMutationPlan)
    (signing : StamperDeps) (m : StampMeta) : KwM VaultSnapshot :=
  embedLoop sha256 snapshot plan signing m projected projected.entries

/-- Steps 4.5 to 6: the guards over every changed file, each over the whole set in turn. -/
def checkChanges (deps : KnowledgeWriterDeps) (plan : KnowledgeMutationPlan) (snapshot : VaultSnapshot)
    (changes : List FileChange) : Except WriteFailure Unit := do
  let ownership := deps.ownershipCheck.getD enforceHumanOwnership
  let scan := deps.secretScan.getD (scanForSecrets deps.contentContainsSecret)
  changes.forM fun change =>
    (deps.workspacePathCheck change.path plan).mapError WriteFailure.workspace_path_violation
  changes.forM fun change =>
    (ownership ⟨change.path, snapshot.get change.path, change.content, plan⟩).mapError WriteFailure.ownership_violation
  changes.forM fun change => (scan change.path change.content).mapError WriteFailure.secret_found

/-- The failure that a failed commit is reported as. -/
def commitFailure : AtomicError → WriteFailure
  | .write_fence_breached reasons => .write_fence_breached reasons
  | .stage_failed path cause => .commit_failed path cause
  | .commit_failed path cause => .commit_failed path cause

/-- Step 8: one audit record and one revision record of a commit that stands. -/
def recordCommit (command : KnowledgeWriteCommand) (deps : KnowledgeWriterDeps) (plan : KnowledgeMutationPlan)
    (changes : List FileChange) (newRevision : RevisionId) : KwM (Except WriteFailure WriteSuccess) := do
  let alreadyApplied := changes.length = 0 ∧ planDeclaresMutations plan = true
  let occurredAt ← callPort KwOp.now
  let auditRecord := buildCommitAuditRecord
    { actor := command.actor
      sourceEventRef := command.sourceEventRef
      workflowRunRef := command.workflowRunRef
      idempotencyKey := command.idempotencyKey
      planId := plan.planId
      baseRevisionId := command.expectedBaseRevision
      newRevisionId := newRevision
      beforeSummary := str "revision " ++ command.expectedBaseRevision
      afterSummary := if alreadyApplied then summarizeAlreadyApplied plan else summarize plan changes.length
      payloadHash := hashPayload deps.sha256 plan.data
      occurredAt := occurredAt
      workspaceId := some plan.workspaceId }
  let appended := sanitizeCommitAuditRecordForAppend deps.isRedactionSafe auditRecord
  match ← (callPort (KwOp.append appended)).attempt with
  | .error cause => return .error (.audit_record_failed newRevision cause)
  | .ok () =>
    let record : CommittedRevision :=
      { revisionId := newRevision
        baseRevisionId := command.expectedBaseRevision
        idempotencyKey := command.idempotencyKey
        planId := plan.planId
        actor := command.actor
        sourceEventRef := command.sourceEventRef
        workflowRunRef := command.workflowRunRef
        auditRecord := auditRecord
        committedAt := occurredAt }
    match ← (callPort (KwOp.record record)).attempt with
    | .error cause => return .error (.revision_record_failed newRevision cause)
    | .ok () => return .ok ⟨newRevision, auditRecord, false⟩

/-- Steps 7 and 8: commit a snapshot and record it. -/
def commitSnapshot (command : KnowledgeWriteCommand) (deps : KnowledgeWriterDeps) (plan : KnowledgeMutationPlan)
    (changes committedChanges : List FileChange) (committedProjected : VaultSnapshot) :
    KwM (Except WriteFailure WriteSuccess) := do
  let newRevision := computeRevisionId deps.sha256 committedProjected
  match ← liftVault (atomicCommit committedChanges (tokenOf newRevision) deps.writeFence) with
  | .error e => return .error (commitFailure e)
  | .ok () => recordCommit command deps plan changes newRevision

/-- Step 6b, then the commit of the stamped projection. -/
def commitProjection (command : KnowledgeWriteCommand) (deps : KnowledgeWriterDeps) (plan : KnowledgeMutationPlan)
    (snapshot projected : VaultSnapshot) : KwM (Except WriteFailure WriteSuccess) := do
  let changes := diffChanges snapshot projected
  match deps.signing with
  | none => commitSnapshot command deps plan changes changes projected
  | some signing =>
    let m : StampMeta := ⟨command.sourceEventRef, command.expectedBaseRevision⟩
    let committedProjected ← embedProvenanceStamps deps.sha256 snapshot projected plan signing m
    commitSnapshot command deps plan changes (diffChanges snapshot committedProjected) committedProjected

/-- Apply one plan atomically. -/
def applyPlan (command : KnowledgeWriteCommand) (deps : KnowledgeWriterDeps) : KwM (Except WriteFailure WriteSuccess) := do
  match ← callPort (KwOp.getByIdempotencyKey command.idempotencyKey) with
  | some prior => return .ok ⟨prior.revisionId, prior.auditRecord, true⟩
  | none =>
    match runGate deps.gate command.plan with
    | .error rejection => return .error (.schema_rejected rejection)
    | .ok plan =>
      let snapshot ← liftVault readSnapshot
      let onDisk := computeRevisionId deps.sha256 snapshot
      if compareRevision onDisk command.expectedBaseRevision = false then
        return .error (.write_conflict command.expectedBaseRevision onDisk)
      else
        let projected := projectPlan snapshot plan
        match checkChanges deps plan snapshot (diffChanges snapshot projected) with
        | .error failure => return .error failure
        | .ok () => commitProjection command deps plan snapshot projected

end sow.knowledge_writer
