import Sow.Worker.Copilot.KnowledgeSink

open sow.js sow.effect sow.contracts sow.db sow.domain sow.integrations sow.markdown_vault
open sow.knowledge_writer (Sha256 KwOp KwM KnowledgeMutationPlan liftVault readFrontmatterField)
open sow.worker (isJsonObject)
open sow.workflows (SlugTables projectNotePath CommitActivityDeps KnowledgeCommitFailure commit)

namespace sow.copilot

def dbErrorToDispatchFailure (e : DbError) : FailureVariant :=
  match e.code with
  | .conflict => failure .write_conflict (str "semantic dispatch: store conflict") (some (str "SEMANTIC_DISPATCH_STORE_CONFLICT")) false
  | .not_found => failure .validation_rejected (str "semantic dispatch: pending plan not found") (some (str "SEMANTIC_DISPATCH_PLAN_NOT_FOUND")) false
  | .constraint_violation => failure .write_conflict (str "semantic dispatch: store rejected") (some (str "SEMANTIC_DISPATCH_STORE_CONSTRAINT")) false
  | .serialization_failure =>
    failure .degraded_unavailable (str "semantic dispatch: store retryable") (some (str "SEMANTIC_DISPATCH_STORE_SERIALIZATION")) true
  | .unavailable =>
    failure .degraded_unavailable (str "semantic dispatch: store unavailable") (some (str "SEMANTIC_DISPATCH_STORE_UNAVAILABLE")) true
  | _ => failure .degraded_unavailable (str "semantic dispatch: store error") (some (str "SEMANTIC_DISPATCH_STORE_UNKNOWN")) false

def dispatchReject (kind : FailureVariantKind) (code message : JsString) : FailureVariant := failure kind message (some code) false

/-- The failure of a commit, without its cause. -/
def commitFailureToVariant (f : KnowledgeCommitFailure) : FailureVariant :=
  match f.code with
  | .schema_rejected =>
    dispatchReject .schema_rejected (str "SEMANTIC_DISPATCH_COMMIT_SCHEMA_REJECTED") (str "semantic dispatch: commit schema rejected")
  | .write_conflict =>
    dispatchReject .write_conflict (str "SEMANTIC_DISPATCH_COMMIT_WRITE_CONFLICT") (str "semantic dispatch: commit revision conflict")
  | .ownership_violation =>
    dispatchReject .validation_rejected (str "SEMANTIC_DISPATCH_COMMIT_OWNERSHIP_VIOLATION") (str "semantic dispatch: commit ownership violation")
  | .secret_found =>
    dispatchReject .validation_rejected (str "SEMANTIC_DISPATCH_COMMIT_SECRET_FOUND") (str "semantic dispatch: commit blocked by secret scan")
  | .workspace_path_violation =>
    dispatchReject .validation_rejected (str "SEMANTIC_DISPATCH_COMMIT_WORKSPACE_PATH_VIOLATION")
      (str "semantic dispatch: commit workspace-path violation")
  | .commit_failed =>
    failure .degraded_unavailable (str "semantic dispatch: commit failed") (some (str "SEMANTIC_DISPATCH_COMMIT_FAILED")) true
  | .audit_record_failed =>
    failure .degraded_unavailable (str "semantic dispatch: commit recorded no audit row")
      (some (str "SEMANTIC_DISPATCH_COMMIT_AUDIT_RECORD_FAILED")) false
  | .revision_record_failed =>
    failure .degraded_unavailable (str "semantic dispatch: commit recorded no revision row")
      (some (str "SEMANTIC_DISPATCH_COMMIT_REVISION_RECORD_FAILED")) false
  | .write_fence_breached =>
    failure .degraded_unavailable (str "semantic dispatch: write fence breached")
      (some (str "SEMANTIC_DISPATCH_COMMIT_WRITE_FENCE_BREACHED")) false

def readFault : FailureVariant :=
  failure .degraded_unavailable (str "note read: vault read fault") (some (str "NOTE_PROJECT_ID_READ_FAULT")) true

/-- The project that a note says it is of. -/
def readNoteProjectId (path : Path) : KwM (Except FailureVariant (Option JsString)) := do
  match ← (liftVault (VaultFs.read path)).attempt with
  | .ok content => return .ok (content.bind fun content => readFrontmatterField content (str "projectId"))
  | .error _ => return .error readFault

/-- Whether there is a note, whatever it says. -/
def noteIsThere (path : Path) : KwM (Except FailureVariant Bool) := do
  match ← (liftVault (VaultFs.read path)).attempt with
  | .ok content => return .ok content.isSome
  | .error _ => return .error readFault

/-- The project that a plan is for, a field that the writer does not read. -/
def expectedProjectId (plan : KnowledgeMutationPlan) : Option JsString :=
  match plan.data with
  | .obj fields => textOf (fieldOf fields (str "expectedProjectId"))
  | _ => none

/-- The folder of a path, with the slash that ends it. -/
def directoryOf (path : Path) : Path :=
  match lastIndexOf (unit '/') path with
  | some i => path.take (i + 1)
  | none => []

/-- A path directly in a folder. -/
def isDirectlyIn (folder path : Path) : Bool :=
  startsWith path folder &&
    let leaf := path.drop folder.length
    !(leaf = [] || leaf = str "." || leaf = str ".." || includes leaf (str "/"))

def targetOutside (message : JsString) : FailureVariant :=
  dispatchReject .validation_rejected (str "SEMANTIC_DISPATCH_TARGET_OUTSIDE_WORKSPACE") message

/-- The notes that are patched are the expected project's. -/
def checkPatches (folder : Path) (expected : JsString) : List Path → KwM (Except FailureVariant Unit)
  | [] => return .ok ()
  | path :: paths => do
    if !isDirectlyIn folder path then
      return .error (targetOutside (str "semantic dispatch: patch target path is outside the plan's workspace subtree"))
    else
      match ← readNoteProjectId path with
      | .error fault => return .error fault
      | .ok owner =>
        if owner ≠ some expected then
          return .error (dispatchReject .validation_rejected (str "SEMANTIC_DISPATCH_PATCH_TARGET_MISMATCH")
            (str "semantic dispatch: patch target note does not belong to the intended project"))
        else checkPatches folder expected paths

/-- The notes that are created are not there. -/
def checkCreates (folder : Path) : List Path → KwM (Except FailureVariant Unit)
  | [] => return .ok ()
  | path :: paths => do
    if !isDirectlyIn folder path then
      return .error (targetOutside (str "semantic dispatch: create target path is outside the plan's workspace subtree"))
    else
      match ← noteIsThere path with
      | .error fault => return .error fault
      | .ok present =>
        if present then
          return .error (dispatchReject .validation_rejected (str "SEMANTIC_DISPATCH_CREATE_TARGET_EXISTS")
            (str "semantic dispatch: create target note already exists (would overwrite)"))
        else checkCreates folder paths

structure SemanticDispatchDeps where
  commit : CommitActivityDeps
  slugs : SlugTables
  schema : Json → Option KnowledgeMutationPlan

section dispatch

variable (deps : SemanticDispatchDeps)

/-- The notes that a plan writes are its project's, or there is none. -/
def checkTargets (plan : KnowledgeMutationPlan) : KwM (Except FailureVariant Unit) := do
  if plan.patches.isEmpty && plan.creates.isEmpty then return .ok ()
  else
    match expectedProjectId plan with
    | none =>
      return .error (dispatchReject .validation_rejected (str "SEMANTIC_DISPATCH_MISSING_EXPECTED_PROJECT_ID")
        (str "semantic dispatch: propose plan missing expectedProjectId"))
    | some expected =>
      match projectNotePath deps.slugs plan.workspaceId expected with
      | none =>
        return .error (dispatchReject .validation_rejected (str "SEMANTIC_DISPATCH_UNSAFE_TARGET_PATH")
          (str "semantic dispatch: could not derive a safe workspace-scoped target path"))
      | some canonicalNote =>
        match ← checkPatches (directoryOf canonicalNote) expected (plan.patches.map (·.path)) with
        | .error e => return .error e
        | .ok () => checkCreates (directoryOf canonicalNote) (plan.creates.map (·.path))

/-- The port that commits for a card names the card in its records. -/
def commitFor (approvalId : JsString) : CommitActivityDeps :=
  { deps.commit with sourceEventRef := deps.commit.sourceEventRef ++ str "#approval:" ++ approvalId }

/-- What a stored plan is checked for before it is committed; the checks are made in this order. -/
def checkRow (approval : Approval) (row : PendingKnowledgeMutation) : Except FailureVariant KnowledgeMutationPlan :=
  if row.workspaceId ≠ approval.workspaceId then
    .error (dispatchReject .validation_rejected (str "SEMANTIC_DISPATCH_WORKSPACE_MISMATCH") (str "semantic dispatch: row/approval workspace mismatch"))
  else if !isJsonObject row.plan then
    .error (dispatchReject .schema_rejected (str "SEMANTIC_DISPATCH_PLAN_NOT_OBJECT") (str "semantic dispatch: stored plan is not an object"))
  else if payloadHash deps.commit.deps.sha256 row.plan ≠ approval.payloadHash then
    .error (dispatchReject .write_conflict (str "SEMANTIC_DISPATCH_PAYLOAD_DIVERGED")
      (str "semantic dispatch: stored plan diverges from the approved hash"))
  else
    match deps.schema row.plan with
    | none =>
      .error (dispatchReject .schema_rejected (str "SEMANTIC_DISPATCH_SCHEMA_REJECTED")
        (str "semantic dispatch: stored plan failed the candidate gate"))
    | some plan =>
      if plan.workspaceId ≠ row.workspaceId then
        .error (dispatchReject .validation_rejected (str "SEMANTIC_DISPATCH_PLAN_WORKSPACE_MISMATCH")
          (str "semantic dispatch: validated plan workspace mismatch"))
      else if !plan.frontmatterUpdates.isEmpty || !plan.linkMutations.isEmpty then
        .error (dispatchReject .validation_rejected (str "SEMANTIC_DISPATCH_UNSUPPORTED_MUTATION_KIND")
          (str "semantic dispatch: propose plan carries an unsupported mutation kind (only creates/patches are gate-checked)"))
      else .ok plan

/-- Settle a row; its plan stays. -/
def settleRow (row : PendingKnowledgeMutation) (status : JsString) : KnowledgeM (Except FailureVariant Unit) := do
  let now ← .perform KnowledgeOp.now
  match ← .perform (KnowledgeOp.updatePlan { row with status := status, settledAt := some now }) with
  | .ok _ => return .ok ()
  | .error e => return .error (dbErrorToDispatchFailure e)

def settleRejected (approval : Approval) (planId : JsString) : KnowledgeM (Except FailureVariant Unit) := do
  match ← .perform (KnowledgeOp.getPlan planId) with
  | .error e => return .error (dbErrorToDispatchFailure e)
  | .ok row =>
    if row.status = str "rejected" then return .ok ()
    else if row.status = str "committed" then
      return .error (dispatchReject .write_conflict (str "SEMANTIC_DISPATCH_REJECT_AFTER_COMMIT")
        (str "semantic dispatch: cannot reject a committed plan"))
    else if row.workspaceId ≠ approval.workspaceId then
      return .error (dispatchReject .validation_rejected (str "SEMANTIC_DISPATCH_WORKSPACE_MISMATCH")
        (str "semantic dispatch: row/approval workspace mismatch"))
    else settleRow row (str "rejected")

def commitApproved (approval : Approval) (planId : JsString) : KnowledgeM (Except FailureVariant Unit) := do
  match ← .perform (KnowledgeOp.getPlan planId) with
  | .error e => return .error (dbErrorToDispatchFailure e)
  | .ok row =>
    if row.status = str "committed" then return .ok ()
    else if row.status ≠ str "pending" then
      return .error (dispatchReject .write_conflict (str "SEMANTIC_DISPATCH_ROW_NOT_PENDING")
        (str "semantic dispatch: pending plan is not in a committable state"))
    else
      match checkRow deps approval row with
      | .error e => return .error e
      | .ok plan =>
        match ← liftKw (checkTargets deps plan) with
        | .error e => return .error e
        | .ok () =>
          match ← liftKw (commit (commitFor deps approval.id) plan.planId plan.data) with
          | .error e => return .error (commitFailureToVariant e)
          | .ok _ => settleRow row (str "committed")

/-- The executor that `createSemanticMutationDispatch` makes. -/
def semanticMutationDispatch (approval : Approval) : KnowledgeM (Except FailureVariant Unit) := do
  if approval.subjectKind ≠ .semantic_mutation then return .ok ()
  else
    match approval.planRef with
    | none =>
      return .error (dispatchReject .validation_rejected (str "SEMANTIC_DISPATCH_MISSING_PLAN_REF") (str "semantic dispatch: card missing planRef"))
    | some planId =>
      if approval.status = .rejected then settleRejected approval planId
      else if approval.status ≠ .approved then return .ok ()
      else commitApproved deps approval planId

end dispatch

/-- A call of the dispatch: none that stores a plan or a card. -/
def KnowledgeOp.settlesOnly : KnowledgeOp → Prop
  | .recordPlan _ => False
  | .createApproval _ => False
  | _ => True

section settles

variable (deps : SemanticDispatchDeps) (card : Approval) (planId : JsString)

theorem liftKw_settles {α : Type} (p : KwM α) : Program.Within KnowledgeOp.settlesOnly (liftKw p) := by
  refine (Program.within_lift KnowledgeOp.kw _ p).mono ?_
  rintro op ⟨kop, rfl⟩
  trivial

theorem perform_settles (op : KnowledgeOp) (hop : op.settlesOnly) : Program.Within KnowledgeOp.settlesOnly (.perform op : KnowledgeM op.Ret) :=
  Program.within_perform hop

theorem settleRow_settles (row : PendingKnowledgeMutation) (status : JsString) :
    Program.Within KnowledgeOp.settlesOnly (settleRow row status) := by
  unfold settleRow
  refine (perform_settles .now trivial).bind fun now => (perform_settles (.updatePlan _) trivial).bind fun r => ?_
  cases r with
  | ok _ => trivial
  | error e => trivial

theorem settleRejected_settles : Program.Within KnowledgeOp.settlesOnly (settleRejected card planId) := by
  unfold settleRejected
  refine (perform_settles (.getPlan planId) trivial).bind fun r => ?_
  cases r with
  | error e => trivial
  | ok row =>
    simp only
    split_ifs
    · trivial
    · trivial
    · trivial
    · exact settleRow_settles row _

theorem commitApproved_settles : Program.Within KnowledgeOp.settlesOnly (commitApproved deps card planId) := by
  unfold commitApproved
  refine (perform_settles (.getPlan planId) trivial).bind fun r => ?_
  cases r with
  | error e => trivial
  | ok row =>
    simp only
    split_ifs
    · trivial
    · trivial
    · cases checkRow deps card row with
      | error e => trivial
      | ok plan =>
        refine (liftKw_settles _).bind fun r => ?_
        cases r with
        | error e => trivial
        | ok _ =>
          refine (liftKw_settles _).bind fun r => ?_
          cases r with
          | error e => trivial
          | ok _ => exact settleRow_settles row _

/-- A dispatch stores no plan and no card. -/
theorem semanticMutationDispatch_settles : Program.Within KnowledgeOp.settlesOnly (semanticMutationDispatch deps card) := by
  unfold semanticMutationDispatch
  by_cases hkind : card.subjectKind ≠ .semantic_mutation
  · rw [if_pos hkind]
    trivial
  · rw [if_neg hkind]
    cases card.planRef with
    | none => trivial
    | some planId =>
      simp only
      by_cases hrejected : card.status = .rejected
      · rw [if_pos hrejected]
        exact settleRejected_settles card planId
      · rw [if_neg hrejected]
        by_cases happroved : card.status ≠ .approved
        · rw [if_pos happroved]
          trivial
        · rw [if_neg happroved]
          exact commitApproved_settles deps card planId

end settles

end sow.copilot
