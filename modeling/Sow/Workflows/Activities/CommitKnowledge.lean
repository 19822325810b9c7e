import Sow.Contracts.Models
import Sow.Knowledge.KnowledgeWriter.MemoryPorts
import Sow.Workflows.Activities.Projections.MeetingOutputs

open sow.js sow.effect sow.contracts sow.markdown_vault
open sow.knowledge_writer (KwM KnowledgeMutationPlan KnowledgeWriterDeps KnowledgeWriteCommand WriteFailure WorkflowRunRef RevisionId SourceRef LinkOp
  NoteCreate NotePatch LinkMutation applyPlan objectOf liftVault readVaultHeadRevision)

namespace sow.workflows

/-- A link as a rewrite of the vault proposes it for a note. -/
structure LinkDraft where
  op : LinkOp
  srcPath : Path
  dstSlug : JsString

/-- A plan as an activity derives it; no gate has seen it yet. -/
structure PlanDraft where
  planId : JsString
  workspaceId : JsString
  sourceRefs : List SourceRef
  mutation : ProjectNoteMutation
  linkMutations : List LinkDraft
  externalActionProposals : List (ProposedAction Json)
  confidence : JsString
  provenanceOrigin : JsString

def sourceRefJson (ref : SourceRef) : Json :=
  objectOf [(str "sourceId", some (.str ref.sourceId)), (str "span", ref.span.map .str)]

def NoteDraft.toJson (note : NoteDraft) : Json :=
  objectOf [(str "path", some (.str note.path)), (str "title", some (.str note.title)), (str "body", some (.str note.body)),
    (str "frontmatter", some (.obj note.frontmatter))]

def LinkDraft.toJson (link : LinkDraft) : Json :=
  let op := match link.op with
    | .add => str "add"
    | .remove => str "remove"
  objectOf [(str "op", some (.str op)), (str "srcPath", some (.str link.srcPath)), (str "dstSlug", some (.str link.dstSlug))]

def proposedActionJson (action : ProposedAction Json) : Json :=
  .obj [(str "actionId", .str action.actionId), (str "targetSystem", .str action.targetSystem.text),
    (str "canonicalObjectKey", .str action.canonicalObjectKey), (str "payload", action.payload),
    (str "approvalPolicy", .str action.approvalPolicy), (str "idempotencyKey", .str action.idempotencyKey)]

/-- A first write creates the note, and a later one does not. -/
def ProjectNoteMutation.creates : ProjectNoteMutation → List Json
  | .create note => [note.toJson]
  | .patch _ _ _ => []

def ProjectNoteMutation.patches : ProjectNoteMutation → List Json
  | .create _ => []
  | .patch path regionId newBody =>
    [objectOf [(str "path", some (.str path)), (str "regionId", some (.str regionId)), (str "newBody", some (.str newBody))]]

/-- The candidate that the writer is given. -/
def PlanDraft.toJson (draft : PlanDraft) : Json :=
  .obj [(str "planId", .str draft.planId), (str "workspaceId", .str draft.workspaceId),
    (str "sourceRefs", .arr (draft.sourceRefs.map sourceRefJson)), (str "creates", .arr draft.mutation.creates),
    (str "patches", .arr draft.mutation.patches), (str "linkMutations", .arr (draft.linkMutations.map LinkDraft.toJson)),
    (str "frontmatterUpdates", .arr []), (str "externalActionProposals", .arr (draft.externalActionProposals.map proposedActionJson)),
    (str "confidence", .num draft.confidence), (str "requiresApproval", .bool false),
    (str "provenanceOrigin", .str draft.provenanceOrigin)]

/-- A plan that its schema has returned has the mutations of the draft. -/
structure PlanDraft.Realizes (draft : PlanDraft) (plan : KnowledgeMutationPlan) : Prop where
  creates : plan.creates.map NoteCreate.toJson = draft.mutation.creates
  patches : plan.patches.map NotePatch.toJson = draft.mutation.patches
  linkMutations : plan.linkMutations.map LinkMutation.toJson = draft.linkMutations.map LinkDraft.toJson
  frontmatterUpdates : plan.frontmatterUpdates = []

/-- The schema of a plan returns the plan that it is given. -/
def ReadsDrafts (gate : sow.knowledge_writer.Gate) : Prop :=
  ∀ (draft : PlanDraft) (plan : KnowledgeMutationPlan), gate.safeParse draft.toJson = .ok plan → draft.Realizes plan

inductive KnowledgeCommitFailureCode where
  | schema_rejected
  | write_conflict
  | ownership_violation
  | secret_found
  | workspace_path_violation
  | commit_failed
  | audit_record_failed
  | revision_record_failed
  | write_fence_breached
  deriving DecidableEq

def KnowledgeCommitFailureCode.text : KnowledgeCommitFailureCode → JsString
  | .schema_rejected => str "schema_rejected"
  | .write_conflict => str "write_conflict"
  | .ownership_violation => str "ownership_violation"
  | .secret_found => str "secret_found"
  | .workspace_path_violation => str "workspace_path_violation"
  | .commit_failed => str "commit_failed"
  | .audit_record_failed => str "audit_record_failed"
  | .revision_record_failed => str "revision_record_failed"
  | .write_fence_breached => str "write_fence_breached"

def mapWriteFailure : WriteFailure → KnowledgeCommitFailureCode
  | .write_fence_breached _ => .write_fence_breached
  | .schema_rejected _ => .schema_rejected
  | .write_conflict _ _ => .write_conflict
  | .ownership_violation _ => .ownership_violation
  | .secret_found _ => .secret_found
  | .workspace_path_violation _ => .workspace_path_violation
  | .commit_failed _ _ => .commit_failed
  | .audit_record_failed _ _ => .audit_record_failed
  | .revision_record_failed _ _ => .revision_record_failed

/-- A failure, which the bindings strip of its cause. -/
structure KnowledgeCommitFailure where
  code : KnowledgeCommitFailureCode
  message : JsString
  deriving DecidableEq

structure KnowledgeCommitSuccess where
  revisionId : RevisionId
  replayed : Bool
  deriving DecidableEq

structure CommitActivityDeps where
  deps : KnowledgeWriterDeps
  actor : JsString
  sourceEventRef : JsString
  workflowRunRef : WorkflowRunRef
  /-- A fixed base, or else the live head of the vault. -/
  expectedBaseRevision : Option RevisionId

def deriveIdempotencyKey (planId : JsString) : JsString := str "kw:commit:" ++ planId

def commitCommand (deps : CommitActivityDeps) (planId : JsString) (plan : Json) (base : RevisionId) : KnowledgeWriteCommand where
  plan := plan
  expectedBaseRevision := base
  actor := deps.actor
  sourceEventRef := deps.sourceEventRef
  workflowRunRef := deps.workflowRunRef
  idempotencyKey := deriveIdempotencyKey planId

/-- The fixed base, or the head of the vault now. -/
def resolveBaseRevision (deps : CommitActivityDeps) : KwM (Except Cause RevisionId) :=
  match deps.expectedBaseRevision with
  | some base => pure (.ok base)
  | none => (liftVault (readVaultHeadRevision deps.deps.sha256)).attempt

/-- `commit` of the activity that `createCommitActivity` makes. -/
def commit (deps : CommitActivityDeps) (planId : JsString) (plan : Json) : KwM (Except KnowledgeCommitFailure KnowledgeCommitSuccess) := do
  let base ← resolveBaseRevision deps
  match base with
  | .error _ => return .error ⟨.commit_failed, str "KnowledgeWriter commit: base-revision resolution failed"⟩
  | .ok base =>
    match ← (applyPlan (commitCommand deps planId plan base) deps.deps).attempt with
    | .error _ => return .error ⟨.commit_failed, str "KnowledgeWriter commit: apply threw"⟩
    | .ok (.error e) => return .error ⟨mapWriteFailure e, str "KnowledgeWriter rejected the commit: " ++ (mapWriteFailure e).text⟩
    | .ok (.ok success) => return .ok ⟨success.revisionId, success.replayed⟩

section spec

variable {draft : PlanDraft} {plan : KnowledgeMutationPlan}

/-- The text of the first member of an object. -/
private def firstText : Json → JsString
  | .obj ((_, .str s) :: _) => s
  | _ => []

/-- The text of the second member of an object. -/
private def secondText : Json → JsString
  | .obj (_ :: (_, .str s) :: _) => s
  | _ => []

private theorem paths_eq (h : draft.Realizes plan) :
    plan.creates.map (·.path) ++ plan.patches.map (·.path) = [draft.mutation.path] := by
  have hcreates : plan.creates.map (·.path) = draft.mutation.creates.map firstText := by
    rw [← h.creates, List.map_map]
    rfl
  have hpatches : plan.patches.map (·.path) = draft.mutation.patches.map firstText := by
    rw [← h.patches, List.map_map]
    rfl
  rw [hcreates, hpatches]
  cases draft.mutation with
  | create note => rfl
  | patch path regionId newBody => rfl

private theorem linkPaths_eq (h : draft.Realizes plan) :
    plan.linkMutations.map (·.srcPath) = draft.linkMutations.map LinkDraft.srcPath := by
  have hread := congrArg (List.map secondText) h.linkMutations
  rw [List.map_map, List.map_map] at hread
  exact hread

/-- The plan of a draft names the note of the draft, and the notes that its links are in. -/
theorem PlanDraft.Realizes.mem_plannedPaths (h : draft.Realizes plan) {p : Path} :
    p ∈ sow.knowledge_writer.plannedPaths plan ↔ p = draft.mutation.path ∨ p ∈ draft.linkMutations.map LinkDraft.srcPath := by
  unfold sow.knowledge_writer.plannedPaths
  rw [h.frontmatterUpdates, linkPaths_eq h, List.map_nil, List.append_nil, paths_eq h, List.mem_append, List.mem_singleton]

/-- What the plan of a draft makes of a vault has a note at its path. -/
theorem PlanDraft.Realizes.exists_projected (h : draft.Realizes plan) (snapshot : sow.knowledge_writer.VaultSnapshot) :
    ∃ content, (sow.knowledge_writer.projectPlan snapshot plan).get draft.mutation.path = some content := by
  have hmem := sow.knowledge_writer.mem_keys_projectPlan_of_planned snapshot plan (h.mem_plannedPaths.mpr (.inl rfl))
  exact Option.isSome_iff_exists.mp (Map.mem_keys_iff.mp hmem)

end spec

end sow.workflows
