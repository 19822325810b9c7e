import Sow.Js.Json
import Sow.Js.Map
import Sow.Knowledge.MarkdownVault.AtomicWrite

open sow.js sow.markdown_vault

namespace sow.knowledge_writer

structure SourceRef where
  sourceId : JsString
  span : Option JsString

/-- A note to create. The frontmatter lists its entries in the order of `Object.entries`. -/
structure NoteCreate where
  path : Path
  title : Option JsString
  body : JsString
  frontmatter : Option (Map JsString (Option Json))
  path_ne_nil : path ≠ []
  title_ne_nil : title ≠ some []

structure NotePatch where
  path : Path
  regionId : JsString
  newBody : JsString
  path_ne_nil : path ≠ []
  regionId_ne_nil : regionId ≠ []

inductive LinkOp where
  | add
  | remove
  deriving DecidableEq

structure LinkMutation where
  op : LinkOp
  srcPath : Path
  dstSlug : JsString
  srcPath_ne_nil : srcPath ≠ []
  dstSlug_ne_nil : dstSlug ≠ []

structure FrontmatterPatch where
  path : Path
  key : JsString
  value : Option Json
  path_ne_nil : path ≠ []
  key_ne_nil : key ≠ []

/-- A bounded lower-case slug. -/
def isWorkspaceSlug (s : JsString) : Bool :=
  let isEdge (c : UInt16) := Json.isDigit c || (97 ≤ c.toNat && c.toNat ≤ 122)
  decide (s.length ≤ 64) && (s.head?.any isEdge) && (s.getLast?.any isEdge) &&
    s.all fun c => isEdge c || c == unit '-'

/-- A plan as its schema returns it. `data` is the whole parsed object, of which
    the writer reads no more than its serialization. -/
structure KnowledgeMutationPlan where
  planId : JsString
  workspaceId : JsString
  sourceRefs : List SourceRef
  creates : List NoteCreate
  patches : List NotePatch
  linkMutations : List LinkMutation
  frontmatterUpdates : List FrontmatterPatch
  data : Json
  planId_ne_blank : trim planId ≠ []
  workspaceId_slug : isWorkspaceSlug workspaceId = true
  sourceRefs_ne_nil : sourceRefs ≠ []

structure RefusalIssue where
  path : JsString
  message : JsString
  deriving DecidableEq

inductive Stage where
  | ajv
  | zod
  | scoped
  deriving DecidableEq

structure AuditSignal where
  actor : JsString
  event : JsString
  refs : List JsString
  payloadHash : JsString
  beforeSummary : JsString
  afterSummary : JsString
  deriving DecidableEq

inductive SchemaRejectionCode where
  | unknown_schema
  | schema_violation
  deriving DecidableEq

def SchemaRejectionCode.text : SchemaRejectionCode → JsString
  | .unknown_schema => str "unknown_schema"
  | .schema_violation => str "schema_violation"

structure SchemaRejection where
  code : SchemaRejectionCode
  schemaId : JsString
  errors : Option (List RefusalIssue)

structure SchemaRejected where
  stage : Stage
  issues : List RefusalIssue
  audit : AuditSignal
  deriving DecidableEq

/-- A nonblank string. -/
def isPresent (s : JsString) : Bool := trim s ≠ []

/-- The fields of a plan that keep it from being a scoped mutation. -/
def ruleScopedMutation (plan : KnowledgeMutationPlan) : Except (List JsString) KnowledgeMutationPlan :=
  let fields := (if isPresent plan.workspaceId then [] else [str "workspaceId"]) ++
    (if plan.sourceRefs.isEmpty then [str "sourceRefs"] else [])
  if fields ≠ [] then .error fields else .ok plan

/-- The validators behind the gate: the JSON-Schema validator of the registry, the
    schema of the contract package, and the builder of refusal signals. -/
structure Gate where
  validate : Json → Except SchemaRejection Unit
  safeParse : Json → Except (List RefusalIssue) KnowledgeMutationPlan
  kwSchemaRejectedSignal : Stage → List RefusalIssue → AuditSignal

/-- The composed candidate-data gate. -/
def runGate (gate : Gate) (candidate : Json) : Except SchemaRejected KnowledgeMutationPlan :=
  let refuse (stage : Stage) (issues : List RefusalIssue) : Except SchemaRejected KnowledgeMutationPlan :=
    .error ⟨stage, issues, gate.kwSchemaRejectedSignal stage issues⟩
  match gate.validate candidate with
  | .error e => refuse .ajv (e.errors.getD [⟨e.schemaId, e.code.text⟩])
  | .ok () =>
    match gate.safeParse candidate with
    | .error issues => refuse .zod issues
    | .ok plan =>
      match ruleScopedMutation plan with
      | .error fields => refuse .scoped (fields.map fun f => ⟨f, str "unscoped_mutation"⟩)
      | .ok plan => .ok plan

private theorem slug_ne_nil {s : JsString} (h : isWorkspaceSlug s = true) : s ≠ [] := by
  rintro rfl
  simp [isWorkspaceSlug] at h

/-- A slug has no blanks around it. -/
theorem trim_of_slug {s : JsString} (h : isWorkspaceSlug s = true) : trim s = s := by
  have hd := List.getLast?_eq_some_getLast (slug_ne_nil h)
  have hd' := List.head?_eq_some_head (slug_ne_nil h)
  simp only [isWorkspaceSlug, Json.isDigit, hd, hd', Option.any_some, Bool.and_eq_true, Bool.or_eq_true, decide_eq_true_eq] at h
  obtain ⟨⟨⟨-, hhead⟩, hlast⟩, -⟩ := h
  have hns : ∀ c : UInt16, (48 ≤ c.toNat ∧ c.toNat ≤ 57 ∨ 97 ≤ c.toNat ∧ c.toNat ≤ 122) → isSpace c = false := by
    intro c hc
    simp only [isSpace, Bool.or_eq_false_iff, Bool.and_eq_false_iff, decide_eq_false_iff_not, beq_eq_false_iff_ne]
    omega
  refine trim_eq_self ⟨fun a ha => ?_, fun a ha => ?_⟩
  · rw [hd'] at ha
    exact hns a (Option.some.inj ha ▸ hhead)
  · rw [hd] at ha
    exact hns a (Option.some.inj ha ▸ hlast)

private theorem isPresent_of_slug {s : JsString} (h : isWorkspaceSlug s = true) : isPresent s = true := by
  have hne := slug_ne_nil h
  simp [isPresent, trim_of_slug h, hne]

/-- The scoped stage accepts everything its predecessors let through. -/
theorem ruleScopedMutation_eq_ok (plan : KnowledgeMutationPlan) : ruleScopedMutation plan = .ok plan := by
  have hrefs : plan.sourceRefs.isEmpty = false := by simpa using plan.sourceRefs_ne_nil
  simp [ruleScopedMutation, isPresent_of_slug plan.workspaceId_slug, hrefs]

/-- A refusal comes from one of the two schemas. -/
theorem runGate_stage_ne_scoped {gate : Gate} {candidate : Json} {e : SchemaRejected}
    (h : runGate gate candidate = .error e) : e.stage ≠ .scoped := by
  rw [runGate] at h
  split at h
  · cases h
    simp
  · split at h
    · cases h
      simp
    · next plan _ =>
      rw [ruleScopedMutation_eq_ok] at h
      simp at h

end sow.knowledge_writer
