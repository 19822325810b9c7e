import Sow.Contracts.Models
import Sow.Domain.Keys
import Sow.Knowledge.KnowledgeWriter.MemoryPorts
import Sow.Workflows.Activities.Projections.NoteSlug

open sow.js sow.contracts sow.domain sow.markdown_vault
open sow.knowledge_writer (Sha256 SourceRef KnowledgeMutationPlan objectOf)
open sow.workflows (SlugTables projectNotePath PROJECT_STATUS_REGION composeProjectStatusNote)

namespace sow.copilot

/-- What the model supplies for the note of a project. -/
structure CopilotProjectProposeIntent where
  projectId : JsString
  title : JsString
  lifecycleState : JsString
  summary : Option JsString

def INTENT_FIELDS : List JsString := [str "projectId", str "title", str "lifecycleState", str "summary"]

/-- One line, and no mark of a comment. -/
def isSafeSingleLine (s : JsString) : Bool :=
  !includes s (str "\n") && !includes s (str "\r") && !includes s (str "<!--") && !includes s (str "-->")

def isSafeRegionProse (s : JsString) : Bool := !includes s (str "<!--") && !includes s (str "-->")

/-- A field of an object, if it has it. -/
def fieldOf (fields : List (JsString × Json)) (name : JsString) : Option Json := (fields.find? fun e => e.1 = name).map Prod.snd

def textOf : Option Json → Option JsString
  | some (.str s) => some s
  | _ => none

/-- The guard of the shape of an intent: no other field, and texts only. -/
def parseIntent : Json → Option CopilotProjectProposeIntent
  | .obj fields =>
    if fields.any fun e => e.1 ∉ INTENT_FIELDS then none
    else do
      let projectId ← textOf (fieldOf fields (str "projectId"))
      let title ← textOf (fieldOf fields (str "title"))
      let lifecycleState ← textOf (fieldOf fields (str "lifecycleState"))
      match fieldOf fields (str "summary") with
      | none => return ⟨projectId, title, lifecycleState, none⟩
      | some (.str summary) => return ⟨projectId, title, lifecycleState, some summary⟩
      | some _ => none
  | _ => none

def MAX_PROPOSE_SUMMARY_CHARS : Nat := 4 * 1024

def ProjectLifecycleState : List JsString :=
  [str "idea", str "planning", str "active", str "paused", str "done", str "archived"]

def proposeFailure (code : JsString) : FailureVariant :=
  failure .validation_rejected (str "copilot propose knowledge: " ++ code) (some code) false

/-- What the server supplies; the schema of the plan returns the plan that it has parsed. -/
structure CopilotProposeKnowledgeDeps where
  workspaceId : JsString
  sourceRef : SourceRef
  noteExists : Bool

/-- The lifecycle, and what the model has to say of it. -/
def composeRegionBody (lifecycleState : JsString) (summary : Option JsString) : JsString :=
  let lines := str "**Proposed lifecycle:** " ++ lifecycleState
  match summary.map trim with
  | some (c :: rest) => lines ++ str "\n\n" ++ (c :: rest)
  | _ => lines

section derive

variable (slugs : SlugTables) (tables : CaseTables) (sha256 : Sha256) (schema : Json → Option KnowledgeMutationPlan)

/-- The id of the plans for a note. -/
def proposePlanId (path : Path) : JsString :=
  buildIdempotencyKey tables sha256 (str "copilot.propose.project") [(str "notePath", path)]

/-- The candidate of a plan for the note of a project. -/
def proposalCandidate (deps : CopilotProposeKnowledgeDeps) (projectId title lifecycleState : JsString) (summary : Option JsString) (path : Path) :
    Json :=
  let regionBody := composeRegionBody lifecycleState summary
  let create := objectOf [(str "path", some (.str path)), (str "title", some (.str title)),
    (str "frontmatter", some (.obj [(str "projectId", .str projectId), (str "title", .str title), (str "workspaceId", .str deps.workspaceId),
      (str "lifecycleState", .str lifecycleState), (str "provenanceOrigin", .str (str "copilot_propose"))])),
    (str "body", some (.str (composeProjectStatusNote title regionBody)))]
  let patch := objectOf [(str "path", some (.str path)), (str "regionId", some (.str PROJECT_STATUS_REGION)), (str "newBody", some (.str regionBody))]
  .obj [(str "planId", .str (proposePlanId tables sha256 path)), (str "workspaceId", .str deps.workspaceId),
    (str "sourceRefs", .arr [objectOf [(str "sourceId", some (.str deps.sourceRef.sourceId)), (str "span", deps.sourceRef.span.map .str)]]),
    (str "creates", .arr (if deps.noteExists then [] else [create])), (str "patches", .arr (if deps.noteExists then [patch] else [])),
    (str "linkMutations", .arr []), (str "frontmatterUpdates", .arr []), (str "externalActionProposals", .arr []),
    (str "confidence", .num (str "0.5")), (str "requiresApproval", .bool true), (str "provenanceOrigin", .str (str "copilot_propose")),
    (str "expectedProjectId", .str projectId)]

/-- The note that an intent is about. -/
def intentNotePath (workspaceId : JsString) (intent : Json) : Option Path := do
  let i ← parseIntent intent
  projectNotePath slugs workspaceId (trim i.projectId)

/-- Why a summary is refused, if it is. -/
def summaryRefusal : Option JsString → Option FailureVariant
  | none => none
  | some summary =>
    if summary.length > MAX_PROPOSE_SUMMARY_CHARS then some (proposeFailure (str "COPILOT_PROPOSE_KNOWLEDGE_SUMMARY_TOO_LARGE"))
    else if !isSafeRegionProse summary then some (proposeFailure (str "COPILOT_PROPOSE_KNOWLEDGE_SUMMARY_UNSAFE"))
    else none

def deriveCopilotProjectKnowledgePlan (intent : Json) (deps : CopilotProposeKnowledgeDeps) : Except FailureVariant KnowledgeMutationPlan :=
  match parseIntent intent with
  | none => .error (proposeFailure (str "COPILOT_PROPOSE_KNOWLEDGE_MALFORMED"))
  | some i =>
    let projectId := trim i.projectId
    let title := trim i.title
    if projectId = [] || !isSafeSingleLine projectId then .error (proposeFailure (str "COPILOT_PROPOSE_KNOWLEDGE_BAD_PROJECT_ID"))
    else if title = [] || !isSafeSingleLine title then .error (proposeFailure (str "COPILOT_PROPOSE_KNOWLEDGE_BAD_TITLE"))
    else if i.lifecycleState ∉ ProjectLifecycleState then .error (proposeFailure (str "COPILOT_PROPOSE_KNOWLEDGE_BAD_LIFECYCLE"))
    else
      match summaryRefusal i.summary with
      | some refusal => .error refusal
      | none =>
        match projectNotePath slugs deps.workspaceId projectId with
        | none => .error (proposeFailure (str "COPILOT_PROPOSE_KNOWLEDGE_UNSAFE_PATH"))
        | some path =>
          match schema (proposalCandidate tables sha256 deps projectId title i.lifecycleState i.summary path) with
          | none =>
            .error (failure .schema_rejected (str "copilot propose knowledge: derived plan failed the schema gate")
              (some (str "COPILOT_PROPOSE_KNOWLEDGE_SCHEMA_REJECTED")) false)
          | some plan => .ok plan

end derive

/-- The schema of a plan returns the ids that it is given. -/
def KeepsIds (schema : Json → Option KnowledgeMutationPlan) : Prop :=
  ∀ fields plan, schema (.obj fields) = some plan →
    fieldOf fields (str "planId") = some (.str plan.planId) ∧ fieldOf fields (str "workspaceId") = some (.str plan.workspaceId)

section spec

variable {slugs : SlugTables} {tables : CaseTables} {sha256 : Sha256} {schema : Json → Option KnowledgeMutationPlan}

/-- A plan is derived where every check passes. -/
theorem derive_eq_ok {intent : Json} {deps : CopilotProposeKnowledgeDeps} {i : CopilotProjectProposeIntent} {path : Path} {plan : KnowledgeMutationPlan}
    (hintent : parseIntent intent = some i) (hid : (trim i.projectId = [] || !isSafeSingleLine (trim i.projectId)) = false)
    (htitle : (trim i.title = [] || !isSafeSingleLine (trim i.title)) = false) (hlifecycle : i.lifecycleState ∈ ProjectLifecycleState)
    (hsummary : summaryRefusal i.summary = none) (hpath : projectNotePath slugs deps.workspaceId (trim i.projectId) = some path)
    (hschema : schema (proposalCandidate tables sha256 deps (trim i.projectId) (trim i.title) i.lifecycleState i.summary path) = some plan) :
    deriveCopilotProjectKnowledgePlan slugs tables sha256 schema intent deps = .ok plan := by
  unfold deriveCopilotProjectKnowledgePlan
  simp only [hintent, hid, htitle, Bool.false_eq_true, if_false, if_neg (not_not.mpr hlifecycle), hsummary, hpath, hschema]

/-- The plans for a note have one id, whatever they say. -/
theorem ids_of_derived (hschema : KeepsIds schema) {intent : Json} {deps : CopilotProposeKnowledgeDeps} {path : Path} {plan : KnowledgeMutationPlan}
    (h : deriveCopilotProjectKnowledgePlan slugs tables sha256 schema intent deps = .ok plan)
    (hpath : intentNotePath slugs deps.workspaceId intent = some path) :
    plan.planId = proposePlanId tables sha256 path ∧ plan.workspaceId = deps.workspaceId := by
  unfold deriveCopilotProjectKnowledgePlan at h
  unfold intentNotePath at hpath
  cases hintent : parseIntent intent with
  | none => simp [hintent] at h
  | some i =>
    simp only [hintent, Option.bind_eq_bind, Option.bind_some] at h hpath
    split_ifs at h
    split at h
    · cases h
    · simp only [hpath] at h
      split at h
      · cases h
      · next hparsed =>
        obtain rfl := Except.ok.inj h
        obtain ⟨hid, hws⟩ := hschema _ _ hparsed
        change some (Json.str (proposePlanId tables sha256 path)) = _ at hid
        change some (Json.str deps.workspaceId) = _ at hws
        exact ⟨(Json.str.inj (Option.some.inj hid)).symm, (Json.str.inj (Option.some.inj hws)).symm⟩

end spec

end sow.copilot
