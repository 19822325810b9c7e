import Sow.Workflows.Activities.BuildOutputs

open sow.js sow.effect sow.contracts sow.domain sow.markdown_vault
open sow.knowledge_writer (KwM Sha256 SourceRef)

namespace sow.workflows

/-- The server-resolved identity of a project. -/
structure ProjectIdentity where
  projectId : JsString
  title : JsString
  slug : JsString
  lifecycleState : JsString

/-- What the projection reads of the counts of a sync. -/
structure DeterministicProgress where
  completedCount : Int
  totalCount : Int

def computePercent (completed total : Nat) : Nat :=
  if total = 0 then 0 else min 100 (Float.round (completed.toFloat / total.toFloat * 100)).toUInt64.toNat

/-- CR, LF, VT, FF, NEL, LS, PS, a space or a tab. -/
def isLineBlank (c : UInt16) : Bool :=
  c ∈ [0x0d, 0x0a, 0x0b, 0x0c, 0x85, 0x2028, 0x2029, 0x20, 0x09]

/-- Every run of blanks becomes one space. -/
def collapseBlanks : Bool → JsString → JsString
  | _, [] => []
  | prevSpace, c :: rest =>
    if isLineBlank c then (if prevSpace then [] else str " ") ++ collapseBlanks true rest
    else c :: collapseBlanks false rest

def collapseToSummaryLine (s : JsString) : JsString := (trim (collapseBlanks false s)).take 1024

def PROSE_ARRAY_CAP : Nat := 50

/-- What is stated, as single lines. -/
def renderProseLines (values : List JsString) : List JsString :=
  (values.filterMap fun value =>
    if value = str "TBD" then none
    else
      let line := collapseToSummaryLine value
      if line.length > 0 then some line else none).take PROSE_ARRAY_CAP

def stringValue (field : ExtractionField) : Option JsString :=
  match field.value with
  | .str s => some s
  | _ => none

/-- The index of a field of a category: `^prefix\.(\d+)$`, up to the largest safe integer. -/
def categoryIndex (category key : JsString) : Option Nat := do
  let digits ← stripLit (category ++ str ".") key
  if digits ≠ [] && digits.all Json.isDigit then some (min (toNumber digits) (2 ^ 53 - 1)) else none

/-- The texts of a category in the order of their indices. -/
def categoryFields (fields : ExtractionFields) (category : JsString) : List JsString :=
  let hits := fields.entries.filterMap fun e => do
    let index ← categoryIndex category e.1
    let value ← stringValue e.2
    return (index, value)
  (hits.insertionSort fun a b => a.1 ≤ b.1).map Prod.snd

structure ProjectDashboardProse where
  blockers : List JsString
  waitingItems : List JsString
  nextActions : List JsString

/-- The row of the dashboard that its schema is asked about; its documents are the same in every row. -/
structure ProjectDashboard where
  projectId : JsString
  title : JsString
  status : JsString
  completedCount : Nat
  totalCount : Nat
  percentComplete : Nat
  blockers : List JsString
  waitingItems : List JsString
  nextActions : List JsString
  updatedAt : JsString

inductive BuildSyncOutputsFailureCode where
  | unmappable_progress
  | build_failed
  deriving DecidableEq

structure BuildSyncOutputsFailure where
  code : BuildSyncOutputsFailureCode
  message : JsString
  deriving DecidableEq

/-- A sync of a project: the narrative that has been validated, the counts, the project and the instant. -/
structure ProjectSync where
  fields : ExtractionFields
  progress : DeterministicProgress
  identity : ProjectIdentity
  updatedAt : JsString

namespace ProjectSync

variable (sync : ProjectSync)

def prose : ProjectDashboardProse where
  blockers := categoryFields sync.fields (str "blockers")
  waitingItems := categoryFields sync.fields (str "waitingItems")
  nextActions := categoryFields sync.fields (str "nextActions")

def completed : Nat := sync.progress.completedCount.toNat

def total : Nat := sync.progress.totalCount.toNat

def explanationLine : Option JsString := do
  let field ← sync.fields.get (str "explanation")
  let value ← stringValue field
  (renderProseLines [value]).head?

def dashboard : ProjectDashboard where
  projectId := sync.identity.projectId
  title := collapseToSummaryLine sync.identity.title
  status := sync.identity.lifecycleState
  completedCount := sync.completed
  totalCount := sync.total
  percentComplete := computePercent sync.completed sync.total
  blockers := renderProseLines sync.prose.blockers
  waitingItems := renderProseLines sync.prose.waitingItems
  nextActions := renderProseLines sync.prose.nextActions
  updatedAt := sync.updatedAt

/-- A section, or nothing where it has no line. -/
def sectionText (header : JsString) (lines : List JsString) : JsString :=
  if lines = [] then [] else str "## " ++ header ++ str "\n" ++ join (str "\n") (lines.map fun l => str "- " ++ l) ++ str "\n\n"

def composeRegionBody : JsString :=
  let lead := match sync.explanationLine with
    | some line => line ++ str "\n\n"
    | none => []
  neutralizeRegionMarkers (lead ++ str "## Progress\n" ++ decimal sync.completed ++ str " / " ++ decimal sync.total ++
    str " tasks complete (" ++ decimal (computePercent sync.completed sync.total) ++ str "%)\n\n" ++
    sectionText (str "Blockers") (renderProseLines sync.prose.blockers) ++
    sectionText (str "Waiting on") (renderProseLines sync.prose.waitingItems) ++
    sectionText (str "Next actions") (renderProseLines sync.prose.nextActions) ++
    str "_Last synced " ++ sync.updatedAt ++ str "_")

/-- The note of a first sync. -/
def note (workspaceId : JsString) (path : Path) : NoteDraft where
  path := path
  title := neutralizeRegionMarkers sync.identity.title
  body := composeProjectStatusNote (neutralizeRegionMarkers sync.identity.title) sync.composeRegionBody
  frontmatter := [(str "projectId", .str sync.identity.projectId), (str "slug", .str (neutralizeRegionMarkers sync.identity.slug)),
    (str "workspaceId", .str workspaceId), (str "lifecycleState", .str sync.identity.lifecycleState),
    (str "provenanceOrigin", .str (str "project_sync")), (str "title", .str (neutralizeRegionMarkers sync.identity.title))]

end ProjectSync

structure BuildSyncOutputsActivityDeps where
  sourceRef : SourceRef
  planIdentity : Identity
  provenanceOrigin : Option JsString
  /-- The schema of the dashboard takes a row. -/
  servable : ProjectDashboard → Bool

/-- The external actions of a sync are none. -/
structure ProjectSyncOutputs where
  plan : PlanDraft
  dashboard : ProjectDashboard

section build

variable (slugs : SlugTables) (tables : CaseTables) (sha256 : Sha256) (deps : BuildSyncOutputsActivityDeps) (workspaceId : JsString)

/-- The note of a project, as `createProjectSyncOutputsProjection` derives it. -/
def projectSyncNote (sync : ProjectSync) (noteExists : Bool) : Except BuildSyncOutputsFailure ProjectNoteMutation :=
  if !deps.servable sync.dashboard then
    .error ⟨.unmappable_progress, str "project identity/timestamp unservable for the dashboard row"⟩
  else
    match projectNotePath slugs workspaceId sync.identity.projectId with
    | none => .error ⟨.build_failed, str "projectId has no safe note-path anchor (sanitizes to empty)"⟩
    | some path =>
      .ok (if noteExists then .patch path PROJECT_STATUS_REGION sync.composeRegionBody else .create (sync.note workspaceId path))

def syncPlanId : JsString :=
  buildIdempotencyKey tables sha256 (str "project.sync.plan") (withWorkspace deps.planIdentity workspaceId)

/-- The plan of a sync. -/
def syncPlan (mutation : ProjectNoteMutation) : PlanDraft where
  planId := syncPlanId tables sha256 deps workspaceId
  workspaceId := workspaceId
  sourceRefs := [deps.sourceRef]
  mutation := mutation
  linkMutations := []
  externalActionProposals := []
  confidence := str "1"
  provenanceOrigin := deps.provenanceOrigin.getD (str "project_sync")

/-- `build` of the activity that `createBuildSyncOutputsActivity` makes. -/
def buildSyncOutputs (sync : ProjectSync) : KwM (Except BuildSyncOutputsFailure ProjectSyncOutputs) := do
  match projectNotePath slugs workspaceId sync.identity.projectId with
  | none => return .error ⟨.build_failed, str "projectId has no safe note-path anchor (sanitizes to empty) — fail-closed"⟩
  | some path =>
    match ← noteExists path with
    | .error _ =>
      return .error ⟨.build_failed, str "note-exists probe failed (fail-closed): project note-exists probe: vault read failed"⟩
    | .ok present =>
      match projectSyncNote slugs deps workspaceId sync present with
      | .error refusal => return .error refusal
      | .ok mutation => return .ok ⟨syncPlan tables sha256 deps workspaceId mutation, sync.dashboard⟩

end build

end sow.workflows
