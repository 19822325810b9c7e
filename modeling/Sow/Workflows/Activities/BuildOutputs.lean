import Sow.Workflows.Activities.CommitKnowledge
import Sow.Workflows.Activities.Projections.MeetingActions

open sow.js sow.effect sow.contracts sow.domain sow.markdown_vault
open sow.knowledge_writer (KwM Sha256 SourceRef LinkOp liftVault)

namespace sow.workflows

/-- The index of an action item, if a key is the key of one: `/^actionItems\.(\d+)\.(?:title|owner)$/`. -/
def actionIndex (key : JsString) : Option Nat := do
  let rest ← stripLit (str "actionItems.") key
  let digits := rest.takeWhile Json.isDigit
  let field := rest.dropWhile Json.isDigit
  if digits = [] then none
  else if field = str ".title" || field = str ".owner" then some (toNumber digits)
  else none

/-- One more than the highest index of an action item. -/
def actionCount (fields : ExtractionFields) : Nat :=
  (fields.keys.filterMap actionIndex).foldl (fun count index => max count (index + 1)) 0

/-- The actions that `meetingOutputsProjection` derives. -/
def deriveActions (fields : ExtractionFields) (workspaceId : JsString) : List DerivedActionDescriptor :=
  (List.range (actionCount fields)).filterMap (deriveAction fields workspaceId)

structure BuildOutputsActivityDeps where
  sourceRef : SourceRef
  planIdentity : Identity
  provenanceOrigin : Option JsString
  confidence : Option JsString

/-- A close-out of a meeting: the extraction that has been validated, and what the rewrite of the vault answers
    for its note, with no answer where it is not bound or throws. -/
structure MeetingCloseOut where
  fields : ExtractionFields
  rewritten : Option (List (LinkOp × JsString))

structure MeetingBuiltOutputs where
  plan : PlanDraft
  actions : List MeetingExternalActionInput

/-- Whether there is a note, by the reader of the vault; a read that throws fails the probe. -/
def noteExists (path : Path) : KwM (Except Cause Bool) := do
  match ← (liftVault (VaultFs.read path)).attempt with
  | .ok content => return .ok content.isSome
  | .error cause => return .error cause

/-- The object `{ ...planIdentity, workspace }`. -/
def withWorkspace (planIdentity : Identity) (workspaceId : JsString) : Identity :=
  if planIdentity.any fun e => e.1 = str "workspace" then
    planIdentity.map fun e => if e.1 = str "workspace" then (e.1, workspaceId) else e
  else planIdentity ++ [(str "workspace", workspaceId)]

section build

variable (slugs : SlugTables) (tables : CaseTables) (sha256 : Sha256) (deps : BuildOutputsActivityDeps) (workspaceId : JsString)

def meetingPlanId : JsString :=
  buildIdempotencyKey tables sha256 (str "meeting.close.plan") (withWorkspace deps.planIdentity workspaceId)

/-- The plan of a close-out. -/
def meetingPlan (closeOut : MeetingCloseOut) (mutation : ProjectNoteMutation) : PlanDraft where
  planId := meetingPlanId tables sha256 deps workspaceId
  workspaceId := workspaceId
  sourceRefs := [deps.sourceRef]
  mutation := mutation
  linkMutations := (closeOut.rewritten.getD []).map fun link => ⟨link.1, mutation.path, link.2⟩
  externalActionProposals := (deriveActions closeOut.fields workspaceId).map fun d => (externalAction tables sha256 d).action
  confidence := deps.confidence.getD (str "1")
  provenanceOrigin := deps.provenanceOrigin.getD (str "meeting_close")

/-- `build` of the activity that `createBuildOutputsActivity` makes. -/
def buildOutputs (closeOut : MeetingCloseOut) : KwM (Except BuildOutputsFailure MeetingBuiltOutputs) := do
  let existing ← match probedNotePath slugs closeOut.fields workspaceId with
    | none => pure (.ok false)
    | some path => noteExists path
  match existing with
  | .error _ => return .error ⟨.build_failed, str "meeting note-exists probe failed (fail-closed): read_failed"⟩
  | .ok present =>
    match projectMeetingNote slugs closeOut.fields workspaceId present with
    | .error refusal => return .error refusal
    | .ok mutation =>
      return .ok ⟨meetingPlan tables sha256 deps workspaceId closeOut mutation,
        (deriveActions closeOut.fields workspaceId).map (externalAction tables sha256)⟩

end build

end sow.workflows
