import Sow.Contracts.Models
import Sow.Domain.State.Machines
import Sow.Effect.Wp
import Sow.Workflows.Activities.PrunePolicy
import Sow.Workflows.Runtime.CatchUpWindow
import Sow.Workflows.Runtime.WorkflowRun

open sow.js sow.effect sow.db sow.domain
open sow.contracts (FailureClass)
open sow.knowledge_writer (KnowledgeMutationPlan)

namespace sow.workflows.prune

inductive RetentionPruneState where
  | scheduled
  | candidates_selected
  | removed
  | no_run_due
  | selection_failed
  | tombstone_failed
  | purge_failed
  | done
  deriving DecidableEq

def retentionPruneTransitions : Map RetentionPruneState (List RetentionPruneState) := .ofList [
  (.scheduled, [.candidates_selected, .no_run_due, .selection_failed]),
  (.candidates_selected, [.removed, .tombstone_failed, .purge_failed]),
  (.removed, [.done]),
  (.no_run_due, [.scheduled]),
  (.selection_failed, [.scheduled]),
  (.tombstone_failed, [.candidates_selected]),
  (.purge_failed, [.candidates_selected]),
  (.done, [])]

def retentionPruneMachine : StateMachine RetentionPruneState := defineMachine retentionPruneTransitions false

inductive PruneTombstoneFailureCode where
  | write_conflict
  | ownership_violation
  | human_owned_region
  | commit_failed
  deriving DecidableEq

def PruneTombstoneFailureCode.text : PruneTombstoneFailureCode → JsString
  | .write_conflict => str "write_conflict"
  | .ownership_violation => str "ownership_violation"
  | .human_owned_region => str "human_owned_region"
  | .commit_failed => str "commit_failed"

structure PruneTombstoneSuccess where
  revisionId : JsString
  replayed : Bool
  deriving DecidableEq

inductive PrunablePayloadStoreErrorCode where
  | delete_failed
  | not_found
  deriving DecidableEq

def PrunablePayloadStoreErrorCode.text : PrunablePayloadStoreErrorCode → JsString
  | .delete_failed => str "delete_failed"
  | .not_found => str "not_found"

structure PruneAuditEntry where
  recordId : JsString
  workspaceId : JsString
  revisionId : Option JsString
  deriving DecidableEq

structure RetentionPruneFailure where
  failureClass : FailureClass
  subjectRef : JsString
  message : JsString
  auditRef : JsString
  deriving DecidableEq

/-- The ports of a sweep. -/
inductive PruneOp where
  | getByIdempotencyKey (key : JsString)
  | create (ref : WorkflowRunRef)
  | getBookkeeping (scheduleId : JsString)
  | put (bookkeeping : ScheduleBookkeeping)
  | now
  | monotonicMs
  | monotonicEpoch
  | candidates (request : PruneSelectionRequest)
  | tombstone (plan : KnowledgeMutationPlan)
  | delete (recordId : JsString)
  | record (entry : PruneAuditEntry)
  | surface (failure : RetentionPruneFailure)

/-- An enumeration fails in one way, and an audit or a health sink is not looked at. -/
abbrev PruneOp.Ret : PruneOp → Type
  | .getByIdempotencyKey _ => DbResult WorkflowRunRef
  | .create _ => DbResult WorkflowRunRef
  | .getBookkeeping _ => Option ScheduleBookkeeping
  | .put _ => Unit
  | .now => JsString
  | .monotonicMs => Option ℚ
  | .monotonicEpoch => Option JsString
  | .candidates _ => Option (List PrunableRecord)
  | .tombstone _ => Except PruneTombstoneFailureCode PruneTombstoneSuccess
  | .delete _ => Except PrunablePayloadStoreErrorCode Unit
  | .record _ => Bool
  | .surface _ => Bool

/-- The process ends, or a port throws. -/
structure Stopped

abbrev PruneM : Type → Type := Program PruneOp PruneOp.Ret Stopped

def runs : WorkflowRunRefRepository PruneM where
  getByIdempotencyKey key := Program.perform (PruneOp.getByIdempotencyKey key)
  create ref := Program.perform (PruneOp.create ref)

def clock : Clock PruneM where
  now := Program.perform PruneOp.now
  monotonicMs := Program.perform PruneOp.monotonicMs
  monotonicEpoch := Program.perform PruneOp.monotonicEpoch

structure RetentionPruneInput where
  run : CreateWorkflowRunInput
  scheduleId : JsString
  intervalMs : ℚ
  catchUpWindowMs : ℚ
  workspaceId : JsString
  retention : Option RetentionPolicy

structure RetentionPruneOutcome where
  state : RetentionPruneState
  run : Except WorkflowRunError WorkflowRunRef
  runReused : Bool
  collapsed : Bool
  removedRecordIds : List JsString
  preservedCount : Option Nat
  surfaced : Option RetentionPruneFailure

/-- The last legal state on the way through successors. -/
def advance (origin : RetentionPruneState) : List RetentionPruneState → RetentionPruneState
  | [] => origin
  | target :: through =>
    match retentionPruneMachine.transition origin target with
    | .ok s => advance s through
    | .error _ => origin

def failureClassFor : RetentionPruneState → FailureClass
  | .no_run_due => .missed_or_late_schedule
  | .selection_failed => .db_unavailable
  | _ => .write_through_failed

/-- Why a sweep stops: the state in which it rests, and a message. -/
abbrev Park : Type := RetentionPruneState × JsString

/-- The Markdown of a record goes first; a record without any has no revision. -/
def tombstoneMarkdown (rec : PrunableRecord) : PruneM (Except Park (Option JsString)) :=
  match rec.markdownRemoval with
  | none => pure (.ok none)
  | some plan => do
    match ← Program.perform (PruneOp.tombstone plan) with
    | .error code => pure (.error (.tombstone_failed, str "markdown tombstone failed for " ++ rec.recordId ++ str ": " ++ code.text))
    | .ok success => pure (.ok (some success.revisionId))

/-- The payload, and the audit of its removal. -/
def deletePayload (rec : PrunableRecord) (revisionId : Option JsString) : PruneM (Option Park) := do
  match ← Program.perform (PruneOp.delete rec.recordId) with
  | .error code => pure (some (.purge_failed, str "payload delete failed for " ++ rec.recordId ++ str ": " ++ code.text))
  | .ok _ => do
    let _ ← Program.perform (PruneOp.record ⟨rec.recordId, rec.workspaceId, revisionId⟩)
    pure none

/-- The Markdown is the commit point. -/
def removeRecord (rec : PrunableRecord) : PruneM (Option Park) := do
  match ← tombstoneMarkdown rec with
  | .error park => pure (some park)
  | .ok revisionId => deletePayload rec revisionId

/-- The due records in turn, up to the first fault. -/
def removeDue : List PrunableRecord → List JsString → PruneM (List JsString × Option Park)
  | [], removed => pure (removed, none)
  | rec :: due, removed => do
    match ← removeRecord rec with
    | some park => pure (removed, some park)
    | none => removeDue due (removed ++ [rec.recordId])

section driver

variable (dates : IsoDates) (input : RetentionPruneInput)

/-- The catch-up verdict of the schedule: `none` when nothing is due. -/
def catchUp : PruneM (Option Bool) := do
  match ← Program.perform (PruneOp.getBookkeeping input.scheduleId) with
  | none => pure (some false)
  | some bookkeeping => do
    let result ← collapsedNextRunFromClock dates clock bookkeeping input.intervalMs input.catchUpWindowMs
    pure (result.nextRun.map fun _ => result.collapsed)

/-- The outcome so far, with its failure routed to the health sink. -/
def park (outcome : RetentionPruneOutcome) (failState : RetentionPruneState) (message : JsString) : PruneM RetentionPruneOutcome := do
  let failure : RetentionPruneFailure := ⟨failureClassFor failState, input.run.workflowId, message, input.run.workflowId⟩
  let _ ← Program.perform (PruneOp.surface failure)
  pure { outcome with state := failState, surfaced := some failure }

/-- Select, remove, and advance the schedule. -/
def sweep (outcome : RetentionPruneOutcome) : PruneM RetentionPruneOutcome := do
  let now ← clock.now
  let request : PruneSelectionRequest := ⟨input.workspaceId, input.retention.getD DEFAULT_RETENTION_POLICY, now⟩
  match ← Program.perform (PruneOp.candidates request) with
  | none =>
    park input outcome (advance outcome.state [.selection_failed])
      (str "prune candidate selection failed (store-read/selection fault): enumeration_failed")
  | some candidates =>
    let selection := select dates request candidates
    let selected := advance outcome.state [.candidates_selected]
    match ← removeDue selection.due [] with
    | (removed, some (failState, message)) =>
      park input { outcome with removedRecordIds := removed } (advance selected [failState]) message
    | (removed, none) => do
      let bookkeeping ← advanceBookkeeping clock input.scheduleId
      Program.perform (PruneOp.put bookkeeping)
      pure { outcome with
        state := advance (advance selected [.removed]) [.done]
        removedRecordIds := removed
        preservedCount := some selection.skipped.length }

def runRetentionPrune : PruneM RetentionPruneOutcome := do
  let resolved ← resolveRun runs input.run
  let outcome : RetentionPruneOutcome :=
    { state := .scheduled
      run := resolved.map (·.run)
      runReused := match resolved with
        | .ok resolved => resolved.reused
        | .error _ => false
      collapsed := false
      removedRecordIds := []
      preservedCount := none
      surfaced := none }
  match ← catchUp dates input with
  | none => park input outcome (advance outcome.state [.no_run_due]) (str "no retention-prune run due — schedule not yet elapsed")
  | some collapsed => sweep dates input { outcome with collapsed }

end driver

end sow.workflows.prune
