import Sow.Db.WorkflowRunRefs
import Sow.Domain.State.Machines

open sow.js sow.effect sow.db sow.domain

namespace sow.workflows

/-- The adjacency table of a run's lifecycle. -/
def WORKFLOW_RUN_TRANSITIONS : Map JsString (List JsString) := .ofList [
  (str "running", [str "waiting_approval", str "completed", str "failed", str "cancelled"]),
  (str "waiting_approval", [str "running", str "completed", str "failed", str "cancelled"]),
  (str "completed", []),
  (str "failed", []),
  (str "cancelled", [])]

def workflowRunMachine : StateMachine JsString := defineMachine WORKFLOW_RUN_TRANSITIONS false

def isTerminalWorkflowRunState (s : JsString) : Bool := workflowRunMachine.isTerminal s

inductive WorkflowRunErrorCode where
  | unscoped_run
  | not_found
  | illegal_transition
  | terminal_without_audit
  | persist_failed
  deriving DecidableEq

/-- The states are given when the move from one to the other was refused. -/
structure WorkflowRunError where
  code : WorkflowRunErrorCode
  message : JsString
  states : Option (JsString × JsString)
  deriving DecidableEq

/-- Why the move of a loaded run is refused, if it is. -/
def refusal (workflowId target : JsString) (current : WorkflowRunRef) : Option WorkflowRunError :=
  match workflowRunMachine.transition current.state target with
  | .error _ => some ⟨.illegal_transition,
      str "illegal state transition " ++ current.state ++ str " → " ++ target, some (current.state, target)⟩
  | .ok _ =>
    if isTerminalWorkflowRunState target && decide (current.auditRefs.length = 0) then
      some ⟨.terminal_without_audit,
        str "cannot move run " ++ workflowId ++ str " to terminal state '" ++ target ++ str "' without an audit trail",
        some (current.state, target)⟩
    else none

/-- The guard's verdict on a loaded run is followed by an unconditional update. -/
def moveRun (workflowId target : JsString) (current : WorkflowRunRef) : RunM (Except WorkflowRunError WorkflowRunRef) :=
  match refusal workflowId target current with
  | some e => pure (.error e)
  | none => do
    let updated ← workflowRunRefs.updateState workflowId target
    match updated with
    | .error e => pure (.error ⟨.persist_failed, str "failed to persist state transition: " ++ e.message,
        some (current.state, target)⟩)
    | .ok row => pure (.ok row)

def transitionWorkflowRun (workflowId target : JsString) : RunM (Except WorkflowRunError WorkflowRunRef) := do
  let loaded ← workflowRunRefs.get workflowId
  match loaded with
  | .error _ => pure (.error ⟨.not_found, str "no workflow run: " ++ workflowId, none⟩)
  | .ok current => moveRun workflowId target current

theorem refusal_eq_none {workflowId target : JsString} {current : WorkflowRunRef} (h : refusal workflowId target current = none) :
    workflowRunMachine.canTransition current.state target = true ∧
      (isTerminalWorkflowRunState target = true → current.auditRefs ≠ []) := by
  unfold refusal at h
  cases hguard : workflowRunMachine.transition current.state target with
  | error e =>
    rw [hguard] at h
    cases h
  | ok s =>
    rw [hguard] at h
    refine ⟨(defineMachine_transition_ok hguard).2, fun hterminal hempty => ?_⟩
    simp [hterminal, hempty] at h

structure CreateWorkflowRunInput where
  workflowId : JsString
  trigger : JsString
  idempotencyKey : JsString
  workspaceId : Option JsString
  deriving DecidableEq

/-- The registry of runs, in the effects of its caller. -/
structure WorkflowRunRefRepository (M : Type → Type) where
  getByIdempotencyKey : JsString → M (DbResult WorkflowRunRef)
  create : WorkflowRunRef → M (DbResult WorkflowRunRef)

structure ResolveRunOutcome where
  reused : Bool
  run : WorkflowRunRef
  deriving DecidableEq

def isScoped (workspaceId : Option JsString) : Bool := workspaceId.any fun id => decide (0 < (trim id).length)

/-- A run starts in `running`, with an empty audit trail. -/
def newRunRef (input : CreateWorkflowRunInput) : WorkflowRunRef :=
  ⟨input.workflowId, input.trigger, str "running", input.idempotencyKey, []⟩

variable {M : Type → Type} [Monad M] (repo : WorkflowRunRefRepository M) (input : CreateWorkflowRunInput)

/-- A run is bound to a workspace before anything is stored. -/
def createWorkflowRun : M (Except WorkflowRunError WorkflowRunRef) := do
  if isScoped input.workspaceId then
    match ← repo.create (newRunRef input) with
    | .error e => pure (.error ⟨.persist_failed, str "failed to persist workflow run: " ++ e.message, none⟩)
    | .ok ref => pure (.ok ref)
  else
    pure (.error ⟨.unscoped_run,
      str "REQ-F-002/WS-2: a workflow run must be bound to a workspace before any durable step", none⟩)

/-- A seen key reuses its run; a creation that is lost to another reads again. -/
def resolveRun : M (Except WorkflowRunError ResolveRunOutcome) := do
  match ← repo.getByIdempotencyKey input.idempotencyKey with
  | .ok run => pure (.ok ⟨true, run⟩)
  | .error e =>
    if e.code = .not_found then
      match ← createWorkflowRun repo input with
      | .ok run => pure (.ok ⟨false, run⟩)
      | .error lost =>
        match ← repo.getByIdempotencyKey input.idempotencyKey with
        | .ok run => pure (.ok ⟨true, run⟩)
        | .error _ => pure (.error lost)
    else pure (.error ⟨.persist_failed, str "idempotency lookup failed: " ++ e.message, none⟩)

end sow.workflows
