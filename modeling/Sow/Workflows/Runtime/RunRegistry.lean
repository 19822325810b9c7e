import Sow.Effect.Interleave
import Sow.Workflows.Runtime.WorkflowRun

open sow.js sow.effect sow.db

namespace sow.workflows

/-- A call on the registry. -/
inductive RunCall where
  | transition (workflowId target : JsString)
  | append (workflowId auditRef : JsString)

inductive RunAnswer where
  | moved (r : Except WorkflowRunError WorkflowRunRef)
  | appended (r : DbResult WorkflowRunRef)

namespace RunCall

variable (call : RunCall)

def workflowId : RunCall → JsString
  | transition workflowId _ => workflowId
  | append workflowId _ => workflowId

def program : RunCall → RunM RunAnswer
  | transition workflowId target => do
    let r ← transitionWorkflowRun workflowId target
    pure (.moved r)
  | append workflowId auditRef => do
    let r ← workflowRunRefs.appendAuditRef workflowId auditRef
    pure (.appended r)

/-- What the call answers when it has not found the run. -/
def unread : RunCall → DbError → RunAnswer
  | transition workflowId _, _ => .moved (.error ⟨.not_found, str "no workflow run: " ++ workflowId, none⟩)
  | append _ _, e => .appended (.error e)

/-- What the call answers when it writes nothing over the run it has read. -/
def refused : RunCall → WorkflowRunRef → Option RunAnswer
  | transition workflowId target, current => (refusal workflowId target current).map fun e => .moved (.error e)
  | append _ _, _ => none

/-- The statement by which the call writes. -/
def writeOp : RunCall → WorkflowRunRef → RunOp
  | transition workflowId target, _ => .setState workflowId target
  | append workflowId auditRef, cur => .setAuditRefs workflowId (cur.auditRefs ++ [auditRef])

/-- What that statement makes of the stored row. -/
def set : RunCall → WorkflowRunRef → WorkflowRunRef → WorkflowRunRef
  | transition _ target, _, stored => { stored with state := target }
  | append _ auditRef, cur, stored => { stored with auditRefs := cur.auditRefs ++ [auditRef] }

def written : RunCall → WorkflowRunRef → DbResult WorkflowRunRef → RunAnswer
  | transition _ target, current, .error e =>
    .moved (.error ⟨.persist_failed, str "failed to persist state transition: " ++ e.message, some (current.state, target)⟩)
  | transition _ _, _, .ok row => .moved (.ok row)
  | append _ _, _, r => .appended r

/-- The outcome of a statement on the run of the call. -/
def outcome (r : Except DriverError (List WorkflowRunRef)) : DbResult WorkflowRunRef :=
  match r with
  | .ok rows => workflowRunRefs.rowOrNotFound call.workflowId rows
  | .error cause => .error (postgres.toDbError cause)

end RunCall

/-- Where a call stands. -/
inductive RunCallState where
  | start
  | writing (row : WorkflowRunRef)
  | done (answer : RunAnswer)

section machine

variable (call : RunCall)

def afterRead (r : DbResult WorkflowRunRef) : RunCallState :=
  match r with
  | .error e => .done (call.unread e)
  | .ok row =>
    match call.refused row with
    | some answer => .done answer
    | none => .writing row

def runCode : RunCallState → RunM RunAnswer
  | .start => call.program
  | .writing row => .call (call.writeOp row) fun r => .pure (call.written row (call.outcome r))
  | .done answer => .pure answer

/-- A call reads its run, and at most writes one column of it. -/
def runNext (s : RunCallState) (r : Except DriverError (List WorkflowRunRef)) : RunCallState :=
  match s with
  | .start => afterRead call (call.outcome r)
  | .writing row => .done (call.written row (call.outcome r))
  | .done answer => .done answer

variable {call}

theorem moveRun_eq (workflowId target : JsString) (row : WorkflowRunRef) :
    (do let r ← moveRun workflowId target row; pure (.moved r) : RunM RunAnswer) =
      runCode (.transition workflowId target) (afterRead (.transition workflowId target) (.ok row)) := by
  unfold moveRun afterRead
  simp only [RunCall.refused]
  cases refusal workflowId target row with
  | some e => rfl
  | none =>
    refine congrArg (Program.call (RunOp.setState workflowId target)) (funext fun r => ?_)
    cases r with
    | error cause => rfl
    | ok rows =>
      unfold RunCall.outcome workflowRunRefs.rowOrNotFound
      cases rows with
      | nil => rfl
      | cons row' rows => rfl

theorem program_eq : call.program = .call (.select call.workflowId) fun r => runCode call (afterRead call (call.outcome r)) := by
  cases call with
  | transition workflowId target =>
    refine congrArg (Program.call (RunOp.select workflowId)) (funext fun r => ?_)
    cases r with
    | error cause => rfl
    | ok rows =>
      cases rows with
      | nil => rfl
      | cons row rows => exact moveRun_eq workflowId target row
  | append workflowId auditRef =>
    refine congrArg (Program.call (RunOp.select workflowId)) (funext fun r => ?_)
    cases r with
    | error cause => rfl
    | ok rows =>
      cases rows with
      | nil => rfl
      | cons row rows =>
        refine congrArg (Program.call (RunOp.setAuditRefs workflowId (row.auditRefs ++ [auditRef]))) (funext fun r => ?_)
        cases r with
        | error cause => rfl
        | ok rows => rfl

/-- What a state calls, and how it goes on. -/
theorem runCode_call {s : RunCallState} {op : RunOp} {k : Except DriverError op.Ret → RunM RunAnswer}
    (h : runCode call s = .call op k) :
    (s = .start ∧ op = .select call.workflowId ∨ ∃ row, s = .writing row ∧ op = call.writeOp row) ∧
      ∀ r, k r = runCode call (runNext call s r) := by
  cases s with
  | start =>
    obtain ⟨rfl, hk⟩ := Program.call.inj (program_eq.symm.trans h)
    obtain rfl := eq_of_heq hk
    exact ⟨.inl ⟨rfl, rfl⟩, fun _ => rfl⟩
  | writing row =>
    obtain ⟨rfl, hk⟩ := Program.call.inj h
    obtain rfl := eq_of_heq hk
    exact ⟨.inr ⟨row, rfl, rfl⟩, fun _ => rfl⟩
  | done answer => cases h

end machine

/-- A call on the registry, as a state machine. -/
def runMachine (call : RunCall) : Machine RunOp RunOp.Ret DriverError RunAnswer RunCallState where
  code := runCode call
  next s _ r := runNext call s r
  resume h := (runCode_call h).2

end sow.workflows
