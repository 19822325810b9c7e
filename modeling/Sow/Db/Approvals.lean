import Sow.Db.Invariants.OperationalTruth
import Sow.Effect.Interleave
import Sow.Effect.Wp
import Sow.Js.Map

open sow.js sow.effect sow.contracts

namespace sow.db

/-- The record after the transition, and whether this caller caused it. -/
structure ApprovalTransitionOutcome where
  approval : Approval
  applied : Bool
  deriving DecidableEq

/-- The approvals table, by its primary key. -/
abbrev Approvals := Map JsString Approval

inductive ApprovalOp where
  /-- `select().where(id = …).limit(1)` -/
  | selectById (id : JsString)
  /-- `update().set(next).where(id = … and status = …).returning()` -/
  | updateWhereStatus (id : JsString) (status : ApprovalStatus) (next : Approval)

/-- Both statements answer with rows. -/
abbrev ApprovalOp.Ret : ApprovalOp → Type := fun _ => List Approval

/-- The columns of `next` that an update sets; the key and the workspace stay. -/
def setColumns (row next : Approval) : Approval := { next with id := row.id, workspaceId := row.workspaceId }

/-- The database: every statement is atomic. -/
def approvalsDb : Handler ApprovalOp ApprovalOp.Ret DriverError Approvals Unit where
  exec table op _ := match op with
    | .selectById id => (.ok (table.get id).toList, table)
    | .updateWhereStatus id status next =>
      match table.get id with
      | some row =>
        if row.status = status then (.ok [setColumns row next], table.set id (setColumns row next))
        else (.ok [], table)
      | none => (.ok [], table)

abbrev ApprovalM := Program ApprovalOp ApprovalOp.Ret DriverError

def casDbResult (verdict : CasVerdict) (applied current : Approval) : DbResult ApprovalTransitionOutcome :=
  match casVerdictToOutcome verdict applied current with
  | .ok r => .ok ⟨r.value, r.applied⟩
  | .error e => .error ⟨invariantToDbErrorCode e.code, e.message, none⟩

/-- `ApprovalRepository.get`. -/
def approvals.get (id : JsString) : ApprovalM (DbResult Approval) := postgres.run do
  let rows ← .perform (.selectById id)
  match rows.head? with
  | some row => pure (.ok row)
  | none => pure (.error (notFound (str "approval " ++ id)))

/-- The arguments of one call of `applyTransition`. -/
structure TransitionCall where
  id : JsString
  expectedFromStatus : ApprovalStatus
  next : Approval

def applyTransition (call : TransitionCall) : ApprovalM (DbResult ApprovalTransitionOutcome) := postgres.run do
  let currentRows ← .perform (.selectById call.id)
  match currentRows.head? with
  | none => pure (.error (notFound (str "approval " ++ call.id)))
  | some current =>
    let verdict := decideApprovalCas current.status call.expectedFromStatus call.next.status
    if verdict ≠ .apply then pure (casDbResult verdict current current)
    else do
      let rows ← .perform (.updateWhereStatus call.id call.expectedFromStatus call.next)
      match rows.head? with
      | some row => pure (casDbResult .apply row current)
      -- A concurrent writer moved the row since it was read.
      | none => pure (casDbResult .stale_conflict current current)

section alone

variable {table : Approvals} {id : JsString} {call : TransitionCall} {current : Approval}

theorem eval_get_none (h : table.get id = none) :
    approvalsDb.eval (approvals.get id) table = (.ok (.error (notFound (str "approval " ++ id))), table) := by
  change (approvalsDb.eval (.call (.selectById id) _) table) = _
  rw [eval_call]
  simp only [approvalsDb, h]
  rfl

theorem eval_get_some (h : table.get id = some current) :
    approvalsDb.eval (approvals.get id) table = (.ok (.ok current), table) := by
  change (approvalsDb.eval (.call (.selectById id) _) table) = _
  rw [eval_call]
  simp only [approvalsDb, h]
  rfl

theorem eval_applyTransition_none (h : table.get call.id = none) :
    approvalsDb.eval (applyTransition call) table = (.ok (.error (notFound (str "approval " ++ call.id))), table) := by
  change (approvalsDb.eval (.call (.selectById call.id) _) table) = _
  rw [eval_call]
  simp only [approvalsDb, h]
  rfl

/-- A call that does not win the compare-and-set leaves the table alone. -/
theorem eval_applyTransition_lost (h : table.get call.id = some current)
    (hlost : decideApprovalCas current.status call.expectedFromStatus call.next.status ≠ .apply) :
    approvalsDb.eval (applyTransition call) table =
      (.ok (casDbResult (decideApprovalCas current.status call.expectedFromStatus call.next.status) current current), table) := by
  change (approvalsDb.eval (.call (.selectById call.id) _) table) = _
  rw [eval_call]
  simp only [approvalsDb, h]
  change approvalsDb.eval (Program.tryCatch (if _ then _ else _) _) table = _
  rw [if_pos hlost]
  rfl

/-- A call that wins it moves its row, and no other. -/
theorem eval_applyTransition_won (h : table.get call.id = some current)
    (hwon : decideApprovalCas current.status call.expectedFromStatus call.next.status = .apply) :
    approvalsDb.eval (applyTransition call) table =
      (.ok (.ok ⟨setColumns current call.next, true⟩), table.set call.id (setColumns current call.next)) := by
  change (approvalsDb.eval (.call (.selectById call.id) _) table) = _
  rw [eval_call]
  simp only [approvalsDb, h]
  change approvalsDb.eval (Program.tryCatch (if _ then _ else _) _) table = _
  rw [if_neg (not_not.mpr hwon)]
  change (approvalsDb.eval (.call (.updateWhereStatus call.id call.expectedFromStatus call.next) _) table) = _
  rw [eval_call]
  have hstatus : current.status = call.expectedFromStatus := (decideApprovalCas_apply_iff.mp hwon).2.2
  simp only [approvalsDb, h, if_pos hstatus]
  rfl

end alone

/-- Where a call of `applyTransition` stands. -/
inductive TransitionState where
  | start
  | updating (current : Approval)
  | done (r : DbResult ApprovalTransitionOutcome)

/-- What a call does once it has read the row. -/
def decided (call : TransitionCall) : Option Approval → TransitionState
  | none => .done (.error (notFound (str "approval " ++ call.id)))
  | some current =>
    if decideApprovalCas current.status call.expectedFromStatus call.next.status = .apply then .updating current
    else .done (casDbResult (decideApprovalCas current.status call.expectedFromStatus call.next.status) current current)

/-- What a call answers once its conditional update has run. -/
def landed (current : Approval) : Option Approval → TransitionState
  | some row => .done (.ok ⟨row, true⟩)
  | none => .done (casDbResult .stale_conflict current current)

/-- A call reads the row, and then at most updates it from the status it expects. -/
def transitionProtocol (call : TransitionCall) : Protocol ApprovalOp ApprovalOp.Ret DriverError TransitionState where
  allows s op := match s with
    | .start => op = .selectById call.id
    | .updating _ => op = .updateWhereStatus call.id call.expectedFromStatus call.next
    | .done _ => False
  next s _ r := match s, r with
    | .start, .ok rows => decided call rows.head?
    | .updating current, .ok rows => landed current rows.head?
    | .start, .error cause => .done (.error (postgres.toDbError cause))
    | .updating _, .error cause => .done (.error (postgres.toDbError cause))
    | .done r, _ => .done r

/-- A call ends with what its last state says. -/
def Answers (s : TransitionState) (r : Except DriverError (DbResult ApprovalTransitionOutcome)) : Prop :=
  ∃ res, r = .ok res ∧ s = .done res

theorem applyTransition_keeps (call : TransitionCall) :
    (transitionProtocol call).Keeps Answers (applyTransition call) .start := by
  unfold applyTransition postgres.run
  rw [Protocol.keeps_tryCatch, Protocol.keeps_bind, Protocol.keeps_perform]
  refine ⟨rfl, fun r => ?_⟩
  cases r with
  | error cause => exact ⟨_, rfl, rfl⟩
  | ok rows =>
    simp only [transitionProtocol]
    cases rows.head? with
    | none => exact ⟨_, rfl, rfl⟩
    | some current =>
      simp only [decided, ne_eq, ite_not]
      split_ifs with hverdict
      · rw [Protocol.keeps_bind, Protocol.keeps_perform]
        refine ⟨rfl, fun r => ?_⟩
        cases r with
        | error cause => exact ⟨_, rfl, rfl⟩
        | ok rows =>
          simp only [landed]
          cases rows.head? with
          | none => exact ⟨_, rfl, rfl⟩
          | some row => exact ⟨_, rfl, rfl⟩
      · exact ⟨_, rfl, rfl⟩

end sow.db
