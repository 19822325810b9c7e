import Sow.Db.Errors
import Sow.Effect.Program
import Sow.Js.Map

open sow.js sow.effect

namespace sow.db

/-- A workflow run: its state is an open string, its audit refs grow. -/
structure WorkflowRunRef where
  workflowId : JsString
  trigger : JsString
  state : JsString
  idempotencyKey : JsString
  auditRefs : List JsString
  deriving DecidableEq

/-- The registry table, by its primary key. -/
abbrev WorkflowRunRefs := Map JsString WorkflowRunRef

inductive RunOp where
  /-- `select().where(workflowId = …).limit(1)` -/
  | select (workflowId : JsString)
  /-- `update().set({ state }).where(workflowId = …).returning()` -/
  | setState (workflowId : JsString) (state : JsString)
  /-- `update().set({ auditRefs }).where(workflowId = …).returning()` -/
  | setAuditRefs (workflowId : JsString) (auditRefs : List JsString)

/-- Every statement answers with rows. -/
abbrev RunOp.Ret : RunOp → Type := fun _ => List WorkflowRunRef

abbrev RunM := Program RunOp RunOp.Ret DriverError

/-- Update the row of a key, if there is one. -/
def updateRow (table : WorkflowRunRefs) (workflowId : JsString) (set : WorkflowRunRef → WorkflowRunRef) :
    List WorkflowRunRef × WorkflowRunRefs :=
  match table.get workflowId with
  | some row => ([set row], table.set workflowId (set row))
  | none => ([], table)

def runRunOp (table : WorkflowRunRefs) : (op : RunOp) → op.Ret × WorkflowRunRefs
  | .select workflowId => ((table.get workflowId).toList, table)
  | .setState workflowId state => updateRow table workflowId fun row => { row with state }
  | .setAuditRefs workflowId auditRefs => updateRow table workflowId fun row => { row with auditRefs }

def workflowRunRefsDb : Handler RunOp RunOp.Ret DriverError WorkflowRunRefs (Fault DriverError) := faulty runRunOp

namespace workflowRunRefs

/-- The row that a statement returned, or its absence. -/
def rowOrNotFound (workflowId : JsString) (rows : List WorkflowRunRef) : DbResult WorkflowRunRef :=
  match rows.head? with
  | some row => .ok row
  | none => .error (notFound (str "workflow " ++ workflowId))

def get (workflowId : JsString) : RunM (DbResult WorkflowRunRef) := postgres.run do
  let rows ← .perform (.select workflowId)
  pure (rowOrNotFound workflowId rows)

def updateState (workflowId state : JsString) : RunM (DbResult WorkflowRunRef) := postgres.run do
  let rows ← .perform (.setState workflowId state)
  pure (rowOrNotFound workflowId rows)

def appendAuditRef (workflowId auditRef : JsString) : RunM (DbResult WorkflowRunRef) := postgres.run do
  let curRows ← .perform (.select workflowId)
  match curRows.head? with
  | none => pure (.error (notFound (str "workflow " ++ workflowId)))
  | some cur =>
    let auditRefs := cur.auditRefs ++ [auditRef]
    let rows ← .perform (.setAuditRefs workflowId auditRefs)
    pure (rowOrNotFound workflowId rows)

end workflowRunRefs

theorem updateRow_some {table : WorkflowRunRefs} {workflowId : JsString} {row : WorkflowRunRef}
    {set : WorkflowRunRef → WorkflowRunRef} (h : table.get workflowId = some row) :
    updateRow table workflowId set = ([set row], table.set workflowId (set row)) := by
  unfold updateRow
  rw [h]

theorem updateRow_none {table : WorkflowRunRefs} {workflowId : JsString} {set : WorkflowRunRef → WorkflowRunRef}
    (h : table.get workflowId = none) : updateRow table workflowId set = ([], table) := by
  unfold updateRow
  rw [h]

end sow.db
