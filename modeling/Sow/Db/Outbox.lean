import Sow.Contracts.Models
import Sow.Db.Errors
import Sow.Js.Json
import Sow.Js.Map

open sow.js sow.contracts

namespace sow.db

/-- An entry as it is stored: nothing says that its target system is a known one. -/
structure OutboxEntry (Time : Type) where
  outboxId : JsString
  actionRef : JsString
  workspaceId : JsString
  targetSystem : JsString
  canonicalObjectKey : JsString
  idempotencyKey : JsString
  payloadHash : JsString
  approvalPolicy : Option JsString
  status : JsString
  payload : Option Json
  writeReceipt : Option (WriteReceipt Time)
  attempts : Nat
  enqueuedAt : Time
  nextAttemptAt : Option Time
  updatedAt : Time

/-- The outbox, by its primary key. -/
@[ext] structure Outbox (Time : Type) where
  rows : Map JsString (OutboxEntry Time)
  keyed : ∀ k entry, rows.get k = some entry → entry.outboxId = k

namespace Outbox

variable {Time : Type} (outbox : Outbox Time)

def get (outboxId : JsString) : Option (OutboxEntry Time) := outbox.rows.get outboxId

def set (entry : OutboxEntry Time) : Outbox Time where
  rows := outbox.rows.set entry.outboxId entry
  keyed := by
    intro k other h
    rw [Map.get_set] at h
    split at h
    · next heq => rw [← Option.some.inj h, heq]
    · exact outbox.keyed k other h

@[simp] theorem get_set_self (entry : OutboxEntry Time) : (outbox.set entry).get entry.outboxId = some entry :=
  Map.get_set_self ..

/-- `get(outboxId)` -/
def read (outboxId : JsString) : DbResult (OutboxEntry Time) :=
  match outbox.get outboxId with
  | some entry => .ok entry
  | none => .error (notFound (str "outbox " ++ outboxId))

/-- `update(entry)`; the approval policy of a row is immutable. -/
def update (entry : OutboxEntry Time) : DbResult (OutboxEntry Time) × Outbox Time :=
  match outbox.get entry.outboxId with
  | some row =>
    let stored := { entry with approvalPolicy := row.approvalPolicy }
    (.ok stored, outbox.set stored)
  | none => (.error (notFound (str "outbox " ++ entry.outboxId)), outbox)

end Outbox

end sow.db
