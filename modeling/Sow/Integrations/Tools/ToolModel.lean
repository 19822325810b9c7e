import Mathlib.Data.Prod.Lex
import Sow.Integrations.Tools.OutboxDrain
import Sow.Js.Map
import Sow.Sql.Keyset

open sow.js sow.effect sow.contracts sow.db sow.sql

namespace sow.tools

/-- A call of `create` or `update` on the vendor: whether it took effect there, and
    whether it was reported as done. -/
structure VendorCall (Payload : Type) where
  creates : Bool
  env : ExternalWriteEnvelope
  payload : Payload
  landed : Bool
  ok : Bool
  deriving DecidableEq

def VendorCall.object {Payload : Type} (c : VendorCall Payload) : ObjectKey := (c.env.targetSystem, c.env.canonicalObjectKey)

/-- The stores, the vendor with the calls made on it so far, and the clock. -/
structure ToolWorld (Time Payload : Type) where
  outbox : List (OutboxEntry Time Payload)
  receipts : Map ObjectKey (WriteReceiptRow Time)
  applications : Map JsString (WriteApplicationRow Time)
  /-- The objects that the vendor had before. -/
  preexisting : ObjectKey → Option ExistingObject
  calls : List (VendorCall Payload)
  now : Time

/-- What a live existence check reports. -/
inductive Probe where
  /-- whether the object exists at that moment; `object` is how a created one looks -/
  | exact (object : ExistingObject)
  | reports (report : Except AdapterError (Option ExistingObject))

/-- What the environment decides at a call; each operation heeds the choices that
    concern it. -/
structure Choice (Time : Type) where
  /-- A store operation fails. -/
  fault : Option DbError
  /-- What is reported as failed took effect nevertheless. -/
  landed : Bool
  adapter : Except AdapterError (WriteReceipt Time)
  probe : Probe
  approved : Bool
  secret : Except Cause (Except WriteSecretReason JsString)
  sink : Except Cause Unit
  time : Time
  id : JsString

/-- Nothing fails; the vendor is not reached and nothing is approved. -/
def Choice.calm {Time : Type} (time : Time) : Choice Time where
  fault := none
  landed := false
  adapter := .error ⟨.unreachable, []⟩
  probe := .reports (.ok none)
  approved := false
  secret := .ok (.ok [])
  sink := .ok ()
  time := time
  id := []

variable {Time Payload : Type}

/-- The states that end an entry. -/
def OUTBOX_TERMINAL : List JsString := [str "receipt_recorded", str "rejected", str "expired"]

/-- The driver refuses a duplicate key. -/
def duplicateKey : DbError := postgres.toDbError ⟨[some (str "23505")], none⟩

/-- The object exists at the vendor. -/
def ToolWorld.holds (w : ToolWorld Time Payload) (object : ObjectKey) : Bool :=
  (w.preexisting object).isSome || w.calls.any fun c => c.creates && c.landed && c.object = object

namespace tables

/-- `reserve`, one atomic statement: insert a placeholder unless the object has a row. -/
def reserve (epoch : Time) (rows : Map ObjectKey (WriteReceiptRow Time)) (object : ObjectKey) :
    ReserveOutcome Time × Map ObjectKey (WriteReceiptRow Time) :=
  match rows.get object with
  | none => (.reserved, rows.set object ⟨object, none, [], none, epoch⟩)
  | some row => (if row.receipt.isSome then .committed row else .in_progress, rows)

def committedRow (what : JsString) : Option (WriteReceiptRow Time) → DbResult (WriteReceiptRow Time)
  | some row => if row.receipt.isSome then .ok row else .error (notFound what)
  | none => .error (notFound what)

def getByIdempotencyKey (rows : Map ObjectKey (WriteReceiptRow Time)) (k : JsString) : DbResult (WriteReceiptRow Time) :=
  committedRow (str "write-receipt idempotencyKey " ++ k)
    ((rows.entries.find? fun e => e.2.idempotencyKey = some k).map Prod.snd)

def getByCanonicalObjectKey (rows : Map ObjectKey (WriteReceiptRow Time)) (object : ObjectKey) : DbResult (WriteReceiptRow Time) :=
  committedRow (str "write-receipt " ++ object.1.text ++ str "/" ++ object.2) (rows.get object)

/-- `put` upserts the row of the object; a replay key is on one row at most. -/
def put (rows : Map ObjectKey (WriteReceiptRow Time)) (row : WriteReceiptRow Time) :
    DbResult Unit × Map ObjectKey (WriteReceiptRow Time) :=
  if rows.entries.any fun e => e.1 ≠ row.object && e.2.idempotencyKey.isSome && e.2.idempotencyKey = row.idempotencyKey then
    (.error duplicateKey, rows)
  else (.ok (), rows.set row.object row)

/-- The first application of a key is kept. -/
def recordApplication (rows : Map JsString (WriteApplicationRow Time)) (row : WriteApplicationRow Time) :
    Map JsString (WriteApplicationRow Time) :=
  if rows.has row.idempotencyKey then rows else rows.set row.idempotencyKey row

def getApplication (rows : Map JsString (WriteApplicationRow Time)) (k : JsString) : DbResult (WriteApplicationRow Time) :=
  match rows.get k with
  | some row => .ok row
  | none => .error (notFound (str "write-application " ++ k))

/-- `release` deletes a placeholder, never a receipt. -/
def release (rows : Map ObjectKey (WriteReceiptRow Time)) (object : ObjectKey) : Map ObjectKey (WriteReceiptRow Time) :=
  match rows.get object with
  | some row => if row.receipt.isNone then rows.delete object else rows
  | none => rows

def enqueue (rows : List (OutboxEntry Time Payload)) (entry : OutboxEntry Time Payload) :
    DbResult (OutboxEntry Time Payload) × List (OutboxEntry Time Payload) :=
  if rows.any fun r => r.outboxId = entry.outboxId then (.error duplicateKey, rows) else (.ok entry, rows ++ [entry])

def getOutboxEntry (rows : List (OutboxEntry Time Payload)) (k : JsString) : DbResult (OutboxEntry Time Payload) :=
  match rows.find? fun r => r.idempotencyKey = k with
  | some entry => .ok entry
  | none => .error (notFound (str "outbox idempotencyKey " ++ k))

/-- `asc(enqueuedAt), asc(outboxId)` -/
def dueOrder (entry : OutboxEntry Time Payload) : Time ×ₗ List Nat := toLex (entry.enqueuedAt, entry.outboxId.map UInt16.toNat)

variable [LinearOrder Time]

def isDue (now : Time) (entry : OutboxEntry Time Payload) : Bool :=
  entry.status ∉ OUTBOX_TERMINAL && entry.nextAttemptAt.all fun t => t ≤ now

def listDue (rows : List (OutboxEntry Time Payload)) (now : Time) (limit : Nat) : List (OutboxEntry Time Payload) :=
  (orderBy dueOrder (rows.filter (isDue now))).take limit

/-- The approval policy of an entry is immutable. -/
def update (rows : List (OutboxEntry Time Payload)) (entry : OutboxEntry Time Payload) :
    DbResult (OutboxEntry Time Payload) × List (OutboxEntry Time Payload) :=
  match rows.find? fun r => r.outboxId = entry.outboxId with
  | none => (.error (notFound (str "outbox " ++ entry.outboxId)), rows)
  | some row =>
    (.ok { entry with approvalPolicy := row.approvalPolicy },
      rows.map fun r => if r.outboxId = entry.outboxId then { entry with approvalPolicy := r.approvalPolicy } else r)

end tables

/-- A store operation answers and takes effect, or fails as the choice says. -/
def stored {α : Type} (d : Choice Time) (w w' : ToolWorld Time Payload) (answer : DbResult α) :
    Except Cause (DbResult α) × ToolWorld Time Payload :=
  match d.fault with
  | none => (.ok answer, w')
  | some e => (.ok (.error e), if d.landed then w' else w)

/-- A store operation always answers: as it should, or with a fault. -/
theorem stored_answers {α : Type} (d : Choice Time) (w w' : ToolWorld Time Payload) (answer : DbResult α) :
    ∃ r w₁, stored d w w' answer = (.ok r, w₁) ∧ ((r = answer ∧ w₁ = w') ∨ ∃ e, r = .error e ∧ (w₁ = w ∨ w₁ = w')) := by
  unfold stored
  cases d.fault with
  | none => exact ⟨_, _, rfl, .inl ⟨rfl, rfl⟩⟩
  | some e =>
    cases d.landed with
    | false => exact ⟨_, _, rfl, .inr ⟨e, rfl, .inl rfl⟩⟩
    | true => exact ⟨_, _, rfl, .inr ⟨e, rfl, .inr rfl⟩⟩

def Probe.report (w : ToolWorld Time Payload) (object : ObjectKey) : Probe → Except AdapterError (Option ExistingObject)
  | .exact seen => .ok (if w.holds object then some ((w.preexisting object).getD seen) else none)
  | .reports report => report

/-- A call that is reported as done took effect; a failed one may have. -/
def vendorCall (d : Choice Time) (w : ToolWorld Time Payload) (creates : Bool) (env : ExternalWriteEnvelope) (payload : Payload) :
    ToolWorld Time Payload :=
  { w with calls := w.calls ++ [⟨creates, env, payload, d.adapter.isOk || d.landed, d.adapter.isOk⟩] }

/-- The stores, the vendor, the hooks and the clock; every call is atomic. -/
def toolHandler [LinearOrder Time] (epoch : Time) :
    Handler (ToolOp Time Payload) ToolOp.Ret Cause (ToolWorld Time Payload) (Choice Time) where
  exec w op d := match op with
    | .reserve object =>
      stored d w { w with receipts := (tables.reserve epoch w.receipts object).2 } (.ok (tables.reserve epoch w.receipts object).1)
    | .getByIdempotencyKey k => stored d w w (tables.getByIdempotencyKey w.receipts k)
    | .getByCanonicalObjectKey object => stored d w w (tables.getByCanonicalObjectKey w.receipts object)
    | .put row => stored d w { w with receipts := (tables.put w.receipts row).2 } (tables.put w.receipts row).1
    | .recordApplication row =>
      stored d w { w with applications := tables.recordApplication w.applications row } (.ok ())
    | .getApplication k => stored d w w (tables.getApplication w.applications k)
    | .release object => stored d w { w with receipts := tables.release w.receipts object } (.ok ())
    | .existenceCheck env _ => (.ok (d.probe.report w (env.targetSystem, env.canonicalObjectKey)), w)
    | .create env payload _ => (.ok d.adapter, vendorCall d w true env payload)
    | .update env payload _ _ => (.ok d.adapter, vendorCall d w false env payload)
    | .isApproved _ => (.ok d.approved, w)
    | .recordPendingApproval _ _ => (.ok (), w)
    | .getSecret _ => (d.secret, w)
    | .audit _ => (.ok (), w)
    | .enqueue entry => stored d w { w with outbox := (tables.enqueue w.outbox entry).2 } (tables.enqueue w.outbox entry).1
    | .getOutboxEntry k => stored d w w (tables.getOutboxEntry w.outbox k)
    | .listDue now limit => stored d w w (.ok (tables.listDue w.outbox now limit))
    | .updateOutbox entry => stored d w { w with outbox := (tables.update w.outbox entry).2 } (tables.update w.outbox entry).1
    | .health _ => (d.sink, w)
    | .clock => (.ok (max w.now d.time), { w with now := max w.now d.time })
    | .outboxId => (.ok d.id, w)

end sow.tools
