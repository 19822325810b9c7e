import Sow.Integrations.Tools.Ports

open sow.js sow.effect sow.contracts sow.db

namespace sow.tools

/-- A committed receipt, by both of its keys. -/
structure ReceiptRecord (Time : Type) where
  idempotencyKey : JsString
  object : ObjectKey
  payloadHash : JsString
  receipt : WriteReceipt Time
  recordedAt : Time
  deriving DecidableEq

/-- A lookup that tells a miss from a fault of the store. -/
inductive ReceiptLookup (Time : Type) where
  | hit (record : ReceiptRecord Time)
  | miss
  | fault (code : DbErrorCode)

inductive ReceiptReservation (Time : Type) where
  | reserved
  | in_progress
  | committed (record : ReceiptRecord Time)

def dbErrorText : DbErrorCode → JsString
  | .not_found => str "not_found"
  | .conflict => str "conflict"
  | .constraint_violation => str "constraint_violation"
  | .serialization_failure => str "serialization_failure"
  | .unavailable => str "unavailable"
  | .stored_row_schema_violation => str "stored_row_schema_violation"
  | .unknown => str "unknown"

section store

variable {Time Payload : Type}

/-- A row without a receipt is a reservation and no record; the key of a committed row is set. -/
def rowToReceiptRecord (row : WriteReceiptRow Time) : Option (ReceiptRecord Time) :=
  row.receipt.map fun receipt => ⟨row.idempotencyKey.getD [], row.object, row.payloadHash, receipt, row.recordedAt⟩

def receiptRecordToRow (rec : ReceiptRecord Time) : WriteReceiptRow Time :=
  ⟨rec.object, some rec.idempotencyKey, rec.payloadHash, some rec.receipt, rec.recordedAt⟩

/-- Only `not_found` is a miss, and so is a bare reservation. -/
def checkedLookup : DbResult (WriteReceiptRow Time) → ReceiptLookup Time
  | .error e => if e.code = .not_found then .miss else .fault e.code
  | .ok row =>
    match rowToReceiptRecord row with
    | none => .miss
    | some record => .hit record

def applicationLookup : DbResult (WriteApplicationRow Time) → ReceiptLookup Time
  | .error e => if e.code = .not_found then .miss else .fault e.code
  | .ok row => .hit ⟨row.idempotencyKey, row.object, row.payloadHash, row.receipt, row.appliedAt⟩

/-- A fault of the reservation, or a committed row without a receipt, counts as in progress. -/
def reservationOf : DbResult (ReserveOutcome Time) → ReceiptReservation Time
  | .error _ => .in_progress
  | .ok .reserved => .reserved
  | .ok .in_progress => .in_progress
  | .ok (.committed row) =>
    match rowToReceiptRecord row with
    | none => .in_progress
    | some record => .committed record

/-! The durable store of the worker, which has the checked lookups and the ledger. -/

def ReceiptStore.getByIdempotencyKeyChecked (k : JsString) : ToolM Time Payload (ReceiptLookup Time) :=
  checkedLookup <$> WriteReceipts.getByIdempotencyKey k

def ReceiptStore.getByCanonicalObjectKeyChecked (object : ObjectKey) : ToolM Time Payload (ReceiptLookup Time) :=
  checkedLookup <$> WriteReceipts.getByCanonicalObjectKey object

def ReceiptStore.getApplication (k : JsString) : ToolM Time Payload (ReceiptLookup Time) :=
  applicationLookup <$> WriteReceipts.getApplication k

def ReceiptStore.reserve (object : ObjectKey) : ToolM Time Payload (ReceiptReservation Time) :=
  reservationOf <$> WriteReceipts.reserve object

/-- The three writes of the store drop the errors of the repository. -/
def ReceiptStore.recordApplication (r : ReceiptRecord Time) : ToolM Time Payload Unit := do
  let _ ← WriteReceipts.recordApplication ⟨r.idempotencyKey, r.object, r.payloadHash, r.receipt, r.recordedAt⟩
  pure ()

def ReceiptStore.release (object : ObjectKey) : ToolM Time Payload Unit := do
  let _ ← WriteReceipts.release object
  pure ()

def ReceiptStore.put (r : ReceiptRecord Time) : ToolM Time Payload Unit := do
  let _ ← WriteReceipts.put (receiptRecordToRow r)
  pure ()

def buildReceiptRecord (env : ExternalWriteEnvelope) (receipt : WriteReceipt Time) (recordedAt : Time) : ReceiptRecord Time :=
  ⟨env.idempotencyKey, (env.targetSystem, env.canonicalObjectKey), env.payloadHash, receipt, recordedAt⟩

/-- A committed write: the ledger first, then the row of the object. -/
def recordReceipt (env : ExternalWriteEnvelope) (receipt : WriteReceipt Time) : ToolM Time Payload Unit := do
  let record := buildReceiptRecord env receipt (← Hooks.clock)
  ReceiptStore.recordApplication record
  ReceiptStore.put record

/-- An adopted object was not written: it gets its row, and no entry of the ledger. -/
def recordAdoptedObject (env : ExternalWriteEnvelope) (receipt : WriteReceipt Time) : ToolM Time Payload Unit := do
  let record := buildReceiptRecord env receipt (← Hooks.clock)
  ReceiptStore.put record

/-- The ledger has the envelope whose key is on the object's row. -/
def isAuthoredByThisSystem (record : ReceiptRecord Time) : ToolM Time Payload Bool := do
  match ← ReceiptStore.getApplication record.idempotencyKey with
  | .hit _ => pure true
  | .miss => pure false
  | .fault _ => pure false

/-- The outcome of the existence check; a hit is a stored record or a live object. -/
inductive ExistenceOutcome (Time : Type) where
  | replay (receipt : WriteReceipt Time)
  | stored (record : ReceiptRecord Time)
  | live (object : ExistingObject)
  | none
  | error (e : AdapterError)

def lookupFault (what : JsString) (code : DbErrorCode) : AdapterError :=
  ⟨.unreachable, what ++ str " lookup failed (" ++ dbErrorText code ++ str ")"⟩

/-- The ledger, the receipt by its replay key, the receipt of the object, the live probe. -/
def resolveExisting (env : ExternalWriteEnvelope) (ctx : AdapterCallContext) :
    ToolM Time Payload (ExistenceOutcome Time) := do
  match ← ReceiptStore.getApplication env.idempotencyKey with
  | .fault code => pure (.error (lookupFault (str "applied-write ledger") code))
  | .hit record => pure (.replay record.receipt)
  | .miss =>
    match ← ReceiptStore.getByIdempotencyKeyChecked env.idempotencyKey with
    | .fault code => pure (.error (lookupFault (str "receipt store") code))
    | .hit record => pure (.replay record.receipt)
    | .miss =>
      match ← ReceiptStore.getByCanonicalObjectKeyChecked (env.targetSystem, env.canonicalObjectKey) with
      | .fault code => pure (.error (lookupFault (str "receipt store") code))
      | .hit record => pure (.stored record)
      | .miss =>
        match ← Adapter.existenceCheck env ctx with
        | .error e => pure (.error e)
        | .ok (some object) => pure (.live object)
        | .ok none => pure .none

end store

end sow.tools
