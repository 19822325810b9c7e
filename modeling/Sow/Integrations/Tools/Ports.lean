import Sow.Contracts.Models
import Sow.Db.Errors

open sow.js sow.effect sow.contracts sow.db

namespace sow.tools

/-- The identity of an external object. -/
abbrev ObjectKey := TargetSystem × JsString

/-- A vendor object found by a live existence check. -/
structure ExistingObject where
  externalObjectId : JsString
  externalUrl : Option JsString
  rawRef : Option JsString
  deriving DecidableEq

inductive AdapterErrorCode where
  | unreachable
  | conflict
  | rejected
  | unknown
  | not_found
  deriving DecidableEq

def AdapterErrorCode.text : AdapterErrorCode → JsString
  | .unreachable => str "unreachable"
  | .conflict => str "conflict"
  | .rejected => str "rejected"
  | .unknown => str "unknown"
  | .not_found => str "not_found"

structure AdapterError where
  code : AdapterErrorCode
  message : JsString
  deriving DecidableEq

/-- Per-call facts that the envelope does not carry. -/
structure AdapterCallContext where
  workspaceId : Option JsString
  deriving DecidableEq

/-- The receipt row of an object; without a receipt it is a reservation. -/
structure WriteReceiptRow (Time : Type) where
  object : ObjectKey
  idempotencyKey : Option JsString
  payloadHash : JsString
  receipt : Option (WriteReceipt Time)
  recordedAt : Time
  deriving DecidableEq

/-- One applied write of the ledger. -/
structure WriteApplicationRow (Time : Type) where
  idempotencyKey : JsString
  object : ObjectKey
  payloadHash : JsString
  receipt : WriteReceipt Time
  appliedAt : Time
  deriving DecidableEq

inductive ReserveOutcome (Time : Type) where
  | reserved
  | in_progress
  | committed (record : WriteReceiptRow Time)

/-- A held external write. -/
structure OutboxEntry (Time Payload : Type) where
  outboxId : JsString
  actionRef : JsString
  workspaceId : JsString
  targetSystem : TargetSystem
  canonicalObjectKey : JsString
  idempotencyKey : JsString
  payloadHash : JsString
  approvalPolicy : Option JsString
  status : JsString
  payload : Option Payload
  writeReceipt : Option (WriteReceipt Time)
  attempts : Nat
  enqueuedAt : Time
  nextAttemptAt : Option Time
  updatedAt : Time
  deriving DecidableEq

def OutboxEntry.object {Time Payload : Type} (entry : OutboxEntry Time Payload) : ObjectKey :=
  (entry.targetSystem, entry.canonicalObjectKey)

/-- Why a write secret is unavailable. -/
inductive WriteSecretReason where
  | locked
  | missing
  | denied
  deriving DecidableEq

def WriteSecretReason.text : WriteSecretReason → JsString
  | .locked => str "locked"
  | .missing => str "missing"
  | .denied => str "denied"

structure GatewayHealthSignal where
  failureClass : JsString
  subjectRef : JsString
  severity : JsString
  message : JsString
  refs : List JsString
  deriving DecidableEq

inductive OutboxHealthProbe where
  | ok
  | breach (signal : GatewayHealthSignal)
  | probe_failed (reason : JsString)
  deriving DecidableEq

/-- The injected operations of the Tool Gateway and of the outbox: the write-receipt
    repository, the vendor adapter, the hooks of a dispatch, the outbox repository, and
    the sources of times and ids. -/
inductive ToolOp (Time Payload : Type) where
  | reserve (object : ObjectKey)
  | getByIdempotencyKey (idempotencyKey : JsString)
  | getByCanonicalObjectKey (object : ObjectKey)
  | put (row : WriteReceiptRow Time)
  | recordApplication (row : WriteApplicationRow Time)
  | getApplication (idempotencyKey : JsString)
  | release (object : ObjectKey)
  | existenceCheck (env : ExternalWriteEnvelope) (ctx : AdapterCallContext)
  | create (env : ExternalWriteEnvelope) (payload : Payload) (ctx : AdapterCallContext)
  | update (env : ExternalWriteEnvelope) (payload : Payload) (expectedPrecondition : JsString) (ctx : AdapterCallContext)
  | isApproved (env : ExternalWriteEnvelope)
  | recordPendingApproval (action : ProposedAction Payload) (env : ExternalWriteEnvelope)
  | getSecret (ref : JsString)
  | audit (record : AuditRecord Time)
  | enqueue (entry : OutboxEntry Time Payload)
  | getOutboxEntry (idempotencyKey : JsString)
  | listDue (now : Time) (limit : Nat)
  | updateOutbox (entry : OutboxEntry Time Payload)
  | health (probe : OutboxHealthProbe)
  | clock
  | outboxId

abbrev ToolOp.Ret {Time Payload : Type} : ToolOp Time Payload → Type
  | .reserve _ => DbResult (ReserveOutcome Time)
  | .getByIdempotencyKey _ => DbResult (WriteReceiptRow Time)
  | .getByCanonicalObjectKey _ => DbResult (WriteReceiptRow Time)
  | .put _ => DbResult Unit
  | .recordApplication _ => DbResult Unit
  | .getApplication _ => DbResult (WriteApplicationRow Time)
  | .release _ => DbResult Unit
  | .existenceCheck _ _ => Except AdapterError (Option ExistingObject)
  | .create _ _ _ => Except AdapterError (WriteReceipt Time)
  | .update _ _ _ _ => Except AdapterError (WriteReceipt Time)
  | .isApproved _ => Bool
  | .recordPendingApproval _ _ => Unit
  | .getSecret _ => Except WriteSecretReason JsString
  | .audit _ => Unit
  | .enqueue _ => DbResult (OutboxEntry Time Payload)
  | .getOutboxEntry _ => DbResult (OutboxEntry Time Payload)
  | .listDue _ _ => DbResult (List (OutboxEntry Time Payload))
  | .updateOutbox _ => DbResult (OutboxEntry Time Payload)
  | .health _ => Unit
  | .clock => Time
  | .outboxId => JsString

/-- A value thrown by an injected port. -/
abbrev Cause := JsString

abbrev ToolM (Time Payload : Type) := Program (ToolOp Time Payload) ToolOp.Ret Cause

section ports

variable {Time Payload : Type}

def WriteReceipts.reserve (object : ObjectKey) : ToolM Time Payload (DbResult (ReserveOutcome Time)) :=
  .perform (ToolOp.reserve object)
def WriteReceipts.getByIdempotencyKey (k : JsString) : ToolM Time Payload (DbResult (WriteReceiptRow Time)) :=
  .perform (ToolOp.getByIdempotencyKey k)
def WriteReceipts.getByCanonicalObjectKey (object : ObjectKey) : ToolM Time Payload (DbResult (WriteReceiptRow Time)) :=
  .perform (ToolOp.getByCanonicalObjectKey object)
def WriteReceipts.put (row : WriteReceiptRow Time) : ToolM Time Payload (DbResult Unit) := .perform (ToolOp.put row)
def WriteReceipts.recordApplication (row : WriteApplicationRow Time) : ToolM Time Payload (DbResult Unit) :=
  .perform (ToolOp.recordApplication row)
def WriteReceipts.getApplication (k : JsString) : ToolM Time Payload (DbResult (WriteApplicationRow Time)) :=
  .perform (ToolOp.getApplication k)
def WriteReceipts.release (object : ObjectKey) : ToolM Time Payload (DbResult Unit) := .perform (ToolOp.release object)

def Adapter.existenceCheck (env : ExternalWriteEnvelope) (ctx : AdapterCallContext) :
    ToolM Time Payload (Except AdapterError (Option ExistingObject)) := .perform (ToolOp.existenceCheck env ctx)
def Adapter.create (env : ExternalWriteEnvelope) (payload : Payload) (ctx : AdapterCallContext) :
    ToolM Time Payload (Except AdapterError (WriteReceipt Time)) := .perform (ToolOp.create env payload ctx)
def Adapter.update (env : ExternalWriteEnvelope) (payload : Payload) (expectedPrecondition : JsString) (ctx : AdapterCallContext) :
    ToolM Time Payload (Except AdapterError (WriteReceipt Time)) :=
  .perform (ToolOp.update env payload expectedPrecondition ctx)

def Hooks.isApproved (env : ExternalWriteEnvelope) : ToolM Time Payload Bool := .perform (ToolOp.isApproved env)
def Hooks.recordPendingApproval (action : ProposedAction Payload) (env : ExternalWriteEnvelope) : ToolM Time Payload Unit :=
  .perform (ToolOp.recordPendingApproval action env)
def Hooks.getSecret (ref : JsString) : ToolM Time Payload (Except WriteSecretReason JsString) :=
  .perform (ToolOp.getSecret ref)
def Hooks.audit (record : AuditRecord Time) : ToolM Time Payload Unit := .perform (ToolOp.audit record)
def Hooks.health (probe : OutboxHealthProbe) : ToolM Time Payload Unit := .perform (ToolOp.health probe)
def Hooks.clock : ToolM Time Payload Time := .perform ToolOp.clock
def Hooks.outboxId : ToolM Time Payload JsString := .perform ToolOp.outboxId

def Outbox.enqueue (entry : OutboxEntry Time Payload) : ToolM Time Payload (DbResult (OutboxEntry Time Payload)) :=
  .perform (ToolOp.enqueue entry)
def Outbox.getByIdempotencyKey (k : JsString) : ToolM Time Payload (DbResult (OutboxEntry Time Payload)) :=
  .perform (ToolOp.getOutboxEntry k)
def Outbox.listDue (now : Time) (limit : Nat) : ToolM Time Payload (DbResult (List (OutboxEntry Time Payload))) :=
  .perform (ToolOp.listDue now limit)
def Outbox.update (entry : OutboxEntry Time Payload) : ToolM Time Payload (DbResult (OutboxEntry Time Payload)) :=
  .perform (ToolOp.updateOutbox entry)

end ports

end sow.tools
