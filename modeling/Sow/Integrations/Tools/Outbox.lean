import Sow.Integrations.Tools.Ports
import Sow.Js.Number

open sow.js sow.effect sow.contracts sow.db

namespace sow.tools

inductive HoldReason where
  | unreachable
  | queued
  | not_approved
  deriving DecidableEq

def OUTBOX_HEALTH_PROBE_FAILED_REASON : JsString := str "outbox health probe failed (store read fault)"

/-- The inputs of the depth check. -/
structure OutboxHealthDeps (Time : Type) where
  now : Time
  depthThreshold : Nat
  limit : Nat

/-- The write to hold. -/
structure HoldWriteArgs (Payload : Type) where
  env : ExternalWriteEnvelope
  action : ProposedAction Payload
  reason : HoldReason
  workspaceId : JsString

def toOutboxStatus : HoldReason → JsString
  | .not_approved => str "proposed"
  | .unreachable => str "retry_queued"
  | .queued => str "retry_queued"

section outbox

variable {Time Payload : Type} (redactString : JsString → JsString)

/-- `buildToolWriteHealthSignal` for a blocked outbox. -/
def outboxBlockedSignal (reason : JsString) : GatewayHealthSignal where
  failureClass := str "outbox_blocked"
  subjectRef := str "outbox"
  severity := str "error"
  message := redactString (str "tool write outbox outbox_blocked: " ++ reason)
  refs := [str "outbox"]

def classifyOutboxDepth (depth depthThreshold : Nat) : OutboxHealthProbe :=
  if depth ≤ depthThreshold then .ok
  else .breach (outboxBlockedSignal redactString
    (str "outbox depth " ++ decimal depth ++ str " exceeds threshold " ++ decimal depthThreshold))

def outboxHealth (deps : OutboxHealthDeps Time) : ToolM Time Payload OutboxHealthProbe := do
  match ← Outbox.listDue deps.now deps.limit with
  | .error _ => pure (.probe_failed OUTBOX_HEALTH_PROBE_FAILED_REASON)
  | .ok due => pure (classifyOutboxDepth redactString due.length deps.depthThreshold)

/-- A health probe never fails the hold; `none` leaves it unbound. -/
def runHealthProbe (health : Option (OutboxHealthDeps Time)) : ToolM Time Payload Unit :=
  match health with
  | none => pure ()
  | some deps =>
    Program.tryCatch (do
      let probe ← outboxHealth redactString deps
      Hooks.health probe) fun _ => pure ()

/-- The entry of a fresh hold. -/
def heldEntry (args : HoldWriteArgs Payload) (outboxId : JsString) (now : Time) : OutboxEntry Time Payload where
  outboxId := outboxId
  actionRef := args.action.actionId
  workspaceId := args.workspaceId
  targetSystem := args.env.targetSystem
  canonicalObjectKey := args.env.canonicalObjectKey
  idempotencyKey := args.env.idempotencyKey
  payloadHash := args.env.payloadHash
  status := toOutboxStatus args.reason
  payload := some args.action.payload
  approvalPolicy := some args.action.approvalPolicy
  writeReceipt := none
  attempts := 0
  enqueuedAt := now
  nextAttemptAt := none
  updatedAt := now

/-- A concurrent hold of the same key may have won the race since the lookup; its entry
    is reused. -/
def reuseWinner (k : JsString) (e : DbError) : ToolM Time Payload (DbResult (OutboxEntry Time Payload)) := do
  match ← Outbox.getByIdempotencyKey k with
  | .ok winner => pure (.ok winner)
  | .error _ => pure (.error e)

/-- The part of `holdWrite` for a key that the lookup has not found. -/
def holdFresh (health : Option (OutboxHealthDeps Time)) (args : HoldWriteArgs Payload) :
    ToolM Time Payload (DbResult (OutboxEntry Time Payload)) := do
  let now ← Hooks.clock
  let outboxId ← Hooks.outboxId
  match ← Outbox.enqueue (heldEntry args outboxId now) with
  | .error e => if e.code = .conflict then reuseWinner args.env.idempotencyKey e else pure (.error e)
  | .ok enqueued =>
    runHealthProbe redactString health
    pure (.ok enqueued)

/-- Hold a write that cannot be dispatched now; a key that is held already is reused. -/
def holdWrite (health : Option (OutboxHealthDeps Time)) (args : HoldWriteArgs Payload) :
    ToolM Time Payload (DbResult (OutboxEntry Time Payload)) := do
  match ← Outbox.getByIdempotencyKey args.env.idempotencyKey with
  | .ok existing =>
    runHealthProbe redactString health
    pure (.ok existing)
  | .error _ => holdFresh redactString health args

end outbox

end sow.tools
