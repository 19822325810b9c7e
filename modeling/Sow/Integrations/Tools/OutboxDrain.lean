import Sow.Integrations.Tools.Gateway
import Sow.Integrations.Tools.Outbox

open sow.js sow.effect sow.contracts sow.db

namespace sow.tools

def EXISTENCE_PRECONDITION : JsString := str "exists_check"

/-- The fallback of an entry without a persisted policy; it always gates. -/
def REDRIVE_APPROVAL_POLICY : JsString := str "queued"

structure BackoffConfig where
  baseMs : Nat
  maxMs : Nat
  maxAttempts : Nat

/-- The delay before a retry, or `none` once the retries are exhausted. -/
def nextDelayMs (attempt : Nat) (cfg : BackoffConfig) (jitter : Option (Nat → Int)) : Option Nat :=
  if attempt < 1 then none
  else if attempt > cfg.maxAttempts then none
  else
    let clamped := min (cfg.baseMs * 2 ^ (attempt - 1)) cfg.maxMs
    match jitter with
    | none => some clamped
    | some jitter => some (min (jitter clamped).toNat cfg.maxMs)

structure DrainHealth where
  depthThreshold : Nat

/-- The injected effects of one pass. `addMs` adds milliseconds to a timestamp, `empty`
    is the payload without fields, and `dispatch` the bound dispatch, if any. -/
structure DrainDeps (Time Payload : Type) where
  gatewayDeps : ExternalWriteDeps Payload
  workspaceId : JsString
  now : Time
  limit : Nat
  backoffCfg : BackoffConfig
  jitter : Option (Nat → Int)
  shouldDrive : Option (OutboxEntry Time Payload → Bool)
  dispatch : Option (ExternalWriteEnvelope → ProposedAction Payload → ExternalWriteDeps Payload → DispatchOptions Time →
    ToolM Time Payload (ExternalWriteResult Time))
  health : Option DrainHealth
  addMs : Time → Nat → Time
  empty : Payload

/-- The buckets of a pass. -/
inductive DrainBucket where
  | drained
  | reused
  | held
  | failed
  | skipped
  deriving DecidableEq

structure DrainResult where
  drained : Nat
  reused : Nat
  held : Nat
  failed : Nat
  skipped : Nat
  deriving DecidableEq

def DrainResult.count (counts : DrainResult) : DrainBucket → DrainResult
  | .drained => { counts with drained := counts.drained + 1 }
  | .reused => { counts with reused := counts.reused + 1 }
  | .held => { counts with held := counts.held + 1 }
  | .failed => { counts with failed := counts.failed + 1 }
  | .skipped => { counts with skipped := counts.skipped + 1 }

section drain

variable {Time Payload : Type}

def rebuildAction (empty : Payload) (entry : OutboxEntry Time Payload) : ProposedAction Payload where
  actionId := entry.actionRef
  targetSystem := entry.targetSystem
  canonicalObjectKey := entry.canonicalObjectKey
  payload := entry.payload.getD empty
  approvalPolicy := entry.approvalPolicy.getD REDRIVE_APPROVAL_POLICY
  idempotencyKey := entry.idempotencyKey

def rebuildEnvelope (entry : OutboxEntry Time Payload) : ExternalWriteEnvelope where
  actionId := entry.actionRef
  targetSystem := entry.targetSystem
  canonicalObjectKey := entry.canonicalObjectKey
  idempotencyKey := entry.idempotencyKey
  preconditions := [EXISTENCE_PRECONDITION]
  payloadHash := entry.payloadHash

def computeNextAttemptAt (deps : DrainDeps Time Payload) (attempts : Nat) : Time :=
  deps.addMs deps.now ((nextDelayMs attempts deps.backoffCfg deps.jitter).getD deps.backoffCfg.maxMs)

/-- Close an entry with the receipt of its write. -/
def closeApplied (entry : OutboxEntry Time Payload) (receipt : WriteReceipt Time) (now : Time) : OutboxEntry Time Payload :=
  { entry with status := str "receipt_recorded", writeReceipt := some receipt, updatedAt := now }

/-- Close an entry that is not going to be written. -/
def closeRejected (entry : OutboxEntry Time Payload) (now : Time) : OutboxEntry Time Payload :=
  { entry with status := str "rejected", attempts := entry.attempts + 1, updatedAt := now }

/-- Hold an entry again, with a bounded backoff. -/
def holdAgain (deps : DrainDeps Time Payload) (entry : OutboxEntry Time Payload) (status : JsString) (now : Time) :
    OutboxEntry Time Payload :=
  { entry with
    status := status
    attempts := entry.attempts + 1
    nextAttemptAt := some (computeNextAttemptAt deps (entry.attempts + 1))
    updatedAt := now }

/-- The entry and the bucket that an outcome leads to. -/
def foldOutcome (deps : DrainDeps Time Payload) (entry : OutboxEntry Time Payload) (now : Time) :
    ExternalWriteResult Time → OutboxEntry Time Payload × DrainBucket
  | .updated receipt => (closeApplied entry receipt now, .drained)
  | .created receipt => (closeApplied entry receipt now, .drained)
  | .reused receipt => (closeApplied entry receipt now, .reused)
  | .superseded _ => (closeRejected entry now, .failed)
  | .held _ _ => (holdAgain deps entry (str "retry_queued") now, .held)
  | .approval_pending => (holdAgain deps entry (str "proposed") now, .held)
  | .conflict _ _ => (closeRejected entry now, .failed)
  | .rejected _ _ => (closeRejected entry now, .failed)

/-- Fold a dispatch outcome back onto its entry. -/
def applyOutcome (deps : DrainDeps Time Payload) (entry : OutboxEntry Time Payload) (outcome : ExternalWriteResult Time) :
    ToolM Time Payload DrainBucket := do
  let now ← Hooks.clock
  let _ ← Outbox.update (foldOutcome deps entry now outcome).1
  pure (foldOutcome deps entry now outcome).2

/-- A health probe never fails a drain; it is reported only if it is bound. -/
def reportDepth (deps : DrainDeps Time Payload) (probe : OutboxHealthProbe) : ToolM Time Payload Unit :=
  match deps.health with
  | none => pure ()
  | some _ => (Hooks.health probe).tryCatch fun _ => pure ()

/-- An entry that is not driven now is pushed back, status and attempts unchanged. -/
def pushBack (deps : DrainDeps Time Payload) (entry : OutboxEntry Time Payload) : ToolM Time Payload Unit := do
  let updatedAt ← Hooks.clock
  let _ ← Outbox.update { entry with
    nextAttemptAt := some (deps.addMs deps.now deps.backoffCfg.maxMs)
    updatedAt := updatedAt }
  pure ()

variable [LinearOrder Time]

/-- Re-drive one due entry. -/
def redrive (deps : DrainDeps Time Payload) (entry : OutboxEntry Time Payload) : ToolM Time Payload DrainBucket := do
  let dispatch := deps.dispatch.getD fun env action gatewayDeps opts => dispatchExternalWrite gatewayDeps env action opts
  let outcome ← dispatch (rebuildEnvelope entry) (rebuildAction deps.empty entry) deps.gatewayDeps
    ⟨some entry.enqueuedAt, some entry.workspaceId⟩
  applyOutcome deps entry outcome

/-- The pass over the entries that were due when it started. -/
def drainEntries (deps : DrainDeps Time Payload) (counts : DrainResult) :
    List (OutboxEntry Time Payload) → ToolM Time Payload DrainResult
  | [] => pure counts
  | entry :: rest => do
    if entry.workspaceId ≠ deps.workspaceId then drainEntries deps (counts.count .skipped) rest
    else if deps.shouldDrive.all fun shouldDrive => shouldDrive entry then
      let bucket ← redrive deps entry
      drainEntries deps (counts.count bucket) rest
    else
      pushBack deps entry
      drainEntries deps (counts.count .skipped) rest

/-- One pass over the outbox, for one workspace. -/
def drainOutbox (redactString : JsString → JsString) (deps : DrainDeps Time Payload) : ToolM Time Payload DrainResult := do
  match ← Outbox.listDue deps.now deps.limit with
  | .error _ =>
    reportDepth deps (.probe_failed OUTBOX_HEALTH_PROBE_FAILED_REASON)
    pure ⟨0, 0, 0, 0, 0⟩
  | .ok due =>
    match deps.health with
    | none => pure ()
    | some health => reportDepth deps (classifyOutboxDepth redactString due.length health.depthThreshold)
    drainEntries deps ⟨0, 0, 0, 0, 0⟩ due

end drain

end sow.tools
