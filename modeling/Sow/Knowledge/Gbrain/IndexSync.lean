import Sow.Contracts.Models
import Sow.Knowledge.Gbrain.Derive.CanonicalFactDeriver
import Sow.Knowledge.KnowledgeWriter.SyncOutbox

open sow.js sow.effect sow.contracts sow.db
open sow.knowledge_writer (Sha256 RevisionId computeRevisionId GbrainSyncOutboxEntry GbrainSyncOutboxStore)
open sow.markdown_vault (Cause)

namespace sow.gbrain

inductive SnapshotLoadErrorCode where
  | revision_unavailable
  | source_fault
  deriving DecidableEq

structure SnapshotLoadError where
  code : SnapshotLoadErrorCode
  message : JsString
  deriving DecidableEq

/-- The full derived fact set to apply for one committed revision. -/
structure IndexApplyRequest where
  workspaceId : JsString
  revisionId : RevisionId
  facts : List DerivedFact
  deriving DecidableEq

structure IndexApplyReceipt where
  workspaceId : JsString
  revisionId : RevisionId
  nodeCount : Nat
  mutated : Bool
  deriving DecidableEq

inductive IndexApplyErrorCode where
  | gbrain_unavailable
  | apply_failed
  deriving DecidableEq

structure IndexApplyError where
  code : IndexApplyErrorCode
  message : JsString
  deriving DecidableEq

/-- The seams of the index apply; any of them may throw. -/
structure GbrainIndexSyncDeps (Op : Type) (Ret : Op → Type) (Stamp : Type) where
  loadSnapshot : JsString → RevisionId → Program Op Ret Cause (Except SnapshotLoadError CanonicalVaultSnapshot)
  applyRevision : IndexApplyRequest → Program Op Ret Cause (Except IndexApplyError IndexApplyReceipt)
  outbox : GbrainSyncOutboxStore Op Ret Cause Stamp
  now : Program Op Ret Cause Stamp
  newHealthItemId : Program Op Ret Cause JsString

/-- What became of a job. -/
inductive GbrainIndexOutcome (Stamp : Type) where
  | indexed (entry : GbrainSyncOutboxEntry Stamp) (receipt : IndexApplyReceipt)
  | already_indexed (entry : GbrainSyncOutboxEntry Stamp)
  | lagging (entry : GbrainSyncOutboxEntry Stamp) (healthItem : HealthItem Stamp)
  | superseded (entry : GbrainSyncOutboxEntry Stamp)

def GbrainIndexOutcome.isLagging {Stamp : Type} : GbrainIndexOutcome Stamp → Bool
  | .lagging _ _ => true
  | _ => false

section apply

variable {Op : Type} {Ret : Op → Type} {Stamp : Type} (sha256 : Sha256) (deps : GbrainIndexSyncDeps Op Ret Stamp)

/-- A thrown error counts as a fault of the source. -/
def loadSnapshot (entry : GbrainSyncOutboxEntry Stamp) :
    Program Op Ret Cause (Except SnapshotLoadError CanonicalVaultSnapshot) :=
  (deps.loadSnapshot entry.workspaceId entry.revisionId).tryCatch fun cause => pure (.error ⟨.source_fault, cause⟩)

/-- A thrown error counts as a failed apply. -/
def runApply (request : IndexApplyRequest) : Program Op Ret Cause (Except IndexApplyError IndexApplyReceipt) :=
  (deps.applyRevision request).tryCatch fun cause => pure (.error ⟨.apply_failed, cause⟩)

def buildSyncLaggingHealthItem (entry : GbrainSyncOutboxEntry Stamp) (reason : JsString) :
    Program Op Ret Cause (HealthItem Stamp) := do
  let id ← deps.newHealthItemId
  let openedAt ← deps.now
  return {
    id := id
    failureClass := .sync_lagging
    severity := str "warn"
    message := str "GBrain index apply lagging for workspace " ++ entry.workspaceId ++ str " at revision " ++
      entry.revisionId ++ str ": " ++ reason ++ str ". Markdown commit is durable; retry via the sync outbox."
    auditRef := entry.auditRef
    openedAt := openedAt
    state := .open
    resolvedAt := none
    parityReportRef := none
    factIdentity := none }

/-- Advance the entry to `sync_lagging`; a failed persist is swallowed. -/
def lagging (entry : GbrainSyncOutboxEntry Stamp) (reason : JsString) : Program Op Ret Cause (GbrainIndexOutcome Stamp) := do
  let now ← deps.now
  let laggingEntry := { entry with
    status := .sync_lagging, attempts := entry.attempts + 1, lastAttemptAt := some now, lastError := some reason }
  let _ ← deps.outbox.update laggingEntry
  let healthItem ← buildSyncLaggingHealthItem deps entry reason
  return .lagging laggingEntry healthItem

/-- Re-derive the index content from the committed Markdown and apply it. -/
def indexRevision (entry : GbrainSyncOutboxEntry Stamp) : Program Op Ret Cause (GbrainIndexOutcome Stamp) := do
  match ← loadSnapshot deps entry with
  | .error e => lagging deps entry e.message
  | .ok snapshot =>
    let loadedRevision := computeRevisionId sha256 snapshot.files
    if loadedRevision ≠ entry.revisionId then
      lagging deps entry (str "loaded snapshot hashes to " ++ loadedRevision ++ str ", expected revision " ++ entry.revisionId)
    else
      match deriveCanonicalFacts sha256 snapshot with
      | .error e => lagging deps entry (str "derive failed: " ++ e.code)
      | .ok facts =>
        match ← runApply deps ⟨entry.workspaceId, entry.revisionId, facts⟩ with
        | .error e => lagging deps entry e.message
        | .ok receipt =>
          let now ← deps.now
          let indexedEntry := { entry with status := .indexed, lastAttemptAt := some now }
          match ← deps.outbox.update indexedEntry with
          | .error e => lagging deps entry (str "index applied but status persist failed: " ++ e.message)
          | .ok _ => return .indexed indexedEntry receipt

variable [LinearOrder Stamp]

/-- A later revision of the workspace is indexed already. -/
def isSuperseded (highWater : Option (GbrainSyncOutboxEntry Stamp)) (entry : GbrainSyncOutboxEntry Stamp) : Bool :=
  highWater.any fun hw => hw.revisionId ≠ entry.revisionId && entry.enqueuedAt < hw.enqueuedAt

/-- Apply one index job; a failure leaves it lagging, to be retried. -/
def applyGbrainIndexJob (entry : GbrainSyncOutboxEntry Stamp) : Program Op Ret Cause (GbrainIndexOutcome Stamp) := do
  if entry.status = .indexed then return .already_indexed entry
  match ← deps.outbox.indexedHighWater entry.workspaceId with
  | .error _ => lagging deps entry (str "high-water check unavailable")
  | .ok highWater =>
    if isSuperseded highWater entry then
      let now ← deps.now
      let supersededEntry := { entry with status := .indexed, lastAttemptAt := some now }
      match ← deps.outbox.update supersededEntry with
      | .error e => lagging deps entry (str "superseded advance persist failed: " ++ e.message)
      | .ok _ => return .superseded supersededEntry
    else indexRevision sha256 deps entry

end apply

end sow.gbrain
