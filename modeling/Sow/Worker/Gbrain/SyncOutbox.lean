import Sow.Db.GbrainSyncOutbox
import Sow.Knowledge.Gbrain.IndexSync
import Sow.Knowledge.KnowledgeWriter.Writer

open sow.js sow.effect sow.contracts sow.db sow.gbrain sow.markdown_vault
open sow.knowledge_writer (Sha256 RevisionId GbrainSyncStatus GbrainSyncOutboxEntry GbrainSyncOutboxStore readSnapshot)

namespace sow.worker

/-- What the worker's index sync calls: the repository, the vault, the index client, the clock and the id minter. -/
inductive GbrainOp (Stamp : Type) where
  | getByKey (workspaceId revisionId : JsString)
  | upsert (row : GbrainSyncOutboxRow Stamp)
  | listDue (now : Stamp) (limit : Nat)
  | indexedHighWater (workspaceId : JsString)
  | vault (op : VaultOp)
  | applyRevision (request : IndexApplyRequest)
  | now
  | newHealthItemId

abbrev GbrainOp.Ret {Stamp : Type} : GbrainOp Stamp → Type
  | .getByKey _ _ => DbResult (Option (GbrainSyncOutboxRow Stamp))
  | .upsert _ => DbResult (GbrainSyncOutboxRow Stamp)
  | .listDue _ _ => DbResult (List (GbrainSyncOutboxRow Stamp))
  | .indexedHighWater _ => DbResult (Option (GbrainSyncOutboxRow Stamp))
  | .vault op => op.Ret
  | .applyRevision _ => Except IndexApplyError IndexApplyReceipt
  | .now => Stamp
  | .newHealthItemId => JsString

abbrev GbrainM (Stamp : Type) := Program (GbrainOp Stamp) GbrainOp.Ret Cause

variable {Stamp : Type}

/-- A malformed status is read as `sync_lagging`. -/
def toGbrainSyncStatus (raw : JsString) : GbrainSyncStatus :=
  ([.gbrain_sync_queued, .sync_lagging, .indexed].find? fun s => s.text = raw).getD .sync_lagging

/-- The issue of a brand that is empty or blank. -/
def blankBrand : Cause := str "empty/whitespace"

/-- The entry of a row whose revision is branded. -/
def entryOf (row : GbrainSyncOutboxRow Stamp) : GbrainSyncOutboxEntry Stamp where
  outboxId := row.outboxId
  workspaceId := row.workspaceId
  revisionId := row.revisionId
  planId := row.planId
  status := toGbrainSyncStatus row.status
  attempts := row.attempts
  auditRef := row.auditRef
  sourceEventRef := row.sourceEventRef
  enqueuedAt := row.enqueuedAt
  lastAttemptAt := row.lastAttemptAt
  lastError := row.lastError

/-- `RevisionIdSchema.parse` throws on a blank revision. -/
def rowToEntry (row : GbrainSyncOutboxRow Stamp) : Except Cause (GbrainSyncOutboxEntry Stamp) :=
  if isBrandedId row.revisionId then .ok (entryOf row) else .error blankBrand

def entryToRow (entry : GbrainSyncOutboxEntry Stamp) : GbrainSyncOutboxRow Stamp where
  outboxId := entry.outboxId
  workspaceId := entry.workspaceId
  revisionId := entry.revisionId
  planId := entry.planId
  status := entry.status.text
  attempts := entry.attempts
  auditRef := entry.auditRef
  sourceEventRef := entry.sourceEventRef
  enqueuedAt := entry.enqueuedAt
  lastAttemptAt := entry.lastAttemptAt
  lastError := entry.lastError

/-- Map the value of a result; the mapping may throw. -/
def adaptResult {α β : Type} (p : GbrainM Stamp (DbResult α)) (map : α → Except Cause β) : GbrainM Stamp (DbResult β) := do
  match ← p with
  | .error e => return .error e
  | .ok a => return .ok (← .ofExcept (map a))

def adaptRepositoryToStore : GbrainSyncOutboxStore (GbrainOp Stamp) GbrainOp.Ret Cause Stamp where
  getByKey workspaceId revisionId := adaptResult (.perform (GbrainOp.getByKey workspaceId revisionId)) fun row => row.mapM rowToEntry
  enqueue entry := adaptResult (.perform (GbrainOp.upsert (entryToRow entry))) rowToEntry
  update entry := adaptResult (.perform (GbrainOp.upsert (entryToRow entry))) rowToEntry
  listDue now limit := adaptResult (.perform (GbrainOp.listDue now limit)) fun rows => rows.mapM rowToEntry
  indexedHighWater workspaceId := adaptResult (.perform (GbrainOp.indexedHighWater workspaceId)) fun row => row.mapM rowToEntry

/-- Read the live tree of the vault as the Markdown of a revision. -/
def createWorkingTreeMarkdownSource (workspaceId : JsString) (revisionId : RevisionId) :
    Program VaultOp VaultOp.Ret Cause (Except SnapshotLoadError CanonicalVaultSnapshot) :=
  Program.tryCatch
    (do
      let files ← readSnapshot
      if isBrandedId revisionId then return .ok ⟨workspaceId, revisionId, files⟩ else .throw blankBrand)
    fun cause => pure (.error ⟨.source_fault, cause⟩)

def gbrainIndexSyncDeps : GbrainIndexSyncDeps (GbrainOp Stamp) GbrainOp.Ret Stamp where
  loadSnapshot workspaceId revisionId := (createWorkingTreeMarkdownSource workspaceId revisionId).lift GbrainOp.vault fun _ => id
  applyRevision request := .perform (GbrainOp.applyRevision request)
  outbox := adaptRepositoryToStore
  now := .perform GbrainOp.now
  newHealthItemId := .perform GbrainOp.newHealthItemId

structure DrainGbrainSyncOutboxResult where
  attempted : Nat
  indexed : Nat
  lagging : Nat
  deriving DecidableEq

section drain

variable {Op : Type} {Ret : Op → Type} [LinearOrder Stamp] (sha256 : Sha256) (deps : GbrainIndexSyncDeps Op Ret Stamp)

/-- Re-drive each entry once, counting the outcomes. -/
def drainEntries (indexed lagging : Nat) : List (GbrainSyncOutboxEntry Stamp) → Program Op Ret Cause (Nat × Nat)
  | [] => pure (indexed, lagging)
  | entry :: due => do
    let outcome ← applyGbrainIndexJob sha256 deps entry
    if outcome.isLagging then drainEntries indexed (lagging + 1) due else drainEntries (indexed + 1) lagging due

/-- Re-drive the oldest due entries, at most `limit`. -/
def drainGbrainSyncOutbox (limit : Nat) : Program Op Ret Cause DrainGbrainSyncOutboxResult := do
  let now ← deps.now
  match ← deps.outbox.listDue now limit with
  | .error _ => return ⟨0, 0, 0⟩
  | .ok due =>
    let counts ← drainEntries sha256 deps 0 0 due
    return ⟨due.length, counts.1, counts.2⟩

end drain

end sow.worker
