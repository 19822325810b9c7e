import Sow.Db.Errors
import Sow.Knowledge.KnowledgeWriter.Revision

open sow.js sow.effect sow.db

namespace sow.knowledge_writer

inductive GbrainSyncStatus where
  | gbrain_sync_queued
  | sync_lagging
  | indexed
  deriving DecidableEq

def GbrainSyncStatus.text : GbrainSyncStatus → JsString
  | .gbrain_sync_queued => str "gbrain_sync_queued"
  | .sync_lagging => str "sync_lagging"
  | .indexed => str "indexed"

/-- One durable re-index job. -/
structure GbrainSyncOutboxEntry (Stamp : Type) where
  outboxId : JsString
  workspaceId : JsString
  revisionId : RevisionId
  planId : JsString
  status : GbrainSyncStatus
  attempts : Nat
  auditRef : JsString
  sourceEventRef : Option JsString
  enqueuedAt : Stamp
  lastAttemptAt : Option Stamp
  lastError : Option JsString
  deriving DecidableEq

/-- The store of the jobs. -/
structure GbrainSyncOutboxStore (Op : Type) (Ret : Op → Type) (ε Stamp : Type) where
  getByKey : JsString → RevisionId → Program Op Ret ε (DbResult (Option (GbrainSyncOutboxEntry Stamp)))
  enqueue : GbrainSyncOutboxEntry Stamp → Program Op Ret ε (DbResult (GbrainSyncOutboxEntry Stamp))
  update : GbrainSyncOutboxEntry Stamp → Program Op Ret ε (DbResult (GbrainSyncOutboxEntry Stamp))
  listDue : Stamp → Nat → Program Op Ret ε (DbResult (List (GbrainSyncOutboxEntry Stamp)))
  indexedHighWater : JsString → Program Op Ret ε (DbResult (Option (GbrainSyncOutboxEntry Stamp)))

end sow.knowledge_writer
