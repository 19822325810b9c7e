import Sow.Effect.Program
import Sow.Workflows.IngestionTriage

open sow.js sow.effect sow.db sow.contracts sow.workflows
open sow.knowledge_writer (Sha256 AuditRecord)

namespace sow.worker

/-- A store method: what the driver throws is its error. -/
def storeMethod (op : TriageOp) : TriageM (DbResult op.Ret) := (Program.perform op).attempt

structure DurableDispositionStoreDeps where
  workflowId : JsString
  isRedactionSafe : AuditRecord → Bool

section store

variable (deps : DurableDispositionStoreDeps)

def isParked (sourceId : JsString) : TriageM (Except JsString Bool) := do
  match ← storeMethod (.getBySourceId sourceId) with
  | .error _ => pure (.error (str "disposition store unavailable"))
  | .ok row => pure (.ok row.isSome)

/-- A fault reads as an absent key. -/
def getByKey (key : JsString) : TriageM (Option JsString) := do
  match ← storeMethod (.getByDispositionKey key) with
  | .error _ => pure none
  | .ok row => pure (row.bind (·.auditRef))

def dispositionAuditRef (key : JsString) : JsString := str "audit:disposition:" ++ key

/-- What the audit log keeps of a decision. -/
def dispositionAuditRecord (key : JsString) (disposition : TriageDisposition) (occurredAt : JsString) : AuditRecord where
  actor := str "ingestion-triage"
  event := str "ingestion.triage.disposition.recorded"
  refs := [str "ref:source:" ++ disposition.sourceId, str "ref:workspace:" ++ disposition.workspaceId,
    str "ref:workflow:" ++ deps.workflowId, dispositionAuditRef key]
  payloadHash := str "disposition:" ++ key
  beforeSummary := str "parked source awaiting owner disposition"
  afterSummary := str "owner disposition recorded; source re-scoped for re-entry"
  occurredAt := occurredAt
  workspaceId := none

/-- The end of an insertion: the audit record has been appended, and the decision is recorded if no other is. -/
def recordAudited (key : JsString) (disposition : TriageDisposition) : TriageM (Except JsString JsString) := do
  let recordedAt : JsString ← .perform TriageOp.now
  match ← storeMethod (.recordDisposition disposition.sourceId key (dispositionAuditRef key) recordedAt) with
  | .error _ => pure (.error (str "disposition record failed"))
  | .ok recorded =>
    match recorded with
    | .error _ => pure (.error (str "disposition record failed"))
    | .ok _ => pure (.ok (dispositionAuditRef key))

/-- The audit record comes first. -/
def insertDisposition (key : JsString) (disposition : TriageDisposition) : TriageM (Except JsString JsString) := do
  let occurredAt : JsString ← .perform TriageOp.now
  let auditRecord := dispositionAuditRecord deps key disposition occurredAt
  if !deps.isRedactionSafe auditRecord then pure (.error (str "disposition audit rejected by redaction gate"))
  else
    match ← storeMethod (.append auditRecord) with
    | .error _ => pure (.error (str "disposition audit append failed"))
    | .ok _ => recordAudited key disposition

def createDurableDispositionStore : DispositionStore where
  isParked := isParked
  getByKey := getByKey
  insert := insertDisposition deps

end store

/-- Absence and fault are the same to the reader of a parked source. -/
def readParked (sourceId : JsString) : TriageM (Except JsString SourceEnvelope) := do
  match ← storeMethod (.getBySourceId sourceId) with
  | .error _ => pure (.error (str "parked source store unavailable"))
  | .ok none => pure (.error (str "parked source " ++ sourceId ++ str " not found"))
  | .ok (some row) => pure (.ok row.sourceEnvelope)

/-- A registry that is not there knows no workspace. -/
def resolveKnownWorkspace (workspaceId : JsString) : TriageM (DbResult Bool) := do
  match ← storeMethod .getRegistry with
  | .error e => pure (.error e)
  | .ok none => pure (.ok false)
  | .ok (some ids) => pure (.ok (ids.any (· = workspaceId)))

def registryValidatedRescope (disposition : TriageDisposition) : TriageM (Except RescopeError SourceEnvelope) := do
  match ← resolveKnownWorkspace disposition.workspaceId with
  | .error _ => pure (.error ⟨.rescope_failed, str "workspace registry unavailable"⟩)
  | .ok known =>
    if !known then pure (.error ⟨.rescope_failed, str "override workspace is not registered"⟩)
    else rescopeSource readParked disposition

/-- The triage of a source, with the durable store. -/
def triage (tables : CaseTables) (sha256 : Sha256) (deps : DurableDispositionStoreDeps) (input : IngestionTriageInput) : TriageM IngestionTriageOutcome :=
  runIngestionTriage input {
    record := recordDisposition tables sha256 (createDurableDispositionStore deps)
    rescope := registryValidatedRescope }

/-- The row of a parked source, the audit log, the registry of workspaces, and the re-entries of the pipeline. -/
structure TriageWorld where
  row : SourceDispositionRow
  audit : List AuditRecord
  registry : Option (List JsString)
  reentered : List (SourceEnvelope × JsString)

/-- The row with a decision. -/
def decideRow (row : SourceDispositionRow) (key auditRef recordedAt : JsString) : SourceDispositionRow :=
  { row with
    state := .dispositioned
    dispositionKey := some key
    auditRef := some auditRef
    dispositionedAt := some recordedAt }

/-- What the environment chooses at a call. -/
structure TriageChoice where
  resolved : Except WorkflowRunError ResolveRunOutcome
  reading : JsString
  outcome : Except JsString ReenterOutcome
  fault : Fault DbError

/-- What a call answers and leaves behind. -/
def runTriageOp (d : TriageChoice) (w : TriageWorld) : (op : TriageOp) → op.Ret × TriageWorld
  | .resolveRun _ => (d.resolved, w)
  | .getBySourceId sourceId => (if sourceId = w.row.sourceId then some w.row else none, w)
  | .getByDispositionKey key => (if w.row.dispositionKey = some key then some w.row else none, w)
  | .now => (d.reading, w)
  | .append record => ((), { w with audit := w.audit ++ [record] })
  | .recordDisposition sourceId key auditRef recordedAt =>
    if sourceId ≠ w.row.sourceId then (.error (notFound (str "source disposition " ++ sourceId)), w)
    else if w.row.dispositionKey.isSome then
      (.error ⟨.conflict, str "source " ++ sourceId ++ str " already dispositioned", none⟩, w)
    else (.ok (decideRow w.row key auditRef recordedAt), { w with row := decideRow w.row key auditRef recordedAt })
  | .getRegistry => (w.registry, w)
  | .reenter source idempotencyKey => (d.outcome, { w with reentered := w.reentered ++ [(source, idempotencyKey)] })
  | .surface _ => ((), w)

def triageDb : Handler TriageOp TriageOp.Ret DbError TriageWorld TriageChoice where
  exec w op d := (faulty (runTriageOp d)).exec w op d.fault

end sow.worker
