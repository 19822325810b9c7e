import Sow.Contracts.Models
import Sow.Db.Errors
import Sow.Domain.Keys
import Sow.Workflows.Runtime.WorkflowRun

open sow.js sow.effect sow.db sow.contracts sow.domain
open sow.knowledge_writer (Sha256 AuditRecord)

namespace sow.workflows

inductive TriageChannel where
  | mac
  | telegram
  deriving DecidableEq

/-- The owner's decision on a parked source. -/
structure TriageDisposition where
  sourceId : JsString
  workspaceId : JsString
  projectId : Option JsString
  sensitivity : Option JsString
  channel : TriageChannel

/-- The key of a decision; the channel is no part of it. -/
def dispositionKey (tables : CaseTables) (sha256 : Sha256) (disposition : TriageDisposition) : JsString :=
  buildIdempotencyKey tables sha256 (str "ingestion.triage.disposition")
    [(str "source", disposition.sourceId), (str "workspace", disposition.workspaceId), (str "project", disposition.projectId.getD []),
      (str "sensitivity", disposition.sensitivity.getD [])]

inductive SourceDispositionState where
  | queued_for_review
  | dispositioned
  deriving DecidableEq

/-- A parked source, and what has been decided on it. -/
structure SourceDispositionRow where
  sourceId : JsString
  sourceEnvelope : SourceEnvelope
  idempotencyKey : JsString
  state : SourceDispositionState
  dispositionKey : Option JsString
  auditRef : Option JsString
  workspaceId : Option JsString
  parkedAt : JsString
  dispositionedAt : Option JsString

structure ReenterOutcome where
  state : JsString
  runReused : Bool

structure TriageWorkflowFailure where
  failureClass : FailureClass
  subjectRef : JsString
  message : JsString
  auditRef : JsString

/-- The calls of a triage run. The resolution of the run is only reported; a re-entry drives the pipeline
    on the source, which ends with its state or with a message. -/
inductive TriageOp where
  | resolveRun (input : CreateWorkflowRunInput)
  | getBySourceId (sourceId : JsString)
  | getByDispositionKey (key : JsString)
  | now
  | append (record : AuditRecord)
  /-- `update().set(…).where(sourceId = … and dispositionKey is null)`, and the row that is there. -/
  | recordDisposition (sourceId dispositionKey auditRef at_ : JsString)
  | getRegistry
  | reenter (reScopedSource : SourceEnvelope) (idempotencyKey : JsString)
  | surface (failure : TriageWorkflowFailure)

abbrev TriageOp.Ret : TriageOp → Type
  | .resolveRun _ => Except WorkflowRunError ResolveRunOutcome
  | .getBySourceId _ => Option SourceDispositionRow
  | .getByDispositionKey _ => Option SourceDispositionRow
  | .now => JsString
  | .append _ => Unit
  | .recordDisposition _ _ _ _ => DbResult SourceDispositionRow
  | .getRegistry => Option (List JsString)
  | .reenter _ _ => Except JsString ReenterOutcome
  | .surface _ => Unit

abbrev TriageM := Program TriageOp TriageOp.Ret DbError

inductive RecordDispositionErrorCode where
  | not_parked
  | record_failed
  deriving DecidableEq

def RecordDispositionErrorCode.text : RecordDispositionErrorCode → JsString
  | .not_parked => str "not_parked"
  | .record_failed => str "record_failed"

structure RecordDispositionError where
  code : RecordDispositionErrorCode
  message : JsString

structure RecordDispositionOutcome where
  noop : Bool
  auditRef : JsString

/-- The store that decisions are recorded in; an error is a failed record, with its message. -/
structure DispositionStore where
  isParked : JsString → TriageM (Except JsString Bool)
  getByKey : JsString → TriageM (Option JsString)
  insert : JsString → TriageDisposition → TriageM (Except JsString JsString)

/-- A decision is recorded once: a key that is there already, or that another has won, is not recorded again. -/
def recordDisposition (tables : CaseTables) (sha256 : Sha256) (store : DispositionStore) (disposition : TriageDisposition) :
    TriageM (Except RecordDispositionError RecordDispositionOutcome) := do
  match ← store.isParked disposition.sourceId with
  | .error message => pure (.error ⟨.record_failed, message⟩)
  | .ok parked =>
    if !parked then
      pure (.error ⟨.not_parked, str "source " ++ disposition.sourceId ++ str " is not in the Ingestion Inbox"⟩)
    else
      let key := dispositionKey tables sha256 disposition
      match ← store.getByKey key with
      | some existing => pure (.ok ⟨true, existing⟩)
      | none =>
        match ← store.insert key disposition with
        | .ok inserted => pure (.ok ⟨false, inserted⟩)
        | .error message =>
          match ← store.getByKey key with
          | some reread => pure (.ok ⟨true, reread⟩)
          | none => pure (.error ⟨.record_failed, message⟩)

inductive RescopeErrorCode where
  | source_unavailable
  | rescope_failed
  deriving DecidableEq

def RescopeErrorCode.text : RescopeErrorCode → JsString
  | .source_unavailable => str "source_unavailable"
  | .rescope_failed => str "rescope_failed"

structure RescopeError where
  code : RescopeErrorCode
  message : JsString

/-- The decision applied to the parked source. -/
def reScoped (disposition : TriageDisposition) (src : SourceEnvelope) : SourceEnvelope :=
  { src with
    workspaceId := disposition.workspaceId
    sensitivity := disposition.sensitivity.getD src.sensitivity
    routingHints := (disposition.projectId.map fun project => src.routingHints.set (str "projectId") (.str project)).getD src.routingHints }

def rescopeSource (read : JsString → TriageM (Except JsString SourceEnvelope)) (disposition : TriageDisposition) :
    TriageM (Except RescopeError SourceEnvelope) := do
  match ← read disposition.sourceId with
  | .error message => pure (.error ⟨.source_unavailable, message⟩)
  | .ok src => pure (.ok (reScoped disposition src))

structure IngestionTriageInput where
  run : CreateWorkflowRunInput
  disposition : TriageDisposition

structure IngestionTriageContext where
  disposition : TriageDisposition
  auditRef : Option JsString
  dispositionNoop : Option Bool
  reScopedSource : Option SourceEnvelope
  reenter : Option ReenterOutcome

structure IngestionTriageOutcome where
  resolved : Bool
  context : IngestionTriageContext
  run : Except WorkflowRunError WorkflowRunRef
  runReused : Bool
  surfaced : Option TriageWorkflowFailure

/-- The activities of a triage run. -/
structure IngestionTriageDeps where
  record : TriageDisposition → TriageM (Except RecordDispositionError RecordDispositionOutcome)
  rescope : TriageDisposition → TriageM (Except RescopeError SourceEnvelope)

inductive TriagePhase where
  | record
  | rescope
  | reenter

def triageFailureClassFor : TriagePhase → FailureClass
  | .record => .conflict_review
  | .rescope => .conflict_review
  | .reenter => .write_through_failed

section driver

variable (input : IngestionTriageInput) (deps : IngestionTriageDeps) (resolved : Except WorkflowRunError ResolveRunOutcome)

/-- A failure goes to the health sink, and the run ends unresolved. -/
def surfaceTriage (context : IngestionTriageContext) (phase : TriagePhase) (message auditRef : JsString) : TriageM IngestionTriageOutcome := do
  let failure : TriageWorkflowFailure := ⟨triageFailureClassFor phase, input.disposition.sourceId, message, auditRef⟩
  let _ : Unit ← .perform (TriageOp.surface failure)
  pure ⟨false, context, resolved.map (·.run), (resolved.toOption.map (·.reused)).getD false, some failure⟩

/-- The re-entry of the source under the key that it was first submitted under. -/
def reenterTriage (context : IngestionTriageContext) (auditRef : JsString) (source : SourceEnvelope) : TriageM IngestionTriageOutcome := do
  let ran : Except JsString ReenterOutcome ← .perform (TriageOp.reenter source input.run.idempotencyKey)
  match ran with
  | .error _ => surfaceTriage input resolved context .reenter (str "pipeline re-entry failed: reentry_failed") auditRef
  | .ok reentered =>
    pure ⟨true, { context with reenter := some reentered }, resolved.map (·.run), (resolved.toOption.map (·.reused)).getD false, none⟩

/-- What follows the record of a decision. -/
def rescopeTriage (recorded : RecordDispositionOutcome) : TriageM IngestionTriageOutcome := do
  let context : IngestionTriageContext := ⟨input.disposition, some recorded.auditRef, some recorded.noop, none, none⟩
  match ← deps.rescope input.disposition with
  | .error e => surfaceTriage input resolved context .rescope (str "source re-scope failed: " ++ e.code.text) recorded.auditRef
  | .ok source => reenterTriage input resolved { context with reScopedSource := some source } recorded.auditRef source

end driver

def runIngestionTriage (input : IngestionTriageInput) (deps : IngestionTriageDeps) : TriageM IngestionTriageOutcome := do
  let resolved : Except WorkflowRunError ResolveRunOutcome ← .perform (TriageOp.resolveRun input.run)
  match ← deps.record input.disposition with
  | .error e =>
    surfaceTriage input resolved ⟨input.disposition, none, none, none, none⟩ .record (str "disposition record failed: " ++ e.code.text)
      input.disposition.sourceId
  | .ok recorded => rescopeTriage input deps resolved recorded

end sow.workflows
