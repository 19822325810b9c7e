import Sow.Contracts.Models
import Sow.Db.Errors
import Sow.Effect.Program
import Sow.Js.Map

open sow.js sow.effect sow.contracts

namespace sow.db

/-- The columns that provisioning owns. -/
structure ProvisioningOwnedFields where
  name : JsString
  markdownRepoPath : JsString
  gbrainBrainId : JsString

/-- What is recorded of a revocation. -/
structure EgressAuditRecord where
  actor : JsString
  event : JsString
  refs : List JsString
  workspaceId : JsString
  payloadHash : JsString
  beforeSummary : JsString
  afterSummary : JsString
  occurredAt : JsString
  deriving DecidableEq

/-- The statements on the workspace rows and on the registry row of the read models, the audit log, and the clock. -/
inductive ConfigOp where
  | now
  /-- `select().where(id = …).limit(1)` -/
  | select (id : JsString)
  /-- `insert().values(ws).onConflictDoUpdate(id, every other column)` -/
  | upsert (ws : Workspace)
  /-- `insert().values(ws).onConflictDoNothing().returning()` -/
  | insert (ws : Workspace)
  /-- `update().set(fields).where(id = …).returning()` -/
  | updateFields (id : JsString) (fields : ProvisioningOwnedFields)
  /-- The registry row, as the set of ids that it holds. -/
  | selectRegistry
  /-- The registry row is deleted and inserted in one transaction. -/
  | putRegistry (workspaceIds : List JsString) (rebuiltAt : JsString)
  | append (record : EgressAuditRecord)

abbrev ConfigOp.Ret : ConfigOp → Type
  | .now => JsString
  | .select _ => List Workspace
  | .upsert _ => Unit
  | .insert _ => List Workspace
  | .updateFields _ _ => List Workspace
  | .selectRegistry => Option (List JsString)
  | .putRegistry _ _ => Unit
  | .append _ => Unit

abbrev ConfigM := Program ConfigOp ConfigOp.Ret DriverError

/-- The stores; a row is kept under its id. -/
structure ConfigWorld where
  config : Map JsString Workspace
  registry : Option (List JsString)
  audit : List EgressAuditRecord

def ConfigWorld.empty : ConfigWorld := ⟨.empty, none, []⟩

def ProvisioningOwnedFields.set (fields : ProvisioningOwnedFields) (row : Workspace) : Workspace :=
  { row with name := fields.name, markdownRepoPath := fields.markdownRepoPath, gbrainBrainId := fields.gbrainBrainId }

/-- What a statement answers and leaves behind; the clock says `reading`. -/
def runConfigOp (reading : JsString) (w : ConfigWorld) : (op : ConfigOp) → op.Ret × ConfigWorld
  | .now => (reading, w)
  | .select id => ((w.config.get id).toList, w)
  | .upsert ws => ((), { w with config := w.config.set ws.id ws })
  | .insert ws =>
    match w.config.get ws.id with
    | some _ => ([], w)
    | none => ([ws], { w with config := w.config.set ws.id ws })
  | .updateFields id fields =>
    match w.config.get id with
    | some row => ([fields.set row], { w with config := w.config.set id (fields.set row) })
    | none => ([], w)
  | .selectRegistry => (w.registry, w)
  | .putRegistry workspaceIds _ => ((), { w with registry := some workspaceIds })
  | .append record => ((), { w with audit := w.audit ++ [record] })

/-- What the environment chooses at a statement. -/
structure ConfigChoice where
  reading : JsString
  fault : Fault DriverError

def configDb : Handler ConfigOp ConfigOp.Ret DriverError ConfigWorld ConfigChoice where
  exec w op d := (faulty (runConfigOp d.reading)).exec w op d.fault

/-- A stored row passes the whole schema before it is used. -/
def parseStoredWorkspace (schemas : WorkspaceSchemas) (row : Workspace) : DbResult Workspace :=
  if WorkspaceSchema schemas row then .ok row
  else .error ⟨.stored_row_schema_violation, str "stored workspace row failed re-validation at the repository read boundary", none⟩

def rowOrNotFoundWorkspace (schemas : WorkspaceSchemas) (id : JsString) (rows : List Workspace) : DbResult Workspace :=
  match rows.head? with
  | some row => parseStoredWorkspace schemas row
  | none => .error (notFound (str "workspace " ++ id))

namespace workspaceConfig

def get (schemas : WorkspaceSchemas) (id : JsString) : ConfigM (DbResult Workspace) := postgres.run do
  let rows : List Workspace ← .perform (ConfigOp.select id)
  pure (rowOrNotFoundWorkspace schemas id rows)

def upsert (ws : Workspace) : ConfigM (DbResult Workspace) := postgres.run do
  let _ : Unit ← .perform (ConfigOp.upsert ws)
  pure (.ok ws)

def insertIfAbsent (ws : Workspace) : ConfigM (DbResult Bool) := postgres.run do
  let rows : List Workspace ← .perform (ConfigOp.insert ws)
  pure (.ok (rows.length > 0))

def updateProvisioningFields (schemas : WorkspaceSchemas) (id : JsString) (fields : ProvisioningOwnedFields) :
    ConfigM (DbResult Workspace) := postgres.run do
  let rows : List Workspace ← .perform (ConfigOp.updateFields id fields)
  pure (rowOrNotFoundWorkspace schemas id rows)

end workspaceConfig

namespace readModels

def registryOrNotFound (row : Option (List JsString)) : DbResult (List JsString) :=
  match row with
  | some workspaceIds => .ok workspaceIds
  | none => .error (notFound (str "read-model workspace_registry/*"))

def getRegistry : ConfigM (DbResult (List JsString)) := postgres.run do
  let row : Option (List JsString) ← .perform ConfigOp.selectRegistry
  pure (registryOrNotFound row)

def putRegistry (workspaceIds : List JsString) (rebuiltAt : JsString) : ConfigM (DbResult Unit) := postgres.run do
  let _ : Unit ← .perform (ConfigOp.putRegistry workspaceIds rebuiltAt)
  pure (.ok ())

end readModels

def auditLog.append (record : EgressAuditRecord) : ConfigM (DbResult Unit) := postgres.run do
  let _ : Unit ← .perform (ConfigOp.append record)
  pure (.ok ())

end sow.db
