import Sow.Contracts.Models
import Sow.Integrations.Connectors.FileSource
import Sow.Knowledge.KnowledgeWriter.WorkspacePathGuard

open sow.js sow.effect sow.contracts sow.integrations
open sow.knowledge_writer (Sha256 SOURCE_NOTE_SUBTREE hasNoTraversalSegments)

namespace sow.worker

/-- What owns a watched root. -/
structure VaultWatchBinding where
  vaultRoot : JsString
  workspaceId : JsString
  sensitivity : JsString

inductive WorkflowTrigger where
  | schedule
  | connector_event
  | owner_action
  | hermes_automation
  deriving DecidableEq

def WorkflowTrigger.text : WorkflowTrigger → JsString
  | .schedule => str "schedule"
  | .connector_event => str "connector_event"
  | .owner_action => str "owner_action"
  | .hermes_automation => str "hermes_automation"

/-- A run on a source; no envelopes come with it. -/
structure SourceIngestionInput where
  workflowId : JsString
  trigger : WorkflowTrigger
  idempotencyKey : JsString
  workspaceId : JsString
  source : SourceEnvelope

/-- A path of the vault, relative to its root: no segment is empty, a dot or two dots. -/
structure VaultPath where
  text : JsString
  plain : hasNoTraversalSegments text = true

/-- What is done to a file from outside; a file without a text is too large, or nothing can be extracted from it. -/
inductive Edit where
  | write (text : Option JsString)
  | remove

inductive Writer where
  | outside
  | knowledgeWriter
  deriving DecidableEq

inductive StartRunOutcome where
  | started
  | already_started

/-- The calls of a capture, and the writes that change the vault. -/
inductive VaultOp where
  | realpath (p : JsString)
  /-- The transport reads a path under the root. -/
  | read (path : JsString)
  /-- A start that rejects a workflow id which has been started. -/
  | startRun (workflowId : JsString) (input : SourceIngestionInput)
  | surfaceHealth (subjectRef message auditRef : JsString)
  | write (p : VaultPath) (edit : Edit) (writer : Writer)

abbrev VaultOp.Ret : VaultOp → Type
  | .realpath _ => Option JsString
  | .read _ => FileExtractResult
  | .startRun _ _ => StartRunOutcome
  | .surfaceHealth _ _ _ => Unit
  | .write _ _ _ => Unit

abbrev VaultM := Program VaultOp VaultOp.Ret Thrown

/-- A path that does not exist has no real path. -/
def fsRealpath (p : JsString) : VaultM JsString := do
  let found : Option JsString ← .perform (VaultOp.realpath p)
  match found with
  | some real => pure real
  | none => .throw ⟨none, some (str "ENOENT")⟩

/-- A path as a list of segments, to which one more is added. -/
def pushSegment (stack : List JsString) (segment : JsString) : List JsString :=
  if segment = [] ∨ segment = str "." then stack
  else if segment = str ".." then stack.dropLast
  else stack ++ [segment]

/-- `resolve(base, path)` for an absolute base. -/
def resolve (base path : JsString) : JsString :=
  let absolute := if startsWith path (str "/") then path else base ++ str "/" ++ path
  str "/" ++ join (str "/") ((split (unit '/') absolute).foldl pushSegment [])

def isMarkdown (relPath : JsString) : Bool := endsWith relPath (str ".md")

def isUnderOutputSubtree (relPath : JsString) : Bool :=
  relPath = SOURCE_NOTE_SUBTREE || startsWith relPath (SOURCE_NOTE_SUBTREE ++ str "/")

structure DispatchDeps where
  /-- Temporal has a client. -/
  connected : Bool
  auditRef : JsString

inductive DispatchErrorCode where
  | temporal_unavailable
  | dispatch_failed

structure DispatchError where
  code : DispatchErrorCode
  message : JsString

structure DispatchOutcome where
  workflowId : JsString
  dispatched : Bool
  deduped : Bool

def surfaceDegraded (deps : DispatchDeps) (workflowId message : JsString) : VaultM Unit :=
  Program.tryCatch (.perform (VaultOp.surfaceHealth (str "source-dispatch:" ++ workflowId) message deps.auditRef)) fun _ => pure ()

def startIngestion (input : SourceIngestionInput) : VaultM (Except DispatchError DispatchOutcome) := do
  let workflowId := input.idempotencyKey
  let outcome : StartRunOutcome ← .perform (VaultOp.startRun workflowId input)
  match outcome with
  | .already_started => pure (.ok ⟨workflowId, false, true⟩)
  | .started => pure (.ok ⟨workflowId, true, false⟩)

def dispatchSourceIngestion (deps : DispatchDeps) (input : SourceIngestionInput) : VaultM (Except DispatchError DispatchOutcome) :=
  let workflowId := input.idempotencyKey
  if workflowId.length = 0 then do
    surfaceDegraded deps (str "unknown") (str "sourceIngestion dispatch rejected — malformed input (missing run.idempotencyKey)")
    pure (.error ⟨.dispatch_failed, str "malformed dispatch input; missing run.idempotencyKey"⟩)
  else if !deps.connected then do
    surfaceDegraded deps workflowId (str "sourceIngestion dispatch skipped — Temporal unavailable (trigger:" ++ input.trigger.text ++ str ")")
    pure (.error ⟨.temporal_unavailable, str "temporal client unavailable; sourceIngestion dispatch fail-closed"⟩)
  else
    (startIngestion input).tryCatch fun _ => do
      surfaceDegraded deps workflowId (str "sourceIngestion dispatch failed (trigger:" ++ input.trigger.text ++ str ")")
      pure (.error ⟨.dispatch_failed, str "sourceIngestion dispatch failed; fail-closed"⟩)

inductive IgnoredReason where
  | not_markdown
  | output_subtree
  | escapes_root
  | absent

inductive CaptureOutcome where
  | dispatched (workflowId : JsString) (deduped : Bool)
  | ignored (reason : IgnoredReason)
  | extract_failed (code : FileExtractCode)
  | dispatch_failed (code : DispatchErrorCode)
  | error (message : JsString)

section capture

variable (sha256 : Sha256) (binding : VaultWatchBinding) (deps : DispatchDeps)

/-- A branded id, or an error without a code. -/
def makeId (schema : JsString → Bool) (raw : JsString) : VaultM JsString :=
  if schema raw then pure raw else .throw ⟨none, none⟩

/-- The key that a run on a content is started under. -/
def sourceKey (contentHash : JsString) : JsString := str "src:" ++ binding.workspaceId ++ str ":" ++ contentHash

/-- The run on a candidate. -/
def ingestionInput (c : RegisterSourceInput) : VaultM SourceIngestionInput := do
  let sourceId ← makeId brandedIdSchema c.sourceId
  let workspaceId ← makeId WorkspaceIdSchema c.workspaceId
  let source : SourceEnvelope := ⟨sourceId, workspaceId, c.origin, c.contentHash, c.type, c.sensitivity, c.routingHints, none⟩
  let key := sourceKey binding c.contentHash
  let workflowId ← makeId brandedIdSchema key
  pure ⟨workflowId, .connector_event, key, binding.workspaceId, source⟩

/-- What of a path is extracted. -/
def extractInput (relPath : JsString) : ExtractFileInput where
  sourceId := str "file:" ++ binding.workspaceId ++ str ":" ++ relPath
  workspaceId := binding.workspaceId
  path := relPath
  mime := none
  sensitivity := binding.sensitivity

/-- The transport that is bound to the vault root. -/
def readTransport (path : JsString) (_mime : Option JsString) : VaultM FileExtractResult := .perform (VaultOp.read path)

/-- The end of a capture of a path that is contained in the root. -/
def captureContained (relPath : JsString) : VaultM CaptureOutcome := do
  match ← extractFileSource sha256 readTransport (extractInput binding relPath) with
  | .error e => pure (.extract_failed e.code)
  | .ok c =>
    let input ← ingestionInput binding c
    match ← dispatchSourceIngestion deps input with
    | .error e => pure (.dispatch_failed e.code)
    | .ok outcome => pure (.dispatched outcome.workflowId outcome.deduped)

def computeOutcome (relPath : JsString) : VaultM CaptureOutcome :=
  if !isMarkdown relPath then pure (.ignored .not_markdown)
  else if isUnderOutputSubtree relPath then pure (.ignored .output_subtree)
  else do
    let realRoot ← fsRealpath binding.vaultRoot
    match ← (fsRealpath (resolve realRoot relPath)).attempt with
    | .error _ => pure (.ignored .absent)
    | .ok realTarget =>
      if !isContainedUnder realRoot realTarget then pure (.ignored .escapes_root)
      else captureContained sha256 binding deps relPath

/-- An observer of the outcome does not change it. -/
def capture (relPath : JsString) : VaultM CaptureOutcome :=
  (computeOutcome sha256 binding deps relPath).tryCatch fun e =>
    let message := match e.code with
      | some code => str "capture failed (" ++ code ++ str ")"
      | none => str "capture failed"
    pure (.error message)

end capture

end sow.worker
