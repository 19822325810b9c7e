import Sow.Integrations.Tools.ToolModel
import Sow.Workflows.Activities.EnvelopeReuse
import Sow.Workflows.Runtime.Resume

open sow.js sow.effect sow.contracts sow.tools sow.workflows

namespace sow.worker

/-- A pending external side effect, with the envelope and action the run built the first time. -/
structure RecoverableWrite (Time Payload : Type) where
  stepId : JsString
  envelope : ExternalWriteEnvelope
  action : ProposedAction Payload
  intentCreatedAt : Option Time

/-- A failure to materialize on the System-Health surface. -/
structure HealthFailure (Time : Type) where
  failureClass : FailureClass
  subjectRef : JsString
  severity : JsString
  message : JsString
  auditRef : JsString
  now : Time

inductive HealthSurfaceErrorCode where
  | invalid_item
  | persist_failed
  deriving DecidableEq

structure HealthSurfaceError where
  code : HealthSurfaceErrorCode
  message : JsString
  cause : Option Cause

structure RecoverInput (Time Payload : Type) where
  runId : JsString
  resume : ResumeInput
  writes : List (RecoverableWrite Time Payload)
  envelopeReuse : EnvelopeReuseDeps Payload

structure RecoverOutcome (Time : Type) where
  recovered : Bool
  created : Nat
  reused : Nat
  healthItem : Option (HealthItem Time)

/-- Its only code is `health_persist_failed`. -/
structure RecoverError where
  message : JsString
  cause : Option Cause

/-- What a recovery calls: the clock, the envelope reuse, the health surface. -/
inductive RecoverOp (Time Payload : Type) where
  | now
  | drive (deps : EnvelopeReuseDeps Payload) (write : RecoverableWrite Time Payload)
  | record (failure : HealthFailure Time)

abbrev RecoverOp.Ret {Time Payload : Type} : RecoverOp Time Payload → Type
  | .now => Time
  | .drive _ _ => Except EnvelopeReuseError (EnvelopeReuseSuccess Time)
  | .record _ => Except HealthSurfaceError (HealthItem Time)

abbrev RecoverM (Time Payload : Type) := Program (RecoverOp Time Payload) RecoverOp.Ret Cause

section

variable {Time Payload : Type}

def recoveryAuditRef (runId : JsString) : JsString := str "recovery-" ++ runId

def mapSurfaceError (e : HealthSurfaceError) : RecoverError := ⟨e.message, e.cause⟩

/-- Surface a `worker_down` item, and report the run unrecovered. -/
def surfaceUnrecovered (input : RecoverInput Time Payload) (message : JsString) (created reused : Nat) :
    RecoverM Time Payload (Except RecoverError (RecoverOutcome Time)) := do
  let now : Time ← .perform RecoverOp.now
  let recorded : Except HealthSurfaceError (HealthItem Time) ←
    .perform (RecoverOp.record ⟨.worker_down, input.runId, str "error", message, recoveryAuditRef input.runId, now⟩)
  return match recorded with
    | .error e => .error (mapSurfaceError e)
    | .ok item => .ok ⟨false, created, reused, some item⟩

/-- `new Map(writes)`: the last write of a step id counts. -/
def writeByStep (writes : List (RecoverableWrite Time Payload)) : Map JsString (RecoverableWrite Time Payload) :=
  writes.foldl (fun m w => m.set w.stepId w) .empty

/-- What the drives of a pass add up to; `firstFailure` is the message of the first that failed. -/
structure DriveTally where
  created : Nat
  reused : Nat
  firstFailure : Option JsString

def DriveTally.add (tally : DriveTally) (runId stepId : JsString) : Except EnvelopeReuseError (EnvelopeReuseSuccess Time) → DriveTally
  | .error e =>
    { tally with firstFailure := some (tally.firstFailure.getD
        (str "run " ++ runId ++ str " recovery held on step " ++ stepId ++ str ": " ++ e.code.text ++ str " — " ++ e.reason)) }
  | .ok success =>
    if success.status = .created then { tally with created := tally.created + 1 } else { tally with reused := tally.reused + 1 }

/-- Re-drive the external writes of the plan, one after the other; a failed one does not stop the others. -/
def driveSteps (input : RecoverInput Time Payload) : List PlannedResumeStep → DriveTally → RecoverM Time Payload DriveTally
  | [], tally => pure tally
  | planned :: rest, tally =>
    if planned.disposition = .skip then driveSteps input rest tally
    else if planned.step.kind ≠ .external_write then driveSteps input rest tally
    else
      match (writeByStep input.writes).get planned.step.stepId with
      | none => driveSteps input rest tally
      | some write => do
        let res : Except EnvelopeReuseError (EnvelopeReuseSuccess Time) ← .perform (RecoverOp.drive input.envelopeReuse write)
        driveSteps input rest (tally.add input.runId planned.step.stepId res)

/-- Drive a plan, and report how it went. -/
def recoverPlan (input : RecoverInput Time Payload) (plan : List PlannedResumeStep) :
    RecoverM Time Payload (Except RecoverError (RecoverOutcome Time)) := do
  let tally ← driveSteps input plan ⟨0, 0, none⟩
  match tally.firstFailure with
  | some message => surfaceUnrecovered input message tally.created tally.reused
  | none => return .ok ⟨true, tally.created, tally.reused, none⟩

/-- Recover an in-flight run. The clock that `planResume` is given is read by it only to stamp a health item. -/
def recoverRun (input : RecoverInput Time Payload) : RecoverM Time Payload (Except RecoverError (RecoverOutcome Time)) := do
  let now : Time ← .perform RecoverOp.now
  match planResume input.resume now with
  | .unrecoverable health _ =>
    surfaceUnrecovered input (str "run " ++ input.runId ++ str " recovery aborted: " ++ health.message) 0 0
  | .resume plan => recoverPlan input plan

end

/-- A drive that has been made, and its answer. -/
structure Drive (Time Payload : Type) where
  write : RecoverableWrite Time Payload
  answer : Except Cause (Except EnvelopeReuseError (EnvelopeReuseSuccess Time))

/-- The stores and the vendor, and the drives made so far. -/
structure RecoverWorld (Time Payload : Type) where
  tools : ToolWorld Time Payload
  drives : List (Drive Time Payload)

/-- What the environment decides at a call: the time, all that befalls a drive, and how the item is recorded. -/
structure RecoverChoice (Time Payload : Type) where
  time : Time
  driver : Nat → ToolOp Time Payload → Choice Time
  recorded : Except Cause (Except HealthSurfaceError (HealthItem Time))

/-- A drive runs to its end before the recovery goes on. -/
def recoveryHandler {Time Payload : Type} [LinearOrder Time] (epoch : Time) :
    Handler (RecoverOp Time Payload) RecoverOp.Ret Cause (RecoverWorld Time Payload) (RecoverChoice Time Payload) where
  exec w op d := match op with
    | .now => (.ok d.time, w)
    | .record _ => (d.recorded, w)
    | .drive deps write =>
      let r := (toolHandler epoch).run d.driver 0 (reuseExternalWriteOnResume write.envelope write.action deps write.intentCreatedAt) w.tools
      (r.1, ⟨r.2, w.drives ++ [⟨write, r.1⟩]⟩)

end sow.worker
