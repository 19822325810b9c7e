import Sow.Contracts.Models
import Sow.Domain.State.Machines
import Sow.Js.Number
import Sow.Workflows.Activities.ApprovalTransition

open sow.js sow.contracts sow.domain sow.effect sow.db

namespace sow.workflows

structure SnoozeConfig where
  snoozeMs : Int
  expiryMs : Int

def DEFAULT_SNOOZE_CONFIG : SnoozeConfig := ⟨APPROVAL_DEFAULTS_snoozeMs, APPROVAL_DEFAULTS_expiryMs⟩

inductive SnoozeDecision where
  | resurface
  | expire
  | sleep
  deriving DecidableEq

structure DeferredWindows where
  snoozeUntilMs : Int
  expiresAtMs : Int

variable (dates : IsoDates)

/-- `none` when absent or unparseable. -/
def parseIsoMs (iso : Option JsString) : Option Int := iso.bind dates.parse

/-- The windows of the record when it has them, else those of the deferral instant. -/
def resolveDeferredWindows (approval : Approval) (deferredAt : JsString) (config : SnoozeConfig) : DeferredWindows :=
  let baseMs := (parseIsoMs dates (some deferredAt)).getD 0
  ⟨(parseIsoMs dates approval.snoozeUntil).getD (baseMs + config.snoozeMs),
    (parseIsoMs dates approval.expiresAt).getD (baseMs + config.expiryMs)⟩

/-- What to do with a deferred card: expiry wins, and an unreadable clock keeps it sleeping. -/
def evaluateDeferred (approval : Approval) (deferredAt now : JsString) (config : SnoozeConfig) : SnoozeDecision :=
  match parseIsoMs dates (some now) with
  | none => .sleep
  | some nowMs =>
    let windows := resolveDeferredWindows dates approval deferredAt config
    if windows.expiresAtMs ≤ nowMs then .expire
    else if windows.snoozeUntilMs ≤ nowMs then .resurface
    else .sleep

/-- The health classes that the flow surfaces. -/
inductive ApprovalFailureClass where
  | conflict_review
  | write_through_failed
  deriving DecidableEq

inductive ApprovalFailureCode where
  | parity_failed
  | surface_failed
  | conflicting_approval
  | apply_failed
  deriving DecidableEq

def failureClassFor : ApprovalFailureCode → ApprovalFailureClass
  | .conflicting_approval => .conflict_review
  | _ => .write_through_failed

inductive SurfaceCardErrorCode where
  | parity_failed
  | surface_failed
  deriving DecidableEq

def SurfaceCardErrorCode.text : SurfaceCardErrorCode → JsString
  | .parity_failed => str "parity_failed"
  | .surface_failed => str "surface_failed"

def ApplyTransitionErrorCode.text : ApplyTransitionErrorCode → JsString
  | .illegal_transition => str "illegal_transition"
  | .expired => str "expired"
  | .conflicting_approval => str "conflicting_approval"
  | .stale_card => str "stale_card"
  | .apply_failed => str "apply_failed"

structure ApprovalWorkflowFailure where
  failureClass : ApprovalFailureClass
  message : JsString

structure ApprovalFlowOutcome where
  state : ApprovalStatus
  approval : Option Approval
  surfaced : Option ApprovalWorkflowFailure

/-- A single edge of the machine; a refused one stays where it is. -/
def step (origin target : ApprovalStatus) : ApprovalStatus :=
  match approvalMachine.transition origin target with
  | .ok s => s
  | .error _ => origin

def surfaceFailure (failState : ApprovalStatus) (code : ApprovalFailureCode) (message : JsString) (approval : Option Approval) :
    ApprovalFlowOutcome :=
  ⟨failState, approval, some ⟨failureClassFor code, message⟩⟩

/-- What a tick of the timer brings the flow: the card as the flow has recorded it, the instant
    of its deferral, a reading of the clock, and what the rendering of a card answers. -/
structure SnoozeTick where
  approval : Option Approval
  deferredAt : JsString
  now : JsString
  snoozeConfig : SnoozeConfig
  shown : Approval → Except SurfaceCardErrorCode Unit

/-- The `snooze_tick` path of `runApprovalFlow`. -/
def runSnoozeTick (dates : IsoDates) (tick : SnoozeTick) : ApprovalM ApprovalFlowOutcome :=
  match tick.approval with
  | none => pure (surfaceFailure .pending .apply_failed (str "snooze tick with no recorded approval") none)
  | some approval =>
    if approval.status ≠ .deferred then pure ⟨approval.status, approval, none⟩
    else
      match evaluateDeferred dates approval tick.deferredAt tick.now tick.snoozeConfig with
      | .sleep => pure ⟨.deferred, approval, none⟩
      | .expire => do
        let applied ← ApplyTransitionPort.applySystem approval .expire
        match applied with
        | .error e =>
          pure (surfaceFailure .deferred (if e.code = .conflicting_approval then .conflicting_approval else .apply_failed)
            (str "deferred auto-expiry failed: " ++ e.code.text) approval)
        | .ok r => pure ⟨step .deferred .expired, r.approval, none⟩
      | .resurface => do
        let applied ← ApplyTransitionPort.applySystem approval .resurface
        match applied with
        | .error e =>
          pure (surfaceFailure .deferred .apply_failed (str "deferred re-surface failed: " ++ e.code.text) approval)
        | .ok r =>
          match tick.shown r.approval with
          | .error code =>
            pure (surfaceFailure .pending (if code = .parity_failed then .parity_failed else .surface_failed)
              (str "re-surface card failed: " ++ code.text) r.approval)
          | .ok _ => pure ⟨step .deferred .pending, r.approval, none⟩

end sow.workflows
