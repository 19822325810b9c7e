import Sow.Contracts.Models
import Sow.Db.Approvals
import Sow.Js.Number

open sow.js sow.effect sow.contracts sow.db

namespace sow.worker

/-- The decisions open to a human on a card, the same on both channels. -/
inductive ApprovalDecision where
  | approve
  | edit
  | reject
  | defer
  deriving DecidableEq

def DECISION_TO_STATUS : ApprovalDecision → ApprovalStatus
  | .approve => .approved
  | .edit => .edited
  | .reject => .rejected
  | .defer => .deferred

def SNOOZE_MS : Int := 24 * 60 * 60 * 1000

def EXPIRY_MS : Int := 7 * 24 * 60 * 60 * 1000

def dbErrorToFailure (e : DbError) : FailureVariant :=
  match e.code with
  | .conflict =>
    failure .write_conflict (str "approval transition lost the compare-and-set") (some (str "APPROVAL_CAS_CONFLICT")) false
  | .not_found => failure .validation_rejected (str "approval not found") (some (str "APPROVAL_NOT_FOUND")) false
  | .constraint_violation =>
    failure .write_conflict (str "approval transition rejected") (some (str "APPROVAL_CONSTRAINT")) false
  | .serialization_failure =>
    failure .degraded_unavailable (str "approval store retryable") (some (str "APPROVAL_SERIALIZATION")) true
  | .unavailable =>
    failure .degraded_unavailable (str "approval store unavailable") (some (str "APPROVAL_STORE_UNAVAILABLE")) true
  | _ => failure .degraded_unavailable (str "approval store error") (some (str "APPROVAL_STORE_UNKNOWN")) false

structure ApprovalDecisionResult where
  approval : Approval
  applied : Bool

/-- `toISOString` of an invalid date. -/
def invalidTime : DriverError := ⟨[], some (str "Invalid time value")⟩

/-- The record after a decision: a deferral stamps its windows from the clock, any other
    decision drops them. -/
def nextRecord (dates : IsoDates) (current : Approval) (decision : ApprovalDecision) (channel : Channel) (now : JsString) :
    Except DriverError Approval :=
  let base : Approval := { current with
    status := DECISION_TO_STATUS decision, channel, snoozeUntil := none, expiresAt := none }
  if decision = .defer then
    match dates.parse now with
    | none => .error invalidTime
    | some nowMs => .ok { base with
        snoozeUntil := some (dates.toISOString (nowMs + SNOOZE_MS)), expiresAt := some (dates.toISOString (nowMs + EXPIRY_MS)) }
  else .ok base

/-- A decision on a card. `dispatchApproval` is what the dispatch port answers; its effects
    are on other stores. -/
def decideApprovalCommand (dates : IsoDates) (dispatchApproval : Approval → Except FailureVariant Unit) (now : JsString)
    (approvalId : JsString) (decision : ApprovalDecision) (channel : Channel) :
    ApprovalM (Except FailureVariant ApprovalDecisionResult) := do
  let currentR ← approvals.get approvalId
  match currentR with
  | .error e => pure (.error (dbErrorToFailure e))
  | .ok current =>
    let next ← Program.ofExcept (nextRecord dates current decision channel now)
    let casR ← applyTransition ⟨approvalId, current.status, next⟩
    match casR with
    | .error e => pure (.error (dbErrorToFailure e))
    | .ok outcome =>
      -- The side effect follows a transition of this call only.
      if outcome.applied then
        match dispatchApproval outcome.approval with
        | .error e => pure (.error e)
        | .ok _ => pure (.ok ⟨outcome.approval, outcome.applied⟩)
      else pure (.ok ⟨outcome.approval, outcome.applied⟩)

theorem nextRecord_status {dates : IsoDates} {current next : Approval} {decision : ApprovalDecision} {channel : Channel}
    {now : JsString} (h : nextRecord dates current decision channel now = .ok next) :
    next.status = DECISION_TO_STATUS decision := by
  unfold nextRecord at h
  dsimp only at h
  split at h
  · split at h
    · cases h
    · rw [← Except.ok.inj h]
  · rw [← Except.ok.inj h]

end sow.worker
