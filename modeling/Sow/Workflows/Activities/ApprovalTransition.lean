import Sow.Db.Approvals
import Sow.Domain.State.Machines

open sow.js sow.effect sow.contracts sow.db sow.domain

namespace sow.workflows

/-- The targets that an actor may choose. -/
inductive DecisionTarget where
  | approved
  | edited
  | rejected
  | deferred
  deriving DecidableEq

def DecisionTarget.status : DecisionTarget → ApprovalStatus
  | .approved => .approved
  | .edited => .edited
  | .rejected => .rejected
  | .deferred => .deferred

structure ApprovalDecision where
  decision : DecisionTarget
  channel : Channel
  actor : JsString

inductive ApprovalSystemTransition where
  | resurface
  | expire
  deriving DecidableEq

inductive NoopReason where
  | already_terminal
  | already_in_target
  deriving DecidableEq

structure ApplyTransitionResult where
  approval : Approval
  applied : Bool
  noopReason : Option NoopReason

inductive ApplyTransitionErrorCode where
  | illegal_transition
  | expired
  | conflicting_approval
  | stale_card
  | apply_failed
  deriving DecidableEq

/-- An error that has dropped its cause. -/
structure ApplyTransitionError where
  code : ApplyTransitionErrorCode
  message : JsString

def foldApplyDbError (e : DbError) : ApplyTransitionErrorCode :=
  match e.code with
  | .conflict => .conflicting_approval
  | .not_found => .stale_card
  | _ => .apply_failed

/-- The text of a store's error code. -/
def dbErrorCodeText : DbErrorCode → JsString
  | .not_found => str "not_found"
  | .conflict => str "conflict"
  | .constraint_violation => str "constraint_violation"
  | .serialization_failure => str "serialization_failure"
  | .unavailable => str "unavailable"
  | .stored_row_schema_violation => str "stored_row_schema_violation"
  | .unknown => str "unknown"

structure ApplyTransitionActivityDeps where
  now : JsString
  snoozeUntil : JsString
  expiresAt : JsString

def noop (target : ApprovalStatus) (approval : Approval) : ApplyTransitionResult :=
  ⟨approval, false, some (if approvalMachine.isTerminal target then .already_terminal else .already_in_target)⟩

/-- The machine gates the edge, and the compare-and-set applies it. -/
def cas (approval : Approval) (origin target : ApprovalStatus) (next : Approval) :
    ApprovalM (Except ApplyTransitionError ApplyTransitionResult) :=
  match approvalMachine.transition origin target with
  | .error _ =>
    let code := if origin = .expired ∧ target = .approved then ApplyTransitionErrorCode.expired else .illegal_transition
    pure (.error ⟨code, str "illegal approval edge " ++ origin.text ++ str " → " ++ target.text⟩)
  | .ok _ => do
    let res ← applyTransition ⟨approval.id, origin, next⟩
    match res with
    | .ok outcome =>
      if outcome.applied then pure (.ok ⟨outcome.approval, true, none⟩) else pure (.ok (noop target outcome.approval))
    | .error e =>
      let failed : ApplyTransitionError := ⟨foldApplyDbError e, str "apply transition failed: " ++ dbErrorCodeText e.code⟩
      if e.code = .conflict then
        -- Another decision has landed: read again to see which.
        let current ← approvals.get approval.id
        match current with
        | .ok current =>
          if current.status = target then pure (.ok (noop target current))
          else pure (.error ⟨.conflicting_approval,
            str "conflicting approval: already " ++ current.status.text ++ str ", wanted " ++ target.text⟩)
        | .error _ => pure (.error failed)
      else pure (.error failed)

namespace ApplyTransitionPort

variable (deps : ApplyTransitionActivityDeps)

/-- A deferral stamps its snooze window; whatever else the card carries stays. -/
def apply (approval : Approval) (decision : ApprovalDecision) : ApprovalM (Except ApplyTransitionError ApplyTransitionResult) :=
  let target := decision.decision.status
  let next : Approval := { approval with
    status := target, actor := decision.actor, channel := decision.channel,
    snoozeUntil := if target = .deferred then some deps.snoozeUntil else approval.snoozeUntil }
  cas approval approval.status target next

def applySystem (approval : Approval) (transition : ApprovalSystemTransition) :
    ApprovalM (Except ApplyTransitionError ApplyTransitionResult) :=
  let target : ApprovalStatus := if transition = .expire then .expired else .pending
  let next : Approval := { approval with status := target, actor := str "system:snooze-timer", snoozeUntil := none }
  cas approval approval.status target next

end ApplyTransitionPort

end sow.workflows
