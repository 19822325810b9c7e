import Sow.Contracts.Models
import Sow.Db.Errors

open sow.js sow.contracts

namespace sow.db

/-- The tombstones: no transition leaves them. -/
def TERMINAL_APPROVAL_STATUSES : List ApprovalStatus := [.approved, .edited, .rejected, .expired]

def isTerminalApprovalStatus (status : ApprovalStatus) : Bool := decide (status ∈ TERMINAL_APPROVAL_STATUSES)

inductive InvariantCode where
  | append_only_violation
  | immutable_violation
  | rebuild_truth_excluded
  | stale_transition
  deriving DecidableEq

structure InvariantViolation where
  code : InvariantCode
  domain : JsString
  message : JsString

def invariantToDbErrorCode : InvariantCode → DbErrorCode
  | .append_only_violation => .constraint_violation
  | .immutable_violation => .constraint_violation
  | .rebuild_truth_excluded => .constraint_violation
  | .stale_transition => .conflict

/-- The verdict of a compare-and-set on an approval. -/
inductive CasVerdict where
  | apply
  | idempotent_noop
  | stale_conflict
  deriving DecidableEq

def decideApprovalCas (current expectedFrom next : ApprovalStatus) : CasVerdict :=
  -- Replay, or a contender for the same target: the end state already holds.
  if current = next then .idempotent_noop
  else if isTerminalApprovalStatus current then .stale_conflict
  else if current = expectedFrom then .apply
  else .stale_conflict

theorem decideApprovalCas_self (current expectedFrom : ApprovalStatus) :
    decideApprovalCas current expectedFrom current = .idempotent_noop := if_pos rfl

/-- The compare-and-set is won by the expectation that holds, away from the target
    and from the tombstones. -/
theorem decideApprovalCas_apply_iff {current expectedFrom next : ApprovalStatus} :
    decideApprovalCas current expectedFrom next = .apply ↔
      current ≠ next ∧ isTerminalApprovalStatus current = false ∧ current = expectedFrom := by
  unfold decideApprovalCas
  by_cases hnext : current = next
  · simp [hnext]
  · by_cases hterminal : isTerminalApprovalStatus current = true
    · simp [hnext, hterminal]
    · by_cases hfrom : current = expectedFrom
      · subst hfrom
        simp [hnext, hterminal]
      · simp [hnext, hterminal, hfrom]

/-- A resolved compare-and-set: the record, and whether this caller moved it. -/
structure CasOutcome (α : Type) where
  value : α
  applied : Bool

def casVerdictToOutcome {α : Type} (verdict : CasVerdict) (applied current : α) :
    Except InvariantViolation (CasOutcome α) :=
  match verdict with
  | .apply => .ok ⟨applied, true⟩
  | .idempotent_noop => .ok ⟨current, false⟩
  | .stale_conflict => .error ⟨.stale_transition, str "approvals",
      str "approval transition lost the compare-and-set (stale expectedStatus or tombstoned record); " ++
        str "no second apply (REQ-F-012, §9)"⟩

end sow.db
