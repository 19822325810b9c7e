import Mathlib.Data.List.Chain
import Sow.Contracts.Models
import Sow.Js.Map
import Sow.Js.String

open sow.js sow.contracts

namespace sow.domain

inductive TransitionErrorCode where
  | illegal_transition
  | terminal_state
  deriving DecidableEq

structure TransitionError (S : Type) where
  code : TransitionErrorCode
  origin : S
  target : S
  deriving DecidableEq

/-- A guard over state moves: total, and without effects. -/
structure StateMachine (S : Type) where
  isTerminal : S → Bool
  canTransition : S → S → Bool
  transition : S → S → Except (TransitionError S) S

section

variable {S : Type} [DecidableEq S] (transitions : Map S (List S)) (idempotentTerminalReentry : Bool)

/-- Build a machine from an adjacency table. A state with no edges is terminal; a state
    that is no key of the table has no edges and is not terminal. -/
def defineMachine : StateMachine S where
  isTerminal s := (transitions.get s).any List.isEmpty
  canTransition origin target := (transitions.get origin).any fun outs => decide (target ∈ outs)
  transition origin target :=
    if (transitions.get origin).any fun outs => decide (target ∈ outs) then .ok target
    else if (transitions.get origin).any List.isEmpty then
      if idempotentTerminalReentry && decide (origin = target) then .ok target
      else .error ⟨.terminal_state, origin, target⟩
    else .error ⟨.illegal_transition, origin, target⟩

variable {transitions idempotentTerminalReentry} {origin target s : S}

/-- Without re-entry the guard admits the edges and nothing else. -/
theorem defineMachine_transition_ok (h : (defineMachine transitions false).transition origin target = .ok s) :
    s = target ∧ (defineMachine transitions false).canTransition origin target = true := by
  unfold defineMachine at h ⊢
  dsimp only at h ⊢
  by_cases hedge : ((transitions.get origin).any fun outs => decide (target ∈ outs)) = true
  · rw [if_pos hedge] at h
    exact ⟨(Except.ok.inj h).symm, hedge⟩
  · rw [if_neg hedge] at h
    split at h
    · cases h
    · cases h

/-- No edge leaves a terminal state. -/
theorem defineMachine_terminal (h : (defineMachine transitions idempotentTerminalReentry).isTerminal origin = true) :
    (defineMachine transitions idempotentTerminalReentry).canTransition origin target = false := by
  unfold defineMachine at h ⊢
  dsimp only at h ⊢
  cases houts : transitions.get origin with
  | none => rfl
  | some outs =>
    rw [houts, Option.any_some, List.isEmpty_iff] at h
    rw [h]
    rfl

end

/-- The default windows of a deferred card, in milliseconds. -/
def APPROVAL_DEFAULTS_snoozeMs : Int := 24 * 60 * 60 * 1000

def APPROVAL_DEFAULTS_expiryMs : Int := 7 * 24 * 60 * 60 * 1000

/-- A deferred card re-surfaces or expires; the last four states are frozen. -/
def APPROVAL_TRANSITIONS : Map ApprovalStatus (List ApprovalStatus) := .ofList [
  (.pending, [.approved, .edited, .rejected, .deferred, .expired]),
  (.deferred, [.pending, .expired]),
  (.approved, []),
  (.edited, []),
  (.rejected, []),
  (.expired, [])]

/-- Re-applying a terminal transition succeeds without effect. -/
def approvalMachine : StateMachine ApprovalStatus := defineMachine APPROVAL_TRANSITIONS true

inductive AgentJobState where
  | created
  | admitted
  | provider_selected
  | running
  | schema_validated
  | accepted
  | rejected
  | cancelled_budget
  | failed_retryable
  | failed_terminal
  deriving DecidableEq

def AgentJobState.text : AgentJobState → JsString
  | .created => str "created"
  | .admitted => str "admitted"
  | .provider_selected => str "provider_selected"
  | .running => str "running"
  | .schema_validated => str "schema_validated"
  | .accepted => str "accepted"
  | .rejected => str "rejected"
  | .cancelled_budget => str "cancelled_budget"
  | .failed_retryable => str "failed_retryable"
  | .failed_terminal => str "failed_terminal"

/-- The spine, its fan-out, the cancellation of a running job and the retry loop. -/
def AGENT_JOB_TRANSITIONS : Map AgentJobState (List AgentJobState) := .ofList [
  (.created, [.admitted]),
  (.admitted, [.provider_selected]),
  (.provider_selected, [.running]),
  (.running, [.schema_validated, .cancelled_budget]),
  (.schema_validated, [.accepted, .rejected, .cancelled_budget, .failed_retryable, .failed_terminal]),
  (.accepted, []),
  (.rejected, []),
  (.cancelled_budget, []),
  (.failed_terminal, []),
  (.failed_retryable, [.admitted])]

def agentJobMachine : StateMachine AgentJobState := defineMachine AGENT_JOB_TRANSITIONS false

/-- The outcomes of a driven job. -/
inductive JobBranch where
  | accepted
  | rejected
  | cancelled_budget
  | failed_retryable
  | failed_terminal
  deriving DecidableEq

def JobBranch.state : JobBranch → AgentJobState
  | .accepted => .accepted
  | .rejected => .rejected
  | .cancelled_budget => .cancelled_budget
  | .failed_retryable => .failed_retryable
  | .failed_terminal => .failed_terminal

/-- A cursor over the machine. -/
structure JobLifecycle where
  state : AgentJobState
  deriving DecidableEq

def newJobLifecycle (initial : AgentJobState) : JobLifecycle := ⟨initial⟩

def JobLifecycle.advance (life : JobLifecycle) (target : AgentJobState) :
    Except (TransitionError AgentJobState) JobLifecycle :=
  match agentJobMachine.transition life.state target with
  | .error e => .error e
  | .ok state => .ok (newJobLifecycle state)

/-- A path of the machine that leaves `origin`. -/
def Walk (origin : AgentJobState) (path : List AgentJobState) : Prop :=
  (origin :: path).IsChain fun s t => agentJobMachine.canTransition s t = true

theorem JobLifecycle.advance_edge {life : JobLifecycle} {target : AgentJobState}
    (h : agentJobMachine.canTransition life.state target = true) : life.advance target = .ok ⟨target⟩ := by
  have hedge : agentJobMachine.transition life.state target = .ok target := if_pos h
  unfold JobLifecycle.advance
  rw [hedge]
  rfl

theorem Walk.nil (origin : AgentJobState) : Walk origin [] := List.isChain_singleton origin

/-- A path grows by an edge out of its end. -/
theorem Walk.concat {origin target : AgentJobState} {path : List AgentJobState} (h : Walk origin path)
    (hedge : agentJobMachine.canTransition (path.getLast?.getD origin) target = true) : Walk origin (path ++ [target]) := by
  unfold Walk at h ⊢
  rw [← List.cons_append]
  refine List.isChain_append.mpr ⟨h, List.isChain_singleton target, ?_⟩
  intro s hs t ht
  rw [List.head?_cons, Option.mem_some_iff] at ht
  rw [List.getLast?_cons, Option.mem_some_iff] at hs
  rw [← hs, ← ht]
  exact hedge

/-- A validated job may take any branch. -/
theorem schema_validated_branch (branch : JobBranch) :
    agentJobMachine.canTransition .schema_validated branch.state = true := by
  cases branch <;> rfl

end sow.domain
