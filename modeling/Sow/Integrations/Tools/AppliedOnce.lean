import Sow.Integrations.Tools.AtMostOneObject
import Sow.Integrations.Tools.DispatchSpec

open sow.js sow.effect sow.contracts sow.db

namespace sow.tools

variable {Time Payload : Type}

/-- A dispatch, with what the environment decides at its calls. -/
structure DispatchStep (Time Payload : Type) where
  call : DispatchCall Time Payload
  choose : Nat → ToolOp Time Payload → Choice Time

section run

variable [LinearOrder Time]

def DispatchStep.program (e : DispatchStep Time Payload) : ToolM Time Payload (ExternalWriteResult Time) :=
  dispatchExternalWrite e.call.deps e.call.env e.call.action e.call.opts

/-- The world after the dispatch. -/
def DispatchStep.run (epoch : Time) (w : ToolWorld Time Payload) (e : DispatchStep Time Payload) : ToolWorld Time Payload :=
  ((toolHandler epoch).run e.choose 0 e.program w).2

/-- Dispatches one at a time. -/
def runDispatches (epoch : Time) (w : ToolWorld Time Payload) (steps : List (DispatchStep Time Payload)) :
    ToolWorld Time Payload := steps.foldl (DispatchStep.run epoch) w

/-- A dispatch of a key that the vendor has accepted before does not call the vendor. -/
def AppliedOnce (epoch : Time) (w : ToolWorld Time Payload) (steps : List (DispatchStep Time Payload)) : Prop :=
  ∀ es e es', steps = es ++ e :: es' →
    (∃ c ∈ (runDispatches epoch w es).calls, c.ok = true ∧ c.env.idempotencyKey = e.call.env.idempotencyKey) →
    (runDispatches epoch w (es ++ [e])).calls = (runDispatches epoch w es).calls

/-- Every dispatch keeps one of its two records, or its object had no row before it and
    later dispatches of its key are for the same object. -/
def Accounted (epoch : Time) (w : ToolWorld Time Payload) (steps : List (DispatchStep Time Payload)) : Prop :=
  ∀ es e es', steps = es ++ e :: es' →
    RecordsKept ((toolHandler epoch).trace e.choose e.program (runDispatches epoch w es)) ∨
    (runDispatches epoch w es).receipts.get e.call.object = none ∧
      ∀ e' ∈ es', e'.call.env.idempotencyKey = e.call.env.idempotencyKey → e'.call.object = e.call.object

/-- What is known of the writes applied so far, with `rest` still to come. -/
structure Accountable (w : ToolWorld Time Payload) (rest : List (DispatchStep Time Payload)) : Prop where
  wellFormed : w.WellFormed
  applied : ∀ c ∈ w.calls, c.ok = true → w.Known c.env.idempotencyKey ∨
    w.Closed c.object ∧ ∀ e ∈ rest, e.call.env.idempotencyKey = c.env.idempotencyKey → e.call.object = c.object

variable (epoch : Time) {w : ToolWorld Time Payload} {e : DispatchStep Time Payload} {rest : List (DispatchStep Time Payload)}

theorem run_effect (hw : w.WellFormed) (htruthful : ∀ n op, Truthfully op (e.choose n op)) :
    DispatchEffect e.call.env (RecordsKept ((toolHandler epoch).trace e.choose e.program w)) w (e.run epoch w) := by
  have hwp : wp (toolHandler epoch).logged Truthfully e.program (Effects e.call.env w) (w, []) :=
    wp_dispatchExternalWrite e.call.deps e.call.env e.call.action e.call.opts hw
  unfold DispatchStep.run
  rw [← run_logged (l := [])]
  exact hwp.run htruthful 0

/-- An applied key is not applied by the next dispatch, which accounts for its own. -/
theorem Accountable.step (h : Accountable w (e :: rest)) (htruthful : ∀ n op, Truthfully op (e.choose n op))
    (haccounted : RecordsKept ((toolHandler epoch).trace e.choose e.program w) ∨ w.receipts.get e.call.object = none ∧
      ∀ e' ∈ rest, e'.call.env.idempotencyKey = e.call.env.idempotencyKey → e'.call.object = e.call.object) :
    Accountable (e.run epoch w) rest ∧
      ((∃ c ∈ w.calls, c.ok = true ∧ c.env.idempotencyKey = e.call.env.idempotencyKey) →
        (e.run epoch w).calls = w.calls) := by
  have heffect := run_effect epoch h.wellFormed htruthful
  have hidle : (∃ c ∈ w.calls, c.ok = true ∧ c.env.idempotencyKey = e.call.env.idempotencyKey) →
      (e.run epoch w).calls = w.calls := by
    rintro ⟨c, hc, hok, hkey⟩
    rcases heffect.calls with hcalls | ⟨-, -, -, hknown, hopen, -⟩
    · exact hcalls
    · rcases h.applied c hc hok with hknown' | ⟨hclosed, hobject⟩
      · exact absurd (hkey ▸ hknown') hknown
      · have hsame : e.call.object = c.object := hobject e (List.mem_cons_self ..) hkey.symm
        rw [← hsame] at hclosed
        exact absurd hclosed hopen
  refine ⟨⟨heffect.wellFormed, fun c hc hok => ?_⟩, hidle⟩
  have hold : c ∈ w.calls → (e.run epoch w).Known c.env.idempotencyKey ∨ (e.run epoch w).Closed c.object ∧
      ∀ e' ∈ rest, e'.call.env.idempotencyKey = c.env.idempotencyKey → e'.call.object = c.object := by
    intro hc
    rcases h.applied c hc hok with hknown | ⟨hclosed, hobject⟩
    · exact .inl (heffect.known hknown)
    · exact .inr ⟨heffect.closed hclosed, fun e' he' => hobject e' (List.mem_cons_of_mem _ he')⟩
  rcases heffect.calls with hcalls | ⟨c', hcalls, henv, -, -, hrecorded⟩
  · exact hold (hcalls ▸ hc)
  · rw [hcalls, List.mem_append, List.mem_singleton] at hc
    rcases hc with hc | rfl
    · exact hold hc
    · obtain ⟨hkept, hcreated⟩ := hrecorded hok
      rcases haccounted with hrecords | ⟨hnone, hlater⟩
      · rw [henv]
        exact .inl (hkept hrecords)
      · have hobject : c.object = e.call.object := by
          unfold VendorCall.object
          rw [henv]
          rfl
        rw [hobject, henv]
        exact (hcreated hnone).imp_right fun hclosed => ⟨hclosed, hlater⟩

/-- The claim, over every run from a well-formed store. -/
theorem Accountable.appliedOnce {steps : List (DispatchStep Time Payload)} (h : Accountable w steps)
    (htruthful : ∀ e ∈ steps, ∀ n op, Truthfully op (e.choose n op)) (haccounted : Accounted epoch w steps) :
    AppliedOnce epoch w steps := by
  induction steps generalizing w with
  | nil =>
    intro es e es' hes
    simp at hes
  | cons e₀ rest ih =>
    obtain ⟨hnext, hidle⟩ := h.step epoch (htruthful e₀ (List.mem_cons_self ..)) (haccounted [] e₀ rest rfl)
    have hrest : AppliedOnce epoch (e₀.run epoch w) rest := by
      refine ih hnext (fun e he => htruthful e (List.mem_cons_of_mem _ he)) fun es e es' hes => ?_
      exact haccounted (e₀ :: es) e es' (congrArg (e₀ :: ·) hes)
    intro es e es' hes
    cases es with
    | nil =>
      obtain ⟨rfl, -⟩ := List.cons.inj hes
      exact hidle
    | cons e₁ es =>
      obtain ⟨rfl, hrest'⟩ := List.cons.inj hes
      exact hrest es e es' hrest'

/-- An envelope that the vendor has accepted is never applied again, in any sequence of
    dispatches and with any faults, if every dispatch accounts for its write. -/
theorem dispatchExternalWrite_appliedOnce (epoch : Time) (w : ToolWorld Time Payload) (hw : w.WellFormed) (hcalls : w.calls = [])
    (steps : List (DispatchStep Time Payload)) (htruthful : ∀ e ∈ steps, ∀ n op, Truthfully op (e.choose n op))
    (haccounted : Accounted epoch w steps) : AppliedOnce epoch w steps := by
  refine Accountable.appliedOnce epoch ⟨hw, fun c hc => ?_⟩ htruthful haccounted
  rw [hcalls] at hc
  cases hc

end run

section lost

/-- A write of the task `t1`, under a replay key and with the hash of its payload. -/
def taskWrite (k payloadHash : JsString) : DispatchCall Nat Unit where
  deps := ⟨fun _ => none, fun _ => false, false⟩
  env := ⟨str "a1", .todoist, str "t1", k, [], payloadHash⟩
  action := ⟨str "a1", .todoist, str "t1", (), str "p", k⟩
  opts := ⟨none, some (str "w1")⟩

/-- The writes of the receipt store. -/
def ToolOp.isReceiptWrite : ToolOp Time Payload → Bool
  | .put _ => true
  | .recordApplication _ => true
  | .release _ => true
  | _ => false

/-- The vendor accepts everything; the writes of the receipt store are lost, or succeed. -/
def recordsLost (lost : Bool) (_ : Nat) (op : ToolOp Nat Unit) : Choice Nat where
  fault := if lost && op.isReceiptWrite then some ⟨.unavailable, str "locked", none⟩ else none
  landed := false
  adapter := .ok ⟨str "x1", none, 0, none⟩
  probe := .exact ⟨str "x1", none, none⟩
  approved := true
  secret := .ok (.ok (str "token"))
  sink := .ok ()
  time := 0
  id := str "o1"

/-- The task is created; an update of it is accepted, its records are lost, and it is dispatched again. -/
def lostUpdate : List (DispatchStep Nat Unit) :=
  [⟨taskWrite (str "k1") (str "h1"), recordsLost false⟩, ⟨taskWrite (str "k2") (str "h2"), recordsLost true⟩,
    ⟨taskWrite (str "k2") (str "h2"), recordsLost false⟩]

theorem dispatchExternalWrite_applies_twice :
    ¬ ∀ steps : List (DispatchStep Nat Unit),
      (∀ e ∈ steps, ∀ n op, op.isReceiptWrite = false → (e.choose n op).fault = none) → AppliedOnce 0 noTasks steps := by
  intro h
  have hwrites : ∀ e ∈ lostUpdate, ∀ n op, op.isReceiptWrite = false → (e.choose n op).fault = none := by
    simp [lostUpdate, recordsLost]
  have hcalls := h lostUpdate hwrites [⟨taskWrite (str "k1") (str "h1"), recordsLost false⟩,
    ⟨taskWrite (str "k2") (str "h2"), recordsLost true⟩] _ [] rfl (by decide)
  revert hcalls
  decide

theorem dispatchExternalWrite_appliedOnce_update :
    AppliedOnce 0 noTasks [⟨taskWrite (str "k1") (str "h1"), recordsLost false⟩,
      ⟨taskWrite (str "k2") (str "h2"), recordsLost false⟩, ⟨taskWrite (str "k1") (str "h1"), recordsLost false⟩] := by
  refine dispatchExternalWrite_appliedOnce 0 noTasks ?_ rfl _ ?_ ?_
  · intro object row hrow
    cases hrow
  · simp [recordsLost, Truthfully, Choice.Truthful]
  · intro es e es' hes
    refine .inl (.inl fun row d hmem => .inl ?_)
    obtain ⟨n, hd⟩ := mem_trace hmem
    have he := hes ▸ List.mem_append_right es (List.mem_cons_self (a := e) (l := es'))
    dsimp only at hd
    rw [hd]
    simp only [List.mem_cons, List.not_mem_nil, or_false] at he
    rcases he with rfl | rfl | rfl <;> rfl

end lost

end sow.tools
