import Mathlib.Logic.Relation
import Sow.Effect.Wp

namespace sow.effect

variable {Op : Type} {Ret : Op → Type} {ε α β W D : Type}

/-- The worlds that a program may leave behind: it may crash between any two of its calls. -/
inductive Leaves (h : Handler Op Ret ε W D) (adm : Op → D → Prop) : Program Op Ret ε α → W → W → Prop where
  | stop {p : Program Op Ret ε α} {w : W} : Leaves h adm p w w
  | step {op : Op} {k : Except ε (Ret op) → Program Op Ret ε α} {w w' : W} (d : D) (hd : adm op d)
      (rest : Leaves h adm (k (h.exec w op d).1) (h.exec w op d).2 w') : Leaves h adm (.call op k) w w'

/-- The worlds after any number of runs of a program, each of which has ended or crashed. -/
def Redriven (h : Handler Op Ret ε W D) (adm : Op → D → Prop) (p : Program Op Ret ε α) : W → W → Prop :=
  Relation.ReflTransGen fun w w' => Leaves h adm p w w'

section rules

variable {h : Handler Op Ret ε W D} {adm : Op → D → Prop} {p : Program Op Ret ε α} {w w' w'' : W}

/-- A run that ends leaves its last world behind. -/
theorem leaves_run {choose : Nat → Op → D} (hadm : ∀ n op, adm op (choose n op)) (n : Nat) :
    Leaves h adm p w (h.run choose n p w).2 := by
  induction p generalizing w n with
  | pure a => exact .stop
  | throw e => exact .stop
  | call op k ih => exact .step (choose n op) (hadm n op) (ih _ (n + 1))

theorem Redriven.start : Redriven h adm p w w := .refl

theorem Redriven.again (hw : Redriven h adm p w w') (hleaves : Leaves h adm p w' w'') : Redriven h adm p w w'' := .tail hw hleaves

end rules

/-- The weakest precondition with an invariant: `I` holds wherever the program may crash, and `Q` where it ends. -/
def wpInv (h : Handler Op Ret ε W D) (adm : Op → D → Prop) (I : W → Prop) :
    Program Op Ret ε α → (Except ε α → W → Prop) → W → Prop
  | .pure a, Q, w => I w ∧ Q (.ok a) w
  | .throw e, Q, w => I w ∧ Q (.error e) w
  | .call op k, Q, w => I w ∧ ∀ d, adm op d → wpInv h adm I (k (h.exec w op d).1) Q (h.exec w op d).2

section invariant

variable {h : Handler Op Ret ε W D} {adm : Op → D → Prop} {I : W → Prop} {p : Program Op Ret ε α} {Q Q' : Except ε α → W → Prop} {w w' : W}

theorem wpInv.start (hp : wpInv h adm I p Q w) : I w := by
  cases p with
  | pure a => exact hp.1
  | throw e => exact hp.1
  | call op k => exact hp.1

/-- A world that a program may leave behind keeps the invariant. -/
theorem wpInv.leaves (hp : wpInv h adm I p Q w) (hleaves : Leaves h adm p w w') : I w' := by
  induction hleaves with
  | stop => exact hp.start
  | step d hd _ ih => exact ih (hp.2 d hd)

theorem wpInv.wp (hp : wpInv h adm I p Q w) : wp h adm p Q w := by
  induction p generalizing w with
  | pure a => exact hp.2
  | throw e => exact hp.2
  | call op k ih => exact fun d hd => ih _ (hp.2 d hd)

theorem wpInv.mono (hp : wpInv h adm I p Q w) (hQ : ∀ r w, I w → Q r w → Q' r w) : wpInv h adm I p Q' w := by
  induction p generalizing w with
  | pure a => exact ⟨hp.1, hQ _ _ hp.1 hp.2⟩
  | throw e => exact ⟨hp.1, hQ _ _ hp.1 hp.2⟩
  | call op k ih => exact ⟨hp.1, fun d hd => ih _ (hp.2 d hd)⟩

/-- The rule of sequencing. -/
theorem wpInv_bind {p : Program Op Ret ε β} {f : β → Program Op Ret ε α}
    (hp : wpInv h adm I p (fun r w => match r with | .ok b => wpInv h adm I (f b) Q w | .error e => Q (.error e) w) w) :
    wpInv h adm I (p >>= f) Q w := by
  change wpInv h adm I (p.bind f) Q w
  induction p generalizing w with
  | pure b => exact hp.2
  | throw e => exact hp
  | call op k ih => exact ⟨hp.1, fun d hd => ih _ (hp.2 d hd)⟩

theorem wpInv_attempt {p : Program Op Ret ε β} {Q : Except ε (Except ε β) → W → Prop} (hp : wpInv h adm I p (fun r w => Q (.ok r) w) w) :
    wpInv h adm I p.attempt Q w := by
  induction p generalizing w with
  | pure b => exact hp
  | throw e => exact hp
  | call op k ih => exact ⟨hp.1, fun d hd => ih _ (hp.2 d hd)⟩

/-- The rule of a call that always answers. -/
theorem wpInv_call {op : Op} {f : Ret op → Program Op Ret ε α} (hI : I w)
    (hcall : ∀ d, adm op d → ∃ r w', h.exec w op d = (.ok r, w') ∧ wpInv h adm I (f r) Q w') : wpInv h adm I (.perform op >>= f) Q w := by
  refine ⟨hI, fun d hd => ?_⟩
  obtain ⟨r, w', hrun, hf⟩ := hcall d hd
  rw [hrun]
  exact hf

/-- What the calls of a program all keep, the program keeps. -/
theorem wpInv_of_within {A : Op → Prop} (hp : p.Within A) (hw : I w)
    (hstep : ∀ op w d, A op → adm op d → I w → I (h.exec w op d).2) : wpInv h adm I p (fun _ w => I w) w := by
  induction p generalizing w with
  | pure a => exact ⟨hw, hw⟩
  | throw e => exact ⟨hw, hw⟩
  | call op k ih => exact ⟨hw, fun d hd => ih _ (hp.2 _) (hstep op w d hp.1 hd hw)⟩

end invariant

end sow.effect
