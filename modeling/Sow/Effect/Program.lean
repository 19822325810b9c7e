import Mathlib.Tactic

namespace sow.effect

/-- An asynchronous program over injected operations. A call yields to its
    environment, which answers with a value or with a thrown error; whether the
    error is caught is decided by the continuation. -/
inductive Program (Op : Type) (Ret : Op → Type) (ε α : Type) where
  | pure (a : α)
  | throw (e : ε)
  | call (op : Op) (k : Except ε (Ret op) → Program Op Ret ε α)

namespace Program

variable {Op : Type} {Ret : Op → Type} {ε α β γ : Type}

/-- Sequencing; an uncaught error ends the program. -/
def bind : Program Op Ret ε α → (α → Program Op Ret ε β) → Program Op Ret ε β
  | .pure a, f => f a
  | .throw e, _ => .throw e
  | .call op k, f => .call op fun r => (k r).bind f

/-- `try { p } catch (e) { h e }`. -/
def tryCatch : Program Op Ret ε α → (ε → Program Op Ret ε α) → Program Op Ret ε α
  | .pure a, _ => .pure a
  | .throw e, h => h e
  | .call op k, h => .call op fun r => (k r).tryCatch h

/-- Resume with the answer of a call, rethrowing its error. -/
def ofExcept : Except ε α → Program Op Ret ε α
  | .ok a => .pure a
  | .error e => .throw e

/-- `await op`. -/
def perform (op : Op) : Program Op Ret ε (Ret op) := .call op ofExcept

/-- Run `p` and turn its outcome, thrown or returned, into a value. -/
def attempt : Program Op Ret ε α → Program Op Ret ε (Except ε α)
  | .pure a => .pure (.ok a)
  | .throw e => .pure (.error e)
  | .call op k => .call op fun r => (k r).attempt

instance : Monad (Program Op Ret ε) where
  pure := .pure
  bind := .bind

theorem bind_pure_right (p : Program Op Ret ε α) : p.bind .pure = p := by
  induction p with
  | pure a => rfl
  | throw e => rfl
  | call op k ih => rw [bind]; exact congrArg _ (funext ih)

theorem bind_assoc (p : Program Op Ret ε α) (f : α → Program Op Ret ε β) (g : β → Program Op Ret ε γ) :
    (p.bind f).bind g = p.bind fun a => (f a).bind g := by
  induction p with
  | pure a => rfl
  | throw e => rfl
  | call op k ih => simp only [bind, ih]

instance : LawfulMonad (Program Op Ret ε) :=
  LawfulMonad.mk' _ bind_pure_right (fun _ _ => rfl) bind_assoc

/-- The calls that a program may perform, whatever it is answered. -/
def Within (A : Op → Prop) : Program Op Ret ε α → Prop
  | .pure _ => True
  | .throw _ => True
  | .call op k => A op ∧ ∀ r, Within A (k r)

theorem within_perform {A : Op → Prop} {op : Op} (h : A op) : Within A (.perform op : Program Op Ret ε (Ret op)) := by
  refine ⟨h, fun r => ?_⟩
  cases r with
  | ok a => trivial
  | error e => trivial

theorem Within.bind {A : Op → Prop} {p : Program Op Ret ε β} {f : β → Program Op Ret ε α} (hp : Within A p) (hf : ∀ b, Within A (f b)) :
    Within A (p >>= f) := by
  change Within A (p.bind f)
  induction p with
  | pure b => exact hf b
  | throw e => trivial
  | call op k ih => exact ⟨hp.1, fun r => ih r (hp.2 r)⟩

theorem Within.map {A : Op → Prop} {p : Program Op Ret ε β} (f : β → α) (hp : Within A p) : Within A (f <$> p) := by
  rw [← bind_pure_comp]
  exact hp.bind fun _ => trivial

theorem Within.tryCatch {A : Op → Prop} {p : Program Op Ret ε α} {f : ε → Program Op Ret ε α} (hp : Within A p)
    (hf : ∀ e, Within A (f e)) : Within A (p.tryCatch f) := by
  induction p with
  | pure b => trivial
  | throw e => exact hf e
  | call op k ih => exact ⟨hp.1, fun r => ih r (hp.2 r)⟩

theorem Within.mono {A B : Op → Prop} {p : Program Op Ret ε α} (hp : Within A p) (hAB : ∀ op, A op → B op) :
    Within B p := by
  induction p with
  | pure b => trivial
  | throw e => trivial
  | call op k ih => exact ⟨hAB op hp.1, fun r => ih r (hp.2 r)⟩

/-- Run a program of one interface inside a larger one. -/
def lift {Op' : Type} {Ret' : Op' → Type} (inj : Op → Op') (back : ∀ op, Ret' (inj op) → Ret op) :
    Program Op Ret ε α → Program Op' Ret' ε α
  | .pure a => .pure a
  | .throw e => .throw e
  | .call op k => .call (inj op) fun r => (k (r.map (back op))).lift inj back

/-- Run a program of one interface inside a larger one that throws other errors. -/
def embed {Op' : Type} {Ret' : Op' → Type} {ε' : Type} (inj : Op → Op') (back : ∀ op, Ret' (inj op) → Ret op) (up : ε → ε') (down : ε' → ε) :
    Program Op Ret ε α → Program Op' Ret' ε' α
  | .pure a => .pure a
  | .throw e => .throw (up e)
  | .call op k => .call (inj op) fun r => (k ((r.map (back op)).mapError down)).embed inj back up down

/-- A lifted program performs the calls of its own interface. -/
theorem within_lift {Op' : Type} {Ret' : Op' → Type} (inj : Op → Op') (back : ∀ op, Ret' (inj op) → Ret op)
    (p : Program Op Ret ε α) : Within (fun op => ∃ o, op = inj o) (p.lift inj back) := by
  induction p with
  | pure a => trivial
  | throw e => trivial
  | call op k ih => exact ⟨⟨op, rfl⟩, fun r => ih _⟩

end Program

/-- The environment of a program: from a world, an operation and one of the
    choices open to the environment, the answer and the next world. -/
structure Handler (Op : Type) (Ret : Op → Type) (ε W D : Type) where
  exec : W → (op : Op) → D → Except ε (Ret op) × W

namespace Handler

variable {Op : Type} {Ret : Op → Type} {ε α W D : Type} (h : Handler Op Ret ε W D)

/-- Run a program alone. `choose n` is the environment's choice at its `n`-th call. -/
def run (choose : Nat → Op → D) : Nat → Program Op Ret ε α → W → Except ε α × W
  | _, .pure a, w => (.ok a, w)
  | _, .throw e, w => (.error e, w)
  | n, .call op k, w =>
    let answer := h.exec w op (choose n op)
    run choose (n + 1) (k answer.1) answer.2

/-- The environment that makes the choices of `choose` in turn; its world counts the calls. -/
def scripted (choose : Nat → Op → D) : Handler Op Ret ε (W × Nat) Unit where
  exec w op _ :=
    let answer := h.exec w.1 op (choose w.2 op)
    (answer.1, answer.2, w.2 + 1)

/-- The environment that also logs the calls, each with the choice made at it. -/
def logged : Handler Op Ret ε (W × List (Op × D)) D where
  exec w op d :=
    let answer := h.exec w.1 op d
    (answer.1, answer.2, w.2 ++ [(op, d)])

/-- The calls that a run performs. -/
def trace (choose : Nat → Op → D) (p : Program Op Ret ε α) (w : W) : List (Op × D) :=
  (h.logged.run choose 0 p (w, [])).2.2

/-- Run a program against an environment that has no choices. -/
def eval (g : Handler Op Ret ε W Unit) (p : Program Op Ret ε α) (w : W) : Except ε α × W :=
  g.run (fun _ _ => ()) 0 p w

end Handler

/-- What may befall a statement. -/
inductive Fault (ε : Type) where
  | none
  /-- It fails without having run. -/
  | failed (cause : ε)
  /-- It runs, and is reported to have failed. -/
  | unknown (cause : ε)

variable {Op : Type} {Ret : Op → Type} {ε W : Type}

/-- A store whose statements are atomic, and may fail. -/
def faulty (run : W → (op : Op) → Ret op × W) : Handler Op Ret ε W (Fault ε) where
  exec w op d :=
    match d with
    | .none => (.ok (run w op).1, (run w op).2)
    | .failed cause => (.error cause, w)
    | .unknown cause => (.error cause, (run w op).2)

/-- A statement is answered as it has run, or fails, in which case it may have run. -/
theorem faulty_cases (run : W → (op : Op) → Ret op × W) (w : W) (op : Op) (d : Fault ε) :
    (faulty run).exec w op d = (.ok (run w op).1, (run w op).2) ∨
      ∃ cause w', (faulty run).exec w op d = (.error cause, w') ∧ (w' = w ∨ w' = (run w op).2) := by
  cases d with
  | none => exact .inl rfl
  | failed cause => exact .inr ⟨cause, w, rfl, .inl rfl⟩
  | unknown cause => exact .inr ⟨cause, (run w op).2, rfl, .inr rfl⟩

end sow.effect
