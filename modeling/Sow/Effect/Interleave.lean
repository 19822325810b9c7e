import Sow.Effect.Program

namespace sow.effect

/-- Programs that run concurrently on one world. -/
structure Pool (ι Op : Type) (Ret : Op → Type) (ε α W : Type) where
  thread : ι → Program Op Ret ε α
  world : W

section pool

variable {ι Op : Type} {Ret : Op → Type} {ε α W D : Type} [DecidableEq ι]

/-- The scheduler lets a thread perform its next call, which is one atomic step on
    the world; a finished thread does not move. -/
def Pool.step (h : Handler Op Ret ε W D) (c : Pool ι Op Ret ε α W) (e : ι × D) : Pool ι Op Ret ε α W :=
  match c.thread e.1 with
  | .call op k => ⟨Function.update c.thread e.1 (k (h.exec c.world op e.2).1), (h.exec c.world op e.2).2⟩
  | .pure _ => c
  | .throw _ => c

/-- A schedule: which thread moves, and what the environment chooses, step by step. -/
def Pool.run (h : Handler Op Ret ε W D) (c : Pool ι Op Ret ε α W) (schedule : List (ι × D)) : Pool ι Op Ret ε α W :=
  schedule.foldl (Pool.step h) c

variable {h : Handler Op Ret ε W D} {c : Pool ι Op Ret ε α W}

@[simp] theorem Pool.run_nil : c.run h [] = c := rfl

@[simp] theorem Pool.run_cons (e : ι × D) (es : List (ι × D)) : c.run h (e :: es) = (c.step h e).run h es := rfl

theorem Pool.run_append (es es' : List (ι × D)) : c.run h (es ++ es') = (c.run h es).run h es' := by
  rw [Pool.run, Pool.run, Pool.run, List.foldl_append]

theorem Pool.run_concat (es : List (ι × D)) (e : ι × D) : c.run h (es ++ [e]) = (c.run h es).step h e :=
  Pool.run_append es [e]

theorem Pool.step_of_call {i : ι} {d : D} {op : Op} {k : Except ε (Ret op) → Program Op Ret ε α}
    (hcall : c.thread i = .call op k) :
    c.step h (i, d) = ⟨Function.update c.thread i (k (h.exec c.world op d).1), (h.exec c.world op d).2⟩ := by
  unfold Pool.step
  simp only [hcall]

/-- A step is a call of the scheduled thread, or nothing. -/
theorem Pool.step_cases (c : Pool ι Op Ret ε α W) (i : ι) (d : D) :
    c.step h (i, d) = c ∨ ∃ op k, c.thread i = .call op k ∧
      c.step h (i, d) = ⟨Function.update c.thread i (k (h.exec c.world op d).1), (h.exec c.world op d).2⟩ := by
  cases hthread : c.thread i with
  | pure a =>
    left
    unfold Pool.step
    simp only [hthread]
  | throw e =>
    left
    unfold Pool.step
    simp only [hthread]
  | call op k => exact .inr ⟨op, k, rfl, Pool.step_of_call hthread⟩

/-- A step of a schedule is found at its position. -/
theorem schedule_position {α : Type} {schedule es rest : List α} {e : α} (h : schedule = es ++ e :: rest) :
    ∃ n : Fin schedule.length, es = schedule.take n ∧ e = schedule.get n := by
  subst h
  refine ⟨⟨es.length, by simp⟩, ?_, ?_⟩
  · exact (List.take_left ..).symm
  · simp

/-- Two steps of a schedule are the same, or one comes first. -/
theorem schedule_order {α : Type} {es es' rest rest' : List α} {e e' : α} (h : es ++ e :: rest = es' ++ e' :: rest') :
    es = es' ∧ e = e' ∨ (∃ between, es' = es ++ e :: between) ∨ ∃ between, es = es' ++ e' :: between := by
  rcases List.append_eq_append_iff.mp h with ⟨between, hes, hrest⟩ | ⟨between, hes, hrest⟩
  · cases between with
    | nil => exact .inl ⟨by simpa using hes.symm, (List.cons.inj hrest).1⟩
    | cons x between =>
      obtain ⟨rfl, -⟩ := List.cons.inj hrest
      exact .inr (.inl ⟨between, hes⟩)
  · cases between with
    | nil => exact .inl ⟨by simpa using hes, (List.cons.inj hrest).1.symm⟩
    | cons x between =>
      obtain ⟨rfl, -⟩ := List.cons.inj hrest
      exact .inr (.inr ⟨between, hes⟩)

end pool

/-- The protocol of a caller: the states it goes through with the answers to its
    calls, and the calls open to it in each of them. -/
structure Protocol (Op : Type) (Ret : Op → Type) (ε S : Type) where
  allows : S → Op → Prop
  next : S → (op : Op) → Except ε (Ret op) → S

namespace Protocol

variable {Op : Type} {Ret : Op → Type} {ε α β S : Type}

/-- A program keeps the protocol from a state, whatever its calls are answered, and
    ends in a state and with an outcome as `Q` says. -/
def Keeps (P : Protocol Op Ret ε S) (Q : S → Except ε α → Prop) : Program Op Ret ε α → S → Prop
  | .pure a, s => Q s (.ok a)
  | .throw e, s => Q s (.error e)
  | .call op k, s => P.allows s op ∧ ∀ r, Keeps P Q (k r) (P.next s op r)

variable {P : Protocol Op Ret ε S} {Q Q' : S → Except ε α → Prop} {s : S}

@[simp] theorem keeps_pure {a : α} : P.Keeps Q (pure a) s ↔ Q s (.ok a) := Iff.rfl

@[simp] theorem keeps_throw {e : ε} : P.Keeps Q (.throw e) s ↔ Q s (.error e) := Iff.rfl

@[simp] theorem keeps_bind {p : Program Op Ret ε β} {f : β → Program Op Ret ε α} :
    P.Keeps Q (p >>= f) s ↔
      P.Keeps (fun s r => match r with | .ok b => P.Keeps Q (f b) s | .error e => Q s (.error e)) p s := by
  change P.Keeps Q (p.bind f) s ↔ _
  induction p generalizing s with
  | pure b => rfl
  | throw e => rfl
  | call op k ih => exact and_congr_right fun _ => forall_congr' fun r => ih r

@[simp] theorem keeps_tryCatch {p : Program Op Ret ε α} {f : ε → Program Op Ret ε α} :
    P.Keeps Q (p.tryCatch f) s ↔
      P.Keeps (fun s r => match r with | .ok a => Q s (.ok a) | .error e => P.Keeps Q (f e) s) p s := by
  induction p generalizing s with
  | pure b => rfl
  | throw e => rfl
  | call op k ih => exact and_congr_right fun _ => forall_congr' fun r => ih r

@[simp] theorem keeps_perform {op : Op} {Q : S → Except ε (Ret op) → Prop} :
    P.Keeps Q (.perform op) s ↔ P.allows s op ∧ ∀ r, Q (P.next s op r) r := by
  refine and_congr_right fun _ => forall_congr' fun r => ?_
  cases r <;> rfl

/-- The rule of a call, by its two kinds of answers. -/
theorem keeps_call {op : Op} {f : Ret op → Program Op Ret ε α} (hop : P.allows s op)
    (hok : ∀ a, P.Keeps Q (f a) (P.next s op (.ok a))) (herror : ∀ e, Q (P.next s op (.error e)) (.error e)) :
    P.Keeps Q (.perform op >>= f) s := by
  rw [keeps_bind, keeps_perform]
  refine ⟨hop, fun r => ?_⟩
  cases r with
  | ok a => exact hok a
  | error e => exact herror e

theorem Keeps.mono {p : Program Op Ret ε α} (hp : P.Keeps Q p s) (hQ : ∀ s r, Q s r → Q' s r) : P.Keeps Q' p s := by
  induction p generalizing s with
  | pure a => exact hQ _ _ hp
  | throw e => exact hQ _ _ hp
  | call op k ih => exact ⟨hp.1, fun r => ih r (hp.2 r)⟩

/-- A program whose calls are all open in a state and do not leave it stays there. -/
theorem keeps_of_within {A : Op → Prop} {p : Program Op Ret ε α} (hp : p.Within A) (hA : ∀ op, A op → P.allows s op ∧ ∀ r, P.next s op r = s) :
    P.Keeps (fun s' _ => s' = s) p s := by
  induction p with
  | pure b => rfl
  | throw e => rfl
  | call op k ih =>
    refine ⟨(hA op hp.1).1, fun r => ?_⟩
    rw [(hA op hp.1).2]
    exact ih r (hp.2 r)

/-- A program lifted into a larger interface keeps the protocol there that it keeps in its own. -/
theorem Keeps.lift {Op' : Type} {Ret' : Op' → Type} {P' : Protocol Op' Ret' ε S} {inj : Op → Op'}
    {back : ∀ op, Ret' (inj op) → Ret op} {p : Program Op Ret ε α} (hp : P.Keeps Q p s)
    (hallows : ∀ s op, P.allows s op → P'.allows s (inj op)) (hnext : ∀ s op r, P'.next s (inj op) r = P.next s op (r.map (back op))) :
    P'.Keeps Q (p.lift inj back) s := by
  induction p generalizing s with
  | pure b => exact hp
  | throw e => exact hp
  | call op k ih =>
    refine ⟨hallows s op hp.1, fun r => ?_⟩
    rw [hnext]
    exact ih _ (hp.2 _)

end Protocol

section refinement

variable {ι Op : Type} {Ret : Op → Type} {ε α W D S : Type} [DecidableEq ι]
  {h : Handler Op Ret ε W D} {P : ι → Protocol Op Ret ε S} {Q : ι → S → Except ε α → Prop}

/-- Every thread of the pool keeps its protocol from its state. -/
def Pool.Follows (P : ι → Protocol Op Ret ε S) (Q : ι → S → Except ε α → Prop) (c : Pool ι Op Ret ε α W)
    (s : ι → S) : Prop :=
  ∀ i, (P i).Keeps (Q i) (c.thread i) (s i)

/-- A step of the pool is a step of the protocol of the thread that moves. -/
theorem Pool.Follows.step {c : Pool ι Op Ret ε α W} {s : ι → S} (hc : c.Follows P Q s) {i : ι} {d : D} {op : Op}
    {k : Except ε (Ret op) → Program Op Ret ε α} (hcall : c.thread i = .call op k) :
    (P i).allows (s i) op ∧
      (c.step h (i, d)).Follows P Q (Function.update s i ((P i).next (s i) op (h.exec c.world op d).1)) := by
  have hi := hc i
  rw [hcall] at hi
  refine ⟨hi.1, fun j => ?_⟩
  rw [Pool.step_of_call hcall]
  by_cases hj : j = i
  · subst hj
    simp only [Function.update_self]
    exact hi.2 _
  · simp only [Function.update_of_ne hj]
    exact hc j

/-- What every step allowed by the protocols preserves holds throughout every run
    whose steps meet the condition `C`. -/
theorem Pool.invariant {c : Pool ι Op Ret ε α W} {s : ι → S} (hc : c.Follows P Q s)
    (C : (ι → S) → W → ι → Op → D → Prop) (I : (ι → S) → W → Prop) (hI : I s c.world)
    (hstep : ∀ s w i op d, I s w → (P i).allows (s i) op → C s w i op d →
      I (Function.update s i ((P i).next (s i) op (h.exec w op d).1)) (h.exec w op d).2)
    (schedule : List (ι × D))
    (hC : ∀ es i d es', schedule = es ++ (i, d) :: es' → ∀ s op k, (c.run h es).Follows P Q s →
      (c.run h es).thread i = .call op k → C s (c.run h es).world i op d) :
    ∃ s', (c.run h schedule).Follows P Q s' ∧ I s' (c.run h schedule).world := by
  induction schedule using List.reverseRecOn with
  | nil => exact ⟨s, hc, hI⟩
  | append_singleton es e ih =>
    obtain ⟨s', hfollows, hinv⟩ := ih fun es₁ i d es₂ hes => hC es₁ i d (es₂ ++ [e]) (by rw [hes]; simp)
    rw [Pool.run_concat]
    obtain ⟨i, d⟩ := e
    rcases (c.run h es).step_cases i d with hidle | ⟨op, k, hcall, hmove⟩
    · rw [hidle]
      exact ⟨s', hfollows, hinv⟩
    · obtain ⟨hallows, hnext⟩ := hfollows.step (d := d) hcall
      refine ⟨_, hnext, ?_⟩
      rw [hmove]
      exact hstep s' _ i op d hinv hallows (hC es i d [] rfl s' op k hfollows hcall)

end refinement

/-- A program as a state machine: the code that is left in each of its states. -/
structure Machine (Op : Type) (Ret : Op → Type) (ε α S : Type) where
  code : S → Program Op Ret ε α
  next : S → (op : Op) → Except ε (Ret op) → S
  resume : ∀ {s op k}, code s = .call op k → ∀ r, k r = code (next s op r)

section machine

variable {ι Op : Type} {Ret : Op → Type} {ε α W D S : Type} [DecidableEq ι]
  {h : Handler Op Ret ε W D} {M : ι → Machine Op Ret ε α S}

/-- Every thread of the pool has left the code of its state. -/
def Pool.Executes (M : ι → Machine Op Ret ε α S) (c : Pool ι Op Ret ε α W) (s : ι → S) : Prop :=
  ∀ i, c.thread i = (M i).code (s i)

theorem Pool.Executes.step {c : Pool ι Op Ret ε α W} {s : ι → S} (hc : c.Executes M s) {i : ι} {d : D} {op : Op}
    {k : Except ε (Ret op) → Program Op Ret ε α} (hcall : c.thread i = .call op k) :
    (c.step h (i, d)).Executes M (Function.update s i ((M i).next (s i) op (h.exec c.world op d).1)) := by
  intro j
  rw [Pool.step_of_call hcall]
  by_cases hj : j = i
  · subst hj
    simp only [Function.update_self]
    exact (M j).resume ((hc j).symm.trans hcall) _
  · simp only [Function.update_of_ne hj]
    exact hc j

/-- What every step of the machines of a run preserves, knowing the schedule so far, holds
    at its end. -/
theorem Pool.Executes.history {c : Pool ι Op Ret ε α W} {s : ι → S} (hc : c.Executes M s)
    (I : List (ι × D) → (ι → S) → W → Prop) (hI : I [] s c.world) (schedule : List (ι × D))
    (hidle : ∀ es e s w, I es s w → I (es ++ [e]) s w)
    (hstep : ∀ es i d es', schedule = es ++ (i, d) :: es' → ∀ s op k, (c.run h es).Executes M s → I es s (c.run h es).world →
      (M i).code (s i) = .call op k →
        I (es ++ [(i, d)]) (Function.update s i ((M i).next (s i) op (h.exec (c.run h es).world op d).1))
          (h.exec (c.run h es).world op d).2) :
    ∃ s', (c.run h schedule).Executes M s' ∧ I schedule s' (c.run h schedule).world := by
  induction schedule using List.reverseRecOn with
  | nil => exact ⟨s, hc, hI⟩
  | append_singleton es e ih =>
    obtain ⟨s', hexec, hinv⟩ := ih fun es₁ i d es₂ hes => hstep es₁ i d (es₂ ++ [e]) (by rw [hes]; simp)
    rw [Pool.run_concat]
    obtain ⟨i, d⟩ := e
    rcases (c.run h es).step_cases i d with hstays | ⟨op, k, hcall, hmove⟩
    · rw [hstays]
      exact ⟨s', hexec, hidle es (i, d) s' _ hinv⟩
    · refine ⟨_, hexec.step (d := d) hcall, ?_⟩
      rw [hmove]
      exact hstep es i d [] rfl s' op k hexec hinv ((hexec i).symm.trans hcall)

/-- What every step of the machines preserves holds throughout every run whose steps meet
    the condition `C`. -/
theorem Pool.Executes.invariant {c : Pool ι Op Ret ε α W} {s : ι → S} (hc : c.Executes M s)
    (C : (ι → S) → W → ι → D → Prop) (I : (ι → S) → W → Prop) (hI : I s c.world)
    (hstep : ∀ s w i op k d, I s w → (M i).code (s i) = .call op k → C s w i d →
      I (Function.update s i ((M i).next (s i) op (h.exec w op d).1)) (h.exec w op d).2)
    (schedule : List (ι × D))
    (hC : ∀ es i d es', schedule = es ++ (i, d) :: es' → ∀ s, (c.run h es).Executes M s → C s (c.run h es).world i d) :
    ∃ s', (c.run h schedule).Executes M s' ∧ I s' (c.run h schedule).world :=
  hc.history (fun _ => I) hI schedule (fun _ _ _ _ => id) fun es i d es' hes s op k hexec hinv hcall =>
    hstep s _ i op k d hinv hcall (hC es i d es' hes s hexec)

end machine

namespace Program

variable {Op : Type} {Ret : Op → Type} {ε α : Type} {A : Op → Prop}

theorem Within.attempt {p : Program Op Ret ε α} (hp : p.Within A) : Within A p.attempt := by
  induction p with
  | pure a => trivial
  | throw e => trivial
  | call op k ih => exact ⟨hp.1, fun r => ih r (hp.2 r)⟩

theorem Within.lift {Op' : Type} {Ret' : Op' → Type} {inj : Op → Op'} {back : ∀ op, Ret' (inj op) → Ret op} {B : Op' → Prop}
    {p : Program Op Ret ε α} (hp : p.Within A) (hB : ∀ op, A op → B (inj op)) : Within B (p.lift inj back) := by
  induction p with
  | pure a => trivial
  | throw e => trivial
  | call op k ih => exact ⟨hB op hp.1, fun r => ih _ (hp.2 _)⟩

end Program

variable {ι Op : Type} {Ret : Op → Type} {ε α W D : Type} [DecidableEq ι] {h : Handler Op Ret ε W D} {c : Pool ι Op Ret ε α W}

/-- What the calls of all threads keep, a run keeps. -/
theorem Pool.run_within {A : Op → Prop} {I : W → Prop} (hstep : ∀ w op d, A op → I w → I (h.exec w op d).2)
    (hc : ∀ i, (c.thread i).Within A) (hI : I c.world) (schedule : List (ι × D)) :
    (∀ i, ((c.run h schedule).thread i).Within A) ∧ I (c.run h schedule).world := by
  induction schedule using List.reverseRecOn with
  | nil => exact ⟨hc, hI⟩
  | append_singleton es e ih =>
    obtain ⟨hthreads, hworld⟩ := ih
    obtain ⟨i, d⟩ := e
    rw [Pool.run_concat]
    rcases (c.run h es).step_cases i d with hidle | ⟨op, k, hcall, hmove⟩
    · rw [hidle]
      exact ⟨hthreads, hworld⟩
    · have hi := hthreads i
      rw [hcall] at hi
      rw [hmove]
      refine ⟨fun j => ?_, hstep _ op d hi.1 hworld⟩
      by_cases hj : j = i
      · subst hj
        simp only [Function.update_self]
        exact hi.2 _
      · simp only [Function.update_of_ne hj]
        exact hthreads j

/-- The thread that a step does not schedule stays where it is. -/
theorem Pool.step_of_ne {i j : ι} {d : D} (hne : j ≠ i) : (c.step h (i, d)).thread j = c.thread j := by
  rcases c.step_cases i d with hidle | ⟨op, k, -, hmove⟩
  · rw [hidle]
  · rw [hmove]
    exact Function.update_of_ne hne _ _

/-- A finished thread stays finished. -/
theorem Pool.run_pure {i : ι} {a : α} (hi : c.thread i = .pure a) (schedule : List (ι × D)) : (c.run h schedule).thread i = .pure a := by
  induction schedule using List.reverseRecOn with
  | nil => exact hi
  | append_singleton es e ih =>
    obtain ⟨j, d⟩ := e
    rw [Pool.run_concat]
    by_cases hj : i = j
    · subst hj
      rcases (c.run h es).step_cases i d with hidle | ⟨op, k, hcall, -⟩
      · rw [hidle]
        exact ih
      · rw [ih] at hcall
        cases hcall
    · rw [Pool.step_of_ne hj]
      exact ih

/-- A thread has not moved, or it has made its first call. -/
theorem Pool.first_move {i : ι} {op : Op} {k : Except ε (Ret op) → Program Op Ret ε α} (hi : c.thread i = .call op k) (schedule : List (ι × D)) :
    (c.run h schedule).thread i = .call op k ∨ ∃ es d es', schedule = es ++ (i, d) :: es' ∧ (c.run h es).thread i = .call op k ∧
      (c.run h (es ++ [(i, d)])).thread i = k (h.exec (c.run h es).world op d).1 := by
  induction schedule using List.reverseRecOn with
  | nil => exact .inl hi
  | append_singleton es e ih =>
    obtain ⟨j, d⟩ := e
    rcases ih with hunmoved | ⟨es₁, d₁, es₂, hsplit, hbefore, hafter⟩
    · by_cases hj : i = j
      · subst hj
        refine .inr ⟨es, d, [], rfl, hunmoved, ?_⟩
        rw [Pool.run_concat, Pool.step_of_call hunmoved]
        exact Function.update_self i _ _
      · left
        rw [Pool.run_concat, Pool.step_of_ne hj]
        exact hunmoved
    · exact .inr ⟨es₁, d₁, es₂ ++ [(j, d)], by rw [hsplit]; simp, hbefore, hafter⟩

@[simp] theorem Protocol.keeps_attempt {S : Type} {P : Protocol Op Ret ε S} {Q : S → Except ε (Except ε α) → Prop} {s : S}
    {p : Program Op Ret ε α} : P.Keeps Q p.attempt s ↔ P.Keeps (fun s r => Q s (.ok r)) p s := by
  induction p generalizing s with
  | pure a => rfl
  | throw e => rfl
  | call op k ih => exact and_congr_right fun _ => forall_congr' fun r => ih r

/-- A program that keeps a protocol performs calls that the protocol allows. -/
theorem Protocol.Keeps.within {S : Type} {P : Protocol Op Ret ε S} {Q : S → Except ε α → Prop} {A : Op → Prop} {s : S} {p : Program Op Ret ε α}
    (hp : P.Keeps Q p s) (hA : ∀ s op, P.allows s op → A op) : p.Within A := by
  induction p generalizing s with
  | pure a => trivial
  | throw e => trivial
  | call op k ih => exact ⟨hA s op hp.1, fun r => ih r (hp.2 r)⟩

/-- What every step that the protocols allow preserves, knowing the schedule so far, holds at
    the end of a run. -/
theorem Pool.Follows.history {S : Type} {P : ι → Protocol Op Ret ε S} {Q : ι → S → Except ε α → Prop} {s : ι → S} (hc : c.Follows P Q s)
    (I : List (ι × D) → (ι → S) → W → Prop) (hI : I [] s c.world) (schedule : List (ι × D))
    (hidle : ∀ es e s w, I es s w → I (es ++ [e]) s w)
    (hstep : ∀ es i d s op k, I es s (c.run h es).world → (c.run h es).thread i = .call op k → (P i).allows (s i) op →
      I (es ++ [(i, d)]) (Function.update s i ((P i).next (s i) op (h.exec (c.run h es).world op d).1)) (h.exec (c.run h es).world op d).2) :
    ∃ s', (c.run h schedule).Follows P Q s' ∧ I schedule s' (c.run h schedule).world := by
  induction schedule using List.reverseRecOn with
  | nil => exact ⟨s, hc, hI⟩
  | append_singleton es e ih =>
    obtain ⟨s', hfollows, hinv⟩ := ih
    rw [Pool.run_concat]
    obtain ⟨i, d⟩ := e
    rcases (c.run h es).step_cases i d with hstays | ⟨op, k, hcall, hmove⟩
    · rw [hstays]
      exact ⟨s', hfollows, hidle es (i, d) s' _ hinv⟩
    · obtain ⟨hallows, hnext⟩ := hfollows.step (d := d) hcall
      refine ⟨_, hnext, ?_⟩
      rw [hmove]
      exact hstep es i d s' op k hinv hcall hallows

end sow.effect
