import Sow.Effect.Program

namespace sow.effect

variable {Op : Type} {Ret : Op → Type} {ε α β W D : Type}

/-- The weakest precondition of a program: `Q` holds of its outcome and final
    world whatever admissible choices the environment makes. -/
def wp (h : Handler Op Ret ε W D) (adm : Op → D → Prop) :
    Program Op Ret ε α → (Except ε α → W → Prop) → W → Prop
  | .pure a, Q, w => Q (.ok a) w
  | .throw e, Q, w => Q (.error e) w
  | .call op k, Q, w => ∀ d, adm op d → wp h adm (k (h.exec w op d).1) Q (h.exec w op d).2

section rules

variable {h : Handler Op Ret ε W D} {adm : Op → D → Prop} {Q Q' : Except ε α → W → Prop} {w : W}

/-- A run whose choices are admissible meets the postcondition. -/
theorem wp.run {p : Program Op Ret ε α} {choose : Nat → Op → D} (hp : wp h adm p Q w)
    (hadm : ∀ n op, adm op (choose n op)) (n : Nat) :
    Q (h.run choose n p w).1 (h.run choose n p w).2 := by
  induction p generalizing w n with
  | pure a => exact hp
  | throw e => exact hp
  | call op k ih => exact ih _ (hp (choose n op) (hadm n op)) (n + 1)

theorem wp.mono {p : Program Op Ret ε α} (hp : wp h adm p Q w) (hQ : ∀ r w, Q r w → Q' r w) :
    wp h adm p Q' w := by
  induction p generalizing w with
  | pure a => exact hQ _ _ hp
  | throw e => exact hQ _ _ hp
  | call op k ih => exact fun d hd => ih _ (hp d hd)

/-- Fewer choices meet no less. -/
theorem wp.mono_adm {adm' : Op → D → Prop} {p : Program Op Ret ε α} (hadm : ∀ op d, adm' op d → adm op d)
    (hp : wp h adm p Q w) : wp h adm' p Q w := by
  induction p generalizing w with
  | pure a => exact hp
  | throw e => exact hp
  | call op k ih => exact fun d hd => ih _ (hp d (hadm op d hd))

theorem wp.of_forall {p : Program Op Ret ε α} (hQ : ∀ r w, Q r w) : wp h adm p Q w := by
  induction p generalizing w with
  | pure a => exact hQ _ _
  | throw e => exact hQ _ _
  | call op k ih => exact fun d _ => ih _

@[simp] theorem wp_pure {a : α} : wp h adm (pure a) Q w ↔ Q (.ok a) w := Iff.rfl

@[simp] theorem wp_throw {e : ε} : wp h adm (.throw e) Q w ↔ Q (.error e) w := Iff.rfl

@[simp] theorem wp_bind {p : Program Op Ret ε β} {f : β → Program Op Ret ε α} :
    wp h adm (p >>= f) Q w ↔
      wp h adm p (fun r w => match r with | .ok b => wp h adm (f b) Q w | .error e => Q (.error e) w) w := by
  change wp h adm (p.bind f) Q w ↔ _
  induction p generalizing w with
  | pure b => rfl
  | throw e => rfl
  | call op k ih => exact forall_congr' fun d => imp_congr_right fun _ => ih _

@[simp] theorem wp_tryCatch {p : Program Op Ret ε α} {f : ε → Program Op Ret ε α} :
    wp h adm (p.tryCatch f) Q w ↔
      wp h adm p (fun r w => match r with | .ok a => Q (.ok a) w | .error e => wp h adm (f e) Q w) w := by
  induction p generalizing w with
  | pure b => rfl
  | throw e => rfl
  | call op k ih => exact forall_congr' fun d => imp_congr_right fun _ => ih _

@[simp] theorem wp_perform {op : Op} {Q : Except ε (Ret op) → W → Prop} :
    wp h adm (.perform op) Q w ↔ ∀ d, adm op d → Q (h.exec w op d).1 (h.exec w op d).2 := by
  refine forall_congr' fun d => imp_congr_right fun _ => ?_
  cases (h.exec w op d).1 <;> rfl

@[simp] theorem wp_attempt {p : Program Op Ret ε β} {Q : Except ε (Except ε β) → W → Prop} :
    wp h adm p.attempt Q w ↔ wp h adm p (fun r w => Q (.ok r) w) w := by
  induction p generalizing w with
  | pure b => rfl
  | throw e => rfl
  | call op k ih => exact forall_congr' fun d => imp_congr_right fun _ => ih _

/-- The rule of a call that always answers. -/
theorem wp_call {op : Op} {f : Ret op → Program Op Ret ε α}
    (hcall : ∀ d, adm op d → ∃ r w', h.exec w op d = (.ok r, w') ∧ wp h adm (f r) Q w') :
    wp h adm (.perform op >>= f) Q w := by
  rw [wp_bind, wp_perform]
  intro d hd
  obtain ⟨r, w', hrun, hf⟩ := hcall d hd
  rw [hrun]
  exact hf

/-- The rule of a call that always answers, by what is known of its answers. -/
theorem wp_answers {op : Op} {f : Ret op → Program Op Ret ε α} {P : Ret op → W → Prop}
    (hexec : ∀ d, adm op d → ∃ r w', h.exec w op d = (.ok r, w') ∧ P r w')
    (hf : ∀ r w', P r w' → wp h adm (f r) Q w') : wp h adm (.perform op >>= f) Q w := by
  refine wp_call fun d hd => ?_
  obtain ⟨r, w', hrun, hP⟩ := hexec d hd
  exact ⟨r, w', hrun, hf r w' hP⟩

theorem wp.and {p : Program Op Ret ε α} (hp : wp h adm p Q w) (hp' : wp h adm p Q' w) :
    wp h adm p (fun r w => Q r w ∧ Q' r w) w := by
  induction p generalizing w with
  | pure a => exact ⟨hp, hp'⟩
  | throw e => exact ⟨hp, hp'⟩
  | call op k ih => exact fun d hd => ih _ (hp d hd) (hp' d hd)

/-- What the calls of a program all keep, the program keeps. -/
theorem wp_of_within {A : Op → Prop} {I : W → Prop} {p : Program Op Ret ε α} (hp : p.Within A) (hw : I w)
    (hstep : ∀ op w d, A op → adm op d → I w → I (h.exec w op d).2) : wp h adm p (fun _ w => I w) w := by
  induction p generalizing w with
  | pure a => exact hw
  | throw e => exact hw
  | call op k ih => exact fun d hd => ih _ (hp.2 _) (hstep op w d hp.1 hd hw)

/-- The rule of a call whose environment keeps a log. -/
theorem wp_logged {op : Op} {f : Ret op → Program Op Ret ε α} {l : List (Op × D)}
    {Q : Except ε α → W × List (Op × D) → Prop}
    (hcall : ∀ d, adm op d → ∃ r w', h.exec w op d = (.ok r, w') ∧ wp h.logged adm (f r) Q (w', l ++ [(op, d)])) :
    wp h.logged adm (.perform op >>= f) Q (w, l) := by
  rw [wp_bind, wp_perform]
  intro d hd
  obtain ⟨r, w', hrun, hf⟩ := hcall d hd
  simp only [Handler.logged, hrun]
  exact hf

/-- A postcondition met under every admissible choice is met by the script of admissible choices. -/
theorem wp.scripted (adm : Op → D → Prop) {p : Program Op Ret ε α} {choose : Nat → Op → D} {n : Nat}
    {Q : Except ε α → W × Nat → Prop} (hadm : ∀ n op, adm op (choose n op))
    (hp : wp h adm p (fun r w => ∀ n, Q r (w, n)) w) :
    wp (h.scripted choose) (fun _ _ => True) p Q (w, n) := by
  induction p generalizing w n with
  | pure a => exact hp n
  | throw e => exact hp n
  | call op k ih => exact fun _ _ => ih _ (hp (choose n op) (hadm n op))

end rules

/-- Against an environment without choices, the weakest precondition is about the one run. -/
theorem wp_eval_iff {g : Handler Op Ret ε W Unit} {p : Program Op Ret ε α} {Q : Except ε α → W → Prop} {w : W} :
    wp g (fun _ _ => True) p Q w ↔ Q (g.eval p w).1 (g.eval p w).2 := by
  rw [Handler.eval]
  generalize 0 = n
  induction p generalizing w n with
  | pure a => rfl
  | throw e => rfl
  | call op k ih =>
    have hcall := ih (g.exec w op ()).1 (w := (g.exec w op ()).2) (n + 1)
    exact ⟨fun hp => hcall.mp (hp () trivial), fun hq _ _ => hcall.mpr hq⟩

section eval

variable {g : Handler Op Ret ε W Unit} {w w' : W}

/-- Without choices the count of calls does not matter. -/
theorem run_eq_eval (p : Program Op Ret ε α) (n : Nat) : g.run (fun _ _ => ()) n p w = g.eval p w := by
  unfold Handler.eval
  generalize 0 = m
  induction p generalizing w n m with
  | pure a => rfl
  | throw e => rfl
  | call op k ih => exact ih _ (n + 1) (m + 1)

theorem eval_call (op : Op) (k : Except ε (Ret op) → Program Op Ret ε α) :
    g.eval (.call op k) w = g.eval (k (g.exec w op ()).1) (g.exec w op ()).2 := run_eq_eval _ 1

theorem eval_bind_ok {p : Program Op Ret ε β} {b : β} (h : g.eval p w = (.ok b, w')) (f : β → Program Op Ret ε α) :
    g.eval (p >>= f) w = g.eval (f b) w' := by
  change g.eval (p.bind f) w = _
  induction p generalizing w with
  | pure b' =>
    obtain ⟨hb, rfl⟩ := Prod.mk.inj h
    obtain rfl := Except.ok.inj hb
    rfl
  | throw e => cases h
  | call op k ih =>
    rw [eval_call] at h
    rw [Program.bind, eval_call]
    exact ih _ h

theorem eval_bind_error {p : Program Op Ret ε β} {e : ε} (h : g.eval p w = (.error e, w')) (f : β → Program Op Ret ε α) :
    g.eval (p >>= f) w = (.error e, w') := by
  change g.eval (p.bind f) w = _
  induction p generalizing w with
  | pure b => cases h
  | throw e' =>
    obtain ⟨he, rfl⟩ := Prod.mk.inj h
    rw [← Except.error.inj he]
    rfl
  | call op k ih =>
    rw [eval_call] at h
    rw [Program.bind, eval_call]
    exact ih _ h

end eval

/-- A point of a run: started as `p` at `w`, the run goes on as `q` at `w'`. -/
inductive Passes (g : Handler Op Ret ε W Unit) : Program Op Ret ε α → W → Program Op Ret ε α → W → Prop where
  | here {p : Program Op Ret ε α} {w : W} : Passes g p w p w
  | step {op : Op} {k : Except ε (Ret op) → Program Op Ret ε α} {q : Program Op Ret ε α} {w w' : W}
      (rest : Passes g (k (g.exec w op ()).1) (g.exec w op ()).2 q w') : Passes g (.call op k) w q w'

section points

variable {g : Handler Op Ret ε W Unit} {w w' w'' : W}

theorem Passes.trans {p q r : Program Op Ret ε α} (hpq : Passes g p w q w') (hqr : Passes g q w' r w'') :
    Passes g p w r w'' := by
  induction hpq with
  | here => exact hqr
  | step _ ih => exact .step (ih hqr)

/-- A run goes through the points of its first part, with the rest still to come. -/
theorem Passes.bind {p q : Program Op Ret ε β} (h : Passes g p w q w') (f : β → Program Op Ret ε α) :
    Passes g (p >>= f) w (q >>= f) w' := by
  induction h with
  | here => exact .here
  | step _ ih => exact .step ih

/-- The rule of sequencing, which keeps the point at which the second part starts. -/
theorem wp_bind_passes {p : Program Op Ret ε β} {f : β → Program Op Ret ε α} {Q : Except ε α → W → Prop}
    (hp : wp g (fun _ _ => True) p (fun r w' => match r with
      | .ok b => Passes g (p >>= f) w (f b) w' → wp g (fun _ _ => True) (f b) Q w'
      | .error e => Q (.error e) w') w) : wp g (fun _ _ => True) (p >>= f) Q w := by
  induction p generalizing w with
  | pure b => exact hp .here
  | throw e => exact hp
  | call op k ih =>
    intro d _
    refine ih _ (wp.mono (hp d trivial) fun r w' hr => ?_)
    match r with
    | .ok b => exact fun hpass => hr (.step hpass)
    | .error e => exact hr

end points

/-- The script of `choose` is the run that makes its choices. -/
theorem eval_scripted {h : Handler Op Ret ε W D} {choose : Nat → Op → D} {p : Program Op Ret ε α} {w : W} {n : Nat} :
    ((h.scripted choose).eval p (w, n)).1 = (h.run choose n p w).1 ∧
      ((h.scripted choose).eval p (w, n)).2.1 = (h.run choose n p w).2 := by
  rw [Handler.eval]
  generalize 0 = m
  induction p generalizing w n m with
  | pure a => exact ⟨rfl, rfl⟩
  | throw e => exact ⟨rfl, rfl⟩
  | call op k ih => exact ih _ (m + 1)

/-- Scripts that agree from two points on make the same run from there. -/
theorem run_congr {h : Handler Op Ret ε W D} {choose choose' : Nat → Op → D} {p : Program Op Ret ε α} {w : W} {n m : Nat}
    (hsame : ∀ i op, choose (n + i) op = choose' (m + i) op) : h.run choose n p w = h.run choose' m p w := by
  induction p generalizing w n m with
  | pure a => rfl
  | throw e => rfl
  | call op k ih =>
    unfold Handler.run
    rw [show choose n op = choose' m op from hsame 0 op]
    exact ih _ fun i op => by simpa only [Nat.add_assoc, Nat.add_comm 1] using hsame (i + 1) op

/-- A postcondition that every run with admissible choices meets is met. -/
theorem wp_of_run [DecidableEq Op] {h : Handler Op Ret ε W D} {adm : Op → D → Prop} {p : Program Op Ret ε α}
    {Q : Except ε α → W → Prop} {w : W} (hsome : ∀ op, ∃ d, adm op d)
    (hrun : ∀ choose : Nat → Op → D, (∀ n op, adm op (choose n op)) → Q (h.run choose 0 p w).1 (h.run choose 0 p w).2) :
    wp h adm p Q w := by
  induction p generalizing w with
  | pure a => exact hrun (fun _ op => (hsome op).choose) fun _ op => (hsome op).choose_spec
  | throw e => exact hrun (fun _ op => (hsome op).choose) fun _ op => (hsome op).choose_spec
  | call op k ih =>
    intro d hd
    refine ih _ fun choose hadm => ?_
    -- The choice of the first call comes before the others.
    let first : Nat → Op → D
      | 0, op' => if op' = op then d else choose 0 op'
      | n + 1, op' => choose n op'
    have hfirst : ∀ n op', adm op' (first n op') := by
      intro n op'
      cases n with
      | zero =>
        by_cases hop : op' = op
        · subst hop
          simpa only [first, if_true] using hd
        · simpa only [first, if_neg hop] using hadm 0 op'
      | succ n => exact hadm n op'
    have hcall := hrun first hfirst
    unfold Handler.run at hcall
    rw [show first 0 op = d from if_pos rfl] at hcall
    have hshift : h.run first 1 (k (h.exec w op d).1) (h.exec w op d).2 = h.run choose 0 (k (h.exec w op d).1) (h.exec w op d).2 :=
      run_congr fun i op' => by rw [Nat.zero_add, Nat.add_comm]
    exact hshift ▸ hcall

/-- What does not depend on the log needs none. -/
theorem wp_of_logged {h : Handler Op Ret ε W D} {adm : Op → D → Prop} {p : Program Op Ret ε α}
    {Q : Except ε α → W → Prop} {w : W} {l : List (Op × D)} (hp : wp h.logged adm p (fun r w' => Q r w'.1) (w, l)) :
    wp h adm p Q w := by
  induction p generalizing w l with
  | pure a => exact hp
  | throw e => exact hp
  | call op k ih => exact fun d hd => ih _ (hp d hd)

/-- The log does not change the run. -/
theorem run_logged {h : Handler Op Ret ε W D} {choose : Nat → Op → D} {p : Program Op Ret ε α} {w : W}
    {l : List (Op × D)} {n : Nat} : (h.logged.run choose n p (w, l)).2.1 = (h.run choose n p w).2 := by
  induction p generalizing w l n with
  | pure a => rfl
  | throw e => rfl
  | call op k ih => exact ih _

theorem mem_logged {h : Handler Op Ret ε W D} {choose : Nat → Op → D} {p : Program Op Ret ε α} {w : W}
    {l : List (Op × D)} {n : Nat} {e : Op × D} (he : e ∈ (h.logged.run choose n p (w, l)).2.2) :
    e ∈ l ∨ ∃ n, e.2 = choose n e.1 := by
  induction p generalizing w l n with
  | pure a => exact .inl he
  | throw error => exact .inl he
  | call op k ih =>
    rcases ih _ he with hmem | hchosen
    · rw [List.mem_append, List.mem_singleton] at hmem
      exact hmem.imp_right fun heq => ⟨n, by rw [heq]⟩
    · exact .inr hchosen

/-- The choices in the log are those of the environment. -/
theorem mem_trace {h : Handler Op Ret ε W D} {choose : Nat → Op → D} {p : Program Op Ret ε α} {w : W} {e : Op × D}
    (he : e ∈ h.trace choose p w) : ∃ n, e.2 = choose n e.1 := (mem_logged he).resolve_left List.not_mem_nil

/-- A program lifted into a larger interface acts on the component of the world
    that its own handler describes, and leaves the rest alone. -/
theorem wp_lift {Op' : Type} {Ret' : Op' → Type} {V D' : Type}
    {h : Handler Op Ret ε V D} {adm : Op → D → Prop} {h' : Handler Op' Ret' ε W D'} {adm' : Op' → D' → Prop}
    {inj : Op → Op'} {back : ∀ op, Ret' (inj op) → Ret op} (part : W → V) (put : W → V → W) (choice : D' → D)
    (hadm : ∀ op d, adm' (inj op) d → adm op (choice d))
    (hans : ∀ w op d, (h'.exec w (inj op) d).1.map (back op) = (h.exec (part w) op (choice d)).1)
    (hput : ∀ w op d, (h'.exec w (inj op) d).2 = put w (h.exec (part w) op (choice d)).2)
    (part_put : ∀ w v, part (put w v) = v) (put_put : ∀ w v v', put (put w v) v' = put w v')
    (put_part : ∀ w, put w (part w) = w)
    {p : Program Op Ret ε α} {Q : Except ε α → W → Prop} {w : W}
    (hp : wp h adm p (fun r v => Q r (put w v)) (part w)) : wp h' adm' (p.lift inj back) Q w := by
  induction p generalizing w with
  | pure a => simpa only [wp, Program.lift, put_part] using hp
  | throw e => simpa only [wp, Program.lift, put_part] using hp
  | call op k ih =>
    intro d hd
    have hstep := hp (choice d) (hadm op d hd)
    change wp h' adm' ((k ((h'.exec w (inj op) d).1.map (back op))).lift inj back) Q _
    rw [hput, hans]
    refine ih _ ?_
    rw [part_put]
    simpa only [put_put] using hstep

/-- A program embedded into a larger interface acts on the component of the world that its own
    handler describes, and leaves the rest alone. -/
theorem wp_embed {Op' : Type} {Ret' : Op' → Type} {V D' ε' : Type}
    {h : Handler Op Ret ε V D} {adm : Op → D → Prop} {h' : Handler Op' Ret' ε' W D'} {adm' : Op' → D' → Prop}
    {inj : Op → Op'} {back : ∀ op, Ret' (inj op) → Ret op} {up : ε → ε'} {down : ε' → ε}
    (part : W → V) (put : W → V → W) (choice : D' → D) (hadm : ∀ op d, adm' (inj op) d → adm op (choice d))
    (hans : ∀ w op d, ((h'.exec w (inj op) d).1.map (back op)).mapError down = (h.exec (part w) op (choice d)).1)
    (hput : ∀ w op d, (h'.exec w (inj op) d).2 = put w (h.exec (part w) op (choice d)).2)
    (part_put : ∀ w v, part (put w v) = v) (put_put : ∀ w v v', put (put w v) v' = put w v')
    (put_part : ∀ w, put w (part w) = w)
    {p : Program Op Ret ε α} {Q : Except ε' α → W → Prop} {w : W}
    (hp : wp h adm p (fun r v => Q (r.mapError up) (put w v)) (part w)) : wp h' adm' (p.embed inj back up down) Q w := by
  induction p generalizing w with
  | pure a => simpa only [wp, Program.embed, put_part, Except.mapError] using hp
  | throw e => simpa only [wp, Program.embed, put_part, Except.mapError] using hp
  | call op k ih =>
    intro d hd
    have hstep := hp (choice d) (hadm op d hd)
    change wp h' adm' ((k (((h'.exec w (inj op) d).1.map (back op)).mapError down)).embed inj back up down) Q _
    rw [hput, hans]
    refine ih _ ?_
    rw [part_put]
    simpa only [put_put] using hstep

namespace Program

variable {Op : Type} {Ret : Op → Type} {ε α β : Type} (answer : (op : Op) → Except ε (Ret op))

/-- The outcome of a program in an environment that answers an operation always alike. -/
def answered : Program Op Ret ε α → Except ε α
  | .pure a => .ok a
  | .throw e => .error e
  | .call op k => (k (answer op)).answered

@[simp] theorem answered_pure (a : α) : (pure a : Program Op Ret ε α).answered answer = .ok a := rfl

@[simp] theorem answered_perform (op : Op) : (perform op : Program Op Ret ε (Ret op)).answered answer = answer op := by
  unfold perform answered
  cases answer op <;> rfl

theorem answered_bind (p : Program Op Ret ε β) (f : β → Program Op Ret ε α) :
    (p >>= f).answered answer = (p.answered answer).bind fun b => (f b).answered answer := by
  change (p.bind f).answered answer = _
  induction p with
  | pure b => rfl
  | throw e => rfl
  | call op k ih => exact ih (answer op)

@[simp] theorem answered_attempt (p : Program Op Ret ε α) : p.attempt.answered answer = .ok (p.answered answer) := by
  induction p with
  | pure a => rfl
  | throw e => rfl
  | call op k ih => exact ih (answer op)

/-- A program that throws nothing while its calls are answered. -/
def Quiet : Program Op Ret ε α → Prop
  | .pure _ => True
  | .throw _ => False
  | .call _ k => ∀ a, Quiet (k (.ok a))

theorem quiet_perform (op : Op) : Quiet (.perform op : Program Op Ret ε (Ret op)) := fun _ => trivial

theorem Quiet.bind {p : Program Op Ret ε β} {f : β → Program Op Ret ε α} (hp : Quiet p) (hf : ∀ b, Quiet (f b)) : Quiet (p >>= f) := by
  change Quiet (p.bind f)
  induction p with
  | pure b => exact hf b
  | throw e => exact hp.elim
  | call op k ih => exact fun a => ih _ (hp a)

theorem Quiet.lift {Op' : Type} {Ret' : Op' → Type} (inj : Op → Op') (back : ∀ op, Ret' (inj op) → Ret op) {p : Program Op Ret ε α}
    (hp : Quiet p) : Quiet (p.lift inj back) := by
  induction p with
  | pure a => trivial
  | throw e => exact hp.elim
  | call op k ih => exact fun a => ih _ (hp _)

end Program

/-- An environment that answers the calls of a quiet program does not make it throw. -/
theorem wp_of_quiet {Op : Type} {Ret : Op → Type} {ε α W D : Type} {h : Handler Op Ret ε W D} {adm : Op → D → Prop} {A : Op → Prop}
    {p : Program Op Ret ε α} {w : W} (hp : p.Quiet) (hA : p.Within A)
    (hanswers : ∀ op w d, A op → adm op d → ∃ a, (h.exec w op d).1 = .ok a) : wp h adm p (fun r _ => ∃ a, r = .ok a) w := by
  induction p generalizing w with
  | pure a => exact ⟨a, rfl⟩
  | throw e => exact hp.elim
  | call op k ih =>
    intro d hd
    obtain ⟨a, ha⟩ := hanswers op w d hA.1 hd
    rw [ha]
    exact ih _ (hp a) (hA.2 _)

end sow.effect
