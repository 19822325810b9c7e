import Sow.Js.Regex

namespace sow.js

/-- A regular expression that recognises the texts of a set of tokens, in which
    no token can begin inside another. -/
structure Lexicon (τ : Type) extends Regex τ where
  text : τ → JsString
  Valid : τ → Prop
  exec_eq_some_iff : ∀ {s n t}, exec s = some (n, t) ↔
    Valid t ∧ n = (text t).length ∧ ∃ rest, s = text t ++ rest
  text_ne_nil : ∀ {t}, Valid t → text t ≠ []
  no_overlap : ∀ {t t' a r b}, Valid t → Valid t' → a ≠ [] →
    text t ++ r = a ++ (text t' ++ b) → (text t).length ≤ a.length

namespace Lexicon

variable {τ : Type} (lx : Lexicon τ)

/-- No token occurs in the string. -/
def Free (s : JsString) : Prop := ∀ a t b, lx.Valid t → s ≠ a ++ (lx.text t ++ b)

variable {lx}

theorem exec_text {t : τ} (ht : lx.Valid t) (rest : JsString) :
    lx.exec (lx.text t ++ rest) = some ((lx.text t).length, t) :=
  lx.exec_eq_some_iff.mpr ⟨ht, rfl, rest, rfl⟩

theorem exec_eq_none_iff {s : JsString} : lx.exec s = none ↔ ∀ t rest, lx.Valid t → s ≠ lx.text t ++ rest := by
  constructor
  · rintro h t rest ht rfl
    simp [exec_text ht] at h
  · intro h
    cases hexec : lx.exec s with
    | none => rfl
    | some r =>
      obtain ⟨n, t⟩ := r
      obtain ⟨ht, -, rest, hrest⟩ := lx.exec_eq_some_iff.mp hexec
      exact absurd hrest (h t rest ht)

/-- A string determines the token it starts with, and what follows. -/
theorem text_append_inj {t t' : τ} {r r' : JsString} (ht : lx.Valid t) (ht' : lx.Valid t')
    (h : lx.text t ++ r = lx.text t' ++ r') : t = t' ∧ r = r' := by
  have hexec := exec_text ht r
  rw [h, exec_text ht'] at hexec
  obtain rfl : t = t' := by
    simp only [Option.some.injEq, Prod.mk.injEq] at hexec
    exact hexec.2.symm
  exact ⟨rfl, List.append_cancel_left h⟩

theorem text_pos {t : τ} (ht : lx.Valid t) : 0 < (lx.text t).length :=
  List.length_pos_iff.mpr (lx.text_ne_nil ht)

theorem Free.nil : lx.Free [] := by
  intro a t b ht h
  have hlen := congrArg List.length h
  have hpos := text_pos ht
  simp only [List.length_nil, List.length_append] at hlen
  omega

theorem Free.of_append_left {s u : JsString} (h : lx.Free (s ++ u)) : lx.Free s := by
  rintro a t b ht rfl
  exact h a t (b ++ u) ht (by simp)

theorem Free.of_append_right {s u : JsString} (h : lx.Free (s ++ u)) : lx.Free u := by
  rintro a t b ht rfl
  exact h (s ++ a) t b ht (by simp)

/-- A unit that no token contains keeps the tokens of its two sides apart. -/
theorem free_append_barrier {c : UInt16} (hc : ∀ t, lx.Valid t → c ∉ lx.text t) {s u : JsString} :
    lx.Free (s ++ c :: u) ↔ lx.Free s ∧ lx.Free u := by
  constructor
  · exact fun h => ⟨h.of_append_left, (h.of_append_right (s := s)).of_append_right (s := [c])⟩
  · rintro ⟨hs, hu⟩ a t b ht h
    rcases List.append_eq_append_iff.mp h with ⟨a', rfl, hcu⟩ | ⟨s', rfl, htb⟩
    · cases a' with
      | nil =>
        have hmem : c ∈ lx.text t := by
          have hpos := lx.text_ne_nil ht
          cases htext : lx.text t with
          | nil => exact absurd htext hpos
          | cons d w =>
            rw [htext] at hcu
            simp only [List.nil_append, List.cons_append, List.cons.injEq] at hcu
            simp [hcu.1]
        exact hc t ht hmem
      | cons d a' =>
        simp only [List.cons_append, List.cons.injEq] at hcu
        exact hu a' t b ht hcu.2
    · rcases List.append_eq_append_iff.mp htb with ⟨w, hw, hb⟩ | ⟨w, hw, hb⟩
      · exact hs a t w ht (by rw [hw])
      · cases w with
        | nil => exact hs a t [] ht (by simpa using hw.symm)
        | cons d w =>
          simp only [List.cons_append, List.cons.injEq] at hb
          exact hc t ht (by simp [hw, hb.1])

theorem matchAllFrom_skip (n pos : Nat) (s : JsString) :
    lx.matchAllFrom pos n s = lx.matchAllFrom (pos + n) 0 (s.drop n) := by
  induction n generalizing pos s with
  | zero => simp
  | succ n ih =>
    cases s with
    | nil => simp [Regex.matchAllFrom]
    | cons c s =>
      rw [Regex.matchAllFrom, ih, List.drop_succ_cons, Nat.add_right_comm, Nat.add_assoc]

theorem matchAllFrom_none {pos : Nat} {c : UInt16} {s : JsString} (h : lx.exec (c :: s) = none) :
    lx.matchAllFrom pos 0 (c :: s) = lx.matchAllFrom (pos + 1) 0 s := by
  rw [Regex.matchAllFrom, h]

theorem matchAllFrom_text {pos : Nat} {t : τ} (ht : lx.Valid t) (rest : JsString) :
    lx.matchAllFrom pos 0 (lx.text t ++ rest) =
      ⟨pos, (lx.text t).length, t⟩ :: lx.matchAllFrom (pos + (lx.text t).length) 0 rest := by
  have hexec := exec_text ht rest
  have hpos := text_pos ht
  cases htext : lx.text t with
  | nil => simp [htext] at hpos
  | cons c w =>
    rw [htext, List.cons_append] at hexec
    rw [List.cons_append, Regex.matchAllFrom, hexec]
    simp only [List.length_cons, Nat.add_sub_cancel, matchAllFrom_skip w.length, List.drop_left]
    rw [Nat.add_assoc, Nat.add_comm 1]

theorem matchAllFrom_of_free {s : JsString} (h : lx.Free s) (pos : Nat) : lx.matchAllFrom pos 0 s = [] := by
  induction s generalizing pos with
  | nil => rfl
  | cons c s ih =>
    rw [matchAllFrom_none (exec_eq_none_iff.mpr fun t rest ht => h [] t rest ht)]
    exact ih (h.of_append_right (s := [c])) _

/-- A token splits the matches of a string: those before it, itself, those after it. -/
theorem matchAllFrom_append {t : τ} (ht : lx.Valid t) (a b : JsString) (pos : Nat) :
    lx.matchAllFrom pos 0 (a ++ (lx.text t ++ b)) =
      lx.matchAllFrom pos 0 a ++ ⟨pos + a.length, (lx.text t).length, t⟩ ::
        lx.matchAllFrom (pos + a.length + (lx.text t).length) 0 b := by
  induction hn : a.length using Nat.strong_induction_on generalizing a pos with
  | _ n ih =>
    subst hn
    cases a with
    | nil => simpa [Regex.matchAllFrom] using @matchAllFrom_text _ _ pos _ ht b
    | cons c a =>
      cases hexec : lx.exec (c :: a ++ (lx.text t ++ b)) with
      | none =>
        have hnone : lx.exec (c :: a) = none := by
          rw [exec_eq_none_iff] at hexec ⊢
          intro t' rest ht' h
          exact hexec t' (rest ++ (lx.text t ++ b)) ht' (by rw [h, List.append_assoc])
        rw [List.cons_append] at hexec ⊢
        rw [matchAllFrom_none hexec, matchAllFrom_none hnone, ih a.length (by simp) a _ rfl]
        simp only [List.length_cons]
        rw [show pos + 1 + a.length = pos + (a.length + 1) by omega]
      | some r =>
        obtain ⟨n, t'⟩ := r
        obtain ⟨ht', -, rest, hrest⟩ := lx.exec_eq_some_iff.mp hexec
        have hle := lx.no_overlap ht' ht (List.cons_ne_nil c a) hrest.symm
        obtain ⟨a', ha'⟩ : ∃ a', c :: a = lx.text t' ++ a' := by
          refine ⟨(c :: a).drop (lx.text t').length, ?_⟩
          have htake := congrArg (List.take (lx.text t').length) hrest
          rw [List.take_append_of_le_length hle, List.take_left] at htake
          conv_lhs => rw [← List.take_append_drop (lx.text t').length (c :: a), htake]
        have hlt : a'.length < (c :: a).length := by
          have hpos := text_pos ht'
          rw [ha', List.length_append]
          omega
        rw [ha', List.append_assoc, matchAllFrom_text ht', matchAllFrom_text ht', ih a'.length hlt a' _ rfl]
        simp only [List.length_append, List.cons_append, Nat.add_assoc]

/-- A string cut at its tokens. -/
structure Pieces (τ : Type) where
  head : JsString
  tail : List (τ × JsString)

namespace Pieces

variable (lx) in
/-- The string that the pieces make up. -/
def text (P : Pieces τ) : JsString := P.head ++ P.tail.flatMap fun p => lx.text p.1 ++ p.2

variable (lx) in
/-- The tokens are well formed and the texts between them hold none. -/
def Sound (P : Pieces τ) : Prop := lx.Free P.head ∧ ∀ p ∈ P.tail, lx.Valid p.1 ∧ lx.Free p.2

variable (lx) in
/-- The matches of the pieces after `pos`. -/
def matchesAfter (pos : Nat) : List (τ × JsString) → List (Match τ)
  | [] => []
  | (t, s) :: tail =>
    ⟨pos, (lx.text t).length, t⟩ :: matchesAfter (pos + (lx.text t).length + s.length) tail

theorem text_cons (head : JsString) (t : τ) (s : JsString) (tail : List (τ × JsString)) :
    text lx ⟨head, (t, s) :: tail⟩ = head ++ (lx.text t ++ text lx ⟨s, tail⟩) := by
  simp [text]

/-- `matchAll` finds exactly the tokens of the pieces, each at its place. -/
theorem matchAllFrom_text {P : Pieces τ} (hP : P.Sound lx) (pos : Nat) :
    lx.matchAllFrom pos 0 (P.text lx) = matchesAfter lx (pos + P.head.length) P.tail := by
  obtain ⟨head, tail⟩ := P
  induction tail generalizing head pos with
  | nil => simpa [text, matchesAfter] using matchAllFrom_of_free hP.1 pos
  | cons p tail ih =>
    obtain ⟨t, s⟩ := p
    obtain ⟨hhead, htail⟩ := hP
    obtain ⟨ht, hs⟩ := htail (t, s) (List.mem_cons_self ..)
    have hrest : Sound lx ⟨s, tail⟩ := ⟨hs, fun p hp => htail p (List.mem_cons_of_mem _ hp)⟩
    rw [text_cons, matchAllFrom_append ht, matchAllFrom_of_free hhead, ih _ s hrest]
    rfl

/-- Every string can be cut at its tokens. -/
theorem exists_text_eq (s : JsString) : ∃ P : Pieces τ, P.Sound lx ∧ P.text lx = s := by
  induction hn : s.length using Nat.strong_induction_on generalizing s with
  | _ n ih =>
    subst hn
    by_cases hfree : lx.Free s
    · exact ⟨⟨s, []⟩, ⟨hfree, by simp⟩, by simp [text]⟩
    · have hocc : ∃ k a t b, lx.Valid t ∧ s = a ++ (lx.text t ++ b) ∧ a.length = k := by
        simp only [Free, not_forall, not_not] at hfree
        obtain ⟨a, t, b, ht, h⟩ := hfree
        exact ⟨a.length, a, t, b, ht, h, rfl⟩
      classical
      obtain ⟨a, t, b, ht, rfl, hk⟩ := Nat.find_spec hocc
      have ha : lx.Free a := by
        rintro a' t' b' ht' rfl
        have hlt : a'.length < Nat.find hocc := by
          have hpos := text_pos ht'
          rw [← hk]
          simp only [List.length_append]
          omega
        exact Nat.find_min hocc hlt ⟨a', t', b' ++ (lx.text t ++ b), ht', by simp, rfl⟩
      have hlt : b.length < (a ++ (lx.text t ++ b)).length := by
        have hpos := text_pos ht
        simp only [List.length_append]
        omega
      obtain ⟨⟨head, tail⟩, ⟨hhead, htail⟩, rfl⟩ := ih b.length hlt b rfl
      refine ⟨⟨a, (t, head) :: tail⟩, ⟨ha, ?_⟩, text_cons ..⟩
      intro p hp
      rcases List.mem_cons.mp hp with rfl | hp
      · exact ⟨ht, hhead⟩
      · exact htail p hp

/-- A string is cut at its tokens in one way only. -/
theorem eq_of_text_eq {P P' : Pieces τ} (hP : P.Sound lx) (hP' : P'.Sound lx) (h : P.text lx = P'.text lx) : P = P' := by
  obtain ⟨head, tail⟩ := P
  obtain ⟨head', tail'⟩ := P'
  have hmatch := matchAllFrom_text hP 0
  rw [h, matchAllFrom_text hP' 0] at hmatch
  induction tail generalizing head head' tail' with
  | nil =>
    cases tail' with
    | nil => simpa [text] using h
    | cons p' tail' => simp [matchesAfter] at hmatch
  | cons p tail ih =>
    cases tail' with
    | nil => simp [matchesAfter] at hmatch
    | cons p' tail' =>
      obtain ⟨t, s⟩ := p
      obtain ⟨t', s'⟩ := p'
      simp only [matchesAfter, Nat.zero_add, List.cons.injEq, Match.mk.injEq] at hmatch
      obtain ⟨⟨hlen, -, rfl⟩, -⟩ := hmatch
      rw [text_cons, text_cons] at h
      obtain ⟨rfl, hafter⟩ := List.append_inj h hlen.symm
      have htext := List.append_cancel_left hafter
      have hrest : Sound lx ⟨s, tail⟩ :=
        ⟨(hP.2 (t', s) (List.mem_cons_self ..)).2, fun p hp => hP.2 p (List.mem_cons_of_mem _ hp)⟩
      have hrest' : Sound lx ⟨s', tail'⟩ :=
        ⟨(hP'.2 (t', s') (List.mem_cons_self ..)).2, fun p hp => hP'.2 p (List.mem_cons_of_mem _ hp)⟩
      have hmatch := matchAllFrom_text hrest 0
      rw [htext, matchAllFrom_text hrest' 0] at hmatch
      have heq := ih s hrest s' tail' hrest' htext hmatch
      simp only [Pieces.mk.injEq] at heq ⊢
      simp [heq.1, heq.2]

/-- Where a token occurs, the pieces are cut. -/
theorem exists_split {P : Pieces τ} (hP : P.Sound lx) {a b : JsString} {t : τ} (ht : lx.Valid t)
    (h : P.text lx = a ++ (lx.text t ++ b)) : ∃ l s l', P.tail = l ++ (t, s) :: l' ∧
      a = text lx ⟨P.head, l⟩ ∧ b = text lx ⟨s, l'⟩ := by
  obtain ⟨⟨head, l⟩, ⟨hhead, hl⟩, rfl⟩ := @exists_text_eq τ lx a
  obtain ⟨⟨s, l'⟩, ⟨hs, hl'⟩, rfl⟩ := @exists_text_eq τ lx b
  have hsound : Sound lx ⟨head, l ++ (t, s) :: l'⟩ := by
    refine ⟨hhead, fun p hp => ?_⟩
    rcases List.mem_append.mp hp with hp | hp
    · exact hl p hp
    · rcases List.mem_cons.mp hp with rfl | hp
      · exact ⟨ht, hs⟩
      · exact hl' p hp
  obtain rfl := eq_of_text_eq hP hsound (by rw [h]; simp [text])
  exact ⟨l, s, l', rfl, rfl, rfl⟩

/-- The pieces on both sides of a unit that no token contains are those of the whole. -/
theorem exists_append_barrier {c : UInt16} (hc : ∀ t, lx.Valid t → c ∉ lx.text t) {P Q : Pieces τ}
    (hP : P.Sound lx) (hQ : Q.Sound lx) : ∃ R : Pieces τ, R.Sound lx ∧ R.text lx = P.text lx ++ c :: Q.text lx ∧
      R.tail.map Prod.fst = P.tail.map Prod.fst ++ Q.tail.map Prod.fst := by
  obtain ⟨head, tail⟩ := P
  induction tail generalizing head with
  | nil =>
    refine ⟨⟨head ++ c :: Q.head, Q.tail⟩, ⟨(free_append_barrier hc).mpr ⟨hP.1, hQ.1⟩, hQ.2⟩, ?_, rfl⟩
    simp [text]
  | cons p tail ih =>
    obtain ⟨t, s⟩ := p
    obtain ⟨hhead, htail⟩ := hP
    obtain ⟨ht, hs⟩ := htail (t, s) (List.mem_cons_self ..)
    obtain ⟨⟨head', tail'⟩, ⟨hhead', htail'⟩, htext, hfst⟩ := ih s ⟨hs, fun p hp => htail p (List.mem_cons_of_mem _ hp)⟩
    refine ⟨⟨head, (t, head') :: tail'⟩, ⟨hhead, fun p hp => ?_⟩, ?_, ?_⟩
    · rcases List.mem_cons.mp hp with rfl | hp
      · exact ⟨ht, hhead'⟩
      · exact htail' p hp
    · rw [text_cons, text_cons, htext]
      simp
    · rw [List.map_cons, List.map_cons, List.cons_append, ← hfst]

end Pieces

variable (lx) in
/-- The tokens of a string, in order. -/
def tokens (s : JsString) : List τ := (lx.matchAll s).map (·.groups)

theorem tokens_text {P : Pieces τ} (hP : P.Sound lx) : lx.tokens (P.text lx) = P.tail.map Prod.fst := by
  rw [tokens, Regex.matchAll, Pieces.matchAllFrom_text hP]
  generalize 0 + P.head.length = pos
  induction P.tail generalizing pos with
  | nil => rfl
  | cons p tail ih =>
    rw [Pieces.matchesAfter, List.map_cons, List.map_cons, ih]

/-- Where no token crosses it, a unit cuts the tokens of a string in two. -/
theorem tokens_append_barrier {c : UInt16} (hc : ∀ t, lx.Valid t → c ∉ lx.text t) (s u : JsString) :
    lx.tokens (s ++ c :: u) = lx.tokens s ++ lx.tokens u := by
  obtain ⟨P, hP, rfl⟩ := @Pieces.exists_text_eq τ lx s
  obtain ⟨Q, hQ, rfl⟩ := @Pieces.exists_text_eq τ lx u
  obtain ⟨R, hR, htext, hfst⟩ := Pieces.exists_append_barrier hc hP hQ
  rw [← htext, tokens_text hR, tokens_text hP, tokens_text hQ, hfst]

theorem tokens_eq_nil_iff {s : JsString} : lx.tokens s = [] ↔ lx.Free s := by
  obtain ⟨P, hP, rfl⟩ := @Pieces.exists_text_eq τ lx s
  constructor
  · intro h
    rw [tokens_text hP, List.map_eq_nil_iff] at h
    rw [Pieces.text, h, List.flatMap_nil, List.append_nil]
    exact hP.1
  · intro h
    rw [tokens, Regex.matchAll, matchAllFrom_of_free h]
    rfl

end Lexicon

end sow.js
