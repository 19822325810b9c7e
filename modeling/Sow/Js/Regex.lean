import Sow.Js.String

namespace sow.js

/-- A global regular expression whose matches are nonempty, given by its anchored
    matcher: at the start of a string, the length of the match and its groups. -/
structure Regex (τ : Type) where
  exec : JsString → Option (Nat × τ)

/-- One result of `matchAll`: where it starts, how long it is, and its groups. -/
structure Match (τ : Type) where
  index : Nat
  length : Nat
  groups : τ
  deriving DecidableEq

namespace Regex

variable {τ : Type} (re : Regex τ)

/-- `matchAll` from position `pos`, with `skip` units of the last match still to pass. -/
def matchAllFrom (pos : Nat) : Nat → JsString → List (Match τ)
  | _, [] => []
  | skip + 1, _ :: s => matchAllFrom (pos + 1) skip s
  | 0, c :: s =>
    match re.exec (c :: s) with
    | none => matchAllFrom (pos + 1) 0 s
    | some (n, groups) => ⟨pos, n, groups⟩ :: matchAllFrom (pos + 1) (n - 1) s

attribute [grind =] matchAllFrom

/-- `s.matchAll(re)`. -/
def matchAll (s : JsString) : List (Match τ) := re.matchAllFrom 0 0 s

/-- `s.replace(re, f)` from a position with `skip` units of the last match still to pass. -/
def replaceFrom (f : JsString → JsString) : Nat → JsString → JsString
  | _, [] => []
  | skip + 1, _ :: s => replaceFrom f skip s
  | 0, c :: s =>
    match re.exec (c :: s) with
    | none => c :: replaceFrom f 0 s
    | some (n, _) => f ((c :: s).take n) ++ replaceFrom f (n - 1) s

attribute [grind =] replaceFrom

/-- `s.replace(re, f)` for a global expression: `f` is applied to every match. -/
def replace (f : JsString → JsString) (s : JsString) : JsString := re.replaceFrom f 0 s

/-- No match starts anywhere in the string. -/
def Free (s : JsString) : Prop := ∀ a b, s = a ++ b → re.exec b = none

variable {re} {f : JsString → JsString}

theorem replaceFrom_skip (f : JsString → JsString) (n : Nat) (s : JsString) :
    re.replaceFrom f n s = re.replaceFrom f 0 (s.drop n) := by
  induction n generalizing s with
  | zero => rfl
  | succ n ih =>
    cases s with
    | nil => rfl
    | cons c s => rw [Regex.replaceFrom, ih, List.drop_succ_cons]

theorem replace_cons_none {c : UInt16} {s : JsString} (h : re.exec (c :: s) = none) :
    re.replace f (c :: s) = c :: re.replace f s := by
  rw [replace, replaceFrom, h, replace]

theorem replace_match {m rest : JsString} {g : τ} (hm : m ≠ []) (h : re.exec (m ++ rest) = some (m.length, g)) :
    re.replace f (m ++ rest) = f m ++ re.replace f rest := by
  obtain ⟨c, m, rfl⟩ := List.exists_cons_of_ne_nil hm
  rw [List.cons_append] at h
  rw [List.cons_append, replace, replaceFrom, h]
  dsimp only
  rw [replaceFrom_skip, List.length_cons, Nat.add_sub_cancel, List.drop_left, ← List.cons_append, ← List.length_cons, List.take_left, replace]

/-- A replacement changes nothing where nothing matches. -/
theorem replace_of_free {s : JsString} (h : re.Free s) : re.replace f s = s := by
  induction s with
  | nil => rfl
  | cons c s ih =>
    rw [replace_cons_none (h [] (c :: s) rfl)]
    refine congrArg (c :: ·) (ih fun a b hab => ?_)
    exact h (c :: a) b (by rw [hab, List.cons_append])

/-- What a replacement by one text writes is of the text replaced or of the replacement. -/
theorem mem_of_mem_replace {M s : JsString} (hpos : ∀ s n g, re.exec s = some (n, g) → 0 < n) {c : UInt16}
    (h : c ∈ re.replace (fun _ => M) s) : c ∈ s ∨ c ∈ M := by
  induction hlen : s.length using Nat.strong_induction_on generalizing s with
  | _ n ih =>
    subst hlen
    cases s with
    | nil => exact absurd h List.not_mem_nil
    | cons d s =>
      cases hexec : re.exec (d :: s) with
      | none =>
        rw [replace_cons_none hexec] at h
        rcases List.mem_cons.mp h with rfl | h
        · exact .inl (List.mem_cons_self ..)
        · exact (ih s.length (by simp) h rfl).imp_left (List.mem_cons_of_mem _)
      | some r =>
        obtain ⟨n, g⟩ := r
        have hn := hpos _ _ _ hexec
        rw [replace, replaceFrom, hexec] at h
        rcases List.mem_append.mp h with h | h
        · exact .inr h
        · rw [replaceFrom_skip] at h
          refine (ih (s.drop (n - 1)).length ?_ h rfl).imp_left fun hm => List.mem_cons_of_mem _ (List.mem_of_mem_drop hm)
          rw [List.length_drop, List.length_cons]
          omega

end Regex

/-- A part of a pattern: a literal, the longest run of a class, or a number of its units. -/
inductive Piece where
  | lit (text : JsString)
  | run (units : UInt16 → Bool) (least : Nat)
  | times (units : UInt16 → Bool) (n : Nat)

namespace Piece

/-- The length of the match at the start of a string. Runs are taken whole. -/
def exec : List Piece → JsString → Option Nat
  | [], _ => some 0
  | .lit text :: rest, s => (stripLit text s).bind fun t => (exec rest t).map (text.length + ·)
  | .run units least :: rest, s =>
    let n := (s.takeWhile units).length
    if least ≤ n then (exec rest (s.drop n)).map (n + ·) else none
  | .times units n :: rest, s => if n ≤ (s.takeWhile units).length then (exec rest (s.drop n)).map (n + ·) else none

attribute [grind =] exec

/-- What follows a run cannot begin with one more unit of it. -/
def stops (units : UInt16 → Bool) : List Piece → Bool
  | [] => true
  | .lit (c :: _) :: _ => !units c
  | _ => false

/-- Taking every run whole loses no match. -/
def possessive : List Piece → Bool
  | [] => true
  | .lit _ :: rest => possessive rest
  | .run units _ :: rest => stops units rest && possessive rest
  | .times _ _ :: rest => possessive rest

attribute [grind =] stops possessive

/-- All units that a pattern can take are of one class. -/
def Within (p : UInt16 → Bool) : Piece → Prop
  | .lit text => ∀ c ∈ text, p c = true
  | .run units _ => ∀ c, units c = true → p c = true
  | .times units _ => ∀ c, units c = true → p c = true

theorem stripLit_eq_some {lit s t : JsString} : stripLit lit s = some t ↔ s = lit ++ t := by
  unfold stripLit
  constructor
  · intro h
    split_ifs at h with hpre
    obtain ⟨u, rfl⟩ := List.isPrefixOf_iff_prefix.mp hpre
    obtain rfl := Option.some.inj h
    rw [List.drop_left]
  · rintro rfl
    rw [if_pos (List.isPrefixOf_iff_prefix.mpr (List.prefix_append _ _)), List.drop_left]

/-- A literal is not found across a unit that it lacks. -/
theorem stripLit_append_stop {lit : JsString} {c : UInt16} (hc : c ∉ lit) (a z : JsString) :
    stripLit lit (a ++ c :: z) = (stripLit lit a).map (· ++ c :: z) := by
  cases ha : stripLit lit a with
  | some rest => rw [Option.map_some, stripLit_eq_some, stripLit_eq_some.mp ha, List.append_assoc]
  | none =>
    rw [Option.map_none, Option.eq_none_iff_forall_ne_some]
    intro t ht
    rcases List.append_eq_append_iff.mp (stripLit_eq_some.mp ht) with ⟨w, hw, htail⟩ | ⟨rest, hrest, -⟩
    · cases w with
      | nil =>
        rw [stripLit_eq_some.mpr (show a = lit ++ [] by rw [hw, List.append_nil, List.append_nil])] at ha
        cases ha
      | cons d w =>
        apply hc
        rw [hw, (List.cons.inj htail).1]
        exact List.mem_append_right _ (List.mem_cons_self ..)
    · rw [stripLit_eq_some.mpr hrest] at ha
      cases ha

section

variable {p : UInt16 → Bool}

private theorem takeWhile_append_run {a : JsString} (ha : ∀ c ∈ a, p c = true) (b : JsString) :
    (a ++ b).takeWhile p = a ++ b.takeWhile p := List.takeWhile_append_of_pos ha

private theorem stripLit_takeWhile {text s : JsString} (h : ∀ c ∈ text, p c = true) :
    stripLit text (s.takeWhile p) = (stripLit text s).map fun t => t.takeWhile p := by
  ext t
  rw [stripLit_eq_some, Option.map_eq_some_iff]
  constructor
  · intro hs
    have hsplit : s = text ++ (t ++ s.dropWhile p) := by rw [← List.append_assoc, ← hs, List.takeWhile_append_dropWhile]
    refine ⟨t ++ s.dropWhile p, stripLit_eq_some.mpr hsplit, ?_⟩
    rw [hsplit, takeWhile_append_run h] at hs
    exact List.append_cancel_left hs
  · rintro ⟨u, hu, rfl⟩
    rw [stripLit_eq_some.mp hu, takeWhile_append_run h]

private theorem takeWhile_takeWhile_of_within {q : UInt16 → Bool} (h : ∀ c, q c = true → p c = true) (s : JsString) :
    (s.takeWhile p).takeWhile q = s.takeWhile q := by
  induction s with
  | nil => rfl
  | cons c s ih =>
    by_cases hq : q c = true
    · rw [List.takeWhile_cons_of_pos (h c hq), List.takeWhile_cons_of_pos hq, List.takeWhile_cons_of_pos hq, ih]
    · by_cases hp : p c = true
      · rw [List.takeWhile_cons_of_pos hp, List.takeWhile_cons_of_neg hq, List.takeWhile_cons_of_neg hq]
      · rw [List.takeWhile_cons_of_neg hp, List.takeWhile_cons_of_neg hq, List.takeWhile_nil]

private theorem drop_takeWhile {q : UInt16 → Bool} (h : ∀ c, q c = true → p c = true) {n : Nat} {s : JsString}
    (hn : n ≤ (s.takeWhile q).length) : (s.takeWhile p).drop n = (s.drop n).takeWhile p := by
  induction n generalizing s with
  | zero => rfl
  | succ n ih =>
    cases s with
    | nil => rfl
    | cons c s =>
      by_cases hq : q c = true
      · rw [List.takeWhile_cons_of_pos hq, List.length_cons, Nat.add_le_add_iff_right] at hn
        rw [List.takeWhile_cons_of_pos (h c hq), List.drop_succ_cons, ih hn, List.drop_succ_cons]
      · rw [List.takeWhile_cons_of_neg hq] at hn
        exact absurd hn (by simp)

/-- A pattern within a class sees only the run of that class. -/
theorem exec_takeWhile {pieces : List Piece} (h : ∀ piece ∈ pieces, piece.Within p) (s : JsString) :
    exec pieces (s.takeWhile p) = exec pieces s := by
  induction pieces generalizing s with
  | nil => rfl
  | cons piece rest ih =>
    have hpiece := h piece (List.mem_cons_self ..)
    have hrest := ih fun q hq => h q (List.mem_cons_of_mem _ hq)
    cases piece with
    | lit text =>
      rw [exec, exec, stripLit_takeWhile hpiece]
      cases stripLit text s with
      | none => rfl
      | some t =>
        rw [Option.map_some, Option.bind_some, Option.bind_some, hrest]
    | run units least =>
      simp only [exec, takeWhile_takeWhile_of_within hpiece]
      rw [drop_takeWhile hpiece (Nat.le_refl _), hrest]
    | times units n =>
      simp only [exec, takeWhile_takeWhile_of_within hpiece]
      split_ifs with hn
      · rw [drop_takeWhile hpiece hn, hrest]
      · rfl

theorem exec_le {pieces : List Piece} {s : JsString} {n : Nat} (h : exec pieces s = some n) : n ≤ s.length := by
  induction pieces generalizing s n with
  | nil =>
    obtain rfl := Option.some.inj h
    exact Nat.zero_le _
  | cons piece rest ih =>
    cases piece with
    | lit text =>
      obtain ⟨t, ht, hmap⟩ := Option.bind_eq_some_iff.mp h
      obtain ⟨k, hk, rfl⟩ := Option.map_eq_some_iff.mp hmap
      have hle := ih hk
      rw [stripLit_eq_some.mp ht, List.length_append]
      omega
    | run units least =>
      simp only [exec] at h
      split_ifs at h
      obtain ⟨k, hk, rfl⟩ := Option.map_eq_some_iff.mp h
      have hle := ih hk
      have hrun := (List.takeWhile_prefix units : List.takeWhile units s <+: s).length_le
      rw [List.length_drop] at hle
      omega
    | times units m =>
      simp only [exec] at h
      split_ifs at h with hm
      obtain ⟨k, hk, rfl⟩ := Option.map_eq_some_iff.mp h
      have hle := ih hk
      have hrun := (List.takeWhile_prefix units : List.takeWhile units s <+: s).length_le
      rw [List.length_drop] at hle
      omega

private theorem length_takeWhile_le_append (q : UInt16 → Bool) (s z : JsString) :
    (s.takeWhile q).length ≤ ((s ++ z).takeWhile q).length := by
  induction s with
  | nil => exact Nat.zero_le _
  | cons c s ih =>
    rw [List.cons_append]
    by_cases hq : q c = true
    · rw [List.takeWhile_cons_of_pos hq, List.takeWhile_cons_of_pos hq, List.length_cons, List.length_cons]
      omega
    · rw [List.takeWhile_cons_of_neg hq]
      exact Nat.zero_le _

private theorem takeWhile_append_of_stop {q : UInt16 → Bool} {s : JsString} {c : UInt16} {t : JsString}
    (h : s.drop (s.takeWhile q).length = c :: t) (z : JsString) : (s ++ z).takeWhile q = s.takeWhile q := by
  rw [List.takeWhile_append, if_neg]
  intro hlen
  rw [hlen, List.drop_length] at h
  exact absurd h.symm (List.cons_ne_nil _ _)

/-- A possessive pattern that matches a string matches every extension of it. -/
theorem exec_append {pieces : List Piece} (hposs : possessive pieces = true) {s : JsString} (h : (exec pieces s).isSome = true)
    (z : JsString) : (exec pieces (s ++ z)).isSome = true := by
  induction pieces generalizing s with
  | nil => rfl
  | cons piece rest ih =>
    cases piece with
    | lit text =>
      rw [exec] at h ⊢
      cases hstrip : stripLit text s with
      | none =>
        rw [hstrip] at h
        exact absurd h (by simp)
      | some t =>
        rw [hstrip, Option.bind_some, Option.isSome_map] at h
        have happend : stripLit text (s ++ z) = some (t ++ z) :=
          stripLit_eq_some.mpr (by rw [stripLit_eq_some.mp hstrip, List.append_assoc])
        rw [happend, Option.bind_some, Option.isSome_map]
        exact ih hposs h
    | run units least =>
      rw [possessive, Bool.and_eq_true] at hposs
      simp only [exec] at h ⊢
      split_ifs at h with hleast
      · rw [Option.isSome_map] at h
        cases rest with
        | nil =>
          have hle := length_takeWhile_le_append units s z
          rw [if_pos (by omega)]
          rfl
        | cons next rest =>
          cases next with
          | lit text =>
            cases text with
            | nil => exact absurd hposs.1 (by simp [stops])
            | cons c text =>
              obtain ⟨t, ht⟩ : ∃ t, s.drop (s.takeWhile units).length = c :: t := by
                rw [exec] at h
                cases hstrip : stripLit (c :: text) (s.drop (s.takeWhile units).length) with
                | none =>
                  rw [hstrip] at h
                  exact absurd h (by simp)
                | some t => exact ⟨text ++ t, stripLit_eq_some.mp hstrip⟩
              have hlen := (List.takeWhile_prefix units : List.takeWhile units s <+: s).length_le
              rw [takeWhile_append_of_stop ht, if_pos hleast, Option.isSome_map, List.drop_append_of_le_length hlen]
              exact ih hposs.2 h
          | run units' least' => exact absurd hposs.1 (by simp [stops])
          | times units' n => exact absurd hposs.1 (by simp [stops])
      · exact absurd h (by decide)
    | times units n =>
      simp only [exec] at h ⊢
      split_ifs at h with hn
      · have hle := length_takeWhile_le_append units s z
        have hlen := (List.takeWhile_prefix units : List.takeWhile units s <+: s).length_le
        rw [Option.isSome_map] at h
        rw [if_pos (by omega), Option.isSome_map, List.drop_append_of_le_length (by omega)]
        exact ih hposs h
      · exact absurd h (by decide)

end

end Piece

/-- The first of some patterns that matches, tried in order. -/
def alternatives (patterns : List (List Piece)) : Regex Unit where
  exec s := (patterns.findSome? fun pieces => Piece.exec pieces s).map fun n => (n, ())

namespace Regex

/-- An expression that reads no further than the units of a class at the start of a
    string, and that keeps matching when the string goes on. -/
structure Confined {τ : Type} (re : Regex τ) (p : UInt16 → Bool) : Prop where
  sees : ∀ s, re.exec (s.takeWhile p) = re.exec s
  bounds : ∀ s n g, re.exec s = some (n, g) → 0 < n ∧ n ≤ s.length
  grows : ∀ s z, (re.exec s).isSome = true → (re.exec (s ++ z)).isSome = true

section

variable {τ : Type} {re : Regex τ} {p : UInt16 → Bool} {f : JsString → JsString}

theorem Confined.pos (h : re.Confined p) : ∀ s n g, re.exec s = some (n, g) → 0 < n := fun s n g hexec => (h.bounds s n g hexec).1

private theorem takeWhile_append_stop (a : JsString) {c : UInt16} (hc : p c = false) (b : JsString) :
    (a ++ c :: b).takeWhile p = a.takeWhile p := by
  induction a with
  | nil => rw [List.nil_append, List.takeWhile_cons_of_neg (by simp [hc]), List.takeWhile_nil]
  | cons d a ih =>
    rw [List.cons_append]
    by_cases hd : p d = true
    · rw [List.takeWhile_cons_of_pos hd, List.takeWhile_cons_of_pos hd, ih]
    · rw [List.takeWhile_cons_of_neg hd, List.takeWhile_cons_of_neg hd]

/-- A unit outside the class cuts the string in two. -/
theorem Confined.exec_append (h : re.Confined p) {c : UInt16} (hc : p c = false) (a b : JsString) :
    re.exec (a ++ c :: b) = re.exec a := by
  rw [← h.sees, takeWhile_append_stop a hc, h.sees]

theorem Confined.exec_cons_none (h : re.Confined p) {c : UInt16} (hc : p c = false) (b : JsString) : re.exec (c :: b) = none := by
  have hcut := h.exec_append hc [] b
  rw [List.nil_append] at hcut
  cases hexec : re.exec (c :: b) with
  | none => rfl
  | some r =>
    obtain ⟨hpos, hle⟩ := h.bounds [] r.1 r.2 (by rw [← hcut, hexec])
    rw [List.length_nil] at hle
    omega

/-- A replacement works on the two sides of a unit outside the class apart. -/
theorem Confined.replace_append (h : re.Confined p) {c : UInt16} (hc : p c = false) (a b : JsString) :
    re.replace f (a ++ c :: b) = re.replace f a ++ c :: re.replace f b := by
  induction hlen : a.length using Nat.strong_induction_on generalizing a with
  | _ n ih =>
    subst hlen
    cases a with
    | nil => exact replace_cons_none (h.exec_cons_none hc b)
    | cons d a =>
      have hcut := h.exec_append hc (d :: a) b
      cases hexec : re.exec (d :: a) with
      | none =>
        rw [hexec] at hcut
        rw [List.cons_append] at hcut ⊢
        rw [replace_cons_none hcut, replace_cons_none hexec, ih a.length (by simp) a rfl, List.cons_append]
      | some r =>
        obtain ⟨n, g⟩ := r
        obtain ⟨hpos, hle⟩ := h.bounds _ _ _ hexec
        obtain ⟨m, rest, hm, hsplit⟩ : ∃ m rest, m.length = n ∧ d :: a = m ++ rest :=
          ⟨(d :: a).take n, (d :: a).drop n, by rw [List.length_take, Nat.min_eq_left hle], (List.take_append_drop _ _).symm⟩
        have hne : m ≠ [] := by
          rintro rfl
          rw [List.length_nil] at hm
          omega
        have hshort : rest.length < (d :: a).length := by
          have := congrArg List.length hsplit
          rw [List.length_append] at this
          omega
        rw [hexec, ← hm, hsplit, List.append_assoc] at hcut
        rw [hsplit, ← hm] at hexec
        rw [hsplit, List.append_assoc, replace_match hne hcut, replace_match hne hexec, ih rest.length hshort rest rfl, List.append_assoc]

variable {M : JsString}

/-- The run of the class at the start of a string only gets shorter. -/
theorem Confined.takeWhile_replace (_h : re.Confined p) {c : UInt16} {M' : JsString} (hM : M = c :: M') (hc : p c = false) (s : JsString) :
    (re.replace (fun _ => M) s).takeWhile p <+: s.takeWhile p := by
  induction s with
  | nil => exact List.prefix_refl _
  | cons d s ih =>
    cases hexec : re.exec (d :: s) with
    | none =>
      rw [replace_cons_none hexec]
      by_cases hd : p d = true
      · rw [List.takeWhile_cons_of_pos hd, List.takeWhile_cons_of_pos hd]
        exact (List.prefix_cons_inj d).mpr ih
      · rw [List.takeWhile_cons_of_neg hd]
        exact List.nil_prefix
    | some r =>
      rw [replace, replaceFrom, hexec, hM]
      dsimp only
      rw [List.cons_append, List.takeWhile_cons_of_neg (by simp [hc])]
      exact List.nil_prefix

/-- After a replacement by a text that begins and ends outside the class, and in which
    nothing matches, nothing matches. -/
theorem Confined.free_replace (h : re.Confined p) {c d : UInt16} {M' M'' : JsString} (hfirst : M = c :: M') (hc : p c = false)
    (hlast : M = M'' ++ [d]) (hd : p d = false) (hquiet : ∀ a t, M = a ++ t → re.exec t = none) (s : JsString) :
    re.Free (re.replace (fun _ => M) s) := by
  induction hlen : s.length using Nat.strong_induction_on generalizing s with
  | _ n ih =>
    subst hlen
    cases s with
    | nil =>
      rintro a b hab
      obtain ⟨rfl, rfl⟩ := List.append_eq_nil_iff.mp hab.symm
      exact hquiet M [] (List.append_nil _).symm
    | cons e s =>
      cases hexec : re.exec (e :: s) with
      | none =>
        rw [replace_cons_none hexec]
        rintro (_ | ⟨e', a⟩) b hab
        · rw [List.nil_append] at hab
          subst hab
          by_cases he : p e = true
          · -- the run got shorter, so no match begins in it
            obtain ⟨z, hz⟩ := h.takeWhile_replace hfirst hc s
            have hlong : (re.exec (e :: s)).isSome = false := by rw [hexec]; rfl
            rw [← h.sees, List.takeWhile_cons_of_pos he, ← hz, ← List.cons_append, ← List.takeWhile_cons_of_pos he] at hlong
            rw [← h.sees]
            by_contra hne
            rw [h.grows _ z (Option.isSome_iff_ne_none.mpr hne)] at hlong
            exact absurd hlong (by decide)
          · exact h.exec_cons_none (by simpa using he) _
        · exact ih s.length (by simp) s rfl a b (List.cons.inj hab).2
      | some r =>
        obtain ⟨n, g⟩ := r
        have hn := h.pos _ _ _ hexec
        have hrest := ih (s.drop (n - 1)).length (by rw [List.length_drop, List.length_cons]; omega) (s.drop (n - 1)) rfl
        rw [replace, replaceFrom, hexec]
        dsimp only
        rw [replaceFrom_skip]
        rintro a b hab
        rcases List.append_eq_append_iff.mp hab with ⟨t, ht, hb⟩ | ⟨t, ht, hb⟩
        · exact hrest t b hb
        · -- the match would begin within the replacement
          by_cases hnil : t = []
          · subst hnil
            rw [hb, List.nil_append]
            exact hrest [] _ rfl
          · obtain ⟨t', rfl⟩ : ∃ t', t = t' ++ [d] := by
              obtain ⟨t', x, rfl⟩ := (List.eq_nil_or_concat t).resolve_left hnil
              rw [hlast, List.concat_eq_append, ← List.append_assoc] at ht
              obtain ⟨-, hx⟩ := List.append_inj' ht rfl
              exact ⟨t', by rw [List.concat_eq_append, (List.cons.inj hx).1]⟩
            have hcut := h.exec_append hd t' []
            rw [hb, List.append_assoc, List.singleton_append, h.exec_append hd, ← hcut]
            exact hquiet a _ ht

end

/-- Possessive patterns within a class, each of which begins with a literal. -/
theorem confined_alternatives {p : UInt16 → Bool} {patterns : List (List Piece)}
    (hwithin : ∀ pieces ∈ patterns, ∀ piece ∈ pieces, Piece.Within p piece) (hposs : ∀ pieces ∈ patterns, Piece.possessive pieces = true)
    (hlit : ∀ pieces ∈ patterns, ∃ c text rest, pieces = .lit (c :: text) :: rest) : (alternatives patterns).Confined p where
  sees := by
    intro s
    have hsame : ∀ pieces ∈ patterns, Piece.exec pieces (s.takeWhile p) = Piece.exec pieces s :=
      fun pieces hmem => Piece.exec_takeWhile (hwithin pieces hmem) s
    have hfind : (patterns.findSome? fun pieces => Piece.exec pieces (s.takeWhile p)) = patterns.findSome? fun pieces => Piece.exec pieces s := by
      clear hwithin hposs hlit
      induction patterns with
      | nil => rfl
      | cons pieces patterns ih =>
        rw [List.findSome?_cons, List.findSome?_cons, hsame pieces (List.mem_cons_self ..),
          ih fun q hq => hsame q (List.mem_cons_of_mem _ hq)]
    simp only [alternatives, hfind]
  bounds := by
    intro s n g h
    obtain ⟨k, hk, heq⟩ := Option.map_eq_some_iff.mp h
    obtain rfl := (Prod.mk.inj heq).1
    obtain ⟨pieces, hmem, hexec⟩ := List.exists_of_findSome?_eq_some hk
    refine ⟨?_, Piece.exec_le hexec⟩
    obtain ⟨c, text, rest, rfl⟩ := hlit pieces hmem
    obtain ⟨t, -, hmap⟩ := Option.bind_eq_some_iff.mp hexec
    obtain ⟨m, -, rfl⟩ := Option.map_eq_some_iff.mp hmap
    rw [List.length_cons]
    omega
  grows := by
    intro s z h
    simp only [alternatives, Option.isSome_map, List.findSome?_isSome_iff] at h ⊢
    obtain ⟨pieces, hmem, hexec⟩ := h
    exact ⟨pieces, hmem, Piece.exec_append (hposs pieces hmem) hexec z⟩

end Regex

end sow.js
