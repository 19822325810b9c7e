import Sow.Js.String

namespace sow.js

/-- The small letter of an ASCII capital; every other unit is left as it is. -/
def lowerAscii (c : UInt16) : UInt16 := if 65 ≤ c.toNat && c.toNat ≤ 90 then c + 32 else c

/-- What follows a small literal at the start of a string, under the flag `i`. -/
def stripLitAscii (lit s : JsString) : Option JsString :=
  if (s.take lit.length).map lowerAscii = lit then some (s.drop lit.length) else none

/-- The part of the runtime's Unicode tables that `toLowerCase` reads: what stands in the
    place of a unit that is not ASCII, between the text before it and the text after it. -/
structure CaseTables where
  lowerAt : JsString → UInt16 → JsString → JsString
  nonempty : ∀ before c after, lowerAt before c after ≠ []
  /-- U+0130 becomes an `i` and a dot, U+212A a `k`; no other capital has an ASCII letter. -/
  foreign : ∀ before c after, ∀ d ∈ lowerAt before c after, d.toNat < 128 → d = unit 'i' ∨ d = unit 'k'

namespace CaseTables

variable (tables : CaseTables)

def lowerFrom (before : JsString) : JsString → JsString
  | [] => []
  | c :: s =>
    (if c.toNat < 128 then [lowerAscii c] else tables.lowerAt before c s) ++ lowerFrom (before ++ [c]) s

/-- `s.toLowerCase()`. -/
def toLowerCase (s : JsString) : JsString := tables.lowerFrom [] s

/-- The units that come of themselves or of an ASCII capital only. -/
def IsPlain (c : UInt16) : Prop := c.toNat < 128 ∧ c ≠ unit 'i' ∧ c ≠ unit 'k'

instance (c : UInt16) : Decidable (IsPlain c) := inferInstanceAs (Decidable (_ ∧ _))

theorem lowerFrom_eq_cons {before s t : JsString} {d : UInt16} (hd : IsPlain d)
    (h : tables.lowerFrom before s = d :: t) :
    ∃ c r, s = c :: r ∧ c.toNat < 128 ∧ lowerAscii c = d ∧ tables.lowerFrom (before ++ [c]) r = t := by
  cases s with
  | nil => simp [lowerFrom] at h
  | cons c r =>
    rw [lowerFrom] at h
    by_cases hc : c.toNat < 128
    · rw [if_pos hc] at h
      obtain ⟨hd, ht⟩ := List.cons.inj h
      exact ⟨c, r, rfl, hc, hd, ht⟩
    · rw [if_neg hc] at h
      obtain ⟨e, es, hes⟩ := List.exists_cons_of_ne_nil (tables.nonempty before c r)
      rw [hes] at h
      obtain ⟨rfl, -⟩ := List.cons.inj h
      rcases tables.foreign before c r e (by simp [hes]) hd.1 with hi | hk
      · exact absurd hi hd.2.1
      · exact absurd hk hd.2.2

/-- A plain beginning of the small text comes of as long a beginning of the text. -/
theorem lowerFrom_eq_append {before s h t : JsString} (hplain : ∀ d ∈ h, IsPlain d)
    (heq : tables.lowerFrom before s = h ++ t) :
    ∃ u r, s = u ++ r ∧ (∀ c ∈ u, c.toNat < 128) ∧ u.map lowerAscii = h ∧ tables.lowerFrom (before ++ u) r = t := by
  induction h generalizing before s with
  | nil => exact ⟨[], s, rfl, by simp, rfl, by simpa using heq⟩
  | cons d h ih =>
    obtain ⟨c, r, rfl, hc, hd, hr⟩ := tables.lowerFrom_eq_cons (hplain d (by simp)) heq
    obtain ⟨u, r', rfl, hu, hmap, hrest⟩ := ih (fun d hd => hplain d (by simp [hd])) hr
    refine ⟨c :: u, r', rfl, ?_, by simp [hd, hmap], by simpa using hrest⟩
    simpa using ⟨hc, hu⟩

theorem lowerFrom_append {before u r : JsString} (hu : ∀ c ∈ u, c.toNat < 128) :
    tables.lowerFrom before (u ++ r) = u.map lowerAscii ++ tables.lowerFrom (before ++ u) r := by
  induction u generalizing before with
  | nil => simp
  | cons c u ih =>
    simp only [List.mem_cons, forall_eq_or_imp] at hu
    rw [List.cons_append, lowerFrom, if_pos hu.1, ih hu.2]
    simp

theorem lowerFrom_ascii {before u : JsString} (hu : ∀ c ∈ u, c.toNat < 128) :
    tables.lowerFrom before u = u.map lowerAscii := by
  simpa [lowerFrom] using @lowerFrom_append tables before u [] hu

/-- A plain unit that no other unit becomes is as often in the small text as in the text. -/
theorem count_lowerFrom {before s : JsString} {d : UInt16} (hd : IsPlain d) (hfix : ∀ c, lowerAscii c = d ↔ c = d) :
    (tables.lowerFrom before s).count d = s.count d := by
  induction s generalizing before with
  | nil => simp [lowerFrom]
  | cons c s ih =>
    rw [lowerFrom, List.count_append, List.count_cons, ih, Nat.add_comm]
    congr 1
    by_cases hc : c.toNat < 128
    · rw [if_pos hc, List.count_singleton]
      simp only [beq_iff_eq, hfix c]
    · have hne : c ≠ d := fun h => hc (h ▸ hd.1)
      rw [if_neg hc, if_neg (by simpa using hne), List.count_eq_zero]
      intro hmem
      rcases tables.foreign before c s d hmem hd.1 with hi | hk
      · exact hd.2.1 hi
      · exact hd.2.2 hk

end CaseTables

/-- The tables of a runtime, for texts in ASCII. -/
def asciiTables : CaseTables where
  lowerAt _ c _ := if c.toNat < 128 then [unit 'k'] else [c]
  nonempty _ c _ := by
    split <;> simp
  foreign _ c _ := by
    intro d hd hlt
    split at hd
    · exact .inr (List.mem_singleton.mp hd)
    · next hc =>
      rw [List.mem_singleton.mp hd] at hlt
      exact absurd hlt hc

end sow.js
