import Mathlib.Tactic
import Mathlib.Data.List.DropRight

namespace sow.js

/-- A JavaScript string: its sequence of UTF-16 code units, lone surrogates included. -/
abbrev JsString := List UInt16

instance : LawfulBEq JsString := inferInstance

/-- To decide a fact about the units of a string, run through the string and not through all units. -/
instance (priority := high) decidableUnits (s : JsString) (p : UInt16 → Prop) [DecidablePred p] : Decidable (∀ c ∈ s, p c) :=
  List.decidableBAll p s

/-- The code units of a literal of the basic multilingual plane. -/
def str (s : String) : JsString := s.toList.map fun c => UInt16.ofNat c.toNat

/-- The code unit of a one-character literal. -/
def unit (c : Char) : UInt16 := UInt16.ofNat c.toNat

/-- Membership in the regular-expression class `\s`, which is also the set that
    `String.prototype.trim` strips. -/
def isSpace (c : UInt16) : Bool :=
  let n := c.toNat
  (9 ≤ n && n ≤ 13) || n == 32 || n == 160 || n == 0x1680 || (0x2000 ≤ n && n ≤ 0x200A) ||
    n == 0x2028 || n == 0x2029 || n == 0x202F || n == 0x205F || n == 0x3000 || n == 0xFEFF

/-- Case folding under the flags `iu`, for the letters of ASCII. -/
def foldCase (c : UInt16) : UInt16 :=
  if 65 ≤ c.toNat && c.toNat ≤ 90 then c + 32
  else if c = 0x212A then unit 'k'
  else if c = 0x017F then unit 's'
  else c

/-- `s.slice(start, stop)` for nonnegative arguments. -/
def slice (s : JsString) (start stop : Nat) : JsString := (s.drop start).take (stop - start)

/-- `s.startsWith(needle)`. -/
def startsWith (s needle : JsString) : Bool := needle.isPrefixOf s

/-- `s.endsWith(needle)`. -/
def endsWith (s needle : JsString) : Bool := needle.isSuffixOf s

/-- `s.indexOf(needle)`, with `none` for `-1`. -/
def indexOf (needle : JsString) : JsString → Option Nat
  | [] => if needle.isPrefixOf [] then some 0 else none
  | c :: s => if needle.isPrefixOf (c :: s) then some 0 else (indexOf needle s).map (· + 1)

/-- `s.indexOf(needle, start)` for `start` within the string. -/
def indexOfFrom (needle s : JsString) (start : Nat) : Option Nat :=
  (indexOf needle (s.drop start)).map (· + start)

/-- `s.lastIndexOf(c)` for one code unit, with `none` for `-1`. -/
def lastIndexOf (c : UInt16) : JsString → Option Nat
  | [] => none
  | d :: s =>
    match lastIndexOf c s with
    | some i => some (i + 1)
    | none => if c = d then some 0 else none

/-- `s.includes(needle)`. -/
def includes (s needle : JsString) : Bool := (indexOf needle s).isSome

/-- `s.split(sep)` for a separator of one code unit. -/
def split (sep : UInt16) (s : JsString) : List JsString := s.splitOn sep

/-- What follows a literal at the start of a string. -/
def stripLit (lit s : JsString) : Option JsString :=
  if lit.isPrefixOf s then some (s.drop lit.length) else none

/-- `parts.join(sep)`. -/
def join (sep : JsString) (parts : List JsString) : JsString := sep.intercalate parts

/-- `s.trim()`. -/
def trim (s : JsString) : JsString := (s.dropWhile isSpace).rdropWhile isSpace

/-- `s.replace(/\s+/gu, " ")`. -/
def collapseSpaces : JsString → JsString
  | [] => []
  | c :: s =>
    if isSpace c then
      match s with
      | [] => [unit ' ']
      | d :: t => if isSpace d then collapseSpaces (d :: t) else unit ' ' :: collapseSpaces (d :: t)
    else c :: collapseSpaces s

/-- `s.replace(a, b)` for strings: the first occurrence only. -/
def replaceFirst (s a b : JsString) : JsString :=
  match indexOf a s with
  | none => s
  | some i => s.take i ++ b ++ s.drop (i + a.length)

/-- `s.replaceAll(a, b)` for a nonempty `a`; `skip` units of the last match are still to pass. -/
def replaceAllFrom (a b : JsString) : Nat → JsString → JsString
  | _, [] => []
  | skip + 1, _ :: s => replaceAllFrom a b skip s
  | 0, c :: s =>
    if a.isPrefixOf (c :: s) then b ++ replaceAllFrom a b (a.length - 1) s
    else c :: replaceAllFrom a b 0 s

attribute [grind =] indexOf lastIndexOf replaceAllFrom

/-- `s.replaceAll(a, b)`. -/
def replaceAll (s a b : JsString) : JsString := replaceAllFrom a b 0 s

@[simp] theorem str_nil : str "" = [] := rfl

/-- The units of a literal, one for each character. Rewriting with it spares the kernel the decoding
    of the literal's bytes. -/
theorem str_ofList (l : List Char) : str (String.ofList l) = l.map fun c => UInt16.ofNat c.toNat := by
  rw [str, String.toList_ofList]

theorem slice_append_left (a b : JsString) : slice (a ++ b) a.length (a ++ b).length = b := by
  simp [slice]

theorem slice_middle (a b c : JsString) :
    slice (a ++ (b ++ c)) a.length (a.length + b.length) = b := by
  simp [slice]

theorem startsWith_iff {s needle : JsString} : startsWith s needle = true ↔ ∃ t, s = needle ++ t := by
  simp only [startsWith, List.isPrefixOf_iff_prefix]
  exact ⟨fun ⟨t, h⟩ => ⟨t, h.symm⟩, fun ⟨t, h⟩ => ⟨t, h.symm⟩⟩

theorem endsWith_iff {s needle : JsString} : endsWith s needle = true ↔ ∃ t, s = t ++ needle := by
  simp only [endsWith, List.isSuffixOf_iff_suffix]
  exact ⟨fun ⟨t, h⟩ => ⟨t, h.symm⟩, fun ⟨t, h⟩ => ⟨t, h.symm⟩⟩

/-- `indexOf` finds the first place at which the needle occurs. -/
theorem indexOf_eq_some_iff {needle s : JsString} {i : Nat} :
    indexOf needle s = some i ↔
      i ≤ s.length ∧ needle <+: s.drop i ∧ ∀ j < i, ¬ needle <+: s.drop j := by
  induction s generalizing i with
  | nil =>
    rw [indexOf]
    split
    · next h =>
      rw [List.isPrefixOf_iff_prefix] at h
      constructor
      · intro hi
        obtain rfl : 0 = i := by simpa using hi
        exact ⟨le_rfl, by simpa using h, fun j hj => absurd hj (Nat.not_lt_zero j)⟩
      · rintro ⟨hi, -, -⟩
        simp only [List.length_nil, Nat.le_zero] at hi
        simp [hi]
    · next h =>
      rw [List.isPrefixOf_iff_prefix] at h
      simpa using fun _ hn => absurd (by simpa using hn) h
  | cons c s ih =>
    rw [indexOf]
    split
    · next h =>
      rw [List.isPrefixOf_iff_prefix] at h
      constructor
      · intro hi
        obtain rfl : 0 = i := by simpa using hi
        exact ⟨Nat.zero_le _, h, fun j hj => absurd hj (Nat.not_lt_zero j)⟩
      · rintro ⟨-, -, hfirst⟩
        by_contra hne
        exact hfirst 0 (Nat.pos_of_ne_zero fun h0 => hne (by rw [h0])) h
    · next h =>
      rw [List.isPrefixOf_iff_prefix] at h
      constructor
      · intro hi
        obtain ⟨k, hk, rfl⟩ := Option.map_eq_some_iff.mp hi
        obtain ⟨hle, hat, hfirst⟩ := ih.mp hk
        refine ⟨by simpa using hle, by simpa using hat, fun j hj => ?_⟩
        cases j with
        | zero => simpa using h
        | succ j => simpa using hfirst j (by omega)
      · rintro ⟨hle, hat, hfirst⟩
        cases i with
        | zero => exact absurd hat h
        | succ k =>
          refine Option.map_eq_some_iff.mpr ⟨k, ih.mpr ⟨by simpa using hle, by simpa using hat, ?_⟩, rfl⟩
          intro j hj
          simpa using hfirst (j + 1) (by omega)

theorem indexOf_eq_none_iff {needle s : JsString} :
    indexOf needle s = none ↔ ∀ a b, s ≠ a ++ needle ++ b := by
  induction s with
  | nil =>
    rw [indexOf]
    simp only [List.isPrefixOf_iff_prefix, List.prefix_nil]
    split
    · next h => simp [h]
    · next h => simp [h]
  | cons c s ih =>
    rw [indexOf]
    simp only [List.isPrefixOf_iff_prefix]
    split
    · next h =>
      obtain ⟨t, ht⟩ := h
      simp only [reduceCtorEq, false_iff, not_forall, not_not]
      exact ⟨[], t, by simp [ht]⟩
    · next h =>
      simp only [Option.map_eq_none_iff, ih]
      constructor
      · rintro hs (_ | ⟨d, a⟩) b heq
        · exact h ⟨b, by simpa using heq.symm⟩
        · simp only [List.cons_append, List.cons.injEq] at heq
          exact hs a b heq.2
      · intro hs a b heq
        exact hs (c :: a) b (by simp [heq])

theorem includes_iff {s needle : JsString} : includes s needle = true ↔ needle <:+: s := by
  unfold includes
  rw [Option.isSome_iff_ne_none, ne_eq, indexOf_eq_none_iff]
  simp only [ne_eq, not_forall, not_not]
  exact ⟨fun ⟨a, b, h⟩ => ⟨a, b, h.symm⟩, fun ⟨a, b, h⟩ => ⟨a, b, h.symm⟩⟩

/-- The first occurrence splits the string around the needle. -/
theorem indexOf_split {needle s : JsString} {i : Nat} (h : indexOf needle s = some i) :
    s = s.take i ++ needle ++ s.drop (i + needle.length) := by
  obtain ⟨-, ⟨t, ht⟩, -⟩ := indexOf_eq_some_iff.mp h
  have hdrop : s.drop (i + needle.length) = t := by
    rw [← List.drop_drop, ← ht]
    simp
  rw [hdrop, List.append_assoc, ht, List.take_append_drop]

/-- An occurrence before which there is none is the one `indexOf` reports. -/
theorem indexOf_append {needle a b : JsString}
    (hfirst : ∀ j < a.length, ¬ needle <+: (a ++ needle ++ b).drop j) :
    indexOf needle (a ++ needle ++ b) = some a.length := by
  rw [indexOf_eq_some_iff]
  refine ⟨by simp, ?_, hfirst⟩
  rw [List.append_assoc, List.drop_left]
  exact List.prefix_append needle b

/-- A needle cannot begin in a part that lacks its first unit. -/
theorem indexOf_append_of_not_mem {c : UInt16} {needle a : JsString} (b : JsString) (h : c ∉ a) :
    indexOf (c :: needle) (a ++ b) = (indexOf (c :: needle) b).map (a.length + ·) := by
  induction a with
  | nil => simp
  | cons d a ih =>
    simp only [List.mem_cons, not_or] at h
    rw [List.cons_append, indexOf, if_neg, ih h.2, Option.map_map]
    · congr 1
      funext n
      simp only [Function.comp_apply, List.length_cons]
      omega
    · rw [List.isPrefixOf_iff_prefix]
      rintro ⟨t, ht⟩
      exact h.1 (List.cons.inj ht).1

/-- Two fields free of their terminator agree when the texts they begin do. -/
theorem field_inj {α : Type} {c : α} {a a' r r' : List α} (ha : c ∉ a) (ha' : c ∉ a')
    (h : a ++ c :: r = a' ++ c :: r') : a = a' ∧ r = r' := by
  induction a generalizing a' with
  | nil =>
    cases a' with
    | nil => exact ⟨rfl, (List.cons.inj h).2⟩
    | cons x a' => exact absurd (List.mem_cons_self ..) ((List.cons.inj h).1 ▸ ha')
  | cons x a ih =>
    cases a' with
    | nil => exact absurd (List.mem_cons_self ..) ((List.cons.inj h).1 ▸ ha)
    | cons y a' =>
      obtain ⟨rfl, htail⟩ := List.cons.inj h
      obtain ⟨rfl, hr⟩ := ih (fun hm => ha (List.mem_cons_of_mem _ hm)) (fun hm => ha' (List.mem_cons_of_mem _ hm)) htail
      exact ⟨rfl, hr⟩

/-- The last field of a joined text, and what stands before it. -/
theorem lastField_inj {α : Type} {c : α} {a a' r r' : List α} (hr : c ∉ r) (hr' : c ∉ r')
    (h : a ++ c :: r = a' ++ c :: r') : a = a' ∧ r = r' := by
  have hrev : r.reverse ++ c :: a.reverse = r'.reverse ++ c :: a'.reverse := by
    have hcongr := congrArg List.reverse h
    simpa using hcongr
  obtain ⟨hlast, hfront⟩ := field_inj (by simpa using hr) (by simpa using hr') hrev
  exact ⟨List.reverse_injective hfront, List.reverse_injective hlast⟩

/-- Two fields that hold their terminator equally often agree when the texts they begin do. -/
theorem field_inj_of_count {α : Type} [DecidableEq α] {c : α} {a a' r r' : List α} (hcount : a.count c = a'.count c)
    (h : a ++ c :: r = a' ++ c :: r') : a = a' ∧ r = r' := by
  induction a generalizing a' with
  | nil =>
    cases a' with
    | nil => exact ⟨rfl, (List.cons.inj h).2⟩
    | cons x a' =>
      obtain ⟨rfl, -⟩ := List.cons.inj h
      rw [List.count_nil, List.count_cons_self] at hcount
      omega
  | cons x a ih =>
    cases a' with
    | nil =>
      obtain ⟨rfl, -⟩ := List.cons.inj h
      rw [List.count_nil, List.count_cons_self] at hcount
      omega
    | cons y a' =>
      obtain ⟨rfl, htail⟩ := List.cons.inj h
      rw [List.count_cons, List.count_cons, Nat.add_right_cancel_iff] at hcount
      obtain ⟨rfl, hr⟩ := ih hcount htail
      exact ⟨rfl, hr⟩

/-- A single code unit absent from `a` is found right after `a`. -/
theorem indexOf_unit {c : UInt16} {a b : JsString} (h : c ∉ a) :
    indexOf [c] (a ++ c :: b) = some a.length := by
  induction a with
  | nil => simp [indexOf]
  | cons d a ih =>
    simp only [List.mem_cons, not_or] at h
    simp [indexOf, h.1, ih h.2]

theorem indexOf_unit_none {c : UInt16} {s : JsString} : indexOf [c] s = none ↔ c ∉ s := by
  induction s with
  | nil => simp [indexOf]
  | cons d s ih =>
    by_cases hc : c = d
    · simp [indexOf, hc]
    · simp [indexOf, ih, hc]

theorem indexOf_unit_eq (c : UInt16) (s : JsString) :
    indexOf [c] s = if c ∈ s then some (s.takeWhile (· != c)).length else none := by
  induction s with
  | nil => simp [indexOf]
  | cons d s ih =>
    by_cases hc : c = d
    · simp [indexOf, hc]
    · have hne : (d != c) = true := by simpa using fun h => hc h.symm
      simp only [indexOf, List.isPrefixOf_iff_prefix, List.cons_prefix_cons, hc, false_and, if_false, ih,
        List.mem_cons, false_or, List.takeWhile_cons, hne, if_true, List.length_cons]
      split <;> simp

theorem lastIndexOf_none {c : UInt16} {s : JsString} : lastIndexOf c s = none ↔ c ∉ s := by
  induction s with
  | nil => simp [lastIndexOf]
  | cons d s ih =>
    rw [lastIndexOf]
    cases h : lastIndexOf c s with
    | none => by_cases hc : c = d <;> simp [hc, ih.mp h]
    | some i =>
      have hmem : c ∈ s := by
        by_contra hmem
        simp [ih.mpr hmem] at h
      simp [hmem]

/-- The last occurrence is the one after which there is none. -/
theorem lastIndexOf_append {c : UInt16} (a : JsString) {b : JsString} (h : c ∉ b) :
    lastIndexOf c (a ++ c :: b) = some a.length := by
  induction a with
  | nil => simp [lastIndexOf, lastIndexOf_none.mpr h]
  | cons d a ih => simp [lastIndexOf, ih]

@[simp] theorem join_singleton (sep part : JsString) : join sep [part] = part := by
  simp [join]

theorem join_cons_cons (sep p q : JsString) (parts : List JsString) :
    join sep (p :: q :: parts) = p ++ (sep ++ join sep (q :: parts)) := by
  simp [join, List.intercalate]

@[simp] theorem join_nil (parts : List JsString) : join [] parts = parts.flatten := by
  induction parts with
  | nil => rfl
  | cons p parts ih =>
    cases parts with
    | nil => simp
    | cons q parts => rw [join_cons_cons, ih, List.nil_append, List.flatten_cons, List.flatten_cons, List.flatten_cons]

theorem join_split (sep : UInt16) (s : JsString) : join [sep] (split sep s) = s := by
  simp [join, split]

theorem split_ne_nil (sep : UInt16) (s : JsString) : split sep s ≠ [] := List.splitOn_ne_nil sep s

theorem not_mem_of_mem_split {sep : UInt16} {s part : JsString} (h : part ∈ split sep s) : sep ∉ part := by
  induction s generalizing part with
  | nil =>
    rw [split, List.splitOn_nil, List.mem_singleton] at h
    simp [h]
  | cons c s ih =>
    rw [split, List.splitOn_cons_eq_if_modifyHead] at h
    by_cases hc : c = sep
    · rw [if_pos (by simp [hc]), List.mem_cons] at h
      rcases h with rfl | h
      · simp
      · exact ih h
    · rw [if_neg (by simpa using hc)] at h
      rw [split] at ih
      cases hs : s.splitOn sep with
      | nil => simp [hs] at h
      | cons head tail =>
        rw [hs] at h ih
        rw [List.modifyHead_cons, List.mem_cons] at h
        rcases h with rfl | h
        · intro hmem
          rcases List.mem_cons.mp hmem with rfl | hmem
          · exact hc rfl
          · exact ih (List.mem_cons_self ..) hmem
        · exact ih (List.mem_cons_of_mem _ h)

/-- A join with a separator in front is the parts, each after a separator. -/
theorem cons_join (sep : UInt16) {parts : List JsString} (hne : parts ≠ []) :
    sep :: join [sep] parts = parts.flatMap (sep :: ·) := by
  induction parts with
  | nil => exact absurd rfl hne
  | cons p parts ih =>
    cases parts with
    | nil => simp
    | cons q parts =>
      rw [join_cons_cons, List.flatMap_cons, ← ih (by simp)]
      simp

theorem split_join (sep : UInt16) {parts : List JsString} (hne : parts ≠ [])
    (h : ∀ p ∈ parts, sep ∉ p) : split sep (join [sep] parts) = parts := by
  simpa [join, split] using List.splitOn_intercalate sep h hne

theorem join_append {sep : UInt16} {parts more : List JsString} (hparts : parts ≠ []) (hmore : more ≠ []) :
    join [sep] (parts ++ more) = join [sep] parts ++ sep :: join [sep] more := by
  induction parts with
  | nil => exact absurd rfl hparts
  | cons p parts ih =>
    cases parts with
    | nil =>
      cases more with
      | nil => exact absurd rfl hmore
      | cons q more => rw [List.singleton_append, join_cons_cons, join_singleton, List.singleton_append]
    | cons p' parts =>
      rw [List.cons_append, List.cons_append, join_cons_cons, join_cons_cons, ← List.cons_append, ih (by simp)]
      rw [List.append_assoc, List.append_assoc]

/-- The parts around a separator. -/
theorem split_append_sep (sep : UInt16) (a b : JsString) : split sep (a ++ sep :: b) = split sep a ++ split sep b :=
  List.splitOn_append_cons_self a b

/-- A string that neither begins nor ends with white space. -/
def Trimmed (s : JsString) : Prop :=
  (∀ c ∈ s.head?, isSpace c = false) ∧ ∀ c ∈ s.getLast?, isSpace c = false

instance (s : JsString) : Decidable (Trimmed s) :=
  decidable_of_iff ((s.head?.all (!isSpace ·) && s.getLast?.all (!isSpace ·)) = true)
    (by simp [Trimmed, Option.all_eq_true])

theorem trim_eq_self {s : JsString} (h : Trimmed s) : trim s = s := by
  have hstart : s.dropWhile isSpace = s := by
    cases s with
    | nil => rfl
    | cons c t => rw [List.dropWhile_cons, if_neg (by simp [h.1 c rfl])]
  rw [trim, hstart, List.rdropWhile_eq_self_iff]
  intro hne hlast
  have hmem : s.getLast hne ∈ s.getLast? := by simp [List.getLast?_eq_some_getLast hne]
  simp [h.2 _ hmem] at hlast

theorem mem_of_mem_trim {c : UInt16} {s : JsString} (h : c ∈ trim s) : c ∈ s :=
  (List.dropWhile_sublist _).subset ((List.rdropWhile_prefix _ _).subset h)

theorem trimmed_trim (s : JsString) : Trimmed (trim s) := by
  constructor
  · intro c hc
    have hpre : trim s <+: s.dropWhile isSpace := List.rdropWhile_prefix _ _
    have hhead : c ∈ (s.dropWhile isSpace).head? := by
      obtain ⟨t, ht⟩ := hpre
      rw [← ht]
      cases htrim : trim s with
      | nil => simp [htrim] at hc
      | cons d u => simpa [htrim] using hc
    have hne : s.dropWhile isSpace ≠ [] := by
      intro hnil
      simp [hnil] at hhead
    have hfalse := List.head_dropWhile_not isSpace hne
    have hcd : (s.dropWhile isSpace).head hne = c := by
      rw [List.head?_eq_some_head hne] at hhead
      simpa using hhead
    rwa [hcd] at hfalse
  · intro c hc
    have hne : trim s ≠ [] := by
      intro hnil
      simp [hnil] at hc
    have hlast := List.rdropWhile_last_not isSpace (s.dropWhile isSpace) hne
    rw [List.getLast?_eq_some_getLast hne] at hc
    obtain rfl : (trim s).getLast hne = c := by simpa using hc
    exact Bool.eq_false_iff.mpr hlast

theorem trim_trim (s : JsString) : trim (trim s) = trim s := trim_eq_self (trimmed_trim s)

theorem trim_cons_space {c : UInt16} (s : JsString) (h : isSpace c = true) : trim (c :: s) = trim s := by
  rw [trim, List.dropWhile_cons, if_pos h, trim]

end sow.js
