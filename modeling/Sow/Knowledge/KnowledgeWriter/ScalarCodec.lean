import Mathlib.Tactic.IntervalCases
import Sow.Knowledge.KnowledgeWriter.FrontmatterCodec

open sow.js

namespace sow.knowledge_writer

/-- The replacements of `yamlDoubleQuote`, in the order of the source: a backslash
    is doubled before any other replacement writes one. -/
def yamlReplacements (s : JsString) : JsString :=
  let controls := replaceAll (replaceAll (replaceAll (replaceAll (replaceAll s (str "\\") (str "\\\\")) (str "\"") (str "\\\""))
    (str "\n") (str "\\n")) (str "\r") (str "\\r")) (str "\t") (str "\\t")
  controls.flatMap fun c => if isUnprintable c then numericEscape c else [c]

/-- `replaceAll` of a single unit. -/
def rewriteUnit (c : UInt16) (b : JsString) (u : UInt16) : JsString := if u = c then b else [u]

theorem replaceAll_unit (c : UInt16) (b s : JsString) : replaceAll s [c] b = s.flatMap (rewriteUnit c b) := by
  unfold replaceAll
  induction s with
  | nil => rfl
  | cons u s ih =>
    rw [replaceAllFrom, List.flatMap_cons, rewriteUnit]
    by_cases hu : u = c
    · rw [if_pos (by simp [hu]), if_pos hu]
      exact congrArg (b ++ ·) ih
    · rw [if_neg (by simpa using Ne.symm hu), if_neg hu]
      exact congrArg (u :: ·) ih

private theorem hexValue_upperHexDigit {n : Nat} (h : n < 16) : Json.hexValue (upperHexDigit n) = some n := by
  interval_cases n <;> decide

private theorem upperHexDigit_toNat {n : Nat} (h : n < 16) : 48 ≤ (upperHexDigit n).toNat := by
  interval_cases n <;> decide

private theorem hexPrefixed_two {a b : Nat} (ha : a < 16) (hb : b < 16) (s : JsString) :
    hexPrefixed 2 (upperHexDigit a :: upperHexDigit b :: s) = some (UInt16.ofNat (a * 16 + b)) := by
  simp [hexPrefixed, hexValue_upperHexDigit ha, hexValue_upperHexDigit hb]

private theorem hexPrefixed_four {a b c d : Nat} (ha : a < 16) (hb : b < 16) (hc : c < 16) (hd : d < 16) (s : JsString) :
    hexPrefixed 4 (upperHexDigit a :: upperHexDigit b :: upperHexDigit c :: upperHexDigit d :: s) =
      some (UInt16.ofNat (((a * 16 + b) * 16 + c) * 16 + d)) := by
  simp [hexPrefixed, hexValue_upperHexDigit ha, hexValue_upperHexDigit hb, hexValue_upperHexDigit hc, hexValue_upperHexDigit hd]

theorem decodeScalar_escape {s : JsString} {v : UInt16} {n : Nat} (h : scalarEscapeAt s = some (v, n)) :
    decodeScalar 0 (unit '\\' :: s) = v :: decodeScalar n s := by
  rw [decodeScalar, if_neg (by decide), h]

/-- The numeric escape of a unit stands for the unit, wherever it is written. -/
theorem decodeScalar_numericEscape (c : UInt16) (rest : JsString) :
    decodeScalar 0 (numericEscape c ++ rest) = c :: decodeScalar 0 rest := by
  have hlt := c.toNat_lt
  simp only [numericEscape]
  split_ifs with hsmall
  · have hvalue := hexPrefixed_two (a := c.toNat / 16 % 16) (b := c.toNat % 16) (by omega) (by omega) rest
    rw [show c.toNat / 16 % 16 * 16 + c.toNat % 16 = c.toNat by omega, UInt16.ofNat_toNat] at hvalue
    have hescape : scalarEscapeAt (unit 'x' :: upperHexDigit (c.toNat / 16 % 16) :: upperHexDigit (c.toNat % 16) :: rest) = some (c, 3) := by
      change (hexPrefixed 2 _).map _ = _
      rw [hvalue]
      rfl
    exact decodeScalar_escape hescape
  · have hvalue := hexPrefixed_four (a := c.toNat / 4096 % 16) (b := c.toNat / 256 % 16) (c := c.toNat / 16 % 16)
      (d := c.toNat % 16) (by omega) (by omega) (by omega) (by omega) rest
    rw [show ((c.toNat / 4096 % 16 * 16 + c.toNat / 256 % 16) * 16 + c.toNat / 16 % 16) * 16 + c.toNat % 16 = c.toNat by omega,
      UInt16.ofNat_toNat] at hvalue
    have hescape : scalarEscapeAt (unit 'u' :: upperHexDigit (c.toNat / 4096 % 16) :: upperHexDigit (c.toNat / 256 % 16) ::
        upperHexDigit (c.toNat / 16 % 16) :: upperHexDigit (c.toNat % 16) :: rest) = some (c, 5) := by
      change (hexPrefixed 4 _).map _ = _
      rw [hvalue]
      rfl
    exact decodeScalar_escape hescape

/-- What is written for one unit is read back as that unit, whatever follows. -/
theorem decodeScalar_yamlEscapeUnit (c : UInt16) (rest : JsString) :
    decodeScalar 0 (yamlEscapeUnit c ++ rest) = c :: decodeScalar 0 rest := by
  unfold yamlEscapeUnit
  split_ifs with h1 h2 h3 h4 h5 h6
  · rw [h1]
    rfl
  · rw [h2]
    rfl
  · rw [h3]
    rfl
  · rw [h4]
    rfl
  · rw [h5]
    rfl
  · exact decodeScalar_numericEscape c rest
  · rw [List.singleton_append, decodeScalar, if_pos h1]

theorem decodeScalar_escaped (s : JsString) : decodeScalar 0 (s.flatMap yamlEscapeUnit) = s := by
  induction s with
  | nil => rfl
  | cons c s ih => rw [List.flatMap_cons, decodeScalar_yamlEscapeUnit, ih]

/-- A unit that ends no line. -/
def InLine (c : UInt16) : Prop := c ≠ unit '\n' ∧ c ≠ unit '\r'

theorem inLine_of_le {c : UInt16} (h : 32 ≤ c.toNat) : InLine c := by
  constructor
  · rintro rfl
    exact absurd h (by decide)
  · rintro rfl
    exact absurd h (by decide)

theorem inLine_numericEscape {c d : UInt16} (h : d ∈ numericEscape c) : InLine d := by
  have hdigit : ∀ n, n < 16 → InLine (upperHexDigit n) := fun n hn => inLine_of_le (by have := upperHexDigit_toNat hn; omega)
  have hx : ∀ d ∈ str "\\x", InLine d := by
    unfold InLine
    decide
  have hu : ∀ d ∈ str "\\u", InLine d := by
    unfold InLine
    decide
  simp only [numericEscape] at h
  split_ifs at h
  · rcases List.mem_append.mp h with h | h
    · exact hx d h
    · simp only [List.mem_cons, List.not_mem_nil, or_false] at h
      rcases h with rfl | rfl
      · exact hdigit _ (by omega)
      · exact hdigit _ (by omega)
  · rcases List.mem_append.mp h with h | h
    · exact hu d h
    · simp only [List.mem_cons, List.not_mem_nil, or_false] at h
      rcases h with rfl | rfl | rfl | rfl
      · exact hdigit _ (by omega)
      · exact hdigit _ (by omega)
      · exact hdigit _ (by omega)
      · exact hdigit _ (by omega)

theorem inLine_yamlEscapeUnit {c d : UInt16} (h : d ∈ yamlEscapeUnit c) : InLine d := by
  have hpairs : ∀ d ∈ str "\\\\" ++ str "\\\"" ++ str "\\n" ++ str "\\r" ++ str "\\t", InLine d := by
    unfold InLine
    decide
  simp only [List.mem_append, or_imp, forall_and] at hpairs
  obtain ⟨⟨⟨⟨hslash, hquote⟩, hfeed⟩, hreturn⟩, htab⟩ := hpairs
  unfold yamlEscapeUnit at h
  split_ifs at h with h1 h2 h3 h4 h5 h6
  · exact hslash d h
  · exact hquote d h
  · exact hfeed d h
  · exact hreturn d h
  · exact htab d h
  · exact inLine_numericEscape h
  · obtain rfl := List.mem_singleton.mp h
    exact ⟨h3, h4⟩

/-- A string that needs no quotes is trimmed, begins with a letter and has inert units only. -/
theorem plain_of_not_needsYamlQuoting {v : JsString} (h : needsYamlQuoting v = false) :
    Trimmed v ∧ ∃ c s, v = c :: s ∧ isLetter c = true ∧ s.all isPlainUnit = true := by
  simp only [needsYamlQuoting] at h
  split_ifs at h with hnil htrim hplain
  rw [Decidable.not_not] at htrim
  refine ⟨htrim ▸ trimmed_trim v, ?_⟩
  cases v with
  | nil => exact absurd rfl hnil
  | cons c s =>
    rw [Bool.not_eq_true, Bool.not_eq_false', isSafePlain, Bool.and_eq_true] at hplain
    exact ⟨c, s, rfl, hplain⟩

private theorem inLine_of_isLetter {c : UInt16} (h : isLetter c = true) : InLine c := by
  simp only [isLetter, Bool.or_eq_true, Bool.and_eq_true, decide_eq_true_eq] at h
  exact inLine_of_le (by omega)

theorem inLine_of_isPlainUnit {c : UInt16} (h : isPlainUnit c = true) : InLine c := by
  simp only [isPlainUnit, Bool.or_eq_true, beq_iff_eq] at h
  have hmarks : ∀ d ∈ str "_ ./-", InLine d := by
    unfold InLine
    decide
  rcases h with (((((h | h) | rfl) | rfl) | rfl) | rfl) | rfl
  · exact inLine_of_isLetter h
  · simp only [Json.isDigit, Bool.and_eq_true, decide_eq_true_eq] at h
    exact inLine_of_le (by omega)
  · exact hmarks _ (by decide)
  · exact hmarks _ (by decide)
  · exact hmarks _ (by decide)
  · exact hmarks _ (by decide)
  · exact hmarks _ (by decide)

theorem serializeScalar_quoted {v : JsString} (h : needsYamlQuoting v = true) :
    serializeScalar (some (.str v)) = unit '"' :: (v.flatMap yamlEscapeUnit ++ [unit '"']) := by
  rw [serializeScalar, if_pos h]
  rfl

theorem serializeScalar_plain {v : JsString} (h : needsYamlQuoting v = false) : serializeScalar (some (.str v)) = v := by
  rw [serializeScalar, if_neg (by rw [h]; decide)]

/-- The quotes are taken off, and every escape is read back. -/
theorem deserializeScalar_quoted (s : JsString) : deserializeScalar (unit '"' :: (s.flatMap yamlEscapeUnit ++ [unit '"'])) = s := by
  have hlast : (unit '"' :: (s.flatMap yamlEscapeUnit ++ [unit '"'])).getLast? = some (unit '"') := by
    rw [← List.cons_append, List.getLast?_concat]
  have hinner : slice (unit '"' :: (s.flatMap yamlEscapeUnit ++ [unit '"'])) 1
      ((unit '"' :: (s.flatMap yamlEscapeUnit ++ [unit '"'])).length - 1) = s.flatMap yamlEscapeUnit := by
    simp [slice]
  rw [deserializeScalar, if_neg, hinner, decodeScalar_escaped]
  rintro (hshort | hfirst | hend)
  · simp at hshort
  · exact hfirst rfl
  · exact hend hlast

theorem deserializeScalar_serializeScalar (v : JsString) : deserializeScalar (serializeScalar (some (.str v))) = v := by
  cases hquoting : needsYamlQuoting v with
  | true => rw [serializeScalar_quoted hquoting, deserializeScalar_quoted]
  | false =>
    rw [serializeScalar_plain hquoting]
    obtain ⟨-, c, s, rfl, hletter, -⟩ := plain_of_not_needsYamlQuoting hquoting
    rw [deserializeScalar, if_pos]
    refine .inr (.inl fun hfirst => ?_)
    obtain rfl := Option.some.inj hfirst
    exact absurd hletter (by decide)

theorem inLine_serializeScalar {v : JsString} {c : UInt16} (h : c ∈ serializeScalar (some (.str v))) : InLine c := by
  cases hquoting : needsYamlQuoting v with
  | true =>
    rw [serializeScalar_quoted hquoting] at h
    simp only [List.mem_cons, List.mem_append, List.mem_flatMap, List.not_mem_nil, or_false] at h
    have hquote : InLine (unit '"') := inLine_of_le (by decide)
    rcases h with rfl | ⟨d, -, hc⟩ | rfl
    · exact hquote
    · exact inLine_yamlEscapeUnit hc
    · exact hquote
  | false =>
    rw [serializeScalar_plain hquoting] at h
    obtain ⟨-, d, s, rfl, hletter, hplain⟩ := plain_of_not_needsYamlQuoting hquoting
    rcases List.mem_cons.mp h with rfl | h
    · exact inLine_of_isLetter hletter
    · exact inLine_of_isPlainUnit (List.all_eq_true.mp hplain c h)

theorem trimmed_serializeScalar (v : JsString) : Trimmed (serializeScalar (some (.str v))) := by
  cases hquoting : needsYamlQuoting v with
  | true =>
    rw [serializeScalar_quoted hquoting]
    refine ⟨fun c hc => ?_, fun c hc => ?_⟩
    · obtain rfl := Option.some.inj hc
      decide
    · rw [← List.cons_append, List.getLast?_concat] at hc
      obtain rfl := Option.some.inj hc
      decide
  | false =>
    rw [serializeScalar_plain hquoting]
    exact (plain_of_not_needsYamlQuoting hquoting).1

/-- The entry of a string under a key that `parseNote` reads as it is. -/
theorem isEntry_serializeScalar {key : JsString} (hline : unit '\n' ∉ key) (hcolon : unit ':' ∉ key) (htrim : Trimmed key)
    (v : JsString) : IsEntry (key, serializeScalar (some (.str v))) where
  key_line := hline
  key_colon := hcolon
  key_trimmed := htrim
  value_line := fun h => (inLine_serializeScalar h).1 rfl
  value_trimmed := trimmed_serializeScalar v

/-- Every string is written on one line, trimmed, and read back as it was; `parseNote`
    splits and trims the line of its entry and finds the scalar unchanged. -/
theorem scalar_roundTrip (v : JsString) :
    deserializeScalar (serializeScalar (some (.str v))) = v ∧
    unit '\n' ∉ serializeScalar (some (.str v)) ∧ unit '\r' ∉ serializeScalar (some (.str v)) ∧
    trim (serializeScalar (some (.str v))) = serializeScalar (some (.str v)) ∧
    split (unit '\n') (serializeScalar (some (.str v))) = [serializeScalar (some (.str v))] ∧
    ∀ key, unit '\n' ∉ key → unit ':' ∉ key → Trimmed key →
      parseLine (entryLine (key, serializeScalar (some (.str v)))) = some (key, serializeScalar (some (.str v))) := by
  have hfeed : unit '\n' ∉ serializeScalar (some (.str v)) := fun h => (inLine_serializeScalar h).1 rfl
  have hreturn : unit '\r' ∉ serializeScalar (some (.str v)) := fun h => (inLine_serializeScalar h).2 rfl
  refine ⟨deserializeScalar_serializeScalar v, hfeed, hreturn, trim_eq_self (trimmed_serializeScalar v), ?_, ?_⟩
  · have hsplit := @split_join (unit '\n') [serializeScalar (some (.str v))] (List.cons_ne_nil _ _)
      fun p hp => List.mem_singleton.mp hp ▸ hfeed
    rwa [join_singleton] at hsplit
  · intro key hline hcolon htrim
    exact parseLine_entryLine (isEntry_serializeScalar hline hcolon htrim v)

end sow.knowledge_writer
