import Sow.Js.String

namespace sow.js

def isHighSurrogate (c : UInt16) : Bool := 0xD800 ≤ c.toNat && c.toNat < 0xDC00
def isLowSurrogate (c : UInt16) : Bool := 0xDC00 ≤ c.toNat && c.toNat < 0xE000
def isSurrogate (c : UInt16) : Bool := isHighSurrogate c || isLowSurrogate c

/-- The code point of one unit; a lone surrogate reads as U+FFFD. -/
def scalarOf (c : UInt16) : Char := if isSurrogate c then Char.ofNat 0xFFFD else Char.ofNat c.toNat

/-- The code point of a surrogate pair. -/
def pairOf (c d : UInt16) : Char := Char.ofNat (0x10000 + (c.toNat - 0xD800) * 0x400 + (d.toNat - 0xDC00))

/-- The code points of a string. -/
def codePoints : JsString → List Char
  | [] => []
  | [c] => [scalarOf c]
  | c :: d :: s =>
    if isHighSurrogate c && isLowSurrogate d then pairOf c d :: codePoints s
    else scalarOf c :: codePoints (d :: s)

attribute [grind =] codePoints

/-- The UTF-8 encoding of a string, as the crypto functions read their input. -/
def utf8 (s : JsString) : List UInt8 := (codePoints s).flatMap String.utf8EncodeChar

/-- A unit that begins no pair is encoded alone. -/
theorem utf8_cons {c : UInt16} (h : isHighSurrogate c = false) (s : JsString) :
    utf8 (c :: s) = String.utf8EncodeChar (scalarOf c) ++ utf8 s := by
  unfold utf8
  cases s with
  | nil => simp [codePoints]
  | cons d s => simp [codePoints, h]

/-- `s.isWellFormed()`: the string has no lone surrogate. -/
def isWellFormed : JsString → Bool
  | [] => true
  | [c] => !isSurrogate c
  | c :: d :: s =>
    if isHighSurrogate c && isLowSurrogate d then isWellFormed s
    else !isSurrogate c && isWellFormed (d :: s)

attribute [grind =] isWellFormed

/-- The code units of a code point. -/
def codeUnits (c : Char) : JsString :=
  if c.toNat < 0x10000 then [UInt16.ofNat c.toNat]
  else [UInt16.ofNat (0xD800 + (c.toNat - 0x10000) / 0x400), UInt16.ofNat (0xDC00 + (c.toNat - 0x10000) % 0x400)]

private theorem toNat_ofNat_of_valid {n : Nat} (h : n.isValidChar) : (Char.ofNat n).toNat = n := by
  rw [Char.ofNat, dif_pos h]
  exact UInt32.toNat_ofNatLT ..

private theorem codeUnits_scalarOf {c : UInt16} (h : isSurrogate c = false) : codeUnits (scalarOf c) = [c] := by
  have hc := c.toNat_lt_size
  simp only [isSurrogate, isHighSurrogate, isLowSurrogate, Bool.or_eq_false_iff, Bool.and_eq_false_iff,
    decide_eq_false_iff_not] at h
  have hvalid : c.toNat.isValidChar := by
    simp only [Nat.isValidChar, UInt16.size] at hc ⊢
    omega
  have hnat : (scalarOf c).toNat = c.toNat := by
    rw [scalarOf, if_neg (by simp [isSurrogate, isHighSurrogate, isLowSurrogate]; omega),
      toNat_ofNat_of_valid hvalid]
  rw [codeUnits, hnat, if_pos (by simpa [UInt16.size] using hc), UInt16.ofNat_toNat]

private theorem codeUnits_pairOf {c d : UInt16} (hc : isHighSurrogate c = true) (hd : isLowSurrogate d = true) :
    codeUnits (pairOf c d) = [c, d] := by
  simp only [isHighSurrogate, isLowSurrogate, Bool.and_eq_true, decide_eq_true_eq] at hc hd
  have hnat : (pairOf c d).toNat = 0x10000 + (c.toNat - 0xD800) * 0x400 + (d.toNat - 0xDC00) := by
    refine toNat_ofNat_of_valid ?_
    simp only [Nat.isValidChar]
    omega
  have hhigh : 0xD800 + ((pairOf c d).toNat - 0x10000) / 0x400 = c.toNat := by omega
  have hlow : 0xDC00 + ((pairOf c d).toNat - 0x10000) % 0x400 = d.toNat := by omega
  rw [codeUnits, if_neg (by omega), hhigh, hlow, UInt16.ofNat_toNat, UInt16.ofNat_toNat]

/-- A well-formed string is read back from its code points. -/
theorem flatMap_codeUnits_codePoints {s : JsString} (h : isWellFormed s = true) :
    (codePoints s).flatMap codeUnits = s := by
  fun_induction isWellFormed s with
  | case1 => rfl
  | case2 c =>
    rw [codePoints, List.flatMap_singleton]
    exact codeUnits_scalarOf (by simpa using h)
  | case3 c d s hpair ih =>
    rw [codePoints, if_pos hpair, List.flatMap_cons, ih h]
    rw [Bool.and_eq_true] at hpair
    rw [codeUnits_pairOf hpair.1 hpair.2]
    rfl
  | case4 c d s hpair ih =>
    rw [Bool.and_eq_true] at h
    rw [codePoints, if_neg hpair, List.flatMap_cons, ih h.2, codeUnits_scalarOf (by simpa using h.1)]
    rfl

private theorem utf8Encode_injective {l l' : List Char}
    (h : l.flatMap String.utf8EncodeChar = l'.flatMap String.utf8EncodeChar) : l = l' := by
  have hbytes : l.utf8Encode = l'.utf8Encode := by rw [List.utf8Encode, h, List.utf8Encode]
  have hsome := congrArg ByteArray.utf8Decode? hbytes
  rw [List.utf8Decode?_utf8Encode, List.utf8Decode?_utf8Encode] at hsome
  simpa using hsome

/-- Well-formed strings are told apart by their UTF-8 encodings. -/
theorem utf8_injective {s t : JsString} (hs : isWellFormed s = true) (ht : isWellFormed t = true)
    (h : utf8 s = utf8 t) : s = t := by
  have hpoints := utf8Encode_injective h
  rw [← flatMap_codeUnits_codePoints hs, hpoints, flatMap_codeUnits_codePoints ht]

theorem isWellFormed_append {s t : JsString} (hs : isWellFormed s = true) (ht : isWellFormed t = true) :
    isWellFormed (s ++ t) = true := by
  fun_induction isWellFormed s with
  | case1 => exact ht
  | case2 c =>
    have hc : isHighSurrogate c = false ∧ isLowSurrogate c = false := by simpa [isSurrogate] using hs
    cases t with
    | nil => exact hs
    | cons d t => simpa [isWellFormed, hc, isSurrogate] using ht
  | case3 c d s hpair ih =>
    rw [List.cons_append, List.cons_append, isWellFormed, if_pos hpair]
    exact ih hs
  | case4 c d s hpair ih =>
    rw [Bool.and_eq_true] at hs
    rw [List.cons_append, List.cons_append, isWellFormed, if_neg hpair, Bool.and_eq_true]
    exact ⟨hs.1, ih hs.2⟩

theorem isWellFormed_of_lt {s : JsString} (h : ∀ c ∈ s, c.toNat < 0xD800) : isWellFormed s = true := by
  induction s with
  | nil => rfl
  | cons c s ih =>
    have hc : isWellFormed [c] = true := by
      have := h c (List.mem_cons_self ..)
      simp only [isWellFormed, isSurrogate, isHighSurrogate, isLowSurrogate]
      simp
      omega
    exact isWellFormed_append hc (ih fun d hd => h d (List.mem_cons_of_mem _ hd))

private theorem two_le_length_pairOf {c d : UInt16} (hc : isHighSurrogate c = true) (hd : isLowSurrogate d = true) :
    2 ≤ (String.utf8EncodeChar (pairOf c d)).length := by
  have hunits := congrArg List.length (codeUnits_pairOf hc hd)
  rw [String.length_utf8EncodeChar]
  by_contra hlt
  have hsize : (pairOf c d).utf8Size = 1 := by
    have := (pairOf c d).utf8Size_pos
    omega
  have hval : (pairOf c d).toNat < 0x10000 := by
    have hle : (pairOf c d).val.toNat ≤ 127 := UInt32.le_iff_toNat_le.mp (Char.utf8Size_eq_one_iff.mp hsize)
    exact Nat.lt_of_le_of_lt hle (by decide)
  rw [codeUnits, if_pos hval] at hunits
  simp at hunits

/-- Every code unit takes at least one byte. -/
theorem length_le_length_utf8 (s : JsString) : s.length ≤ (utf8 s).length := by
  have hone : ∀ c : Char, 1 ≤ (String.utf8EncodeChar c).length := fun c => by
    rw [String.length_utf8EncodeChar]
    exact c.utf8Size_pos
  fun_induction codePoints s with
  | case1 => exact Nat.zero_le _
  | case2 c => simpa [utf8, codePoints] using hone (scalarOf c)
  | case3 c d s hpair ih =>
    have hlen := two_le_length_pairOf (Bool.and_eq_true_iff.mp hpair).1 (Bool.and_eq_true_iff.mp hpair).2
    rw [utf8, codePoints, if_pos hpair, List.flatMap_cons, List.length_append]
    simp only [utf8] at ih
    simp only [List.length_cons]
    omega
  | case4 c d s hpair ih =>
    have hlen := hone (scalarOf c)
    rw [utf8, codePoints, if_neg hpair, List.flatMap_cons, List.length_append]
    simp only [utf8, List.length_cons] at ih ⊢
    omega

/-- A NUL is encoded as a zero byte. -/
theorem zero_mem_utf8 {s : JsString} (h : 0 ∈ s) : 0 ∈ utf8 s := by
  have hzero : ∀ c : UInt16, 0 = c → (0 : UInt8) ∈ String.utf8EncodeChar (scalarOf c) := by
    rintro c rfl
    decide
  rw [utf8, List.mem_flatMap]
  fun_induction codePoints s with
  | case1 => simp at h
  | case2 c => exact ⟨scalarOf c, by simp, hzero c (by simpa using h)⟩
  | case3 c d s hpair ih =>
    have hne : ¬ (0 = c) ∧ ¬ (0 = d) := by
      constructor
      · rintro rfl
        simp [isHighSurrogate] at hpair
      · rintro rfl
        simp [isLowSurrogate] at hpair
    obtain ⟨x, hx, hmem⟩ := ih (by simpa [hne] using h)
    exact ⟨x, List.mem_cons_of_mem _ hx, hmem⟩
  | case4 c d s hpair ih =>
    by_cases hc : 0 = c
    · exact ⟨scalarOf c, List.mem_cons_self .., hzero c hc⟩
    · obtain ⟨x, hx, hmem⟩ := ih ((List.mem_cons.mp h).resolve_left hc)
      exact ⟨x, List.mem_cons_of_mem _ hx, hmem⟩

/-- A unit that stands alone, as `toWellFormed` writes it. -/
def loneUnit (c : UInt16) : UInt16 := if isSurrogate c then 0xFFFD else c

/-- `s.toWellFormed()`: each lone surrogate is replaced by U+FFFD. -/
def toWellFormed : JsString → JsString
  | [] => []
  | [c] => [loneUnit c]
  | c :: d :: s =>
    if isHighSurrogate c && isLowSurrogate d then c :: d :: toWellFormed s
    else loneUnit c :: toWellFormed (d :: s)

attribute [grind =] toWellFormed

private theorem isSurrogate_loneUnit (c : UInt16) : isSurrogate (loneUnit c) = false := by
  unfold loneUnit
  split_ifs with h
  · decide
  · exact Bool.not_eq_true _ ▸ h

private theorem isHighSurrogate_loneUnit (c : UInt16) : isHighSurrogate (loneUnit c) = false :=
  (Bool.or_eq_false_iff.mp (isSurrogate_loneUnit c)).1

private theorem scalarOf_loneUnit (c : UInt16) : scalarOf (loneUnit c) = scalarOf c := by
  unfold loneUnit
  split_ifs with h
  · rw [scalarOf, scalarOf, if_pos h]
    decide
  · rfl

theorem isWellFormed_cons {c : UInt16} (h : isSurrogate c = false) (s : JsString) : isWellFormed (c :: s) = isWellFormed s := by
  have hhigh := (Bool.or_eq_false_iff.mp h).1
  cases s with
  | nil => simp [isWellFormed, h]
  | cons d s => rw [isWellFormed, hhigh, Bool.false_and, if_neg (by decide), h, Bool.not_false, Bool.true_and]

theorem isWellFormed_toWellFormed (s : JsString) : isWellFormed (toWellFormed s) = true := by
  fun_induction toWellFormed s with
  | case1 => rfl
  | case2 c => rw [isWellFormed_cons (isSurrogate_loneUnit c), isWellFormed]
  | case3 c d s hpair ih => rw [isWellFormed, if_pos hpair, ih]
  | case4 c d s hpair ih => rw [isWellFormed_cons (isSurrogate_loneUnit c), ih]

theorem toWellFormed_eq_self {s : JsString} (h : isWellFormed s = true) : toWellFormed s = s := by
  fun_induction toWellFormed s with
  | case1 => rfl
  | case2 c =>
    rw [isWellFormed, Bool.not_eq_true'] at h
    rw [loneUnit, h, if_neg (by decide)]
  | case3 c d s hpair ih =>
    rw [isWellFormed, if_pos hpair] at h
    rw [ih h]
  | case4 c d s hpair ih =>
    rw [isWellFormed, if_neg hpair, Bool.and_eq_true, Bool.not_eq_true'] at h
    rw [ih h.2, loneUnit, h.1, if_neg (by decide)]

theorem codePoints_cons {c : UInt16} (h : isHighSurrogate c = false) (s : JsString) :
    codePoints (c :: s) = scalarOf c :: codePoints s := by
  cases s with
  | nil => rfl
  | cons d s => rw [codePoints, h, Bool.false_and, if_neg (by decide)]

theorem codePoints_toWellFormed (s : JsString) : codePoints (toWellFormed s) = codePoints s := by
  fun_induction toWellFormed s with
  | case1 => rfl
  | case2 c => rw [codePoints, codePoints, scalarOf_loneUnit]
  | case3 c d s hpair ih => rw [codePoints, codePoints, if_pos hpair, if_pos hpair, ih]
  | case4 c d s hpair ih =>
    rw [codePoints_cons (isHighSurrogate_loneUnit c), ih, scalarOf_loneUnit]
    conv_rhs => rw [codePoints, if_neg hpair]

/-- The encoding of a string is that of its well-formed reading, and tells it apart from all others. -/
theorem utf8_eq_iff {s t : JsString} : utf8 s = utf8 t ↔ toWellFormed s = toWellFormed t := by
  have hread : ∀ u, utf8 (toWellFormed u) = utf8 u := fun u => by rw [utf8, codePoints_toWellFormed, utf8]
  constructor
  · intro h
    rw [← hread s, ← hread t] at h
    exact utf8_injective (isWellFormed_toWellFormed s) (isWellFormed_toWellFormed t) h
  · intro h
    rw [← hread s, h, hread]

/-- A text is read apart from what follows it when that begins with no low surrogate. -/
theorem toWellFormed_append {c : UInt16} (h : isLowSurrogate c = false) (s t : JsString) :
    toWellFormed (s ++ c :: t) = toWellFormed s ++ toWellFormed (c :: t) := by
  fun_induction toWellFormed s with
  | case1 => rfl
  | case2 d => rw [List.singleton_append, toWellFormed, h, Bool.and_false, if_neg (by decide), List.singleton_append]
  | case3 d e s hpair ih =>
    rw [List.cons_append, List.cons_append, toWellFormed, if_pos hpair, ih, List.cons_append, List.cons_append]
  | case4 d e s hpair ih =>
    rw [List.cons_append] at ih
    rw [List.cons_append, List.cons_append, toWellFormed, if_neg hpair, ih, List.cons_append]

theorem toWellFormed_cons {c : UInt16} (h : isSurrogate c = false) (s : JsString) :
    toWellFormed (c :: s) = c :: toWellFormed s := by
  have hlone : loneUnit c = c := by rw [loneUnit, h, if_neg (by decide)]
  cases s with
  | nil => rw [toWellFormed, toWellFormed, hlone]
  | cons d s =>
    rw [toWellFormed, (Bool.or_eq_false_iff.mp h).1, Bool.false_and, if_neg (by decide), hlone]

/-- The only unit that `toWellFormed` brings in is U+FFFD. -/
theorem mem_of_mem_toWellFormed {c : UInt16} {s : JsString} (h : c ∈ toWellFormed s) : c ∈ s ∨ c = 0xFFFD := by
  have hlone : ∀ d, c = loneUnit d → c = d ∨ c = 0xFFFD := by
    intro d hd
    unfold loneUnit at hd
    split_ifs at hd
    · exact .inr hd
    · exact .inl hd
  fun_induction toWellFormed s with
  | case1 => exact .inl h
  | case2 d => exact (hlone d (List.mem_singleton.mp h)).imp_left List.mem_singleton.mpr
  | case3 d e s hpair ih =>
    simp only [List.mem_cons] at h ⊢
    rcases h with h | h | h
    · exact .inl (.inl h)
    · exact .inl (.inr (.inl h))
    · exact (ih h).imp_left fun hm => .inr (.inr hm)
  | case4 d e s hpair ih =>
    rcases List.mem_cons.mp h with h | h
    · exact (hlone d h).imp_left fun hd => List.mem_cons.mpr (.inl hd)
    · exact (ih h).imp_left (List.mem_cons_of_mem _)

theorem length_toWellFormed (s : JsString) : (toWellFormed s).length = s.length := by
  fun_induction toWellFormed s with
  | case1 => rfl
  | case2 => rfl
  | case3 c d s hpair ih => rw [List.length_cons, List.length_cons, ih, List.length_cons, List.length_cons]
  | case4 c d s hpair ih =>
    rw [List.length_cons, ih]
    rfl

/-- The lone surrogates of a string with their places, counted from `i`. -/
def loneSurrogates : Nat → JsString → List (Nat × UInt16)
  | _, [] => []
  | i, [c] => if isSurrogate c then [(i, c)] else []
  | i, c :: d :: s =>
    if isHighSurrogate c && isLowSurrogate d then loneSurrogates (i + 2) s
    else (if isSurrogate c then [(i, c)] else []) ++ loneSurrogates (i + 1) (d :: s)

attribute [grind =] loneSurrogates

theorem loneSurrogates_eq_nil {s : JsString} (h : isWellFormed s = true) (i : Nat) : loneSurrogates i s = [] := by
  fun_induction loneSurrogates i s with
  | case1 => rfl
  | case2 i c hc =>
    rw [isWellFormed, hc] at h
    exact absurd h (by decide)
  | case3 => rfl
  | case4 i c d s hpair ih =>
    rw [isWellFormed, if_pos hpair] at h
    exact ih h
  | case5 i c d s hpair ih =>
    rw [isWellFormed, if_neg hpair, Bool.and_eq_true, Bool.not_eq_true'] at h
    rw [h.1, if_neg (by decide), ih h.2, List.append_nil]

private theorem le_of_mem_loneSurrogates {i : Nat} {s : JsString} {x : Nat × UInt16} (h : x ∈ loneSurrogates i s) : i ≤ x.1 := by
  fun_induction loneSurrogates i s with
  | case1 => exact absurd h List.not_mem_nil
  | case2 i c hc => rw [List.mem_singleton.mp h]
  | case3 => exact absurd h List.not_mem_nil
  | case4 i c d s hpair ih =>
    have := ih h
    omega
  | case5 i c d s hpair ih =>
    rcases List.mem_append.mp h with h | h
    · split_ifs at h
      · rw [List.mem_singleton.mp h]
      · exact absurd h List.not_mem_nil
    · have := ih h
      omega

/-- A first unit that begins no pair, and how it is read. -/
private theorem lone_cons {c : UInt16} {s : JsString} (h : ∀ d t, s = d :: t → ¬ (isHighSurrogate c && isLowSurrogate d) = true)
    (i : Nat) : toWellFormed (c :: s) = loneUnit c :: toWellFormed s ∧
      loneSurrogates i (c :: s) = (if isSurrogate c then [(i, c)] else []) ++ loneSurrogates (i + 1) s := by
  cases s with
  | nil => exact ⟨rfl, by rw [loneSurrogates, loneSurrogates, List.append_nil]⟩
  | cons d s =>
    have hpair := h d s rfl
    exact ⟨by rw [toWellFormed, if_neg hpair], by rw [loneSurrogates, if_neg hpair]⟩

/-- Lone units that are read alike are the same where they are surrogates alike. -/
private theorem lone_inj {c d : UInt16} {i : Nat} {s t : JsString} (hunit : loneUnit c = loneUnit d)
    (hlone : (if isSurrogate c then [(i, c)] else []) ++ loneSurrogates (i + 1) s =
      (if isSurrogate d then [(i, d)] else []) ++ loneSurrogates (i + 1) t) :
    c = d ∧ loneSurrogates (i + 1) s = loneSurrogates (i + 1) t := by
  have hlater : ∀ {c : UInt16} {s t : JsString}, (i, c) :: loneSurrogates (i + 1) s ≠ loneSurrogates (i + 1) t := by
    intro c s t h
    have hle := le_of_mem_loneSurrogates (h ▸ List.mem_cons_self ..)
    dsimp only at hle
    omega
  unfold loneUnit at hunit
  split_ifs at hlone hunit with hc hd hd
  · obtain ⟨hhead, htail⟩ := List.cons.inj hlone
    exact ⟨(Prod.mk.inj hhead).2, htail⟩
  · exact absurd hlone hlater
  · exact absurd hlone.symm hlater
  · exact ⟨hunit, hlone⟩

/-- How a string begins: with a pair, or with a unit that is read alone. -/
private theorem head_cases (s : JsString) :
    s = [] ∨ (∃ c d t, s = c :: d :: t ∧ (isHighSurrogate c && isLowSurrogate d) = true) ∨
      ∃ c t, s = c :: t ∧ ∀ d u, t = d :: u → ¬ (isHighSurrogate c && isLowSurrogate d) = true := by
  cases s with
  | nil => exact .inl rfl
  | cons c s =>
    cases s with
    | nil => exact .inr (.inr ⟨c, [], rfl, fun d u h => absurd h.symm (List.cons_ne_nil d u)⟩)
    | cons d s =>
      by_cases hpair : (isHighSurrogate c && isLowSurrogate d) = true
      · exact .inr (.inl ⟨c, d, s, rfl, hpair⟩)
      · refine .inr (.inr ⟨c, d :: s, rfl, fun e u h => ?_⟩)
        rwa [← (List.cons.inj h).1]

/-- Strings with one encoding and the same lone surrogates are equal. -/
theorem eq_of_toWellFormed_eq {i : Nat} {s t : JsString} (h : toWellFormed s = toWellFormed t)
    (hlone : loneSurrogates i s = loneSurrogates i t) : s = t := by
  -- a pair is not read as a lone unit
  have hpair_ne : ∀ {c d e : UInt16} {s t : JsString}, (isHighSurrogate c && isLowSurrogate d) = true → c :: s ≠ loneUnit e :: t := by
    intro c d e s t hpair heq
    have hhigh := isHighSurrogate_loneUnit e
    rw [← (List.cons.inj heq).1, (Bool.and_eq_true_iff.mp hpair).1] at hhigh
    exact absurd hhigh (by decide)
  have hlength := congrArg List.length h
  rw [length_toWellFormed, length_toWellFormed] at hlength
  induction hlen : s.length using Nat.strong_induction_on generalizing i s t with
  | _ n ih =>
    subst hlen
    obtain rfl | ⟨c, d, s, rfl, hpair⟩ | ⟨c, s, rfl, halone⟩ := head_cases s
    · exact (List.length_eq_zero_iff.mp hlength.symm).symm
    · obtain rfl | ⟨c', d', t, rfl, hpair'⟩ | ⟨c', t, rfl, halone'⟩ := head_cases t
      · exact absurd hlength (by simp)
      · rw [toWellFormed, toWellFormed, if_pos hpair, if_pos hpair'] at h
        rw [loneSurrogates, loneSurrogates, if_pos hpair, if_pos hpair'] at hlone
        simp only [List.cons.injEq] at h
        obtain ⟨rfl, rfl, hrest⟩ := h
        rw [ih s.length (by simp only [List.length_cons]; omega) hrest hlone (by simpa using hlength) rfl]
      · rw [toWellFormed, if_pos hpair, (lone_cons halone' i).1] at h
        exact absurd h (hpair_ne hpair)
    · obtain rfl | ⟨c', d', t, rfl, hpair'⟩ | ⟨c', t, rfl, halone'⟩ := head_cases t
      · exact absurd hlength (by simp)
      · rw [toWellFormed, if_pos hpair', (lone_cons halone i).1] at h
        exact absurd h.symm (hpair_ne hpair')
      · rw [(lone_cons halone i).1, (lone_cons halone' i).1] at h
        rw [(lone_cons halone i).2, (lone_cons halone' i).2] at hlone
        obtain ⟨hunit, hrest⟩ := List.cons.inj h
        obtain ⟨rfl, hlater⟩ := lone_inj hunit hlone
        rw [ih s.length (by simp) hrest hlater (by simpa using hlength) rfl]

end sow.js
