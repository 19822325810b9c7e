import Sow.Domain.RedactString

open sow.js

namespace sow.domain

section search

variable {net : Option UInt16 → JsString → Bool}

/-- The last unit of a text, or what stands before it. -/
def lastUnit (before : Option UInt16) (a : JsString) : Option UInt16 := a.getLast?.or before

theorem lastUnit_cons (before : Option UInt16) (c : UInt16) (a : JsString) : lastUnit before (c :: a) = lastUnit (some c) a := by
  unfold lastUnit
  rw [List.getLast?_cons]
  cases a.getLast? <;> rfl

theorem lastUnit_append (before : Option UInt16) (a b : JsString) : lastUnit before (a ++ b) = lastUnit (lastUnit before a) b := by
  unfold lastUnit
  rw [List.getLast?_append]
  cases b.getLast? <;> rfl

/-- A search succeeds where the matcher does at some place. -/
theorem searchFrom_iff {before : Option UInt16} {s : JsString} :
    searchFrom net before s = true ↔ ∃ a b, s = a ++ b ∧ net (lastUnit before a) b = true := by
  induction s generalizing before with
  | nil =>
    constructor
    · intro h
      exact ⟨[], [], rfl, h⟩
    · rintro ⟨a, b, hab, h⟩
      obtain ⟨rfl, rfl⟩ := List.append_eq_nil_iff.mp hab.symm
      exact h
  | cons c s ih =>
    rw [searchFrom, Bool.or_eq_true, ih]
    constructor
    · rintro (h | ⟨a, b, rfl, h⟩)
      · exact ⟨[], c :: s, rfl, h⟩
      · exact ⟨c :: a, b, rfl, by rwa [lastUnit_cons]⟩
    · rintro ⟨a, b, hab, h⟩
      cases a with
      | nil =>
        left
        rw [hab]
        exact h
      | cons d a =>
        obtain ⟨rfl, rfl⟩ := List.cons.inj hab
        rw [lastUnit_cons] at h
        exact .inr ⟨a, b, rfl, h⟩

theorem search_iff {s : JsString} : search net s = true ↔ ∃ a b, s = a ++ b ∧ net (lastUnit none a) b = true := searchFrom_iff

/-- A unit that no match crosses cuts a search in two. -/
theorem search_wall {c : UInt16} (hcut : ∀ before a z, net before (a ++ c :: z) = net before a)
    (hnil : ∀ before, net before [] = false) (hbehind : ∀ z, net (some c) z = net none z) (a s : JsString) :
    search net (a ++ c :: s) = (search net a || search net s) := by
  have hfrom : ∀ before, searchFrom net before (a ++ c :: s) = (searchFrom net before a || searchFrom net (some c) s) := by
    induction a with
    | nil =>
      intro before
      rw [List.nil_append, searchFrom, searchFrom, hnil before, ← hnil before, ← hcut before [] s, List.nil_append]
    | cons d a ih =>
      intro before
      have hfirst := hcut before (d :: a) s
      rw [List.cons_append] at hfirst ⊢
      rw [searchFrom, hfirst, ih, searchFrom, Bool.or_assoc]
  have hstart : searchFrom net (some c) s = searchFrom net none s := by
    cases s with
    | nil => exact hbehind []
    | cons d s => rw [searchFrom, searchFrom, hbehind]
  rw [search, hfrom, hstart]
  rfl

end search

/-- The second text is the first with some copies of `m` turned into the unit `c`. -/
inductive Blanked (m : JsString) (c : UInt16) : JsString → JsString → Prop where
  | nil : Blanked m c [] []
  | keep (u : UInt16) {s t : JsString} (h : Blanked m c s t) : Blanked m c (u :: s) (u :: t)
  | blank {s t : JsString} (h : Blanked m c s t) : Blanked m c (m ++ s) (c :: t)

namespace Blanked

variable {m s t x y : JsString} {c : UInt16}

private theorem replaceAllFrom (hm : m ≠ []) (skip : Nat) (s : JsString) :
    Blanked m c (s.drop skip) (sow.js.replaceAllFrom m [c] skip s) := by
  induction s generalizing skip with
  | nil =>
    rw [List.drop_nil, sow.js.replaceAllFrom]
    exact .nil
  | cons u s ih =>
    cases skip with
    | succ skip =>
      rw [sow.js.replaceAllFrom, List.drop_succ_cons]
      exact ih skip
    | zero =>
      rw [sow.js.replaceAllFrom, List.drop_zero]
      split
      · next hstart =>
        obtain ⟨rest, hrest⟩ := List.isPrefixOf_iff_prefix.mp hstart
        obtain ⟨d, m', rfl⟩ := List.exists_cons_of_ne_nil hm
        have htail : s.drop ((d :: m').length - 1) = rest := by
          have hs : m' ++ rest = s := (List.cons.inj hrest).2
          rw [← hs, List.length_cons, Nat.add_sub_cancel, List.drop_left]
        have hnext := ih ((d :: m').length - 1)
        rw [htail] at hnext
        rw [← hrest]
        exact .blank hnext
      · exact .keep u (ih 0)

theorem replaceAll (hm : m ≠ []) (c : UInt16) (s : JsString) : Blanked m c s (sow.js.replaceAll s m [c]) := replaceAllFrom hm 0 s

/-- What a part of the blanked text was. -/
theorem split (h : Blanked m c s (x ++ y)) : ∃ a b, s = a ++ b ∧ Blanked m c a x ∧ Blanked m c b y := by
  generalize hxy : x ++ y = t at h
  induction h generalizing x with
  | nil =>
    obtain ⟨rfl, rfl⟩ := List.append_eq_nil_iff.mp hxy
    exact ⟨[], [], rfl, .nil, .nil⟩
  | @keep u s t h ih =>
    cases x with
    | nil =>
      rw [List.nil_append] at hxy
      exact ⟨[], u :: s, rfl, .nil, hxy ▸ .keep u h⟩
    | cons d x =>
      obtain ⟨rfl, htail⟩ := List.cons.inj hxy
      obtain ⟨a, b, rfl, ha, hb⟩ := ih htail
      exact ⟨d :: a, b, rfl, .keep d ha, hb⟩
  | @blank s t h ih =>
    cases x with
    | nil =>
      rw [List.nil_append] at hxy
      exact ⟨[], m ++ s, rfl, .nil, hxy ▸ .blank h⟩
    | cons d x =>
      obtain ⟨rfl, htail⟩ := List.cons.inj hxy
      obtain ⟨a, b, rfl, ha, hb⟩ := ih htail
      exact ⟨m ++ a, b, (List.append_assoc ..).symm, .blank ha, hb⟩

theorem eq_of_notMem (h : Blanked m c s t) (hc : c ∉ t) : s = t := by
  induction h with
  | nil => rfl
  | keep u h ih => rw [ih fun hmem => hc (List.mem_cons_of_mem _ hmem)]
  | blank h ih => exact absurd (List.mem_cons_self ..) hc

theorem forall_units (h : Blanked m c s t) {q : UInt16 → Bool} (hm : ∀ u ∈ m, q u = true) (ht : ∀ u ∈ t, q u = true) :
    ∀ u ∈ s, q u = true := by
  induction h with
  | nil => exact ht
  | keep u h ih =>
    rw [List.forall_mem_cons] at ht ⊢
    exact ⟨ht.1, ih ht.2⟩
  | blank h ih =>
    rw [List.forall_mem_append]
    exact ⟨hm, ih (List.forall_mem_cons.mp ht).2⟩

/-- Its first unit is the first one of the blanked text, or of the marker. -/
theorem head_cases (h : Blanked m c s t) (hm : m ≠ []) (ht : t ≠ []) : s.head? = t.head? ∨ s.head? = m.head? := by
  cases h with
  | nil => exact absurd rfl ht
  | keep u h => exact .inl rfl
  | blank h => exact .inr (List.head?_append_of_ne_nil _ hm)

theorem ne_nil (h : Blanked m c s t) (hm : m ≠ []) (ht : t ≠ []) : s ≠ [] := by
  cases h with
  | nil => exact ht
  | keep u h => exact List.cons_ne_nil _ _
  | blank h => exact List.append_ne_nil_of_left_ne_nil hm _

/-- A word begins behind the blanked text where it does behind the text. -/
theorem atBoundary_eq (h : Blanked m c s t) (hc : isWord c = false) {d : UInt16} (hm : m.getLast? = some d) (hd : isWord d = false)
    {before before' : Option UInt16} (hbefore : atBoundary before = atBoundary before') :
    atBoundary (lastUnit before s) = atBoundary (lastUnit before' t) := by
  induction h generalizing before before' with
  | nil => exact hbefore
  | keep u h ih =>
    rw [lastUnit_cons, lastUnit_cons]
    exact ih rfl
  | blank h ih =>
    rw [lastUnit_append, lastUnit_cons]
    apply ih
    unfold lastUnit atBoundary
    rw [hm]
    simp [hc, hd]

end Blanked

section nets

variable {m s t : JsString} {c : UInt16}

theorem isTokenUnit_foldAscii (c : UInt16) : isTokenUnit (foldAscii c) = isTokenUnit c := by
  unfold foldAscii
  split
  · next hupper =>
    have hlower : isLower (c + 32) = true := by
      unfold isUpper at hupper
      unfold isLower
      simp only [Bool.and_eq_true, decide_eq_true_eq, UInt16.toNat_add] at hupper ⊢
      change 97 ≤ (c.toNat + 32) % 2 ^ 16 ∧ (c.toNat + 32) % 2 ^ 16 ≤ 122
      omega
    rw [isTokenUnit_of_isAlnum (by simp [isAlnum, hlower]), isTokenUnit_of_isAlnum (by simp [isAlnum, hupper])]
  · rfl

theorem takeWhile_foldAscii (y : JsString) : (y.map foldAscii).takeWhile isTokenUnit = (y.takeWhile isTokenUnit).map foldAscii := by
  induction y with
  | nil => rfl
  | cons c y ih =>
    rw [List.map_cons]
    by_cases hc : isTokenUnit c = true
    · rw [List.takeWhile_cons_of_pos (by rwa [isTokenUnit_foldAscii]), List.takeWhile_cons_of_pos hc, ih, List.map_cons]
    · rw [List.takeWhile_cons_of_neg (by rwa [isTokenUnit_foldAscii]), List.takeWhile_cons_of_neg hc, List.map_nil]

private theorem isTokenUnit_of_folded {c : UInt16} (h : (isDigit c || isLower c) = true) : isTokenUnit c = true := by
  apply isTokenUnit_of_isAlnum
  rw [Bool.or_eq_true] at h
  rcases h with h | h <;> simp [isAlnum, h]

private theorem within_credentialShapes : ∀ shape ∈ SK_SHAPE :: CREDENTIAL_SHAPES, ∀ piece ∈ shape, Piece.Within isTokenUnit piece := by
  intro shape hshape piece hpiece
  simp only [SK_SHAPE, CREDENTIAL_SHAPES, List.mem_cons, List.not_mem_nil, or_false] at hshape
  rcases hshape with rfl | rfl | rfl | rfl | rfl | rfl | rfl | rfl <;>
    simp only [List.mem_cons, List.not_mem_nil, or_false] at hpiece
  · rcases hpiece with rfl | rfl
    · exact within_lit (by decide)
    · exact fun c hc => isTokenUnit_of_folded hc
  · rw [hpiece]
    exact within_lit (by decide)
  · rw [hpiece]
    exact within_lit (by decide)
  · rcases hpiece with rfl | rfl | rfl
    · exact within_lit (by decide)
    · exact fun c hc => isTokenUnit_of_contains (by decide) hc
    · exact within_lit (by decide)
  · rcases hpiece with rfl | rfl | rfl
    · exact within_lit (by decide)
    · exact fun c hc => isTokenUnit_of_contains (by decide) hc
    · exact within_lit (by decide)
  · rcases hpiece with rfl | rfl
    · exact within_lit (by decide)
    · exact fun c hc => isTokenUnit_of_folded hc
  · rw [hpiece]
    exact within_lit (by decide)
  · rcases hpiece with rfl | rfl | rfl
    · exact within_lit (by decide)
    · intro c hc
      simp only [Bool.or_eq_true] at hc
      rcases hc with (hc | hc) | hc
      · exact isTokenUnit_of_folded (by rwa [Bool.or_eq_true])
      · simp [isTokenUnit, isKeyUnit, isWord, hc]
      · simp [isTokenUnit, isKeyUnit, hc]
    · exact within_lit (by decide)

private theorem possessive_credentialShapes : ∀ shape ∈ SK_SHAPE :: CREDENTIAL_SHAPES, Piece.possessive shape = true := by decide

private theorem exec_shape_extend {shape : List Piece} (hshape : shape ∈ SK_SHAPE :: CREDENTIAL_SHAPES) {y : JsString}
    (h : (Piece.exec shape (y.map foldAscii)).isSome = true) (z : JsString) :
    (Piece.exec shape ((y.takeWhile isTokenUnit ++ z).map foldAscii)).isSome = true := by
  rw [← Piece.exec_takeWhile (within_credentialShapes shape hshape), takeWhile_foldAscii] at h
  rw [List.map_append]
  exact Piece.exec_append (possessive_credentialShapes shape hshape) h _

private theorem exec_shape_cut {shape : List Piece} (hshape : shape ∈ SK_SHAPE :: CREDENTIAL_SHAPES) {c : UInt16}
    (hc : isTokenUnit c = false) (a z : JsString) :
    Piece.exec shape ((a ++ c :: z).map foldAscii) = Piece.exec shape (a.map foldAscii) := by
  have hstop : (a ++ c :: z).takeWhile isTokenUnit = a.takeWhile isTokenUnit := by
    rw [List.takeWhile_append]
    split
    · next hall => rw [List.takeWhile_cons_of_neg (by simp [hc]), List.append_nil, (List.takeWhile_prefix _).eq_of_length hall]
    · rfl
  rw [← Piece.exec_takeWhile (within_credentialShapes shape hshape), takeWhile_foldAscii, hstop, ← takeWhile_foldAscii,
    Piece.exec_takeWhile (within_credentialShapes shape hshape)]

/-- A unit of no token cuts the search for credential shapes in two. -/
theorem credentialPrefix_wall {c : UInt16} (hc : isTokenUnit c = false) (a s : JsString) :
    CREDENTIAL_PREFIX (a ++ c :: s) = (CREDENTIAL_PREFIX a || CREDENTIAL_PREFIX s) := by
  have hword : isWord c = false := by
    unfold isTokenUnit isKeyUnit at hc
    simp only [Bool.or_eq_false_iff] at hc
    exact hc.1.1
  apply search_wall
  · intro before a z
    have hany : (CREDENTIAL_SHAPES.any fun shape => (Piece.exec shape ((a ++ c :: z).map foldAscii)).isSome) =
        CREDENTIAL_SHAPES.any fun shape => (Piece.exec shape (a.map foldAscii)).isSome := by
      rw [Bool.eq_iff_iff, List.any_eq_true, List.any_eq_true]
      refine exists_congr fun shape => and_congr_right fun hshape => ?_
      rw [exec_shape_cut (List.mem_cons_of_mem _ hshape) hc]
    simp only [credentialPrefixAt, exec_shape_cut (List.mem_cons_self ..) hc, hany]
  · intro before
    cases h : atBoundary before <;> (rw [credentialPrefixAt, h]; rfl)
  · intro z
    have hbound : atBoundary (some c) = atBoundary none := by simp [atBoundary, hword]
    rw [credentialPrefixAt, hbound]
    rfl

/-- A unit that is in no word of `SENSITIVE_WORDS`. -/
theorem sensitiveKeyword_wall {c : UInt16} (hword : isWord (foldAscii c) = false ∧ isWord c = false)
    (hc : ∀ word ∈ SENSITIVE_WORDS, foldAscii c ∉ word) (a s : JsString) :
    SENSITIVE_KEYWORD (a ++ c :: s) = (SENSITIVE_KEYWORD a || SENSITIVE_KEYWORD s) := by
  apply search_wall
  · intro before a z
    unfold sensitiveKeywordAt
    congr 1
    rw [Bool.eq_iff_iff, List.any_eq_true, List.any_eq_true]
    refine exists_congr fun word => and_congr_right fun hmem => ?_
    rw [List.map_append, List.map_cons, Piece.stripLit_append_stop (hc word hmem)]
    cases stripLit word (a.map foldAscii) with
    | none => rfl
    | some rest =>
      cases rest with
      | nil => simp [hword.1]
      | cons d rest => rfl
  · intro before
    cases h : atBoundary before <;> (rw [sensitiveKeywordAt, h]; rfl)
  · intro z
    have hbound : atBoundary (some c) = atBoundary none := by simp [atBoundary, hword.2]
    rw [sensitiveKeywordAt, hbound]
    rfl

/-- A matcher of credential shapes reads no further than the token units. -/
theorem credentialPrefixAt_extend {before before' : Option UInt16} {y : JsString} (hbefore : atBoundary before = atBoundary before')
    (h : credentialPrefixAt before y = true) (z : JsString) : credentialPrefixAt before' (y.takeWhile isTokenUnit ++ z) = true := by
  simp only [credentialPrefixAt, Bool.or_eq_true, Bool.and_eq_true, List.any_eq_true] at h ⊢
  rcases h with ⟨hbound, hsk⟩ | ⟨shape, hshape, hexec⟩
  · exact .inl ⟨hbefore ▸ hbound, exec_shape_extend (List.mem_cons_self ..) hsk z⟩
  · exact .inr ⟨shape, hshape, exec_shape_extend (List.mem_cons_of_mem _ hshape) hexec z⟩

theorem credentialPrefix_of_blanked (h : Blanked m c s t) (hc : isTokenUnit c = false) {d : UInt16} (hm : m.getLast? = some d)
    (hd : isWord d = false) (ht : CREDENTIAL_PREFIX t = true) : CREDENTIAL_PREFIX s = true := by
  have hword : isWord c = false := by
    unfold isTokenUnit isKeyUnit at hc
    simp only [Bool.or_eq_false_iff] at hc
    exact hc.1.1
  obtain ⟨x, y, rfl, hnet⟩ := search_iff.mp ht
  obtain ⟨a, b, rfl, ha, hb⟩ := h.split
  rw [← List.takeWhile_append_dropWhile (p := isTokenUnit) (l := y)] at hb
  obtain ⟨w, rest, rfl, hw, -⟩ := hb.split
  have hfree : c ∉ y.takeWhile isTokenUnit := fun hmem => by
    rw [List.mem_takeWhile_imp hmem] at hc
    cases hc
  obtain rfl := hw.eq_of_notMem hfree
  refine search_iff.mpr ⟨a, y.takeWhile isTokenUnit ++ rest, rfl, credentialPrefixAt_extend ?_ hnet rest⟩
  exact (ha.atBoundary_eq hword hm hd rfl).symm

/-- A URL with a userinfo. -/
def HasUserinfo (s : JsString) : Prop :=
  ∃ a u p b, s = a ++ (str "//" ++ (u ++ (str ":" ++ (p ++ (str "@" ++ b))))) ∧ u ≠ [] ∧ p ≠ [] ∧
    (∀ c ∈ u, isUserUnit c = true) ∧ ∀ c ∈ p, isPassUnit c = true

theorem urlUserinfo_iff {s : JsString} : URL_USERINFO_CREDENTIAL s = true ↔ HasUserinfo s := by
  unfold URL_USERINFO_CREDENTIAL
  rw [search_iff]
  constructor
  · rintro ⟨a, g, rfl, hexec⟩
    rw [exec_url, Option.isSome_map] at hexec
    obtain ⟨n, hn⟩ := Option.isSome_iff_exists.mp hexec
    obtain ⟨t, ht, hmap⟩ := Option.bind_eq_some_iff.mp hn
    obtain ⟨k, hk, -⟩ := Option.map_eq_some_iff.mp hmap
    obtain ⟨u, p, b, rfl, hu, hp, huser, hpass, -⟩ := exec_userinfo_iff.mp hk
    exact ⟨a, u, p, b, by rw [Piece.stripLit_eq_some.mp ht]; rfl, hu, hp, huser, hpass⟩
  · rintro ⟨a, u, p, b, rfl, hu, hp, huser, hpass⟩
    refine ⟨a, _, rfl, ?_⟩
    have hexec := exec_userinfo_iff.mpr ⟨u, p, b, rfl, hu, hp, huser, hpass, rfl⟩
    rw [exec_url, Piece.stripLit_eq_some.mpr rfl, Option.bind_some, Option.isSome_map, Option.isSome_map]
    exact Option.isSome_of_eq_some hexec

/-- The first colon of a text that has one, not as its first unit, ends a user name. -/
theorem exists_firstColon {u p : JsString} (hu : u ≠ []) (hcolon : u.head? ≠ some (unit ':')) (hp : p ≠ [])
    (huser : ∀ c ∈ u, isPassUnit c = true) (hpass : ∀ c ∈ p, isPassUnit c = true) :
    ∃ u' p', u ++ (str ":" ++ p) = u' ++ (str ":" ++ p') ∧ u' ≠ [] ∧ p' ≠ [] ∧ (∀ c ∈ u', isUserUnit c = true) ∧
      ∀ c ∈ p', isPassUnit c = true := by
  have huser_of : ∀ c, isPassUnit c = true → c ≠ unit ':' → isUserUnit c = true := by
    intro c hc hne
    simp only [isPassUnit, Bool.and_eq_true] at hc
    simp only [isUserUnit, Bool.and_eq_true]
    exact ⟨⟨hc.1, by simpa using hne⟩, hc.2⟩
  by_cases hmem : unit ':' ∈ u
  · obtain ⟨v, w, rfl, hv⟩ := List.eq_append_cons_of_mem hmem
    have hvne : v ≠ [] := by
      rintro rfl
      exact hcolon rfl
    refine ⟨v, w ++ (str ":" ++ p), ?_, hvne, ?_, fun c hc => ?_, fun c hc => ?_⟩
    · rw [List.append_assoc]
      rfl
    · exact List.append_ne_nil_of_right_ne_nil _ (List.append_ne_nil_of_right_ne_nil _ hp)
    · exact huser_of c (huser c (List.mem_append_left _ hc)) fun heq => hv (heq ▸ hc)
    · rcases List.mem_append.mp hc with hc | hc
      · exact huser c (List.mem_append_right _ (List.mem_cons_of_mem _ hc))
      · rcases List.mem_append.mp hc with hc | hc
        · rw [List.mem_singleton.mp hc]
          decide
        · exact hpass c hc
  · exact ⟨u, p, rfl, hu, hp, fun c hc => huser_of c (huser c hc) fun heq => hmem (heq ▸ hc), hpass⟩

theorem hasUserinfo_of_blanked (h : Blanked m c s t) (hc : c ∉ str "/:@") (hne : m ≠ []) (hhead : m.head? ≠ some (unit ':'))
    (hm : ∀ u ∈ m, isPassUnit u = true) (ht : HasUserinfo t) : HasUserinfo s := by
  obtain ⟨x, u, p, y, rfl, hu, hp, huser, hpass⟩ := ht
  have hmark : ∀ lit : JsString, (∀ d ∈ lit, d ∈ str "/:@") → c ∉ lit := fun lit hlit hmem => hc (hlit c hmem)
  obtain ⟨a, s₁, rfl, -, h₁⟩ := h.split
  obtain ⟨slashes, s₂, rfl, hslashes, h₂⟩ := h₁.split
  obtain ⟨u', s₃, rfl, hu', h₃⟩ := h₂.split
  obtain ⟨colon, s₄, rfl, hcolon, h₄⟩ := h₃.split
  obtain ⟨p', s₅, rfl, hp', h₅⟩ := h₄.split
  obtain ⟨at', b, rfl, hat, -⟩ := h₅.split
  obtain rfl := hslashes.eq_of_notMem (hmark _ (by decide))
  obtain rfl := hcolon.eq_of_notMem (hmark _ (by decide))
  obtain rfl := hat.eq_of_notMem (hmark _ (by decide))
  have hpassOf : ∀ d, isUserUnit d = true → isPassUnit d = true := by
    intro d hd
    simp only [isUserUnit, Bool.and_eq_true] at hd
    simp only [isPassUnit, Bool.and_eq_true]
    exact ⟨hd.1.1, hd.2⟩
  have hfirst : u'.head? ≠ some (unit ':') := by
    rcases hu'.head_cases hne hu with heq | heq
    · rw [heq]
      intro hd
      have hcolonUnit := huser _ (List.mem_of_head? hd)
      exact absurd hcolonUnit (by decide)
    · rwa [heq]
  obtain ⟨u'', p'', hsame, hune, hpne, huser'', hpass''⟩ := exists_firstColon (hu'.ne_nil hne hu) hfirst (hp'.ne_nil hne hp)
    (hu'.forall_units hm fun d hd => hpassOf d (huser d hd)) (hp'.forall_units hm hpass)
  refine ⟨a, u'', p'', b, ?_, hune, hpne, huser'', hpass''⟩
  have hjoined := congrArg (· ++ (str "@" ++ b)) hsame
  simp only [List.append_assoc] at hjoined
  rw [hjoined]

private theorem of_stripMarkers {net : JsString → Bool} {filler : JsString}
    (hstep : ∀ m ∈ MARKER_LITERALS, ∀ s, net (replaceAll s m filler) = true → net s = true) {s : JsString}
    (hs : net (stripMarkers s filler) = true) : net s = true := by
  unfold stripMarkers at hs
  generalize MARKER_LITERALS = markers at hstep hs
  induction markers generalizing s with
  | nil => exact hs
  | cons m markers ih =>
    apply hstep m (List.mem_cons_self ..)
    exact ih (fun m' hm' => hstep m' (List.mem_cons_of_mem _ hm')) hs

private theorem markers_spec : ∀ m ∈ MARKER_LITERALS, m ≠ [] ∧ m.head? ≠ some (unit ':') ∧ m.getLast? = some (unit ']') ∧
    ∀ u ∈ m, isPassUnit u = true := by decide

/-- Text in front that has no bracket stays as it is. -/
theorem stripMarkers_lead {lead : JsString} (hlead : unit '[' ∉ lead) (s filler : JsString) :
    stripMarkers (lead ++ s) filler = lead ++ stripMarkers s filler := by
  have hbracket : ∀ m ∈ MARKER_LITERALS, m.head? = some (unit '[') := by decide
  unfold stripMarkers
  generalize MARKER_LITERALS = markers at hbracket
  induction markers generalizing s with
  | nil => rfl
  | cons m markers ih =>
    have hone : replaceAll (lead ++ s) m filler = lead ++ replaceAll s m filler := by
      obtain ⟨m', rfl⟩ := List.head?_eq_some_iff.mp (hbracket m (List.mem_cons_self ..))
      clear ih
      unfold replaceAll
      induction lead with
      | nil => rfl
      | cons u lead ih =>
        rw [List.mem_cons, not_or] at hlead
        have hstart : ¬ (unit '[' :: m').isPrefixOf (u :: (lead ++ s)) = true := by
          intro hstart
          rw [List.isPrefixOf_iff_prefix, List.cons_prefix_cons] at hstart
          exact hlead.1 hstart.1
        rw [List.cons_append, replaceAllFrom, if_neg hstart, ih hlead.2, List.cons_append]
    rw [List.foldl_cons, List.foldl_cons, hone]
    exact ih _ fun m' hm' => hbracket m' (List.mem_cons_of_mem _ hm')

/-- Blanking the markers makes no credential shape. -/
theorem credentialPrefix_of_stripped (hc : isTokenUnit c = false) (h : CREDENTIAL_PREFIX (stripMarkers s [c]) = true) :
    CREDENTIAL_PREFIX s = true := by
  refine of_stripMarkers (fun m hm s hs => ?_) h
  obtain ⟨hne, -, hlast, -⟩ := markers_spec m hm
  exact credentialPrefix_of_blanked (.replaceAll hne c s) hc hlast (by decide) hs

/-- Blanking the markers makes no userinfo. -/
theorem urlUserinfo_of_stripped (hc : c ∉ str "/:@") (h : URL_USERINFO_CREDENTIAL (stripMarkers s [c]) = true) :
    URL_USERINFO_CREDENTIAL s = true := by
  refine of_stripMarkers (fun m hm s hs => ?_) h
  obtain ⟨hne, hhead, -, hunits⟩ := markers_spec m hm
  exact urlUserinfo_iff.mpr (hasUserinfo_of_blanked (.replaceAll hne c s) hc hne hhead hunits (urlUserinfo_iff.mp hs))

end nets

end sow.domain
