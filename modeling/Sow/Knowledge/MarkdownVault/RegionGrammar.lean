import Sow.Knowledge.MarkdownVault.Neutralize

open sow.js

namespace sow.markdown_vault

/-- The units between `<!--` and the name of a marker. -/
def isGapUnit (c : UInt16) : Bool := isSpace c || c == unit '/'

/-- The tail of a marker after its name: the units of an id, blanks, and `-->`. -/
structure IsIdTail (tail : JsString) (id blanks : JsString) : Prop where
  units : ∀ c ∈ id, isIdUnit c = true
  blank : ∀ c ∈ blanks, isSpace c = true
  eq : tail = id ++ (blanks ++ str "-->")

/-- The texts that `REGION_MARKER_RE` matches. A user marker has no id. -/
structure IsRegionMarker (m : JsString) : Prop where
  parts : ∃ gap name tail id blanks, m = str "<!--" ++ (gap ++ (name ++ tail)) ∧ (∀ c ∈ gap, isGapUnit c = true) ∧
    IsIdTail tail id blanks ∧
    (name.map foldCase = str "kw:region:" ∨ name.map foldCase = str "@generated:" ∨ name.map foldCase = str "@user" ∧ id = [])

theorem stripLitFold_eq_some_iff {lit s rest : JsString} :
    stripLitFold lit s = some rest ↔ ∃ name, s = name ++ rest ∧ name.map foldCase = lit := by
  rw [stripLitFold]
  constructor
  · intro h
    split_ifs at h with hlit
    obtain ⟨t, ht⟩ := List.isPrefixOf_iff_prefix.mp hlit
    have hlen : lit.length ≤ s.length := by
      have := congrArg List.length ht
      simp only [List.length_append, List.length_map] at this
      omega
    refine ⟨s.take lit.length, ?_, ?_⟩
    · rw [← Option.some.inj h, List.take_append_drop]
    · rw [List.map_take, ← ht, List.take_left]
  · rintro ⟨name, rfl, rfl⟩
    have hlit : (name.map foldCase).isPrefixOf ((name ++ rest).map foldCase) = true := by
      rw [List.map_append]
      exact List.isPrefixOf_iff_prefix.mpr (List.prefix_append _ _)
    rw [if_pos hlit, List.length_map, List.drop_left]

theorem dropWhile_append_stop {p : UInt16 → Bool} {a : JsString} {c : UInt16} {r : JsString} (ha : ∀ d ∈ a, p d = true)
    (hc : p c = false) : (a ++ c :: r).dropWhile p = c :: r := by
  rw [List.dropWhile_append_of_pos ha, List.dropWhile_cons, if_neg (by simp [hc])]

theorem takeWhile_append_stop {p : UInt16 → Bool} {a : JsString} {c : UInt16} {r : JsString} (ha : ∀ d ∈ a, p d = true)
    (hc : p c = false) : (a ++ c :: r).takeWhile p = a := by
  rw [List.takeWhile_append_of_pos ha, List.takeWhile_cons, if_neg (by simp [hc]), List.append_nil]

theorem exists_blanks_of_stripEnd {s rest : JsString} (h : stripEnd s = some rest) :
    ∃ blanks, (∀ c ∈ blanks, isSpace c = true) ∧ s = blanks ++ (str "-->" ++ rest) := by
  refine ⟨s.takeWhile isSpace, fun c hc => List.mem_takeWhile_imp hc, ?_⟩
  rw [← stripLit_eq_some_iff.mp h, List.takeWhile_append_dropWhile]

theorem stripEnd_blanks {blanks : JsString} (hblank : ∀ c ∈ blanks, isSpace c = true) (rest : JsString) :
    stripEnd (blanks ++ (str "-->" ++ rest)) = some rest := by
  have hdrop : (blanks ++ (str "-->" ++ rest)).dropWhile isSpace = str "-->" ++ rest :=
    dropWhile_append_stop hblank (by decide)
  rw [stripEnd, hdrop]
  exact stripLit_eq_some_iff.mpr rfl

theorem exists_idTail_of_stripIdEnd {s rest : JsString} (h : stripIdEnd s = some rest) :
    ∃ tail id blanks, IsIdTail tail id blanks ∧ s = tail ++ rest := by
  have hunits : ∀ c ∈ s.takeWhile isIdUnit, isIdUnit c = true := fun c hc => List.mem_takeWhile_imp hc
  rw [stripIdEnd, Option.orElse_eq_orElse, Option.orElse_eq_or, Option.or_eq_some_iff] at h
  rcases h with h | ⟨-, h⟩
  · obtain ⟨blanks, hblank, hdrop⟩ := exists_blanks_of_stripEnd h
    refine ⟨_, s.takeWhile isIdUnit, blanks, ⟨hunits, hblank, rfl⟩, ?_⟩
    rw [List.append_assoc, List.append_assoc, ← hdrop, List.takeWhile_append_dropWhile]
  · split_ifs at h with hdashes
    obtain ⟨id, hid⟩ := endsWith_iff.mp hdashes
    have hdrop := stripLit_eq_some_iff.mp h
    refine ⟨_, id, [], ⟨fun c hc => hunits c ?_, by simp, rfl⟩, ?_⟩
    · rw [hid]
      exact List.mem_append_left _ hc
    · conv_lhs => rw [← @List.takeWhile_append_dropWhile _ isIdUnit s, hid, hdrop]
      simp [str]

theorem stripIdEnd_isSome {tail id blanks : JsString} (h : IsIdTail tail id blanks) (rest : JsString) :
    (stripIdEnd (tail ++ rest)).isSome := by
  obtain ⟨hunits, hblank, rfl⟩ := h
  rw [stripIdEnd, Option.orElse_eq_orElse, Option.orElse_eq_or, Option.isSome_or, Bool.or_eq_true]
  cases blanks with
  | nil =>
    have hid : ∀ c ∈ id ++ str "--", isIdUnit c = true := by
      intro c hc
      rcases List.mem_append.mp hc with hc | hc
      · exact hunits c hc
      · have hdash : ∀ d ∈ str "--", isIdUnit d = true := by decide
        exact hdash c hc
    have hshape : id ++ ([] ++ str "-->") ++ rest = (id ++ str "--") ++ unit '>' :: rest := by simp [str, unit]
    rw [hshape, takeWhile_append_stop hid (by decide), dropWhile_append_stop hid (by decide)]
    refine .inr ?_
    rw [if_pos (endsWith_iff.mpr ⟨id, rfl⟩), stripLit_eq_some_iff.mpr (show unit '>' :: rest = str ">" ++ rest from rfl)]
    rfl
  | cons c blanks =>
    have hc : isIdUnit c = false := by simp [isIdUnit, hblank c (List.mem_cons_self ..)]
    have hshape : id ++ (c :: blanks ++ str "-->") ++ rest = id ++ c :: (blanks ++ (str "-->" ++ rest)) := by simp
    rw [hshape, dropWhile_append_stop hunits hc]
    refine .inl ?_
    rw [← List.cons_append, stripEnd_blanks hblank]
    rfl

theorem foldCase_gapUnit {c : UInt16} (h : isGapUnit c = true) : foldCase c = c := by
  rw [isGapUnit, Bool.or_eq_true, beq_iff_eq] at h
  rcases h with h | rfl
  · have hkelvin : c ≠ 0x212A := by
      rintro rfl
      exact absurd h (by decide)
    have hlong : c ≠ 0x017F := by
      rintro rfl
      exact absurd h (by decide)
    have hletter : ¬ (decide (65 ≤ c.toNat) && decide (c.toNat ≤ 90)) = true := by
      simp only [isSpace, Bool.or_eq_true, Bool.and_eq_true, decide_eq_true_eq, beq_iff_eq] at h ⊢
      omega
    rw [foldCase, if_neg hletter, if_neg hkelvin, if_neg hlong]
  · decide

/-- A name begins with a letter or an `@`, so the gap before it ends there. -/
theorem dropWhile_gap {gap name : JsString} (hgap : ∀ c ∈ gap, isGapUnit c = true)
    (hname : (name.map foldCase).head? = some (unit 'k') ∨ (name.map foldCase).head? = some (unit '@')) (r : JsString) :
    (gap ++ (name ++ r)).dropWhile isGapUnit = name ++ r := by
  cases name with
  | nil => simp at hname
  | cons c w =>
    rw [List.map_cons, List.head?_cons, Option.some.injEq, Option.some.injEq] at hname
    apply dropWhile_append_stop hgap
    cases hc : isGapUnit c with
    | false => rfl
    | true =>
      rw [foldCase_gapUnit hc] at hname
      rcases hname with rfl | rfl
      · exact absurd hc (by decide)
      · exact absurd hc (by decide)

/-- The matcher accepts exactly the strings that begin with a marker of the grammar. -/
theorem regionMarkerAt_isSome_iff {s : JsString} :
    (regionMarkerAt s).isSome ↔ ∃ m rest, s = m ++ rest ∧ IsRegionMarker m := by
  constructor
  · intro h
    obtain ⟨r, hr⟩ := Option.isSome_iff_exists.mp h
    simp only [regionMarkerAt, Option.bind_eq_bind, Option.bind_eq_some_iff] at hr
    obtain ⟨r₁, hr₁, r₂, hr₂, -⟩ := hr
    obtain rfl := stripLit_eq_some_iff.mp hr₁
    have hgap : ∀ c ∈ r₁.takeWhile (fun c => isSpace c || c == unit '/'), isGapUnit c = true := fun c hc =>
      @List.mem_takeWhile_imp _ (fun c => isSpace c || c == unit '/') _ _ hc
    have hsplit : r₁ = r₁.takeWhile (fun c => isSpace c || c == unit '/') ++
        r₁.dropWhile (fun c => isSpace c || c == unit '/') := List.takeWhile_append_dropWhile.symm
    generalize r₁.takeWhile (fun c => isSpace c || c == unit '/') = gap at hgap hsplit
    generalize r₁.dropWhile (fun c => isSpace c || c == unit '/') = r at hr₂ hsplit
    subst hsplit
    have hnamed : ∀ {name t tail id blanks}, r = name ++ t → t = tail ++ r₂ → IsIdTail tail id blanks →
        (name.map foldCase = str "kw:region:" ∨ name.map foldCase = str "@generated:" ∨
          name.map foldCase = str "@user" ∧ id = []) →
        ∃ m rest, str "<!--" ++ (gap ++ r) = m ++ rest ∧ IsRegionMarker m := by
      rintro name t tail id blanks rfl rfl htail hname
      exact ⟨_, r₂, by simp, ⟨gap, name, tail, id, blanks, rfl, hgap, htail, hname⟩⟩
    simp only [Option.orElse_eq_orElse, Option.orElse_eq_or, Option.or_eq_some_iff, Option.bind_eq_some_iff] at hr₂
    obtain ⟨t, ht, hr₂⟩ | ⟨-, ⟨t, ht, hr₂⟩ | ⟨-, t, ht, hr₂⟩⟩ := hr₂
    · obtain ⟨name, hr, hname⟩ := stripLitFold_eq_some_iff.mp ht
      obtain ⟨tail, id, blanks, htail, htail'⟩ := exists_idTail_of_stripIdEnd hr₂
      exact hnamed hr htail' htail (.inl hname)
    · obtain ⟨name, hr, hname⟩ := stripLitFold_eq_some_iff.mp ht
      obtain ⟨tail, id, blanks, htail, htail'⟩ := exists_idTail_of_stripIdEnd hr₂
      exact hnamed hr htail' htail (.inr (.inl hname))
    · obtain ⟨name, hr, hname⟩ := stripLitFold_eq_some_iff.mp ht
      obtain ⟨blanks, hblank, htail⟩ := exists_blanks_of_stripEnd hr₂
      have hidTail : IsIdTail (blanks ++ str "-->") [] blanks := ⟨by simp, hblank, rfl⟩
      exact hnamed hr (htail.trans (List.append_assoc ..).symm) hidTail (.inr (.inr ⟨hname, rfl⟩))
  · rintro ⟨m, rest, rfl, ⟨gap, name, tail, id, blanks, rfl, hgap, htail, hname⟩⟩
    have hhead : (name.map foldCase).head? = some (unit 'k') ∨ (name.map foldCase).head? = some (unit '@') := by
      rcases hname with h | h | ⟨h, -⟩
      · exact .inl (h ▸ rfl)
      · exact .inr (h ▸ rfl)
      · exact .inr (h ▸ rfl)
    have hopen : stripLit (str "<!--") (str "<!--" ++ (gap ++ (name ++ tail)) ++ rest) = some (gap ++ (name ++ (tail ++ rest))) :=
      stripLit_eq_some_iff.mpr (by simp)
    have hnamed : (gap ++ (name ++ (tail ++ rest))).dropWhile (fun c => isSpace c || c == unit '/') = name ++ (tail ++ rest) :=
      dropWhile_gap hgap hhead _
    have hfold : stripLitFold (name.map foldCase) (name ++ (tail ++ rest)) = some (tail ++ rest) :=
      stripLitFold_eq_some_iff.mpr ⟨name, rfl, rfl⟩
    have hend := stripIdEnd_isSome htail rest
    simp only [regionMarkerAt, Option.bind_eq_bind, hopen, Option.bind_some, hnamed, Option.orElse_eq_orElse,
      Option.orElse_eq_or, Option.isSome_bind, Option.isSome_some]
    rcases hname with h | h | ⟨h, rfl⟩
    · rw [h] at hfold
      simp [hfold, hend]
    · rw [h] at hfold
      simp [hfold, hend]
    · rw [h] at hfold
      have huser : stripEnd (tail ++ rest) = some rest := by
        rw [htail.eq, List.nil_append, List.append_assoc]
        exact stripEnd_blanks htail.blank rest
      simp [hfold, huser]

/-- No marker of the grammar occurs in a text that the expression matches nowhere. -/
theorem regionFree_iff {s : JsString} : REGION_MARKER_RE.Free s ↔ ∀ a m b, IsRegionMarker m → s ≠ a ++ (m ++ b) := by
  have hnone : ∀ t, REGION_MARKER_RE.exec t = none ↔ ¬ (regionMarkerAt t).isSome := fun t => by
    rw [Option.not_isSome_iff_eq_none]
    rfl
  constructor
  · intro h a m b hm hs
    exact (hnone _).mp (h a _ hs) (regionMarkerAt_isSome_iff.mpr ⟨m, b, rfl, hm⟩)
  · intro h a t hs
    rw [hnone, regionMarkerAt_isSome_iff]
    rintro ⟨m, b, rfl, hm⟩
    exact h a m b hm hs

/-- A unit that a first part lacks stands in what follows it. -/
theorem append_eq_append_cons_of_notMem {c : UInt16} {l r a t : JsString} (hl : c ∉ l) (h : l ++ r = a ++ c :: t) :
    ∃ a', a = l ++ a' ∧ r = a' ++ c :: t := by
  rcases List.append_eq_append_iff.mp h with ⟨a', rfl, hr⟩ | ⟨l', rfl, ht⟩
  · exact ⟨a', rfl, hr⟩
  · cases l' with
    | nil => exact ⟨[], by simp, by simpa using ht.symm⟩
    | cons x l' =>
      obtain ⟨rfl, -⟩ := List.cons.inj ht
      exact absurd (by simp) hl

/-- The blank of an escaped opener ends no marker: no dash and no blank follows it. -/
theorem idTail_ne_escaped {id blanks y r : JsString} {d : UInt16} (hunits : ∀ c ∈ id, isIdUnit c = true)
    (hblank : ∀ c ∈ blanks, isSpace c = true) (hdash : d ≠ unit '-') (hspace : isSpace d = false) :
    id ++ (blanks ++ (str "-->" ++ y)) ≠ str "\\!-- " ++ d :: r := by
  intro h
  have hstart : ∀ {c : UInt16} {t : JsString}, blanks ++ (str "-->" ++ y) = c :: t → isSpace c = false →
      str "-->" ++ y = c :: t := by
    intro c t hct hc
    cases blanks with
    | nil => exact hct
    | cons b blanks =>
      have hb := hblank b (List.mem_cons_self ..)
      rw [(List.cons.inj hct).1, hc] at hb
      exact absurd hb (by decide)
  cases id with
  | nil => exact absurd (List.cons.inj (hstart h (by decide))).1 (by decide)
  | cons c₁ id =>
    replace h := (List.cons.inj h).2
    cases id with
    | nil => exact absurd (List.cons.inj (hstart h (by decide))).1 (by decide)
    | cons c₂ id =>
      replace h := (List.cons.inj h).2
      cases id with
      | nil =>
        have hdashes := (List.cons.inj (List.cons.inj (hstart h (by decide))).2).2
        exact absurd (List.cons.inj hdashes).1 (by decide)
      | cons c₃ id =>
        replace h := (List.cons.inj h).2
        cases id with
        | nil =>
          have hdashes := (List.cons.inj (hstart h (by decide))).2
          exact absurd (List.cons.inj hdashes).1 (by decide)
        | cons c₄ id =>
          replace h := (List.cons.inj h).2
          cases id with
          | nil =>
            cases blanks with
            | nil => exact absurd (List.cons.inj h).1 (by decide)
            | cons b blanks =>
              replace h := (List.cons.inj h).2
              cases blanks with
              | nil => exact hdash (List.cons.inj h).1.symm
              | cons b' blanks =>
                have hb' := hblank b' (by simp)
                rw [(List.cons.inj h).1, hspace] at hb'
                exact absurd hb' (by decide)
          | cons c₅ id =>
            have hc₅ := hunits c₅ (by simp)
            rw [(List.cons.inj h).1] at hc₅
            exact absurd hc₅ (by decide)

theorem open_not_mem_gap {gap : JsString} (hgap : ∀ c ∈ gap, isGapUnit c = true) : unit '<' ∉ gap :=
  fun h => absurd (hgap _ h) (by decide)

theorem open_not_mem_name {name : JsString} (hname : unit '<' ∉ name.map foldCase) : unit '<' ∉ name := by
  intro h
  exact hname (List.mem_map.mpr ⟨_, h, by decide⟩)

/-- A `<` inside a marker, past its first unit, stands in the id. -/
theorem IsRegionMarker.exists_idTail {m a t : JsString} (hm : IsRegionMarker m) (ha : a ≠ []) (h : m = a ++ unit '<' :: t) :
    ∃ id blanks, (∀ c ∈ id, isIdUnit c = true) ∧ (∀ c ∈ blanks, isSpace c = true) ∧ t = id ++ (blanks ++ str "-->") := by
  obtain ⟨gap, name, tail, id, blanks, rfl, hgap, ⟨hunits, hblank, rfl⟩, hname⟩ := hm.parts
  cases a with
  | nil => exact absurd rfl ha
  | cons c a =>
    have hnamed : unit '<' ∉ name := by
      apply open_not_mem_name
      rcases hname with h | h | ⟨h, -⟩
      · rw [h]
        decide
      · rw [h]
        decide
      · rw [h]
        decide
    have hrest : str "!--" ++ (gap ++ (name ++ (id ++ (blanks ++ str "-->")))) = a ++ unit '<' :: t := (List.cons.inj h).2
    obtain ⟨a₁, -, h₁⟩ := append_eq_append_cons_of_notMem (by decide) hrest
    obtain ⟨a₂, -, h₂⟩ := append_eq_append_cons_of_notMem (open_not_mem_gap hgap) h₁
    obtain ⟨a₃, -, h₃⟩ := append_eq_append_cons_of_notMem hnamed h₂
    have hend : unit '<' ∉ blanks ++ str "-->" := by
      rw [List.mem_append]
      rintro (hmem | hmem)
      · exact absurd (hblank _ hmem) (by decide)
      · exact absurd hmem (by decide)
    rcases List.append_eq_append_iff.mp h₃ with ⟨a₄, -, h₄⟩ | ⟨id', rfl, h₄⟩
    · exact absurd (h₄ ▸ by simp) hend
    · cases id' with
      | nil =>
        rw [List.nil_append] at h₄
        exact absurd (h₄ ▸ List.mem_cons_self ..) hend
      | cons x id' =>
        obtain ⟨-, rfl⟩ := List.cons.inj h₄
        exact ⟨id', blanks, fun c hc => hunits c (by simp [hc]), hblank, rfl⟩

theorem IsRegionMarker.head {m : JsString} (hm : IsRegionMarker m) : ∃ r, m = unit '<' :: unit '!' :: r := by
  obtain ⟨gap, name, tail, id, blanks, rfl, -⟩ := hm.parts
  exact ⟨_, rfl⟩

/-- An escaped opener keeps the markers of its two sides apart. -/
theorem regionFree_append_escaped {a w b : JsString} {d : UInt16} (ha : REGION_MARKER_RE.Free a) (hb : REGION_MARKER_RE.Free b)
    (hdash : d ≠ unit '-') (hspace : isSpace d = false) (hw : unit '<' ∉ d :: w) :
    REGION_MARKER_RE.Free (a ++ (str "<\\!-- " ++ d :: w ++ b)) := by
  rw [regionFree_iff] at ha hb ⊢
  intro x m y hm h
  obtain ⟨r, hr⟩ := hm.head
  have hescaped : ∀ u v : JsString, m ++ u ≠ str "<\\!-- " ++ v := by
    intro u v huv
    rw [hr] at huv
    exact absurd (List.cons.inj (List.cons.inj huv).2).1 (by decide)
  rcases List.append_eq_append_iff.mp h with ⟨x', -, hright⟩ | ⟨a', rfl, hleft⟩
  · rcases List.append_eq_append_iff.mp hright with ⟨x'', -, hin⟩ | ⟨e, he, hin⟩
    · exact hb x'' m y hm hin
    · -- the marker begins inside the escaped opener, where only the first unit is a `<`
      cases e with
      | nil => exact hb [] m y hm (by simpa using hin.symm)
      | cons c e =>
        rw [hr] at hin
        obtain rfl : unit '<' = c := (List.cons.inj hin).1
        cases x' with
        | nil =>
          rw [List.nil_append] at he
          rw [← he] at hin
          exact absurd (List.cons.inj (List.cons.inj hin).2).1 (by decide)
        | cons c' x' =>
          have hrest : str "\\!-- " ++ d :: w = x' ++ unit '<' :: e := (List.cons.inj he).2
          have hmem : unit '<' ∈ str "\\!-- " ++ d :: w := by
            rw [hrest]
            simp
          rcases List.mem_append.mp hmem with hmem | hmem
          · exact absurd hmem (by decide)
          · exact hw hmem
  · rcases List.append_eq_append_iff.mp hleft with ⟨t, rfl, -⟩ | ⟨t, rfl, hin⟩
    · exact ha x m t hm rfl
    · -- the marker runs into the escaped opener, whose `<` would stand in its id
      cases t with
      | nil => exact ha x a' [] (by simpa using hm) (by simp)
      | cons c t =>
        obtain rfl : unit '<' = c := (List.cons.inj hin).1
        by_cases hempty : a' = []
        · subst hempty
          exact hescaped y (d :: w ++ b) (by simpa using hin.symm)
        · obtain ⟨id, blanks, hunits, hblank, rfl⟩ := hm.exists_idTail hempty rfl
          have htail : str "\\!-- " ++ d :: (w ++ b) = id ++ (blanks ++ str "-->") ++ y := (List.cons.inj hin).2
          rw [List.append_assoc, List.append_assoc] at htail
          exact idTail_ne_escaped hunits hblank hdash hspace htail.symm

end sow.markdown_vault
