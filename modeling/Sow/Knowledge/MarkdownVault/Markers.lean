import Sow.Knowledge.MarkdownVault.Sections

open sow.js

namespace sow.markdown_vault

def MarkerTag.text : MarkerTag → JsString
  | .region family id => family.label ++ str ":" ++ id
  | .user => str "@user"

/-- The part of a marker between its comment delimiters. -/
def Marker.core (m : Marker) : JsString := (if m.close then str "/" else []) ++ m.tag.text

def Marker.text (m : Marker) : JsString := str "<!-- " ++ (m.core ++ str " -->")

/-- Ids that `[^\s>]+` matches. -/
def IsRegionId (id : JsString) : Prop := id ≠ [] ∧ ∀ c ∈ id, isIdUnit c = true

instance (id : JsString) : Decidable (IsRegionId id) := inferInstanceAs (Decidable (_ ∧ _))

def MarkerTag.Valid : MarkerTag → Prop
  | .region _ id => IsRegionId id
  | .user => True

def Marker.Valid (m : Marker) : Prop := m.tag.Valid

theorem stripLit_eq_some_iff {lit s rest : JsString} : stripLit lit s = some rest ↔ s = lit ++ rest := by
  rw [stripLit]
  split
  · next h =>
    obtain ⟨t, rfl⟩ := List.isPrefixOf_iff_prefix.mp h
    simp [eq_comm]
  · next h =>
    simp only [reduceCtorEq, false_iff]
    rintro rfl
    exact h (List.isPrefixOf_iff_prefix.mpr ⟨rest, rfl⟩)

theorem takeWhile_idUnits {id : JsString} (hid : ∀ c ∈ id, isIdUnit c = true) {c : UInt16}
    (hc : isIdUnit c = false) (rest : JsString) :
    (id ++ c :: rest).takeWhile isIdUnit = id ∧ (id ++ c :: rest).dropWhile isIdUnit = c :: rest := by
  constructor
  · rw [List.takeWhile_append_of_pos hid, List.takeWhile_cons, if_neg (by simp [hc]), List.append_nil]
  · rw [List.dropWhile_append_of_pos hid, List.dropWhile_cons, if_neg (by simp [hc])]

theorem regionTagAt_eq_some_iff {family : AssistantFamily} {s rest : JsString} {tag : MarkerTag} :
    regionTagAt family s = some (tag, rest) ↔
      ∃ id, tag = .region family id ∧ IsRegionId id ∧ s = family.label ++ str ":" ++ (id ++ (str " -->" ++ rest)) := by
  simp only [regionTagAt, Option.bind_eq_bind, Option.bind_eq_some_iff, stripLit_eq_some_iff]
  constructor
  · rintro ⟨r₁, rfl, r₂, hr₂, hid⟩
    split at hid
    · simp at hid
    · next hne =>
      simp only [Option.some.injEq, Prod.mk.injEq] at hid
      obtain ⟨rfl, rfl⟩ := hid
      refine ⟨_, rfl, ⟨hne, fun c hc => List.mem_takeWhile_imp hc⟩, ?_⟩
      rw [← hr₂, List.takeWhile_append_dropWhile]
  · rintro ⟨id, rfl, ⟨hne, hid⟩, rfl⟩
    have hunits : (id ++ (str " -->" ++ rest)).takeWhile isIdUnit = id ∧
        (id ++ (str " -->" ++ rest)).dropWhile isIdUnit = str " -->" ++ rest :=
      takeWhile_idUnits hid (by decide) (str "-->" ++ rest)
    refine ⟨_, rfl, rest, hunits.2, ?_⟩
    rw [if_neg (by rw [hunits.1]; exact hne), hunits.1]

theorem userTagAt_eq_some_iff {s rest : JsString} {tag : MarkerTag} :
    userTagAt s = some (tag, rest) ↔ tag = .user ∧ s = str "@user" ++ (str " -->" ++ rest) := by
  simp only [userTagAt, Option.map_eq_some_iff, stripLit_eq_some_iff, Prod.mk.injEq]
  constructor
  · rintro ⟨r, rfl, rfl, rfl⟩
    exact ⟨rfl, rfl⟩
  · rintro ⟨rfl, rfl⟩
    exact ⟨rest, rfl, rfl, rfl⟩

theorem markerTagAt_eq_some_iff {s rest : JsString} {tag : MarkerTag} :
    markerTagAt s = some (tag, rest) ↔ tag.Valid ∧ s = tag.text ++ (str " -->" ++ rest) := by
  rw [markerTagAt]
  constructor
  · intro h
    cases hkw : regionTagAt .kwRegion s with
    | some r =>
      obtain rfl : r = (tag, rest) := by simpa [hkw] using h
      obtain ⟨id, rfl, hid, rfl⟩ := regionTagAt_eq_some_iff.mp hkw
      exact ⟨hid, by simp [MarkerTag.text]⟩
    | none =>
      cases hgen : regionTagAt .generated s with
      | some r =>
        obtain rfl : r = (tag, rest) := by simpa [hkw, hgen] using h
        obtain ⟨id, rfl, hid, rfl⟩ := regionTagAt_eq_some_iff.mp hgen
        exact ⟨hid, by simp [MarkerTag.text]⟩
      | none =>
        obtain ⟨rfl, rfl⟩ := userTagAt_eq_some_iff.mp (by simpa [hkw, hgen] using h)
        exact ⟨trivial, rfl⟩
  · rintro ⟨hvalid, rfl⟩
    cases tag with
    | region family id =>
      have hself : regionTagAt family ((MarkerTag.region family id).text ++ (str " -->" ++ rest)) =
          some (.region family id, rest) :=
        regionTagAt_eq_some_iff.mpr ⟨id, rfl, hvalid, by simp [MarkerTag.text]⟩
      cases family with
      | kwRegion => rw [hself]; rfl
      | generated =>
        have hkw : regionTagAt .kwRegion ((MarkerTag.region .generated id).text ++ (str " -->" ++ rest)) = none := by
          rfl
        rw [hkw, hself]
        rfl
    | user => rfl

theorem Marker.text_eq (m : Marker) (rest : JsString) :
    m.text ++ rest = str "<!-- " ++ (m.core ++ (str " -->" ++ rest)) := by
  simp [Marker.text]

private theorem tag_text_head (tag : MarkerTag) :
    ∃ d w, tag.text = d :: w ∧ (d = unit 'k' ∨ d = unit '@') := by
  cases tag with
  | region family id => cases family <;> exact ⟨_, _, rfl, by decide⟩
  | user => exact ⟨_, _, rfl, by decide⟩

theorem markerAt_eq_some_iff {s : JsString} {n : Nat} {m : Marker} :
    markerAt s = some (n, m) ↔ m.Valid ∧ n = m.text.length ∧ ∃ rest, s = m.text ++ rest := by
  simp only [markerAt, Option.bind_eq_bind, Option.bind_eq_some_iff, stripLit_eq_some_iff]
  constructor
  · rintro ⟨r₁, rfl, ⟨tag, rest⟩, htag, hm⟩
    cases hclose : stripLit (str "/") r₁ with
    | none =>
      rw [hclose] at htag hm
      obtain ⟨hvalid, rfl⟩ := markerTagAt_eq_some_iff.mp htag
      simp only [Option.some.injEq, Prod.mk.injEq] at hm
      obtain ⟨rfl, rfl⟩ := hm
      refine ⟨hvalid, ?_, rest, by simp [Marker.text, Marker.core]⟩
      simp [Marker.text, Marker.core]
      omega
    | some r₂ =>
      rw [hclose] at htag hm
      obtain rfl := stripLit_eq_some_iff.mp hclose
      obtain ⟨hvalid, rfl⟩ := markerTagAt_eq_some_iff.mp htag
      simp only [Option.some.injEq, Prod.mk.injEq] at hm
      obtain ⟨rfl, rfl⟩ := hm
      refine ⟨hvalid, ?_, rest, by simp [Marker.text, Marker.core]⟩
      simp [Marker.text, Marker.core]
      omega
  · rintro ⟨hvalid, rfl, rest, rfl⟩
    refine ⟨m.core ++ (str " -->" ++ rest), Marker.text_eq m rest, (m.tag, rest), ?_⟩
    have htag : markerTagAt (m.tag.text ++ (str " -->" ++ rest)) = some (m.tag, rest) :=
      markerTagAt_eq_some_iff.mpr ⟨hvalid, rfl⟩
    obtain ⟨close, tag⟩ := m
    cases close with
    | true =>
      have hslash : stripLit (str "/") (Marker.core ⟨true, tag⟩ ++ (str " -->" ++ rest)) =
          some (tag.text ++ (str " -->" ++ rest)) := stripLit_eq_some_iff.mpr (by simp [Marker.core])
      rw [hslash]
      exact ⟨htag, by simp⟩
    | false =>
      have hslash : stripLit (str "/") (Marker.core ⟨false, tag⟩ ++ (str " -->" ++ rest)) = none := by
        obtain ⟨d, w, hd, hcase⟩ := tag_text_head tag
        rw [Marker.core, hd]
        rcases hcase with rfl | rfl <;> rfl
      rw [hslash]
      exact ⟨by simpa [Marker.core] using htag, by simp⟩

theorem Marker.space_not_mem_core {m : Marker} (hm : m.Valid) : unit ' ' ∉ m.core := by
  obtain ⟨close, tag⟩ := m
  have htag : unit ' ' ∉ tag.text := by
    cases tag with
    | region family id =>
      intro hmem
      rw [MarkerTag.text, List.mem_append] at hmem
      rcases hmem with hmem | hmem
      · revert hmem
        cases family <;> decide
      · exact absurd (hm.2 _ hmem) (by decide)
    | user => decide
  cases close with
  | true =>
    rw [Marker.core, if_pos rfl, List.mem_append]
    rintro (hmem | hmem)
    · exact absurd hmem (by decide)
    · exact htag hmem
  | false => simpa [Marker.core] using htag

private theorem core_head (m : Marker) : ∃ d w, m.core = d :: w ∧ d ≠ unit '-' := by
  obtain ⟨close, tag⟩ := m
  cases close with
  | true => exact ⟨unit '/', tag.text, rfl, by decide⟩
  | false =>
    obtain ⟨d, w, hd, hcase⟩ := tag_text_head tag
    exact ⟨d, w, by simpa [Marker.core] using hd, by rcases hcase with rfl | rfl <;> decide⟩

theorem Marker.text_getElem (m : Marker) :
    m.text[0]? = some 60 ∧ m.text[1]? = some 33 ∧ m.text[2]? = some 45 ∧ m.text[3]? = some 45 ∧
      m.text[4]? = some 32 ∧ (∀ i, m.text[5 + i]? = (m.core ++ str " -->")[i]?) := by
  refine ⟨rfl, rfl, rfl, rfl, rfl, fun i => ?_⟩
  rw [Marker.text, List.getElem?_append_right (by simp [str])]
  congr 1
  simp [str]

/-- No marker begins inside another: an id holds no blank, and what follows the
    blank of `<!-- ` in a marker is never a dash. -/
theorem Marker.no_overlap {m m' : Marker} {a r b : JsString} (hm : m.Valid) (ha : a ≠ [])
    (h : m.text ++ r = a ++ (m'.text ++ b)) : m.text.length ≤ a.length := by
  by_contra hlt
  have hpos : 0 < a.length := List.length_pos_iff.mpr ha
  have hlen : m.text.length = m.core.length + 9 := by simp [Marker.text, str]
  have hleft : ∀ i, i < m.text.length → (a ++ (m'.text ++ b))[i]? = m.text[i]? := fun i hi => by
    rw [← h, List.getElem?_append_left hi]
  have hright : ∀ i v, m'.text[i]? = some v → (a ++ (m'.text ++ b))[a.length + i]? = some v := fun i v hv => by
    have hi : i < m'.text.length := (List.getElem?_eq_some_iff.mp hv).1
    rw [List.getElem?_append_right (by omega), Nat.add_sub_cancel_left, List.getElem?_append_left hi, hv]
  obtain ⟨m0, m1, m2, m3, m4, mcore⟩ := m.text_getElem
  obtain ⟨m0', m1', m2', m3', m4', mcore'⟩ := m'.text_getElem
  obtain ⟨d, w, hd, hdash⟩ := core_head m'
  have m5' : m'.text[5]? = some d := by simpa [hd] using mcore' 0
  have hend : ∀ j, j < 4 → m.text[5 + (m.core.length + j)]? = (str " -->")[j]? := fun j _ => by
    rw [mcore, List.getElem?_append_right (by omega), Nat.add_sub_cancel_left]
  by_cases hfront : a.length < 5
  · have h0 := hright 0 60 m0'
    rw [Nat.add_zero, hleft _ (by omega)] at h0
    have hk : a.length = 1 ∨ a.length = 2 ∨ a.length = 3 ∨ a.length = 4 := by omega
    rcases hk with hk | hk | hk | hk <;> rw [hk] at h0 <;> simp [m1, m2, m3, m4] at h0
  by_cases hback : a.length < 5 + m.core.length
  · obtain ⟨j, hj⟩ : ∃ j, a.length + j = 5 + m.core.length := ⟨5 + m.core.length - a.length, by omega⟩
    have hblank : (a ++ (m'.text ++ b))[a.length + j]? = some 32 := by
      rw [hj, hleft _ (by omega)]
      exact hend 0 (by omega)
    by_cases hj4 : j < 4
    · have hk : j = 0 ∨ j = 1 ∨ j = 2 ∨ j = 3 := by omega
      rcases hk with rfl | rfl | rfl | rfl
      · omega
      · simp [hright 1 33 m1'] at hblank
      · simp [hright 2 45 m2'] at hblank
      · simp [hright 3 45 m3'] at hblank
    · by_cases hj5 : j = 4
      · subst hj5
        have h5 := hright 5 d m5'
        rw [show a.length + 5 = 5 + (m.core.length + 1) by omega, hleft _ (by omega), hend 1 (by omega)] at h5
        exact hdash (Option.some.inj h5).symm
      · have h4 := hright 4 32 m4'
        rw [hleft _ (by omega), show a.length + 4 = 5 + (a.length - 1) by omega, mcore,
          List.getElem?_append_left (by omega)] at h4
        exact Marker.space_not_mem_core hm (List.mem_of_getElem? h4)
  · have h0 := hright 0 60 m0'
    obtain ⟨j, hj⟩ : ∃ j, a.length = 5 + (m.core.length + j) := ⟨a.length - (5 + m.core.length), by omega⟩
    have hj4 : j < 4 := by omega
    rw [Nat.add_zero, hleft _ (by omega), hj, hend j hj4] at h0
    interval_cases j <;> simp [str] at h0

/-- The markers that `MARKER_RE` recognises. -/
def markerLexicon : Lexicon Marker where
  exec := markerAt
  text := Marker.text
  Valid := Marker.Valid
  exec_eq_some_iff := markerAt_eq_some_iff
  text_ne_nil := fun _ h => by simp [Marker.text, str] at h
  no_overlap := fun hm _ ha h => Marker.no_overlap hm ha h

@[simp] theorem markerLexicon_text (m : Marker) : markerLexicon.text m = m.text := rfl

end sow.markdown_vault
