import Sow.Knowledge.MarkdownVault.RegionGrammar

open sow.js

namespace sow.markdown_vault

theorem regionFree_neutralizeRegionMarkers (s : JsString) : REGION_MARKER_RE.Free (neutralizeRegionMarkers s) :=
  regionFree_of_escapeMarkers_eq (neutralizeRegionMarkers_fixpoint s)

theorem regionFree_middle {a s b : JsString} (h : REGION_MARKER_RE.Free (a ++ (s ++ b))) : REGION_MARKER_RE.Free s := by
  rw [regionFree_iff] at h ⊢
  rintro x m y hm rfl
  exact h (a ++ x) m (y ++ b) hm (by simp)

/-- A pass changes nothing where nothing matches. -/
theorem escapeMarkers_of_free {s : JsString} (h : REGION_MARKER_RE.Free s) : escapeMarkers s = s :=
  Regex.replace_of_free h

theorem neutralizeRegionMarkers_of_free {s : JsString} (h : REGION_MARKER_RE.Free s) : neutralizeRegionMarkers s = s := by
  rw [neutralizeRegionMarkers, neutralizeFrom, if_pos (escapeMarkers_of_free h)]

theorem regionFree_nil : REGION_MARKER_RE.Free [] := by
  intro a b hab
  obtain ⟨-, rfl⟩ := List.append_eq_nil_iff.mp hab.symm
  rfl

private theorem escapes_userMarker {p : Bool} {close : Bool} {o : JsString}
    (h : Escapes p (Marker.text ⟨close, .user⟩) o) :
    o = Marker.text ⟨close, .user⟩ ∨
      ∃ d w, o = str "<\\!-- " ++ d :: w ∧ d ≠ unit '-' ∧ isSpace d = false ∧ unit '<' ∉ d :: w := by
  cases close with
  | true =>
    rcases Escapes.comment (r := str "-- /@user -->") (by decide) h with rfl | rfl
    · exact .inl rfl
    · exact .inr ⟨unit '/', str "@user -->", rfl, by decide, by decide, by decide⟩
  | false =>
    rcases Escapes.comment (r := str "-- @user -->") (by decide) h with rfl | rfl
    · exact .inl rfl
    · exact .inr ⟨unit '@', str "user -->", rfl, by decide, by decide, by decide⟩

/-- A neutralized user span between two texts where nothing matches brings no match. -/
theorem regionFree_append_user {a b inner : JsString} (ha : REGION_MARKER_RE.Free a) (hb : REGION_MARKER_RE.Free b) :
    REGION_MARKER_RE.Free (a ++ (neutralizeRegionMarkers (Block.raw (.user inner)) ++ b)) := by
  have hregion := regionFree_neutralizeRegionMarkers (Block.raw (.user inner))
  have hesc := escapes_neutralizeRegionMarkers false (Block.raw (.user inner))
  obtain ⟨o₁, o₂₃, q, hout, h₁, h₂₃⟩ := hesc.exists_append
  obtain ⟨o₂, o₃, q', rfl, -, h₃⟩ := h₂₃.exists_append
  rw [hout] at hregion ⊢
  have hfree := markerFree_of_regionFree hregion
  rcases escapes_userMarker h₁ with rfl | ⟨d, w, rfl, hdash, hspace, hw⟩
  · exact absurd rfl (hfree [] ⟨false, .user⟩ (o₂ ++ o₃) trivial)
  rcases escapes_userMarker h₃ with rfl | ⟨d', w', rfl, hdash', hspace', hw'⟩
  · exact absurd (by simp [markerLexicon_text])
      (hfree ((str "<\\!-- " ++ d :: w) ++ o₂) ⟨true, .user⟩ [] trivial)
  have hright := regionFree_append_escaped (regionFree_middle hregion) hb hdash' hspace' hw'
  have hall := regionFree_append_escaped ha hright hdash hspace hw
  simpa using hall

private theorem neutralize_humanAt (pos : Nat) (text : JsString) :
    join [] ((humanAt pos text).map neutralizeSection) = neutralizeRegionMarkers text := by
  rw [humanAt]
  split
  · next h => rw [h, neutralizeRegionMarkers_of_free regionFree_nil]; rfl
  · simp [neutralizeSection]

def markerOf (close : Bool) (family : AssistantFamily) (id : JsString) : JsString :=
  Marker.text ⟨close, .region family id⟩

theorem regionOpenMarker_eq (id : JsString) : regionOpenMarker id = markerOf false .kwRegion id := by
  simp [regionOpenMarker, markerOf, Marker.text, Marker.core, MarkerTag.text, AssistantFamily.label, str]

theorem regionCloseMarker_eq (id : JsString) : regionCloseMarker id = markerOf true .kwRegion id := by
  simp [regionCloseMarker, markerOf, Marker.text, Marker.core, MarkerTag.text, AssistantFamily.label, str]

theorem generatedOpenMarker_eq (id : JsString) : generatedOpenMarker id = markerOf false .generated id := by
  simp [generatedOpenMarker, markerOf, Marker.text, Marker.core, MarkerTag.text, AssistantFamily.label, str]

theorem generatedCloseMarker_eq (id : JsString) : generatedCloseMarker id = markerOf true .generated id := by
  simp [generatedCloseMarker, markerOf, Marker.text, Marker.core, MarkerTag.text, AssistantFamily.label, str]

/-- The markers of a region say its opening family. -/
theorem startsWith_generatedOpenMarker {opening closing : AssistantFamily} {id inner : JsString} (hid : IsRegionId id) :
    startsWith (Block.raw (.region opening closing id inner)) (generatedOpenMarker id) = decide (opening = .generated) := by
  cases opening with
  | generated =>
    rw [generatedOpenMarker_eq]
    exact startsWith_iff.mpr ⟨_, rfl⟩
  | kwRegion =>
    rw [Bool.eq_iff_iff, startsWith_iff, generatedOpenMarker_eq]
    simp only [reduceCtorEq, decide_false, Bool.false_eq_true, iff_false]
    rintro ⟨t, ht⟩
    have hinj := @Lexicon.text_append_inj _ markerLexicon ⟨false, .region .kwRegion id⟩
      ⟨false, .region .generated id⟩ _ _ hid hid ht
    simp at hinj

/-- A region with both markers of one family, and its body on lines of its own. -/
def framedRegion (family : AssistantFamily) (id body : JsString) : Block := .region family family id (str "\n" ++ body ++ str "\n")

/-- A region span keeps its opening family, and both its markers are rendered in it. -/
theorem neutralize_region {pos : Nat} {opening closing : AssistantFamily} {id inner : JsString} (hid : IsRegionId id) :
    neutralizeSection (Block.toSection pos (.region opening closing id inner)) =
      (framedRegion opening id (neutralizeRegionMarkers (dropTrailingNewline (dropLeadingNewline inner)))).raw := by
  have hstart := @startsWith_generatedOpenMarker opening closing id inner hid
  simp only [Block.toSection, neutralizeSection, hstart]
  cases opening with
  | kwRegion =>
    simp [renderRegion, regionOpenMarker_eq, regionCloseMarker_eq, Block.raw, Block.openMarker, Block.closeMarker,
      Block.inner, markerOf, framedRegion]
  | generated =>
    simp [renderGeneratedRegion, generatedOpenMarker_eq, generatedCloseMarker_eq, Block.raw, Block.openMarker,
      Block.closeMarker, Block.inner, markerOf, framedRegion]

theorem newline_not_mem_text {m : Marker} (hm : m.Valid) : unit '\n' ∉ m.text := by
  have hcore : unit '\n' ∉ m.core := by
    obtain ⟨close, tag⟩ := m
    have htag : unit '\n' ∉ tag.text := by
      cases tag with
      | region family id =>
        intro hmem
        rw [MarkerTag.text, List.mem_append] at hmem
        rcases hmem with hmem | hmem
        · revert hmem
          cases family <;> decide
        · exact absurd (hm.2 _ hmem) (by decide)
      | user => decide
    cases close with
    | true =>
      rw [Marker.core, if_pos rfl, List.mem_append]
      rintro (hmem | hmem)
      · exact absurd hmem (by decide)
      · exact htag hmem
    | false => simpa [Marker.core] using htag
  simp only [Marker.text, List.mem_append]
  rintro (hmem | hmem | hmem)
  · exact absurd hmem (by decide)
  · exact hcore hmem
  · exact absurd hmem (by decide)

/-- No marker runs across the end of a line. -/
theorem free_append_newline {s u : JsString} :
    markerLexicon.Free (s ++ unit '\n' :: u) ↔ markerLexicon.Free s ∧ markerLexicon.Free u :=
  Lexicon.free_append_barrier fun _ hm => newline_not_mem_text hm

theorem free_framed {body : JsString} :
    markerLexicon.Free (str "\n" ++ body ++ str "\n") ↔ markerLexicon.Free body := by
  have h₁ := free_append_newline (s := []) (u := body ++ str "\n")
  have h₂ := free_append_newline (s := body) (u := [])
  simp only [Lexicon.Free.nil, true_and, and_true] at h₁ h₂
  have hframed : str "\n" ++ body ++ str "\n" = [] ++ unit '\n' :: (body ++ str "\n") := rfl
  rw [hframed, h₁]
  exact h₂

theorem body_framed (body : JsString) : dropTrailingNewline (dropLeadingNewline (str "\n" ++ body ++ str "\n")) = body := by
  have hlead : dropLeadingNewline (str "\n" ++ body ++ str "\n") = body ++ [unit '\n'] := by
    rw [List.append_assoc]
    change (if unit '\n' = unit '\n' then body ++ str "\n" else unit '\n' :: (body ++ str "\n")) = _
    exact if_pos rfl
  rw [hlead, dropTrailingNewline, if_pos (List.getLast?_concat ..), List.dropLast_concat]

/-- The id, opening family and body of a region. -/
def Block.assistant : Block → Option (JsString × AssistantFamily × JsString)
  | .user _ => none
  | .region opening _ id inner => some (id, opening, dropTrailingNewline (dropLeadingNewline inner))

def blockAssistants (blocks : List (Block × JsString)) : List (JsString × AssistantFamily × JsString) :=
  blocks.filterMap (·.1.assistant)

theorem blockAssistants_ids (blocks : List (Block × JsString)) : (blockAssistants blocks).map Prod.fst = blockIds blocks := by
  rw [blockAssistants, List.map_filterMap, blockIds]
  congr 1
  funext p
  obtain ⟨b, after⟩ := p
  cases b <;> rfl

/-- A region with its body neutralized. -/
def neutralizeBody (r : JsString × AssistantFamily × JsString) : JsString × AssistantFamily × JsString :=
  (r.1, r.2.1, neutralizeRegionMarkers r.2.2)

/-- A span of a neutralized body, with the text after it: a rendered region, and
    nothing else that any consumer would take for a marker. -/
structure Settled (b : Block × JsString) : Prop where
  span : ∃ family id body, b.1 = framedRegion family id body ∧ IsRegionId id ∧ REGION_MARKER_RE.Free body
  after : REGION_MARKER_RE.Free b.2

theorem framedRegion_sound {family : AssistantFamily} {id body : JsString} (hid : IsRegionId id) (hbody : markerLexicon.Free body) :
    (framedRegion family id body).Sound := by
  refine ⟨fun i hi => ?_, free_framed.mpr hbody⟩
  obtain rfl := Option.some.inj hi
  exact hid

theorem Settled.sound {b : Block × JsString} (h : Settled b) : b.1.Sound ∧ markerLexicon.Free b.2 := by
  obtain ⟨family, id, body, hb, hid, hbody⟩ := h.span
  rw [hb]
  exact ⟨framedRegion_sound hid (markerFree_of_regionFree hbody), markerFree_of_regionFree h.after⟩

/-- Neutralizing a well-formed body keeps its regions, each with its id and
    opening family and its body neutralized, and leaves no user span. -/
theorem neutralizeNoteBody_blocks (pos : Nat) (head : JsString) (blocks : List (Block × JsString))
    (hsound : ∀ b ∈ blocks, b.1.Sound) :
    ∃ head' blocks', join [] ((sectionsFrom pos head blocks).map neutralizeSection) = head' ++ blocksText blocks' ∧
      REGION_MARKER_RE.Free head' ∧ (∀ b ∈ blocks', Settled b) ∧
      blockAssistants blocks' = (blockAssistants blocks).map neutralizeBody := by
  induction blocks generalizing pos head with
  | nil =>
    refine ⟨neutralizeRegionMarkers head, [], ?_, regionFree_neutralizeRegionMarkers head, by simp, rfl⟩
    rw [sectionsFrom, neutralize_humanAt]
    simp [blocksText]
  | cons p blocks ih =>
    obtain ⟨b, after⟩ := p
    have hb := hsound _ (List.mem_cons_self ..)
    obtain ⟨head', blocks', htext, hfree, hsettled, hassistants⟩ :=
      ih (pos + head.length + b.raw.length) after fun b hb => hsound b (List.mem_cons_of_mem _ hb)
    have hjoin : join [] ((sectionsFrom pos head ((b, after) :: blocks)).map neutralizeSection) =
        neutralizeRegionMarkers head ++ (neutralizeSection (b.toSection (pos + head.length)) ++
          (head' ++ blocksText blocks')) := by
      have hgap := neutralize_humanAt pos head
      rw [join_nil] at hgap htext ⊢
      rw [sectionsFrom, List.map_append, List.flatten_append, hgap, List.map_cons, List.flatten_cons, htext]
    cases b with
    | user inner =>
      refine ⟨neutralizeRegionMarkers head ++ (neutralizeRegionMarkers (Block.raw (.user inner)) ++ head'), blocks',
        ?_, regionFree_append_user (regionFree_neutralizeRegionMarkers head) hfree, hsettled, hassistants⟩
      rw [hjoin]
      simp [Block.toSection, neutralizeSection]
    | region opening closing id inner =>
      have hid : IsRegionId id := hb.id id rfl
      let body := neutralizeRegionMarkers (dropTrailingNewline (dropLeadingNewline inner))
      have hbody : REGION_MARKER_RE.Free body := regionFree_neutralizeRegionMarkers _
      refine ⟨neutralizeRegionMarkers head, (framedRegion opening id body, head') :: blocks', ?_,
        regionFree_neutralizeRegionMarkers head, ?_, ?_⟩
      · rw [hjoin, neutralize_region hid]
        simp [blocksText, body]
      · intro b hb'
        rcases List.mem_cons.mp hb' with rfl | hb'
        · exact ⟨⟨opening, id, body, rfl, hid, hbody⟩, hfree⟩
        · exact hsettled b hb'
      · have hframed : (framedRegion opening id body).assistant = some (id, opening, body) := by
          rw [framedRegion, Block.assistant, body_framed]
        have hcons : blockAssistants ((framedRegion opening id body, head') :: blocks') =
            (id, opening, body) :: blockAssistants blocks' := List.filterMap_cons_some hframed
        rw [hcons, hassistants]
        rfl

/-- Neutralizing changes nothing where there is nothing left to neutralize. -/
theorem neutralizeNoteBody_settled (pos : Nat) {head : JsString} {blocks : List (Block × JsString)}
    (hhead : REGION_MARKER_RE.Free head) (hsettled : ∀ b ∈ blocks, Settled b) :
    join [] ((sectionsFrom pos head blocks).map neutralizeSection) = head ++ blocksText blocks := by
  induction blocks generalizing pos head with
  | nil =>
    rw [sectionsFrom, neutralize_humanAt, neutralizeRegionMarkers_of_free hhead]
    simp [blocksText]
  | cons p blocks ih =>
    obtain ⟨b, after⟩ := p
    obtain ⟨family, id, body, rfl, hid, hbody⟩ := (hsettled _ (List.mem_cons_self ..)).span
    have hafter : REGION_MARKER_RE.Free after := (hsettled _ (List.mem_cons_self ..)).after
    have hrest := ih (pos + head.length + (framedRegion family id body).raw.length) hafter
      fun b hb => hsettled b (List.mem_cons_of_mem _ hb)
    have hgap := neutralize_humanAt pos head
    have hregion : neutralizeSection ((framedRegion family id body).toSection (pos + head.length)) =
        (framedRegion family id body).raw := by
      rw [framedRegion, neutralize_region hid, body_framed, neutralizeRegionMarkers_of_free hbody]
      rfl
    rw [join_nil] at hgap hrest ⊢
    rw [sectionsFrom, List.map_append, List.flatten_append, hgap, neutralizeRegionMarkers_of_free hhead, List.map_cons,
      List.flatten_cons, hrest, hregion]
    simp [blocksText]

/-- The region ids of a body: none when it does not parse. -/
def bodyRegionIds (body : JsString) : List JsString :=
  match listRegionIds body with
  | .ok ids => ids
  | .error _ => []

/-- The id, opening family and body of an assistant section. -/
def AssistantSection.region (s : AssistantSection) : JsString × AssistantFamily × JsString :=
  (s.regionId, if startsWith s.raw (generatedOpenMarker s.regionId) then .generated else .kwRegion, s.body)

/-- The regions of a body: none when it does not parse. -/
def bodyRegions (body : JsString) : List (JsString × AssistantFamily × JsString) :=
  match parseSections body with
  | .ok sections => (assistants sections).map (·.region)
  | .error _ => []

theorem assistants_regions (pos : Nat) (head : JsString) (blocks : List (Block × JsString)) (hsound : ∀ b ∈ blocks, b.1.Sound) :
    (assistants (sectionsFrom pos head blocks)).map (·.region) = blockAssistants blocks := by
  induction blocks generalizing pos head with
  | nil => rw [sectionsFrom, assistants_humanAt]; rfl
  | cons p blocks ih =>
    obtain ⟨b, after⟩ := p
    have hrest := ih (pos + head.length + b.raw.length) after fun b hb => hsound b (List.mem_cons_of_mem _ hb)
    rw [sectionsFrom, assistants_append, assistants_humanAt, List.nil_append]
    cases b with
    | user inner => exact hrest
    | region opening closing id inner =>
      have hid : IsRegionId id := (hsound _ (List.mem_cons_self ..)).id id rfl
      have hstart := @startsWith_generatedOpenMarker opening closing id inner hid
      have hregion : AssistantSection.region ⟨id, dropTrailingNewline (dropLeadingNewline inner),
          Block.raw (.region opening closing id inner), pos + head.length,
          pos + head.length + (Block.raw (.region opening closing id inner)).length⟩ =
            (id, opening, dropTrailingNewline (dropLeadingNewline inner)) := by
        dsimp only [AssistantSection.region]
        rw [hstart]
        cases opening <;> rfl
      exact congr (congrArg List.cons hregion) hrest

/-- A neutralized body is a document with the regions of the body, each neutralized, and no user span. -/
theorem neutralizeNoteBody_regions (body : JsString) : ∃ L : Layout, L.text = neutralizeNoteBody body ∧
    REGION_MARKER_RE.Free L.head ∧ (∀ b ∈ L.blocks, Settled b) ∧
    blockAssistants L.blocks = (bodyRegions body).map neutralizeBody := by
  cases hparse : parseSections body with
  | error e =>
    have hregion := regionFree_neutralizeRegionMarkers body
    refine ⟨⟨neutralizeRegionMarkers body, [], markerFree_of_regionFree hregion, by simp, by simp [blockIds]⟩, ?_, hregion,
      by simp, ?_⟩
    · rw [neutralizeNoteBody, hparse]
      simp [Layout.text, blocksText]
    · rw [bodyRegions, hparse]
      rfl
  | ok sections =>
    obtain ⟨L, rfl, rfl⟩ := parseSections_eq_ok_iff.mp hparse
    have hsound : ∀ b ∈ L.blocks, b.1.Sound := fun b hb => (L.sound b hb).1
    obtain ⟨head, blocks, htext, hfree, hsettled, hassistants⟩ := neutralizeNoteBody_blocks 0 L.head L.blocks hsound
    have hids : blockIds blocks = blockIds L.blocks := by
      rw [← blockAssistants_ids, ← blockAssistants_ids, hassistants, List.map_map]
      rfl
    refine ⟨⟨head, blocks, markerFree_of_regionFree hfree, fun b hb => (hsettled b hb).sound, hids ▸ L.ids⟩, ?_, hfree,
      hsettled, ?_⟩
    · rw [neutralizeNoteBody, hparse]
      exact htext.symm
    · rw [bodyRegions, hparse, hassistants]
      exact congrArg (List.map neutralizeBody) (assistants_regions 0 L.head L.blocks hsound).symm

theorem bodyRegions_ids (body : JsString) : (bodyRegions body).map Prod.fst = bodyRegionIds body := by
  rw [bodyRegions, bodyRegionIds, listRegionIds]
  cases parseSections body with
  | error e => rfl
  | ok sections => exact List.map_map

/-- A neutralized body is a document with the region ids of the body, and no user span. -/
theorem neutralizeNoteBody_layout (body : JsString) : ∃ L : Layout, L.text = neutralizeNoteBody body ∧
    blockIds L.blocks = bodyRegionIds body ∧ ∀ b ∈ L.blocks, b.1.regionId.isSome := by
  obtain ⟨L, htext, -, hsettled, hassistants⟩ := neutralizeNoteBody_regions body
  refine ⟨L, htext, ?_, fun b hb => ?_⟩
  · rw [← bodyRegions_ids, ← blockAssistants_ids, hassistants, List.map_map]
    rfl
  · obtain ⟨family, id, inner, hspan, -⟩ := (hsettled b hb).span
    rw [hspan]
    rfl

theorem matchAll_of_regionFree {s : JsString} (h : REGION_MARKER_RE.Free s) : REGION_MARKER_RE.matchAll s = [] := by
  have hfrom : ∀ pos, REGION_MARKER_RE.matchAllFrom pos 0 s = [] := by
    induction s with
    | nil => exact fun _ => rfl
    | cons c s ih =>
      intro pos
      rw [Regex.matchAllFrom, h [] (c :: s) rfl]
      exact ih (fun a b hab => h (c :: a) b (by rw [hab, List.cons_append])) (pos + 1)
  exact hfrom 0

theorem matchAll_of_markerFree {s : JsString} (h : markerLexicon.Free s) : MARKER_RE.matchAll s = [] :=
  Lexicon.matchAllFrom_of_free h 0

/-- The loop of `neutralizeRegionMarkers` ends after some number of passes, at a text
    that one more pass leaves alone. -/
theorem neutralizeRegionMarkers_terminates (s : JsString) :
    ∃ n, neutralizeRegionMarkers s = escapeMarkers^[n] s ∧ escapeMarkers (escapeMarkers^[n] s) = escapeMarkers^[n] s := by
  have hfrom : ∀ fuel s, ∃ n, neutralizeFrom fuel s = escapeMarkers^[n] s := by
    intro fuel
    induction fuel with
    | zero => exact fun s => ⟨0, rfl⟩
    | succ fuel ih =>
      intro s
      rw [neutralizeFrom]
      split_ifs
      · exact ⟨0, rfl⟩
      · obtain ⟨n, hn⟩ := ih (escapeMarkers s)
        exact ⟨n + 1, hn⟩
  obtain ⟨n, hn⟩ := hfrom (s.length + 1) s
  have hfix := neutralizeRegionMarkers_fixpoint s
  rw [neutralizeRegionMarkers, hn] at hfix
  exact ⟨n, hn, hfix⟩

theorem mem_humanTexts {head t : JsString} {blocks : List (Block × JsString)} (hregions : ∀ b ∈ blocks, b.1.regionId.isSome)
    (h : t ∈ humanTexts head blocks) : t = head ∨ ∃ b ∈ blocks, t = b.2 := by
  induction blocks generalizing head with
  | nil =>
    rw [humanTexts] at h
    split_ifs at h
    · simp at h
    · exact .inl (List.mem_singleton.mp h)
  | cons p blocks ih =>
    obtain ⟨b, after⟩ := p
    have hb : b.regionId ≠ none := Option.isSome_iff_ne_none.mp (hregions _ (List.mem_cons_self ..))
    rw [humanTexts, if_neg hb, List.append_nil, List.mem_append] at h
    rcases h with h | h
    · split_ifs at h
      · simp at h
      · exact .inl (List.mem_singleton.mp h)
    · rcases ih (fun b hb => hregions b (List.mem_cons_of_mem _ hb)) h with rfl | ⟨b', hb', rfl⟩
      · exact .inr ⟨_, List.mem_cons_self .., rfl⟩
      · exact .inr ⟨b', List.mem_cons_of_mem _ hb', rfl⟩

/-- A neutralized body parses: no marker is left in its human text, its regions are those
    of the body with their bodies neutralized, and neutralizing it again changes nothing. -/
theorem neutralizeNoteBody_spec (body : JsString) :
    ∃ sections, parseSections (neutralizeNoteBody body) = .ok sections ∧
      (∀ h ∈ humans sections, MARKER_RE.matchAll h.text = []) ∧
      (assistants sections).map (·.region) = (bodyRegions body).map neutralizeBody ∧
      neutralizeNoteBody (neutralizeNoteBody body) = neutralizeNoteBody body := by
  obtain ⟨L, htext, hhead, hsettled, hassistants⟩ := neutralizeNoteBody_regions body
  have hparse := L.parseSections_text
  refine ⟨L.sections, htext ▸ hparse, fun h hh => ?_, ?_, ?_⟩
  · have hregions : ∀ b ∈ L.blocks, b.1.regionId.isSome := by
      intro b hb
      obtain ⟨family, id, inner, hspan, -⟩ := (hsettled b hb).span
      rw [hspan]
      rfl
    have hmem : h.text ∈ humanTexts L.head L.blocks := by
      rw [← humans_sectionsFrom 0]
      exact List.mem_map_of_mem hh
    rcases mem_humanTexts hregions hmem with heq | ⟨b, hb, heq⟩
    · rw [heq]
      exact matchAll_of_markerFree L.headFree
    · rw [heq]
      exact matchAll_of_markerFree (L.sound b hb).2
  · rw [← hassistants]
    exact assistants_regions 0 L.head L.blocks fun b hb => (L.sound b hb).1
  · rw [← htext, neutralizeNoteBody, hparse]
    exact neutralizeNoteBody_settled 0 hhead hsettled

/-- Neutralizing a text ends, leaves nothing that a parser or the neutralizer itself would match,
    and is stable; neutralizing a note body keeps its regions and no other boundary. -/
theorem neutralization_complete :
    (∀ s, (∃ n, neutralizeRegionMarkers s = escapeMarkers^[n] s ∧ escapeMarkers (escapeMarkers^[n] s) = escapeMarkers^[n] s) ∧
      MARKER_RE.matchAll (neutralizeRegionMarkers s) = [] ∧ REGION_MARKER_RE.matchAll (neutralizeRegionMarkers s) = [] ∧
      neutralizeRegionMarkers (neutralizeRegionMarkers s) = neutralizeRegionMarkers s) ∧
    ∀ body, ∃ sections, parseSections (neutralizeNoteBody body) = .ok sections ∧
      (∀ h ∈ humans sections, MARKER_RE.matchAll h.text = []) ∧
      (assistants sections).map (·.region) = (bodyRegions body).map neutralizeBody ∧
      neutralizeNoteBody (neutralizeNoteBody body) = neutralizeNoteBody body := by
  refine ⟨fun s => ?_, neutralizeNoteBody_spec⟩
  have hfree := regionFree_neutralizeRegionMarkers s
  refine ⟨neutralizeRegionMarkers_terminates s, ?_, matchAll_of_regionFree hfree, neutralizeRegionMarkers_of_free hfree⟩
  exact matchAll_of_markerFree (markerFree_of_regionFree hfree)

end sow.markdown_vault
