import Sow.Knowledge.MarkdownVault.NoteBody

open sow.js

namespace sow.markdown_vault

/-- What separates an appended region from the text before it. -/
def regionSeparator (content : JsString) : JsString :=
  if content.length = 0 then [] else if endsWith content (str "\n") then str "\n" else str "\n\n"

def upsertRegionBody (content id newBody : JsString) : Except SectionParseError JsString :=
  match parseSections content with
  | .error e => .error e
  | .ok sections =>
    let rendered := renderRegion id newBody
    match (assistants sections).find? (·.regionId = id) with
    | some existing => .ok (slice content 0 existing.start ++ rendered ++ content.drop existing.stop)
    | none => .ok (content ++ regionSeparator content ++ rendered)

section lossless

def Section.start : Section → Nat
  | .human s => s.start
  | .assistant s => s.start

def Section.stop : Section → Nat
  | .human s => s.stop
  | .assistant s => s.stop

/-- The bytes a section carries. -/
def Section.source : Section → JsString
  | .human s => s.text
  | .assistant s => s.raw

/-- Nonempty sections that cover a stretch of a document without gap or overlap. -/
def Contiguous (pos stop : Nat) : List Section → Prop
  | [] => pos = stop
  | s :: rest => s.start = pos ∧ pos < s.stop ∧ Contiguous s.stop stop rest

theorem Contiguous.append {pos mid stop : Nat} {l l' : List Section} (h : Contiguous pos mid l) (h' : Contiguous mid stop l') :
    Contiguous pos stop (l ++ l') := by
  induction l generalizing pos with
  | nil =>
    obtain rfl : pos = mid := h
    exact h'
  | cons s l ih =>
    obtain ⟨hstart, hlt, hrest⟩ := h
    exact ⟨hstart, hlt, ih hrest⟩

theorem Contiguous.le {pos stop : Nat} {l : List Section} (h : Contiguous pos stop l) : pos ≤ stop := by
  induction l generalizing pos with
  | nil => exact Nat.le_of_eq h
  | cons s l ih =>
    obtain ⟨-, hlt, hrest⟩ := h
    have := ih hrest
    omega

/-- Where sections cover a stretch and each is as long as its bytes, the slices of the
    document are their bytes. -/
theorem Contiguous.slice_eq {pre rest : JsString} {stop : Nat} {l : List Section} (h : Contiguous pre.length stop l)
    (hlen : ∀ s ∈ l, s.stop = s.start + s.source.length) :
    ∀ s ∈ l, slice (pre ++ (l.flatMap Section.source ++ rest)) s.start s.stop = s.source := by
  induction l generalizing pre with
  | nil => simp
  | cons s l ih =>
    obtain ⟨hstart, -, hrest⟩ := h
    have hs := hlen s (List.mem_cons_self ..)
    have hshift : Contiguous (pre ++ s.source).length stop l := by
      rw [List.length_append, ← hstart, ← hs]
      exact hrest
    have htail := ih hshift fun t ht => hlen t (List.mem_cons_of_mem _ ht)
    intro t ht
    rcases List.mem_cons.mp ht with rfl | ht
    · rw [List.flatMap_cons, List.append_assoc, hs, hstart]
      exact slice_middle pre t.source _
    · have htext := htail t ht
      rwa [List.append_assoc, ← List.append_assoc s.source, ← List.flatMap_cons] at htext

theorem block_raw_pos (b : Block) : 0 < b.raw.length := by
  cases b <;> simp [Block.raw, Block.openMarker, Marker.text, str]

theorem toSection_source (pos : Nat) (b : Block) : (b.toSection pos).source = b.raw ∧ (b.toSection pos).start = pos ∧
    (b.toSection pos).stop = pos + b.raw.length := by
  cases b <;> exact ⟨rfl, rfl, rfl⟩

private theorem contiguous_humanAt (pos : Nat) (text : JsString) : Contiguous pos (pos + text.length) (humanAt pos text) := by
  rw [humanAt]
  split_ifs with h
  · subst h
    rfl
  · have hpos : 0 < text.length := List.length_pos_iff.mpr h
    exact ⟨rfl, Nat.lt_add_of_pos_right hpos, rfl⟩

private theorem flatMap_humanAt (pos : Nat) (text : JsString) : (humanAt pos text).flatMap Section.source = text := by
  rw [humanAt]
  split_ifs with h
  · rw [h]
    rfl
  · simp [Section.source]

theorem contiguous_sectionsFrom (pos : Nat) (head : JsString) (blocks : List (Block × JsString)) :
    Contiguous pos (pos + (head ++ blocksText blocks).length) (sectionsFrom pos head blocks) ∧
      (sectionsFrom pos head blocks).flatMap Section.source = head ++ blocksText blocks ∧
      ∀ s ∈ sectionsFrom pos head blocks, s.stop = s.start + s.source.length := by
  have hhuman : ∀ (p : Nat) (t : JsString), ∀ s ∈ humanAt p t, s.stop = s.start + s.source.length := by
    intro p t s hs
    rw [humanAt] at hs
    split_ifs at hs
    · simp at hs
    · rw [List.mem_singleton.mp hs]
      rfl
  induction blocks generalizing pos head with
  | nil =>
    have htext : head ++ blocksText [] = head := List.append_nil _
    rw [sectionsFrom, htext]
    exact ⟨contiguous_humanAt pos head, flatMap_humanAt pos head, hhuman pos head⟩
  | cons p blocks ih =>
    obtain ⟨b, after⟩ := p
    obtain ⟨hcover, hbytes, hlen⟩ := ih (pos + head.length + b.raw.length) after
    obtain ⟨hsource, hstart, hstop⟩ := toSection_source (pos + head.length) b
    have htext : blocksText ((b, after) :: blocks) = b.raw ++ (after ++ blocksText blocks) := by
      simp [blocksText]
    rw [sectionsFrom, htext]
    refine ⟨?_, ?_, ?_⟩
    · apply (contiguous_humanAt pos head).append
      refine ⟨hstart, ?_, ?_⟩
      · have := block_raw_pos b
        omega
      · rw [hstop]
        convert hcover using 1
        simp only [List.length_append]
        omega
    · rw [List.flatMap_append, flatMap_humanAt, List.flatMap_cons, hsource, hbytes]
    · intro s hs
      rcases List.mem_append.mp hs with hs | hs
      · exact hhuman pos head s hs
      · rcases List.mem_cons.mp hs with rfl | hs
        · rw [hstop, hstart, hsource]
        · exact hlen s hs

/-- The sections of a document cover it from end to end, carry its bytes, and are told apart by their ids. -/
theorem parseSections_lossless {content : JsString} {sections : List Section} (h : parseSections content = .ok sections) :
    Contiguous 0 content.length sections ∧
      (∀ s ∈ sections, slice content s.start s.stop = s.source) ∧
      sections.flatMap (fun s => slice content s.start s.stop) = content ∧
      ((assistants sections).map (·.regionId)).Nodup := by
  obtain ⟨L, rfl, rfl⟩ := parseSections_eq_ok_iff.mp h
  obtain ⟨hcover, hbytes, hlen⟩ := contiguous_sectionsFrom 0 L.head L.blocks
  rw [Nat.zero_add] at hcover
  have hslice : ∀ s ∈ L.sections, slice L.text s.start s.stop = s.source := by
    have hall := @Contiguous.slice_eq [] [] _ _ hcover hlen
    rw [hbytes, List.append_nil, List.nil_append] at hall
    exact hall
  refine ⟨hcover, hslice, ?_, ?_⟩
  · rw [List.flatMap_congr hslice]
    exact hbytes
  · exact (assistants_sectionsFrom 0 L.head L.blocks).symm ▸ L.ids

end lossless

section upsert

variable {id : JsString}

theorem renderRegion_eq (id body : JsString) : renderRegion id body = (framedRegion .kwRegion id body).raw := by
  simp [renderRegion, regionOpenMarker_eq, regionCloseMarker_eq, Block.raw, Block.openMarker, Block.closeMarker,
    Block.inner, markerOf, framedRegion]

/-- A region of a document found by its id: the span of that id, at its place. -/
structure FoundAt (pos : Nat) (head : JsString) (blocks : List (Block × JsString)) (id : JsString) (s : AssistantSection) : Prop where
  span : ∃ before b after rest, blocks = before ++ (b, after) :: rest ∧ b.regionId = some id ∧
    s.start = pos + (head ++ blocksText before).length ∧ s.stop = s.start + b.raw.length

theorem find_cons (pos : Nat) (b : Block) (l : List Section) (id : JsString) :
    (b.regionId = some id → ∃ s, (assistants (b.toSection pos :: l)).find? (·.regionId = id) = some s ∧
      s.start = pos ∧ s.stop = pos + b.raw.length) ∧
    (b.regionId ≠ some id → (assistants (b.toSection pos :: l)).find? (·.regionId = id) = (assistants l).find? (·.regionId = id)) := by
  cases b with
  | user inner => exact ⟨fun h => absurd h (Option.some_ne_none _).symm, fun _ => rfl⟩
  | region opening closing id' inner =>
    constructor
    · intro h
      obtain rfl := Option.some.inj h
      exact ⟨_, List.find?_cons_of_pos (by simp), rfl, rfl⟩
    · intro h
      have hne : id' ≠ id := fun heq => h (heq ▸ rfl)
      exact List.find?_cons_of_neg (by simpa using hne)

/-- The search for a region by its id stops at the span of that id, if there is one. -/
theorem find_sectionsFrom (pos : Nat) (head : JsString) (blocks : List (Block × JsString)) (id : JsString) :
    (id ∉ blockIds blocks → (assistants (sectionsFrom pos head blocks)).find? (·.regionId = id) = none) ∧
    (id ∈ blockIds blocks → ∃ s, (assistants (sectionsFrom pos head blocks)).find? (·.regionId = id) = some s ∧
      FoundAt pos head blocks id s) := by
  induction blocks generalizing pos head with
  | nil =>
    rw [sectionsFrom, assistants_humanAt]
    exact ⟨fun _ => rfl, by simp [blockIds]⟩
  | cons p blocks ih =>
    obtain ⟨b, after⟩ := p
    obtain ⟨hnone, hsome⟩ := ih (pos + head.length + b.raw.length) after
    obtain ⟨hhit, hmiss⟩ := find_cons (pos + head.length) b (sectionsFrom (pos + head.length + b.raw.length) after blocks) id
    have hids : id ∈ blockIds ((b, after) :: blocks) ↔ b.regionId = some id ∨ id ∈ blockIds blocks := by
      simp only [blockIds, List.mem_filterMap, List.mem_cons, exists_eq_or_imp]
    rw [sectionsFrom, assistants_append, assistants_humanAt, List.nil_append, hids]
    by_cases hb : b.regionId = some id
    · obtain ⟨s, hs, hstart, hstop⟩ := hhit hb
      refine ⟨fun h => absurd (.inl hb) h, fun _ => ⟨s, hs, ⟨[], b, after, blocks, rfl, hb, ?_, ?_⟩⟩⟩
      · rw [hstart]
        simp [blocksText]
      · rw [hstop, hstart]
    · rw [hmiss hb]
      refine ⟨fun h => hnone fun hmem => h (.inr hmem), fun h => ?_⟩
      obtain ⟨s, hs, ⟨before, b', after', rest, rfl, hb', hstart, hstop⟩⟩ := hsome (h.resolve_left hb)
      refine ⟨s, hs, ⟨(b, after) :: before, b', after', rest, rfl, hb', ?_, hstop⟩⟩
      rw [hstart]
      simp [blocksText]
      omega

/-- The region of an id is rewritten in place. -/
theorem upsertRegionBody_existing {L : Layout} {before rest : List (Block × JsString)} {b : Block} {after newBody : JsString}
    (hblocks : L.blocks = before ++ (b, after) :: rest) (hb : b.regionId = some id) :
    upsertRegionBody L.text id newBody =
      .ok (L.head ++ blocksText (before ++ (framedRegion .kwRegion id newBody, after) :: rest)) := by
  have hmem : id ∈ blockIds L.blocks := by
    rw [hblocks]
    exact List.mem_filterMap.mpr ⟨(b, after), by simp, hb⟩
  obtain ⟨s, hs, ⟨before', b', after', rest', hblocks', hb', hstart, hstop⟩⟩ := (find_sectionsFrom 0 L.head L.blocks id).2 hmem
  obtain ⟨rfl, rfl, rfl, rfl⟩ := eq_of_regionId_eq (hblocks.symm.trans hblocks') (hblocks ▸ L.ids) hb hb'
  have htext : L.text = (L.head ++ blocksText before) ++ (b.raw ++ (after ++ blocksText rest)) := by
    rw [Layout.text, hblocks]
    simp [blocksText]
  have hkept : slice L.text 0 s.start = L.head ++ blocksText before := by
    rw [hstart, htext, Nat.zero_add, slice, List.drop_zero, Nat.sub_zero, List.take_left]
  have hrest : L.text.drop s.stop = after ++ blocksText rest := by
    rw [hstop, hstart, htext, Nat.zero_add, ← List.length_append, ← List.append_assoc, List.drop_left]
  have hfound : (assistants L.sections).find? (·.regionId = id) = some s := hs
  rw [upsertRegionBody, L.parseSections_text]
  dsimp only
  rw [hfound]
  dsimp only
  rw [hkept, hrest, renderRegion_eq]
  simp [blocksText]

/-- A region of a new id is appended after a separator. -/
theorem upsertRegionBody_absent {L : Layout} {newBody : JsString} (hid : id ∉ blockIds L.blocks) :
    upsertRegionBody L.text id newBody = .ok (L.text ++ regionSeparator L.text ++ (framedRegion .kwRegion id newBody).raw) := by
  have hnone : (assistants L.sections).find? (·.regionId = id) = none := (find_sectionsFrom 0 L.head L.blocks id).1 hid
  rw [upsertRegionBody, L.parseSections_text]
  dsimp only
  rw [hnone, renderRegion_eq]

theorem markerFree_of_matchAll {s : JsString} (h : MARKER_RE.matchAll s = []) : markerLexicon.Free s := by
  rintro a m b hm rfl
  have hmatch := Lexicon.matchAllFrom_append hm a b 0
  have hempty : markerLexicon.matchAllFrom 0 0 (a ++ (markerLexicon.text m ++ b)) = [] := h
  rw [hempty] at hmatch
  exact absurd hmatch.symm (List.append_ne_nil_of_right_ne_nil _ (List.cons_ne_nil _ _))

theorem free_append_separator {s content : JsString} (h : markerLexicon.Free s) : markerLexicon.Free (s ++ regionSeparator content) := by
  have hline : ∀ {t}, markerLexicon.Free t → markerLexicon.Free (t ++ str "\n") := fun ht =>
    free_append_newline.mpr ⟨ht, Lexicon.Free.nil⟩
  unfold regionSeparator
  split_ifs
  · rwa [List.append_nil]
  · exact hline h
  · have htwo := hline (hline h)
    rwa [List.append_assoc] at htwo

/-- The human text of a document: its unmarked texts and its user spans. -/
theorem flatten_humanTexts (head : JsString) (blocks : List (Block × JsString)) :
    (humanTexts head blocks).flatten = head ++ blocks.flatMap fun b => (if b.1.regionId = none then b.1.raw else []) ++ b.2 := by
  have hhead : ∀ t : JsString, (if t = [] then [] else [t]).flatten = t := by
    intro t
    split_ifs with ht
    · exact ht.symm
    · simp
  induction blocks generalizing head with
  | nil => rw [humanTexts, hhead, List.flatMap_nil, List.append_nil]
  | cons p blocks ih =>
    obtain ⟨b, after⟩ := p
    have hspan : (if b.regionId = none then [b.raw] else []).flatten = if b.regionId = none then b.raw else [] := by
      split_ifs <;> simp
    rw [humanTexts, List.flatten_append, List.flatten_append, hhead, hspan, ih, List.flatMap_cons]
    simp

theorem blockIds_span {before rest : List (Block × JsString)} {b : Block} {after : JsString} (hb : b.regionId = some id) :
    blockIds (before ++ (b, after) :: rest) = blockIds before ++ id :: blockIds rest := by
  have hcons : blockIds ((b, after) :: rest) = id :: blockIds rest := List.filterMap_cons_some hb
  rw [← hcons]
  exact List.filterMap_append

/-- A document with one of its regions rendered anew. -/
theorem exists_rewritten {L : Layout} {before rest : List (Block × JsString)} {b : Block} {after newBody : JsString}
    (hblocks : L.blocks = before ++ (b, after) :: rest) (hb : b.regionId = some id) (hid : IsRegionId id)
    (hbody : markerLexicon.Free newBody) :
    ∃ L' : Layout, L'.head = L.head ∧ L'.blocks = before ++ (framedRegion .kwRegion id newBody, after) :: rest := by
  have hids : blockIds (before ++ (framedRegion .kwRegion id newBody, after) :: rest) = blockIds L.blocks := by
    rw [hblocks, blockIds_span hb, blockIds_span rfl]
  have hsound := L.sound
  rw [hblocks] at hsound
  refine ⟨⟨L.head, before ++ (framedRegion .kwRegion id newBody, after) :: rest, L.headFree, fun c hc => ?_, hids ▸ L.ids⟩, rfl, rfl⟩
  rcases List.mem_append.mp hc with hc | hc
  · exact hsound c (List.mem_append_left _ hc)
  · rcases List.mem_cons.mp hc with rfl | hc
    · exact ⟨framedRegion_sound hid hbody, (hsound (b, after) (by simp)).2⟩
    · exact hsound c (by simp [hc])

/-- A document with a region of a new id at its end. -/
theorem exists_appended {L : Layout} {newBody : JsString} (hnew : id ∉ blockIds L.blocks) (hid : IsRegionId id)
    (hbody : markerLexicon.Free newBody) :
    ∃ L' : Layout, ∃ before, L'.blocks = before ++ [(framedRegion .kwRegion id newBody, [])] ∧
      L'.text = L.text ++ regionSeparator L.text ++ (framedRegion .kwRegion id newBody).raw ∧
      blockEntries before = blockEntries L.blocks ∧
      (humanTexts L'.head L'.blocks).flatten = (humanTexts L.head L.blocks).flatten ++ regionSeparator L.text := by
  have hregion : (framedRegion .kwRegion id newBody).Sound ∧ markerLexicon.Free [] :=
    ⟨framedRegion_sound hid hbody, Lexicon.Free.nil⟩
  have hsome : (framedRegion .kwRegion id newBody).regionId ≠ none := Option.some_ne_none id
  have hnodup : ∀ before, blockIds before = blockIds L.blocks →
      (blockIds (before ++ [(framedRegion .kwRegion id newBody, [])])).Nodup := by
    intro before hbefore
    have happend : blockIds (before ++ [(framedRegion .kwRegion id newBody, [])]) = blockIds before ++ [id] :=
      List.filterMap_append
    rw [happend, hbefore, List.nodup_append]
    refine ⟨L.ids, List.nodup_singleton id, ?_⟩
    rintro x hx y hy rfl
    exact hnew (List.mem_singleton.mp hy ▸ hx)
  generalize hsep : regionSeparator L.text = sep
  have hfree : ∀ {t}, markerLexicon.Free t → markerLexicon.Free (t ++ sep) := fun ht => hsep ▸ free_append_separator ht
  rcases List.eq_nil_or_concat L.blocks with hblocks | ⟨init, ⟨b, after⟩, hblocks⟩
  · refine ⟨⟨L.head ++ sep, [(framedRegion .kwRegion id newBody, [])], hfree L.headFree, fun c hc => ?_, ?_⟩, [], rfl, ?_, ?_, ?_⟩
    · rw [List.mem_singleton.mp hc]
      exact hregion
    · exact hnodup [] (by rw [hblocks])
    · simp [Layout.text, hblocks, blocksText]
    · rw [hblocks]
    · rw [flatten_humanTexts, flatten_humanTexts]
      dsimp only
      rw [hblocks]
      simp [hsome]
  · rw [List.concat_eq_append] at hblocks
    have hids : blockIds (init ++ [(b, after ++ sep)]) = blockIds L.blocks := by
      rw [hblocks, blockIds, blockIds, List.filterMap_append, List.filterMap_append]
      rfl
    have hsound := L.sound
    rw [hblocks] at hsound
    refine ⟨⟨L.head, (init ++ [(b, after ++ sep)]) ++ [(framedRegion .kwRegion id newBody, [])], L.headFree, fun c hc => ?_,
      hnodup _ hids⟩, init ++ [(b, after ++ sep)], rfl, ?_, ?_, ?_⟩
    · simp only [List.mem_append, List.mem_singleton] at hc
      rcases hc with (hc | rfl) | rfl
      · exact hsound c (List.mem_append_left _ hc)
      · have hlast := hsound (b, after) (by simp)
        exact ⟨hlast.1, hfree hlast.2⟩
      · exact hregion
    · simp [Layout.text, hblocks, blocksText]
    · rw [hblocks, blockEntries, blockEntries, List.filterMap_append, List.filterMap_append]
      rfl
    · rw [flatten_humanTexts, flatten_humanTexts]
      dsimp only
      rw [hblocks]
      simp [hsome]

/-- What a rewrite of one region promises of a document that parses. -/
structure Upserted (content : JsString) (sections : List Section) (id newBody next : JsString) (nextSections : List Section) : Prop where
  result : upsertRegionBody content id newBody = .ok next
  parses : parseSections next = .ok nextSections
  body : (getRegion next id).map (·.body) = some newBody
  /-- Every other region keeps its bytes, in its order. -/
  others : ((assistants nextSections).filter (·.regionId ≠ id)).map (fun s => (s.regionId, s.raw)) =
    ((assistants sections).filter (·.regionId ≠ id)).map (fun s => (s.regionId, s.raw))
  /-- A region that exists keeps its place among the regions and among the human texts. -/
  existing : id ∈ (assistants sections).map (·.regionId) →
    (assistants nextSections).map (·.regionId) = (assistants sections).map (·.regionId) ∧
      (humans nextSections).map (·.text) = (humans sections).map (·.text)
  /-- A new region follows everything else, after a separator. -/
  absent : id ∉ (assistants sections).map (·.regionId) →
    next = content ++ regionSeparator content ++ renderRegion id newBody ∧
      (assistants nextSections).map (·.regionId) = (assistants sections).map (·.regionId) ++ [id] ∧
      humanOwnedText nextSections = humanOwnedText sections ++ regionSeparator content
  stable : upsertRegionBody next id newBody = .ok next

theorem blockEntries_span {before rest : List (Block × JsString)} {family : AssistantFamily} {body after : JsString} :
    blockEntries (before ++ (framedRegion family id body, after) :: rest) =
      blockEntries before ++ (id, body, (framedRegion family id body).raw) :: blockEntries rest := by
  have hentry : (framedRegion family id body).entry = some (id, body, (framedRegion family id body).raw) := by
    change some (id, dropTrailingNewline (dropLeadingNewline _), _) = _
    rw [body_framed]
    rfl
  have hcons : blockEntries ((framedRegion family id body, after) :: rest) =
      (id, body, (framedRegion family id body).raw) :: blockEntries rest := List.filterMap_cons_some hentry
  rw [← hcons]
  exact List.filterMap_append

/-- The regions other than one, by id and bytes. -/
def otherEntries (id : JsString) (blocks : List (Block × JsString)) : List (JsString × JsString) :=
  ((blockEntries blocks).filter (·.1 ≠ id)).map fun e => (e.1, e.2.2)

theorem otherEntries_sections (id head : JsString) (blocks : List (Block × JsString)) :
    ((assistants (sectionsFrom 0 head blocks)).filter (·.regionId ≠ id)).map (fun s => (s.regionId, s.raw)) =
      otherEntries id blocks := by
  rw [otherEntries, ← assistants_entries 0 head, List.filter_map, List.map_map]
  rfl

theorem otherEntries_span {before rest : List (Block × JsString)} {b : Block} {after : JsString} (hb : b.regionId = some id) :
    otherEntries id (before ++ (b, after) :: rest) = otherEntries id before ++ otherEntries id rest := by
  cases b with
  | user inner => exact absurd hb (Option.some_ne_none id).symm
  | region opening closing id' inner =>
    obtain rfl := Option.some.inj hb
    have happend : blockEntries (before ++ (.region opening closing id' inner, after) :: rest) =
        blockEntries before ++ (id', _, _) :: blockEntries rest := List.filterMap_append
    unfold otherEntries
    rw [happend, List.filter_append, List.filter_cons_of_neg (by simp), List.map_append]

/-- The region just written is found again with its body. -/
theorem getRegion_written {L : Layout} {before rest : List (Block × JsString)} {newBody after : JsString}
    (hblocks : L.blocks = before ++ (framedRegion .kwRegion id newBody, after) :: rest) :
    (getRegion L.text id).map (·.body) = some newBody := by
  have hids := L.ids
  rw [hblocks, blockIds_span rfl, List.nodup_append] at hids
  have hbefore : ∀ e ∈ blockEntries before, ¬ (decide (e.1 = id)) = true := by
    intro e he heq
    have hmem : e.1 ∈ blockIds before := blockEntries_ids before ▸ List.mem_map_of_mem he
    exact hids.2.2 e.1 hmem id (List.mem_cons_self ..) (of_decide_eq_true heq)
  have hfind := L.getRegion_text id
  rw [hblocks, blockEntries_span, List.find?_append, List.find?_eq_none.mpr hbefore, Option.none_or,
    List.find?_cons_of_pos (by simp)] at hfind
  obtain ⟨s, hs, heq⟩ := Option.map_eq_some_iff.mp hfind
  rw [hs]
  exact congrArg some (congrArg (fun e => e.2.1) heq)

theorem upserted {L : Layout} {newBody : JsString} (hid : IsRegionId id) (hbody : markerLexicon.Free newBody) :
    ∃ next nextSections, Upserted L.text L.sections id newBody next nextSections := by
  have hids : (assistants L.sections).map (·.regionId) = blockIds L.blocks := assistants_sectionsFrom 0 L.head L.blocks
  by_cases hmem : id ∈ blockIds L.blocks
  · obtain ⟨⟨b, after⟩, hb, hbid⟩ := List.mem_filterMap.mp hmem
    obtain ⟨before, rest, hblocks⟩ := List.append_of_mem hb
    obtain ⟨L', hhead, hblocks'⟩ := exists_rewritten hblocks hbid hid hbody
    have hnext : L'.text = L.head ++ blocksText (before ++ (framedRegion .kwRegion id newBody, after) :: rest) := by
      rw [Layout.text, hhead, hblocks']
    have hids' : (assistants L'.sections).map (·.regionId) = blockIds L'.blocks := assistants_sectionsFrom 0 L'.head L'.blocks
    refine ⟨L'.text, L'.sections, ⟨?_, L'.parseSections_text, getRegion_written hblocks', ?_, fun _ => ⟨?_, ?_⟩, ?_, ?_⟩⟩
    · rw [hnext]
      exact upsertRegionBody_existing hblocks hbid
    · rw [Layout.sections, Layout.sections, otherEntries_sections, otherEntries_sections, hblocks, hblocks', otherEntries_span rfl,
        otherEntries_span hbid]
    · rw [hids, hids', hblocks, hblocks', blockIds_span rfl, blockIds_span hbid]
    · rw [Layout.sections, Layout.sections, humans_sectionsFrom, humans_sectionsFrom, hhead, hblocks, hblocks']
      exact humanTexts_region L.head before rest after rfl (hbid ▸ rfl)
    · exact fun hnot => absurd (hids ▸ hmem) hnot
    · have hstable := @upsertRegionBody_existing id L' before rest _ after newBody hblocks' rfl
      rwa [← hblocks'] at hstable
  · obtain ⟨L', before, hblocks', htext, hentries, hhuman⟩ := exists_appended hmem hid hbody
    have hids' : (assistants L'.sections).map (·.regionId) = blockIds L'.blocks := assistants_sectionsFrom 0 L'.head L'.blocks
    refine ⟨L'.text, L'.sections, ⟨?_, L'.parseSections_text, getRegion_written hblocks', ?_, ?_, fun _ => ⟨?_, ?_, ?_⟩, ?_⟩⟩
    · rw [htext]
      exact upsertRegionBody_absent hmem
    · rw [Layout.sections, Layout.sections, otherEntries_sections, otherEntries_sections, hblocks', otherEntries_span rfl,
        otherEntries, otherEntries, hentries]
      exact List.append_nil _
    · exact fun h => absurd (hids ▸ h) hmem
    · rw [htext, renderRegion_eq]
    · rw [hids, hids', hblocks', blockIds_span rfl, ← blockEntries_ids before, hentries, blockEntries_ids]
      rfl
    · rw [Layout.sections, Layout.sections, humanOwnedText_sectionsFrom, humanOwnedText_sectionsFrom]
      exact hhuman
    · have hstable := @upsertRegionBody_existing id L' before [] _ [] newBody hblocks' rfl
      rwa [← hblocks'] at hstable

/-- Parsing loses nothing, and rewriting a region is a lens on the document. -/
theorem upsert_lens {content : JsString} {sections : List Section} (h : parseSections content = .ok sections) :
    (Contiguous 0 content.length sections ∧
      (∀ s ∈ sections, slice content s.start s.stop = s.source) ∧
      sections.flatMap (fun s => slice content s.start s.stop) = content ∧
      ((assistants sections).map (·.regionId)).Nodup) ∧
    ∀ id newBody, IsRegionId id → MARKER_RE.matchAll newBody = [] →
      ∃ next nextSections, Upserted content sections id newBody next nextSections := by
  refine ⟨parseSections_lossless h, fun id newBody hid hbody => ?_⟩
  obtain ⟨L, rfl, rfl⟩ := parseSections_eq_ok_iff.mp h
  exact upserted hid (markerFree_of_matchAll hbody)

/-- A note with human text and a region of the other family. -/
def introNote : JsString := str "intro\n<!-- @generated:plan -->\nstep\n<!-- /@generated:plan -->"

def introSections : List Section :=
  [.human ⟨str "intro\n", 0, 6⟩,
    .assistant ⟨str "plan", str "step", str "<!-- @generated:plan -->\nstep\n<!-- /@generated:plan -->", 6, 61⟩]

theorem introNote_parses : parseSections introNote = .ok introSections := by decide +kernel

theorem introNote_upserts :
    Contiguous 0 introNote.length introSections ∧
    (∃ next nextSections, Upserted introNote introSections (str "plan") (str "two steps") next nextSections) ∧
    ∃ next nextSections, Upserted introNote introSections (str "log") (str "done") next nextSections := by
  obtain ⟨⟨hcover, -⟩, hupsert⟩ := upsert_lens introNote_parses
  exact ⟨hcover, hupsert _ _ (by decide) (by decide), hupsert _ _ (by decide) (by decide)⟩

end upsert

end sow.markdown_vault
