import Sow.Knowledge.MarkdownVault.Markers

open sow.js

namespace sow.markdown_vault

/-- A marked span of a document: a user span, or a region whose two markers may
    be of different families but share one id. -/
inductive Block where
  | user (inner : JsString)
  | region (opening closing : AssistantFamily) (id inner : JsString)
  deriving DecidableEq

namespace Block

def openMarker : Block → Marker
  | .user _ => ⟨false, .user⟩
  | .region opening _ id _ => ⟨false, .region opening id⟩

def closeMarker : Block → Marker
  | .user _ => ⟨true, .user⟩
  | .region _ closing id _ => ⟨true, .region closing id⟩

def inner : Block → JsString
  | .user inner => inner
  | .region _ _ _ inner => inner

/-- The whole span, markers included. -/
def raw (b : Block) : JsString := b.openMarker.text ++ (b.inner ++ b.closeMarker.text)

/-- The id of a region; user spans have none. -/
def regionId : Block → Option JsString
  | .user _ => none
  | .region _ _ id _ => some id

/-- Its markers are well formed and nothing inside it reads as a marker. -/
structure Sound (b : Block) : Prop where
  id : ∀ id ∈ b.regionId, IsRegionId id
  free : markerLexicon.Free b.inner

/-- The section of a span that starts at `pos`. -/
def toSection (pos : Nat) (b : Block) : Section :=
  match b with
  | .user _ => .human ⟨b.raw, pos, pos + b.raw.length⟩
  | .region _ _ id inner =>
    .assistant ⟨id, dropTrailingNewline (dropLeadingNewline inner), b.raw, pos, pos + b.raw.length⟩

theorem Sound.openMarker {b : Block} (h : b.Sound) : b.openMarker.Valid := by
  cases b with
  | user inner => trivial
  | region opening closing id inner => exact h.id id rfl

theorem Sound.closeMarker {b : Block} (h : b.Sound) : b.closeMarker.Valid := by
  cases b with
  | user inner => trivial
  | region opening closing id inner => exact h.id id rfl

end Block

/-- The text of spans, each followed by unmarked text. -/
def blocksText (blocks : List (Block × JsString)) : JsString := blocks.flatMap fun b => b.1.raw ++ b.2

/-- The markers and texts of spans. -/
def blocksPieces (blocks : List (Block × JsString)) : List (Marker × JsString) :=
  blocks.flatMap fun b => [(b.1.openMarker, b.1.inner), (b.1.closeMarker, b.2)]

def blockIds (blocks : List (Block × JsString)) : List JsString := blocks.filterMap (·.1.regionId)

/-- Unmarked text at `pos` as a human section, when there is any. -/
def humanAt (pos : Nat) (text : JsString) : List Section :=
  if text = [] then [] else [.human ⟨text, pos, pos + text.length⟩]

def sectionsFrom (pos : Nat) (head : JsString) : List (Block × JsString) → List Section
  | [] => humanAt pos head
  | (b, after) :: rest =>
    humanAt pos head ++ b.toSection (pos + head.length) ::
      sectionsFrom (pos + head.length + b.raw.length) after rest

/-- A well-formed document: unmarked texts and spans in turn, with distinct region
    ids and no marker anywhere but at the ends of the spans. -/
structure Layout where
  head : JsString
  blocks : List (Block × JsString)
  headFree : markerLexicon.Free head
  sound : ∀ b ∈ blocks, b.1.Sound ∧ markerLexicon.Free b.2
  ids : (blockIds blocks).Nodup

namespace Layout

def text (L : Layout) : JsString := L.head ++ blocksText L.blocks

def sections (L : Layout) : List Section := sectionsFrom 0 L.head L.blocks

def pieces (L : Layout) : Lexicon.Pieces Marker := ⟨L.head, blocksPieces L.blocks⟩

end Layout

theorem blocksPieces_sound {blocks : List (Block × JsString)}
    (h : ∀ b ∈ blocks, b.1.Sound ∧ markerLexicon.Free b.2) :
    ∀ p ∈ blocksPieces blocks, markerLexicon.Valid p.1 ∧ markerLexicon.Free p.2 := by
  intro p hp
  obtain ⟨b, hb, hp⟩ := List.mem_flatMap.mp hp
  obtain ⟨hsound, hfree⟩ := h b hb
  rcases List.mem_cons.mp hp with rfl | hp
  · exact ⟨hsound.openMarker, hsound.free⟩
  · obtain rfl := List.mem_singleton.mp hp
    exact ⟨hsound.closeMarker, hfree⟩

theorem Layout.pieces_sound (L : Layout) : L.pieces.Sound markerLexicon :=
  ⟨L.headFree, blocksPieces_sound L.sound⟩

theorem text_blocksPieces (head : JsString) (blocks : List (Block × JsString)) :
    Lexicon.Pieces.text markerLexicon ⟨head, blocksPieces blocks⟩ = head ++ blocksText blocks := by
  simp [Lexicon.Pieces.text, blocksText, blocksPieces, List.flatMap_assoc, Block.raw, markerLexicon]

theorem Layout.pieces_text (L : Layout) : L.pieces.text markerLexicon = L.text := text_blocksPieces L.head L.blocks

/-- What `parseSections` makes of a document once its markers are found. -/
def parseFrom (content : JsString) (st : ParseState) (ms : List (Match Marker)) :
    Except SectionParseError (List Section) := do
  let st ← parseMarkers content st ms
  match st.opened with
  | some o => .error ⟨.unclosed_region, o.id, o.markerStart⟩
  | none => .ok (st.sections ++ humanBetween content st.cursor content.length)

theorem parseSections_eq (content : JsString) :
    parseSections content = parseFrom content ⟨[], [], 0, none⟩ (MARKER_RE.matchAll content) := rfl

theorem parseFrom_cons (content : JsString) (st : ParseState) (m : Match Marker) (ms : List (Match Marker)) :
    parseFrom content st (m :: ms) = (parseMarker content st m).bind fun st => parseFrom content st ms := by
  rw [parseFrom, parseMarkers]
  cases parseMarker content st m <;> rfl

private theorem humanBetween_eq {content pre gap rest : JsString} (h : content = pre ++ (gap ++ rest)) :
    humanBetween content pre.length (pre.length + gap.length) = humanAt pre.length gap := by
  rw [humanBetween, humanAt, h, slice_middle]
  cases gap with
  | nil => simp
  | cons c gap => simp

/-- The two markers of a span take the parser from one gap to the next. -/
theorem parseFrom_block {content pre gap after rest : JsString} {b : Block}
    (h : content = pre ++ (gap ++ (b.raw ++ (after ++ rest)))) (sections : List Section) (seen : List JsString)
    (hseen : ∀ id ∈ b.regionId, id ∉ seen) (tail : List (Marker × JsString)) :
    parseFrom content ⟨sections, seen, pre.length, none⟩
        (Lexicon.Pieces.matchesAfter markerLexicon (pre.length + gap.length)
          ((b.openMarker, b.inner) :: (b.closeMarker, after) :: tail)) =
      parseFrom content
        ⟨sections ++ (humanAt pre.length gap ++ [b.toSection (pre.length + gap.length)]),
          b.regionId.toList ++ seen, pre.length + gap.length + b.raw.length, none⟩
        (Lexicon.Pieces.matchesAfter markerLexicon (pre.length + gap.length + b.raw.length + after.length) tail) := by
  have hgap := humanBetween_eq h
  have hraw : slice content (pre.length + gap.length) (pre.length + gap.length + b.raw.length) = b.raw := by
    have h' := slice_middle (pre ++ gap) b.raw (after ++ rest)
    simpa [h] using h'
  have hinner : slice content (pre.length + gap.length + b.openMarker.text.length)
      (pre.length + gap.length + b.openMarker.text.length + b.inner.length) = b.inner := by
    have h' := slice_middle (pre ++ (gap ++ b.openMarker.text)) b.inner (b.closeMarker.text ++ (after ++ rest))
    simpa [h, Block.raw, Nat.add_assoc] using h'
  have hend : pre.length + gap.length + b.openMarker.text.length + b.inner.length + b.closeMarker.text.length =
      pre.length + gap.length + b.raw.length := by
    simp only [Block.raw, List.length_append]
    omega
  simp only [Lexicon.Pieces.matchesAfter, parseFrom_cons]
  cases b with
  | user inner =>
    simp only [markerLexicon_text, Block.openMarker, Block.closeMarker, Block.inner, Block.regionId, Block.toSection]
      at hend hraw ⊢
    simp only [parseMarker, MarkerTag.family, MarkerTag.id, hgap, Except.bind, hend]
    simp [hraw]
  | region opening closing id inner =>
    have hid : id ∉ seen := hseen id rfl
    simp only [markerLexicon_text, Block.openMarker, Block.closeMarker, Block.inner, Block.regionId, Block.toSection]
      at hend hraw hinner ⊢
    simp only [parseMarker, MarkerTag.family, MarkerTag.id, hgap, Except.bind, hend]
    simp [hid, hraw, hinner]

/-- Spans with fresh, distinct ids are parsed into their sections. -/
theorem parseFrom_blocks {content pre gap : JsString} {blocks : List (Block × JsString)}
    (h : content = pre ++ (gap ++ blocksText blocks)) (sections : List Section) (seen : List JsString)
    (hseen : ∀ id ∈ blockIds blocks, id ∉ seen) (hnd : (blockIds blocks).Nodup) :
    parseFrom content ⟨sections, seen, pre.length, none⟩
        (Lexicon.Pieces.matchesAfter markerLexicon (pre.length + gap.length) (blocksPieces blocks)) =
      .ok (sections ++ sectionsFrom pre.length gap blocks) := by
  induction blocks generalizing pre gap sections seen with
  | nil =>
    have hgap := @humanBetween_eq content pre gap [] (by simpa [blocksText] using h)
    have hlen : content.length = pre.length + gap.length := by simp [h, blocksText]
    change Except.ok (sections ++ humanBetween content pre.length content.length) = _
    rw [hlen, hgap]
    rfl
  | cons p blocks ih =>
    obtain ⟨b, after⟩ := p
    have h' : content = pre ++ (gap ++ (b.raw ++ (after ++ blocksText blocks))) := by
      simpa [blocksText] using h
    have hids : blockIds ((b, after) :: blocks) = b.regionId.toList ++ blockIds blocks := by
      cases hid : b.regionId <;> simp [blockIds, hid]
    rw [hids] at hseen hnd
    rw [List.nodup_append] at hnd
    have hstep := parseFrom_block h' sections seen
      (fun id hid => hseen id (List.mem_append_left _ (Option.mem_toList.mpr hid))) (blocksPieces blocks)
    have hcontent : content = (pre ++ (gap ++ b.raw)) ++ (after ++ blocksText blocks) := by
      simpa using h'
    have hrest := ih hcontent (sections ++ (humanAt pre.length gap ++ [b.toSection (pre.length + gap.length)]))
      (b.regionId.toList ++ seen) ?_ hnd.2.1
    · simp only [List.length_append, ← Nat.add_assoc] at hrest
      rw [blocksPieces, List.flatMap_cons]
      refine hstep.trans (hrest.trans ?_)
      simp [sectionsFrom]
    · intro id hid hmem
      rcases List.mem_append.mp hmem with hmem | hmem
      · exact hnd.2.2 id hmem id hid rfl
      · exact hseen id (List.mem_append_right _ hid) hmem

/-- A successful parse means that the markers pair up into spans. -/
theorem blocks_of_parseFrom {content : JsString} {tail : List (Marker × JsString)} {pos : Nat} {st : ParseState}
    {out : List Section} (hopen : st.opened = none)
    (htail : ∀ p ∈ tail, markerLexicon.Valid p.1 ∧ markerLexicon.Free p.2)
    (h : parseFrom content st (Lexicon.Pieces.matchesAfter markerLexicon pos tail) = .ok out) :
    ∃ blocks, tail = blocksPieces blocks ∧ (∀ b ∈ blocks, b.1.Sound ∧ markerLexicon.Free b.2) ∧
      (∀ id ∈ blockIds blocks, id ∉ st.seen) ∧ (blockIds blocks).Nodup := by
  induction hn : tail.length using Nat.strong_induction_on generalizing tail pos st with
  | _ n ih =>
    subst hn
    match tail with
    | [] => exact ⟨[], rfl, by simp, by simp [blockIds], by simp [blockIds]⟩
    | [(m, s)] =>
      obtain ⟨close, tag⟩ := m
      exfalso
      rw [Lexicon.Pieces.matchesAfter, parseFrom_cons] at h
      cases close with
      | true => simp [parseMarker, hopen, Except.bind] at h
      | false =>
        by_cases hdup : tag.family = .assistant ∧ tag.id ∈ st.seen
        · simp [parseMarker, hopen, Except.bind, hdup] at h
        · simp only [parseMarker, hopen, hdup, ↓reduceIte, Except.bind] at h
          simp [Lexicon.Pieces.matchesAfter, parseFrom, parseMarkers, bind, Except.bind] at h
    | (m, s) :: (m', s') :: rest =>
      obtain ⟨close, tag⟩ := m
      obtain ⟨close', tag'⟩ := m'
      obtain ⟨hvalid, hfree⟩ := htail _ (List.mem_cons_self ..)
      have hfree' := (htail (⟨close', tag'⟩, s') (by simp)).2
      have hrest : ∀ p ∈ rest, markerLexicon.Valid p.1 ∧ markerLexicon.Free p.2 :=
        fun p hp => htail p (by simp [hp])
      simp only [Lexicon.Pieces.matchesAfter, parseFrom_cons] at h
      cases close with
      | true => simp [parseMarker, hopen, Except.bind] at h
      | false =>
        by_cases hdup : tag.family = .assistant ∧ tag.id ∈ st.seen
        · simp [parseMarker, hopen, Except.bind, hdup] at h
        simp only [parseMarker, hopen, hdup, ↓reduceIte, Except.bind] at h
        cases close' with
        | false => simp at h
        | true =>
          by_cases hmis : tag.family ≠ tag'.family ∨ tag.id ≠ tag'.id
          · simp [hmis] at h
          simp only [Bool.true_eq_false, hmis, ↓reduceIte] at h
          push Not at hmis
          obtain ⟨hfamily, hid⟩ := hmis
          cases tag with
          | user =>
            cases tag' with
            | region family id => simp [MarkerTag.family] at hfamily
            | user =>
              obtain ⟨blocks, rfl, hsound, hseen, hnd⟩ := ih rest.length (by simp) rfl hrest h rfl
              refine ⟨(.user s, s') :: blocks, by simp [blocksPieces, Block.openMarker, Block.closeMarker, Block.inner],
                ?_, by simpa [blockIds, Block.regionId] using hseen, by simpa [blockIds, Block.regionId] using hnd⟩
              intro b hb
              rcases List.mem_cons.mp hb with rfl | hb
              · exact ⟨⟨by simp [Block.regionId], hfree⟩, hfree'⟩
              · exact hsound b hb
          | region opening id =>
            cases tag' with
            | user => simp [MarkerTag.family] at hfamily
            | region closing id' =>
              obtain rfl : id = id' := hid
              obtain ⟨blocks, rfl, hsound, hseen, hnd⟩ := ih rest.length (by simp) rfl hrest h rfl
              have hnew : id ∉ st.seen := by simpa [MarkerTag.family, MarkerTag.id] using hdup
              simp only [MarkerTag.id, List.mem_cons, not_or] at hseen
              refine ⟨(.region opening closing id s, s') :: blocks,
                by simp [blocksPieces, Block.openMarker, Block.closeMarker, Block.inner], ?_, ?_, ?_⟩
              · intro b hb
                rcases List.mem_cons.mp hb with rfl | hb
                · refine ⟨⟨?_, hfree⟩, hfree'⟩
                  intro i hi
                  obtain rfl : id = i := by simpa [Block.regionId] using hi
                  exact hvalid
                · exact hsound b hb
              · intro i hi
                rw [blockIds, List.filterMap_cons_some (by rfl)] at hi
                rcases List.mem_cons.mp hi with rfl | hi
                · exact hnew
                · exact (hseen i hi).2
              · rw [blockIds, List.filterMap_cons_some (by rfl), List.nodup_cons]
                exact ⟨fun hmem => (hseen id hmem).1 rfl, hnd⟩

/-- `parseSections` accepts exactly the well-formed documents, and returns their sections. -/
theorem parseSections_eq_ok_iff {content : JsString} {sections : List Section} :
    parseSections content = .ok sections ↔ ∃ L : Layout, L.text = content ∧ L.sections = sections := by
  have hfwd : ∀ L : Layout, parseSections L.text = .ok L.sections := by
    intro L
    have hmatch := Lexicon.Pieces.matchAllFrom_text L.pieces_sound 0
    rw [Layout.pieces_text] at hmatch
    have hparse := @parseFrom_blocks L.text [] L.head L.blocks rfl [] []
      (by simp) L.ids
    simp only [List.length_nil, Nat.zero_add, List.nil_append] at hparse hmatch
    rw [parseSections_eq, Regex.matchAll]
    exact (congrArg _ hmatch).trans hparse
  constructor
  · intro h
    obtain ⟨P, hP, rfl⟩ := @Lexicon.Pieces.exists_text_eq _ markerLexicon content
    have hmatch := Lexicon.Pieces.matchAllFrom_text hP 0
    have h' := h
    rw [parseSections_eq, Regex.matchAll] at h'
    rw [show MARKER_RE.matchAllFrom 0 0 (P.text markerLexicon) = _ from hmatch] at h'
    obtain ⟨blocks, htail, hsound, -, hnd⟩ := blocks_of_parseFrom rfl hP.2 h'
    let L : Layout := ⟨P.head, blocks, hP.1, hsound, hnd⟩
    have hL : L.pieces = P := by
      simp only [Layout.pieces, L, ← htail]
    have htext : L.text = P.text markerLexicon := by rw [← Layout.pieces_text, hL]
    refine ⟨L, htext, ?_⟩
    have hpL := hfwd L
    rw [htext, h] at hpL
    exact (Except.ok.inj hpL).symm
  · rintro ⟨L, rfl, rfl⟩
    exact hfwd L

theorem Layout.parseSections_text (L : Layout) : parseSections L.text = .ok L.sections :=
  parseSections_eq_ok_iff.mpr ⟨L, rfl, rfl⟩

private theorem blocksPieces_injective : Function.Injective blocksPieces := by
  intro blocks
  induction blocks with
  | nil =>
    intro blocks' h
    cases blocks' with
    | nil => rfl
    | cons b' blocks' => simp [blocksPieces] at h
  | cons b blocks ih =>
    intro blocks' h
    cases blocks' with
    | nil => simp [blocksPieces] at h
    | cons b' blocks' =>
      obtain ⟨b, after⟩ := b
      obtain ⟨b', after'⟩ := b'
      simp only [blocksPieces, List.flatMap_cons, List.cons_append, List.nil_append, List.cons.injEq,
        Prod.mk.injEq] at h
      obtain ⟨⟨hopen, hinner⟩, ⟨hclose, rfl⟩, htail⟩ := h
      obtain rfl : b = b' := by
        cases b <;> cases b' <;>
          simp_all [Block.openMarker, Block.closeMarker, Block.inner]
      rw [ih htail]

/-- A document has one layout. -/
theorem Layout.eq_of_text_eq {L L' : Layout} (h : L.text = L'.text) : L.head = L'.head ∧ L.blocks = L'.blocks := by
  have hpieces : L.pieces = L'.pieces := Lexicon.Pieces.eq_of_text_eq L.pieces_sound L'.pieces_sound
    (by rw [L.pieces_text, L'.pieces_text, h])
  refine ⟨congrArg Lexicon.Pieces.head hpieces, ?_⟩
  exact blocksPieces_injective (congrArg Lexicon.Pieces.tail hpieces)

private theorem blocksPieces_cons (b : Block) (after : JsString) (blocks : List (Block × JsString)) :
    blocksPieces ((b, after) :: blocks) = (b.openMarker, b.inner) :: (b.closeMarker, after) :: blocksPieces blocks := by
  simp [blocksPieces]

theorem blocksPieces_append (blocks blocks' : List (Block × JsString)) :
    blocksPieces (blocks ++ blocks') = blocksPieces blocks ++ blocksPieces blocks' :=
  List.flatMap_append

private theorem openMarker_close (b : Block) : b.openMarker.close = false := by cases b <;> rfl

private theorem closeMarker_close (b : Block) : b.closeMarker.close = true := by cases b <;> rfl

/-- An opening marker among the pieces is that of a span, one piece before its end. -/
theorem exists_block_of_open {blocks : List (Block × JsString)} {l l' : List (Marker × JsString)} {m : Marker}
    {s : JsString} (hm : m.close = false) (h : blocksPieces blocks = l ++ (m, s) :: l') :
    ∃ before b after rest, blocks = before ++ (b, after) :: rest ∧ l = blocksPieces before ∧ m = b.openMarker ∧
      s = b.inner := by
  induction blocks generalizing l with
  | nil => simp [blocksPieces] at h
  | cons p blocks ih =>
    obtain ⟨b, after⟩ := p
    rw [blocksPieces_cons] at h
    match l with
    | [] =>
      obtain ⟨⟨rfl, rfl⟩, -⟩ : ((b.openMarker, b.inner) = (m, s)) ∧ _ := by simpa using h
      exact ⟨[], b, after, blocks, rfl, rfl, rfl, rfl⟩
    | [q] =>
      obtain ⟨-, ⟨rfl, -⟩, -⟩ : _ ∧ ((b.closeMarker, after) = (m, s)) ∧ _ := by simpa using h
      rw [closeMarker_close] at hm
      cases hm
    | q :: q' :: l =>
      simp only [List.cons_append, List.cons.injEq] at h
      obtain ⟨rfl, rfl, h⟩ := h
      obtain ⟨before, b', after', rest, rfl, rfl, hb, hs⟩ := ih h
      exact ⟨(b, after) :: before, b', after', rest, rfl, (blocksPieces_cons ..).symm, hb, hs⟩

/-- A closing marker among the pieces is that of a span, after the span's opening. -/
theorem exists_block_of_close {blocks : List (Block × JsString)} {l l' : List (Marker × JsString)} {m : Marker}
    {s : JsString} (hm : m.close = true) (h : blocksPieces blocks = l ++ (m, s) :: l') :
    ∃ before b rest, blocks = before ++ (b, s) :: rest ∧ l = blocksPieces before ++ [(b.openMarker, b.inner)] ∧
      m = b.closeMarker ∧ l' = blocksPieces rest := by
  induction blocks generalizing l with
  | nil => simp [blocksPieces] at h
  | cons p blocks ih =>
    obtain ⟨b, after⟩ := p
    rw [blocksPieces_cons] at h
    match l with
    | [] =>
      obtain ⟨⟨rfl, -⟩, -⟩ : ((b.openMarker, b.inner) = (m, s)) ∧ _ := by simpa using h
      rw [openMarker_close] at hm
      cases hm
    | [q] =>
      obtain ⟨rfl, ⟨rfl, rfl⟩, rfl⟩ : (b.openMarker, b.inner) = q ∧ ((b.closeMarker, after) = (m, s)) ∧
        blocksPieces blocks = l' := by simpa using h
      exact ⟨[], b, blocks, rfl, rfl, rfl, rfl⟩
    | q :: q' :: l =>
      simp only [List.cons_append, List.cons.injEq] at h
      obtain ⟨rfl, rfl, h⟩ := h
      obtain ⟨before, b', rest, rfl, rfl, hb, hl'⟩ := ih h
      refine ⟨(b, after) :: before, b', rest, rfl, ?_, hb, hl'⟩
      rw [blocksPieces_cons, List.cons_append, List.cons_append]

/-- Distinct ids name one span each. -/
theorem eq_of_regionId_eq {before before' rest rest' : List (Block × JsString)} {b b' : Block} {after after' id : JsString}
    (h : before ++ (b, after) :: rest = before' ++ (b', after') :: rest')
    (hnd : (blockIds (before ++ (b, after) :: rest)).Nodup) (hb : b.regionId = some id) (hb' : b'.regionId = some id) :
    before = before' ∧ b = b' ∧ after = after' ∧ rest = rest' := by
  have hmem : ∀ (l r : List (Block × JsString)) (c : Block) (s : JsString), c.regionId = some id →
      id ∈ blockIds (l ++ (c, s) :: r) := fun l r c s hc =>
    List.mem_filterMap.mpr ⟨(c, s), by simp, hc⟩
  induction before generalizing before' with
  | nil =>
    cases before' with
    | nil =>
      obtain ⟨⟨rfl, rfl⟩, rfl⟩ : ((b, after) = (b', after')) ∧ rest = rest' := by simpa using h
      exact ⟨rfl, rfl, rfl, rfl⟩
    | cons p before' =>
      obtain ⟨rfl, rfl⟩ : (b, after) = p ∧ rest = before' ++ (b', after') :: rest' := by simpa using h
      have hcons : blockIds ([] ++ (b, after) :: (before' ++ (b', after') :: rest')) =
          id :: blockIds (before' ++ (b', after') :: rest') := List.filterMap_cons_some hb
      rw [hcons, List.nodup_cons] at hnd
      exact absurd (hmem _ _ _ _ hb') hnd.1
  | cons p before ih =>
    cases before' with
    | nil =>
      obtain ⟨rfl, rfl⟩ : p = (b', after') ∧ before ++ (b, after) :: rest = rest' := by simpa using h
      have hcons : blockIds ((b', after') :: before ++ (b, after) :: rest) =
          id :: blockIds (before ++ (b, after) :: rest) := List.filterMap_cons_some hb'
      rw [hcons, List.nodup_cons] at hnd
      exact absurd (hmem _ _ _ _ hb) hnd.1
    | cons p' before' =>
      simp only [List.cons_append, List.cons.injEq] at h
      obtain ⟨rfl, h⟩ := h
      have hsub : (blockIds (before ++ (b, after) :: rest)).Nodup :=
        hnd.sublist ((List.sublist_cons_self p _).filterMap _)
      obtain ⟨rfl, hrest⟩ := ih h hsub
      exact ⟨rfl, hrest⟩

/-- The markers of a document are those of its spans. -/
theorem Layout.tokens_text (L : Layout) :
    markerLexicon.tokens L.text = L.blocks.flatMap fun b => [b.1.openMarker, b.1.closeMarker] := by
  rw [← L.pieces_text, Lexicon.tokens_text L.pieces_sound]
  simp only [Layout.pieces, blocksPieces, List.map_flatMap]
  rfl

theorem assistants_humanAt (pos : Nat) (text : JsString) : assistants (humanAt pos text) = [] := by
  rw [humanAt]
  split <;> rfl

private theorem humans_humanAt (pos : Nat) (text : JsString) :
    (humans (humanAt pos text)).map (·.text) = if text = [] then [] else [text] := by
  rw [humanAt]
  split <;> rfl

theorem assistants_append (l l' : List Section) : assistants (l ++ l') = assistants l ++ assistants l' :=
  List.filterMap_append

private theorem humans_append (l l' : List Section) : humans (l ++ l') = humans l ++ humans l' :=
  List.filterMap_append

/-- The region ids of a document are those of its spans. -/
theorem assistants_sectionsFrom (pos : Nat) (head : JsString) (blocks : List (Block × JsString)) :
    (assistants (sectionsFrom pos head blocks)).map (·.regionId) = blockIds blocks := by
  induction blocks generalizing pos head with
  | nil => rw [sectionsFrom, assistants_humanAt]; rfl
  | cons p blocks ih =>
    obtain ⟨b, after⟩ := p
    rw [sectionsFrom, assistants_append, assistants_humanAt, List.nil_append]
    cases b with
    | user inner => exact ih _ _
    | region opening closing id inner => exact congrArg (id :: ·) (ih _ _)

/-- The texts of the human sections of a document, each unmarked or a user span. -/
def humanTexts (head : JsString) : List (Block × JsString) → List JsString
  | [] => if head = [] then [] else [head]
  | (b, after) :: rest =>
    (if head = [] then [] else [head]) ++ (if b.regionId = none then [b.raw] else []) ++ humanTexts after rest

theorem humans_sectionsFrom (pos : Nat) (head : JsString) (blocks : List (Block × JsString)) :
    (humans (sectionsFrom pos head blocks)).map (·.text) = humanTexts head blocks := by
  induction blocks generalizing pos head with
  | nil => exact humans_humanAt pos head
  | cons p blocks ih =>
    obtain ⟨b, after⟩ := p
    rw [sectionsFrom, humans_append, List.map_append, humans_humanAt, humanTexts, List.append_assoc]
    congr 1
    cases b with
    | user inner => exact congrArg (_ :: ·) (ih _ _)
    | region opening closing id inner => exact ih _ _

/-- The id, body and slice of a region. -/
def Block.entry : Block → Option (JsString × JsString × JsString)
  | .user _ => none
  | .region opening closing id inner =>
    some (id, dropTrailingNewline (dropLeadingNewline inner), (Block.region opening closing id inner).raw)

def blockEntries (blocks : List (Block × JsString)) : List (JsString × JsString × JsString) :=
  blocks.filterMap (·.1.entry)

theorem blockEntries_ids (blocks : List (Block × JsString)) : (blockEntries blocks).map Prod.fst = blockIds blocks := by
  rw [blockEntries, List.map_filterMap, blockIds]
  congr 1
  funext ⟨b, after⟩
  cases b <;> rfl

theorem assistants_entries (pos : Nat) (head : JsString) (blocks : List (Block × JsString)) :
    (assistants (sectionsFrom pos head blocks)).map (fun s => (s.regionId, s.body, s.raw)) = blockEntries blocks := by
  induction blocks generalizing pos head with
  | nil => rw [sectionsFrom, assistants_humanAt]; rfl
  | cons p blocks ih =>
    obtain ⟨b, after⟩ := p
    rw [sectionsFrom, assistants_append, assistants_humanAt, List.nil_append]
    cases b with
    | user inner => exact ih _ _
    | region opening closing id inner => exact congrArg (_ :: ·) (ih _ _)

/-- `getRegion` looks a region up by its id. -/
theorem Layout.getRegion_text (L : Layout) (id : JsString) :
    (getRegion L.text id).map (fun s => (s.regionId, s.body, s.raw)) = (blockEntries L.blocks).find? (·.1 = id) := by
  rw [getRegion, L.parseSections_text, ← assistants_entries 0 L.head, List.find?_map]
  rfl

theorem humanOwnedText_sectionsFrom (pos : Nat) (head : JsString) (blocks : List (Block × JsString)) :
    humanOwnedText (sectionsFrom pos head blocks) = (humanTexts head blocks).flatten := by
  rw [humanOwnedText, humans_sectionsFrom, join_nil]

/-- Human texts do not see a region change. -/
theorem humanTexts_region (head : JsString) (before rest : List (Block × JsString)) (after : JsString) {b b' : Block}
    (hb : b.regionId.isSome) (hb' : b'.regionId.isSome) :
    humanTexts head (before ++ (b, after) :: rest) = humanTexts head (before ++ (b', after) :: rest) := by
  have hnone : ∀ b : Block, b.regionId.isSome → (if b.regionId = none then [b.raw] else []) = [] := by
    intro b hb
    rw [if_neg (Option.isSome_iff_ne_none.mp hb)]
  induction before generalizing head with
  | nil => rw [List.nil_append, List.nil_append, humanTexts, humanTexts, hnone b hb, hnone b' hb']
  | cons p before ih => rw [List.cons_append, List.cons_append, humanTexts, humanTexts, ih]

end sow.markdown_vault
