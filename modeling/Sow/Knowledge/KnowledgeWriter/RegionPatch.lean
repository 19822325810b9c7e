import Sow.Knowledge.KnowledgeWriter.FrontmatterCodec
import Sow.Knowledge.KnowledgeWriter.WriterAtomicity
import Sow.Knowledge.MarkdownVault.NoteBody

open sow.js sow.effect sow.markdown_vault

namespace sow.knowledge_writer

/-- A note that `composeNote` writes back as it was read. -/
def NormalForm (content : JsString) : Prop :=
  composeNote (parseNote content).frontmatter (parseNote content).body = content

/-- The patcher finds the region: its opening and its closing `kw:region` marker, in
    this order, in the body below the frontmatter. -/
def FindsRegion (content id : JsString) : Prop :=
  ∃ start stop, indexOf (regionOpenMarker id) (parseNote content).body = some start ∧
    indexOf (regionCloseMarker id) (parseNote content).body = some stop ∧ start < stop

/-- What a patch promises of a file: the ownership check passes it, the region reads as
    the neutralized new body, every other region is byte-identical, and human-owned
    text is unchanged. -/
structure RegionPatched (plan : KnowledgeMutationPlan) (patch : NotePatch) (content next : JsString) : Prop where
  owned : checkOwnership ⟨patch.path, some content, next, plan⟩ = .ok ()
  patched : (getRegion next patch.regionId).map (·.body) = some (neutralizeRegionMarkers patch.newBody)
  others : ∀ id, id ≠ patch.regionId → (getRegion next id).map (·.raw) = (getRegion content id).map (·.raw)
  human : (parseSections next).map humanOwnedText = (parseSections content).map humanOwnedText

section layout

variable {L : Layout} {content id : JsString}

private theorem regionRawById_get (L : Layout) (id : JsString) :
    (regionRawById L.sections).get id = ((blockEntries L.blocks).find? (·.1 = id)).map (·.2.2) := by
  have hentries : (regionRawById L.sections).entries = (blockEntries L.blocks).map fun e => (e.1, e.2.2) := by
    have hfold : regionRawById L.sections = .ofList ((blockEntries L.blocks).map fun e => (e.1, e.2.2)) := by
      rw [← assistants_entries 0 L.head, List.map_map, Map.ofList, List.foldl_map]
      rfl
    rw [hfold, Map.entries_ofList]
    rw [List.map_map]
    exact (congrArg _ (blockEntries_ids L.blocks)).mpr L.ids
  have hget : ∀ l : List (JsString × JsString × JsString),
      Map.getEntry id (l.map fun e => (e.1, e.2.2)) = (l.find? (·.1 = id)).map (·.2.2) := by
    intro l
    induction l with
    | nil => rfl
    | cons e l ih =>
      rw [List.map_cons, Map.getEntry, List.find?_cons, ih]
      by_cases h : e.1 = id <;> simp [h]
  rw [Map.get, hentries, hget]

/-- Where the patcher finds the region, it is a span of the document, of the `kw:region`
    family at both ends, and what is before and after it is what the patcher keeps. -/
private theorem exists_region_of_finds (hid : IsRegionId id) {block body : JsString} (hL : L.text = block ++ body)
    {start stop : Nat} (hstart : indexOf (regionOpenMarker id) body = some start)
    (hstop : indexOf (regionCloseMarker id) body = some stop) :
    ∃ before inner after rest, L.blocks = before ++ (.region .kwRegion .kwRegion id inner, after) :: rest ∧
      block ++ slice body 0 start = L.head ++ blocksText before ∧
      body.drop (stop + (regionCloseMarker id).length) = after ++ blocksText rest := by
  have hvalid : markerLexicon.Valid ⟨false, .region .kwRegion id⟩ := hid
  have hvalid' : markerLexicon.Valid ⟨true, .region .kwRegion id⟩ := hid
  have hslice : slice body 0 start = body.take start := by simp [slice]
  have hopenAt : L.pieces.text markerLexicon = (block ++ body.take start) ++
      (markerLexicon.text ⟨false, .region .kwRegion id⟩ ++ body.drop (start + (regionOpenMarker id).length)) := by
    have hsplit := indexOf_split hstart
    rw [L.pieces_text, hL]
    conv_lhs => rw [hsplit]
    rw [regionOpenMarker_eq]
    simp [markerOf]
  have hcloseAt : L.pieces.text markerLexicon = (block ++ body.take stop) ++
      (markerLexicon.text ⟨true, .region .kwRegion id⟩ ++ body.drop (stop + (regionCloseMarker id).length)) := by
    have hsplit := indexOf_split hstop
    rw [L.pieces_text, hL]
    conv_lhs => rw [hsplit]
    rw [regionCloseMarker_eq]
    simp [markerOf]
  obtain ⟨l, s, l', htail, ha, -⟩ := Lexicon.Pieces.exists_split L.pieces_sound hvalid hopenAt
  obtain ⟨before, b, after, rest, hblocks, rfl, hopen, -⟩ := exists_block_of_open rfl htail
  obtain ⟨l₂, s₂, l₂', htail₂, -, hb₂⟩ := Lexicon.Pieces.exists_split L.pieces_sound hvalid' hcloseAt
  obtain ⟨before₂, b₂, rest₂, hblocks₂, -, hclose, rfl⟩ := exists_block_of_close rfl htail₂
  have hbid : b.regionId = some id := by
    cases b with
    | user inner => simp [Block.openMarker] at hopen
    | region opening closing id' inner =>
      simp only [Block.openMarker, Marker.mk.injEq, MarkerTag.region.injEq, true_and] at hopen
      simp [Block.regionId, hopen.2]
  have hbid₂ : b₂.regionId = some id := by
    cases b₂ with
    | user inner => simp [Block.closeMarker] at hclose
    | region opening closing id' inner =>
      simp only [Block.closeMarker, Marker.mk.injEq, MarkerTag.region.injEq, true_and] at hclose
      simp [Block.regionId, hclose.2]
  obtain ⟨-, rfl, rfl, rfl⟩ := eq_of_regionId_eq (hblocks.symm.trans hblocks₂) (hblocks ▸ L.ids) hbid hbid₂
  cases b with
  | user inner => simp [Block.openMarker] at hopen
  | region opening closing id' inner =>
    simp only [Block.openMarker, Block.closeMarker, Marker.mk.injEq, MarkerTag.region.injEq, true_and] at hopen hclose
    obtain ⟨rfl, rfl⟩ := hopen
    obtain ⟨rfl, -⟩ := hclose
    refine ⟨before, inner, after, rest, hblocks, ?_, ?_⟩
    · rw [hslice, ha]
      exact text_blocksPieces _ _
    · rw [hb₂]
      exact text_blocksPieces _ _

private theorem dropNewlines_framed (s : JsString) :
    dropTrailingNewline (dropLeadingNewline (str "\n" ++ s ++ str "\n")) = s := by
  have hlead : dropLeadingNewline (str "\n" ++ s ++ str "\n") = s ++ [unit '\n'] := rfl
  rw [hlead, dropTrailingNewline, List.getLast?_concat, if_pos rfl, List.dropLast_concat]

/-- A document with the inside of one of its regions replaced by unmarked text. -/
theorem exists_replaced (before rest : List (Block × JsString)) {opening closing : AssistantFamily} {inner after : JsString}
    (hblocks : L.blocks = before ++ (.region opening closing id inner, after) :: rest) {inner' : JsString}
    (hfree : markerLexicon.Free inner') : ∃ L' : Layout, L'.head = L.head ∧
      L'.blocks = before ++ (.region opening closing id inner', after) :: rest := by
  have hids : blockIds (before ++ (.region opening closing id inner', after) :: rest) = blockIds L.blocks := by
    rw [hblocks]
    simp [blockIds, List.filterMap_append, Block.regionId]
  refine ⟨⟨L.head, before ++ (.region opening closing id inner', after) :: rest, L.headFree, fun b hb => ?_, hids ▸ L.ids⟩,
    rfl, rfl⟩
  have hsound := hblocks ▸ L.sound
  rcases List.mem_append.mp hb with hb | hb
  · exact hsound b (List.mem_append_left _ hb)
  · rcases List.mem_cons.mp hb with rfl | hb
    · obtain ⟨hregion, hafter⟩ := hsound (.region opening closing id inner, after) (by simp)
      exact ⟨⟨hregion.id, hfree⟩, hafter⟩
    · exact hsound b (List.mem_append_right _ (List.mem_cons_of_mem _ hb))

private theorem find_blockEntries_of_ne (before rest : List (Block × JsString)) {opening closing : AssistantFamily}
    {inner after id' : JsString} (hne : id' ≠ id) :
    (blockEntries (before ++ (.region opening closing id inner, after) :: rest)).find? (·.1 = id') =
      (blockEntries (before ++ rest)).find? (·.1 = id') := by
  have hcons : blockEntries ((.region opening closing id inner, after) :: rest) =
      (id, dropTrailingNewline (dropLeadingNewline inner), (Block.region opening closing id inner).raw) ::
        blockEntries rest := rfl
  have happend : ∀ l l', blockEntries (l ++ l') = blockEntries l ++ blockEntries l' := fun l l' => List.filterMap_append
  rw [happend, happend, hcons, List.find?_append, List.find?_append, List.find?_cons_of_neg]
  simpa using hne.symm

private theorem find_blockEntries_self {before rest : List (Block × JsString)} {opening closing : AssistantFamily}
    {inner after : JsString} (hnd : (blockIds (before ++ (.region opening closing id inner, after) :: rest)).Nodup) :
    (blockEntries (before ++ (.region opening closing id inner, after) :: rest)).find? (·.1 = id) =
      some (id, dropTrailingNewline (dropLeadingNewline inner), (Block.region opening closing id inner).raw) := by
  have hcons : blockEntries ((.region opening closing id inner, after) :: rest) =
      (id, dropTrailingNewline (dropLeadingNewline inner), (Block.region opening closing id inner).raw) ::
        blockEntries rest := rfl
  rw [← blockEntries_ids, blockEntries, List.filterMap_append, List.map_append, List.nodup_append] at hnd
  have hbefore : (blockEntries before).find? (·.1 = id) = none := by
    rw [List.find?_eq_none]
    intro e he
    have hmem : id ∈ (blockEntries ((.region opening closing id inner, after) :: rest)).map Prod.fst := by
      rw [hcons]
      exact List.mem_cons_self ..
    have := hnd.2.2 e.1 (List.mem_map_of_mem he) id hmem
    simpa using this
  rw [blockEntries, List.filterMap_append, List.find?_append]
  change ((blockEntries before).find? _).or ((blockEntries ((.region opening closing id inner, after) :: rest)).find? _) = _
  rw [hbefore, hcons, List.find?_cons_of_pos (by simp)]
  rfl

private theorem regionPatched_of_replaced {plan : KnowledgeMutationPlan} {patch : NotePatch} {next : JsString}
    (hplan : PatchesOnly plan patch) {before rest : List (Block × JsString)} {opening closing : AssistantFamily}
    {inner inner' after : JsString} (hL : L.text = content)
    (hblocks : L.blocks = before ++ (.region opening closing patch.regionId inner, after) :: rest) {L' : Layout}
    (hL' : L'.text = next) (hhead : L'.head = L.head)
    (hblocks' : L'.blocks = before ++ (.region opening closing patch.regionId inner', after) :: rest)
    (hinner : dropTrailingNewline (dropLeadingNewline inner') = neutralizeRegionMarkers patch.newBody) :
    RegionPatched plan patch content next := by
  have hraw : ∀ id, id ≠ patch.regionId →
      (blockEntries L'.blocks).find? (·.1 = id) = (blockEntries L.blocks).find? (·.1 = id) := by
    intro id hne
    rw [hblocks, hblocks', find_blockEntries_of_ne before rest hne, find_blockEntries_of_ne before rest hne]
  have htexts : humanOwnedText L'.sections = humanOwnedText L.sections := by
    rw [Layout.sections, Layout.sections, humanOwnedText_sectionsFrom, humanOwnedText_sectionsFrom, hhead, hblocks, hblocks']
    exact congrArg List.flatten (humanTexts_region L.head before rest after rfl rfl)
  have htargeted : targetedRegions plan patch.path = [patch.regionId] := by
    rw [targetedRegions, hplan.patches]
    simp
  subst hL hL'
  refine ⟨?_, ?_, fun id hne => ?_, ?_⟩
  · refine (checkOwnership_update_ok_iff rfl).mpr ⟨L.sections, L'.sections, L.parseSections_text, L'.parseSections_text, ?_⟩
    rw [htargeted]
    refine ⟨fun id hid raw hget => ?_, fun id hmem => ?_, ?_⟩
    · rw [List.mem_singleton] at hid
      rwa [regionRawById_get, hraw id hid, ← regionRawById_get]
    · by_cases hid : id = patch.regionId
      · exact .inr (List.mem_singleton.mpr hid)
      · left
        rwa [Map.mem_keys_iff, regionRawById_get, hraw id hid, ← regionRawById_get, ← Map.mem_keys_iff] at hmem
    · rw [humanSignature, humanSignature, htexts]
  · have hget := L'.getRegion_text patch.regionId
    rw [hblocks', find_blockEntries_self (hblocks' ▸ L'.ids)] at hget
    have hbody := congrArg (Option.map fun e => e.2.1) hget
    rwa [Option.map_map, Option.map_some, hinner] at hbody
  · have hget := (L'.getRegion_text id).trans ((hraw id hne).trans (L.getRegion_text id).symm)
    have hslice := congrArg (Option.map fun e => e.2.2) hget
    rwa [Option.map_map, Option.map_map] at hslice
  · rw [L.parseSections_text, L'.parseSections_text]
    exact congrArg Except.ok htexts

/-- The id of an opening region marker. -/
private def openId : Marker → Option JsString
  | ⟨false, .region _ id⟩ => some id
  | _ => none

private theorem tokens_openIds (L : Layout) : (markerLexicon.tokens L.text).filterMap openId = blockIds L.blocks := by
  rw [L.tokens_text]
  induction L.blocks with
  | nil => rfl
  | cons p blocks ih =>
    obtain ⟨b, after⟩ := p
    rw [List.flatMap_cons, List.filterMap_append, ih]
    cases b <;> rfl

/-- A second region of an id that the document has is refused. -/
theorem not_parse_of_appended (hid : IsRegionId id) (hmem : id ∈ blockIds L.blocks) {text inner : JsString}
    (htokens : markerLexicon.tokens text = markerLexicon.tokens L.text) {sections : List Section}
    (h : parseSections (text ++ unit '\n' :: (regionOpenMarker id ++ unit '\n' :: inner)) = .ok sections) : False := by
  obtain ⟨L', htext, -⟩ := parseSections_eq_ok_iff.mp h
  have hbarrier := Lexicon.tokens_append_barrier fun m (hm : markerLexicon.Valid m) => newline_not_mem_text hm
  have hopen : markerLexicon.tokens (regionOpenMarker id) = [⟨false, .region .kwRegion id⟩] := by
    have hP : Lexicon.Pieces.Sound markerLexicon ⟨[], [(⟨false, .region .kwRegion id⟩, [])]⟩ :=
      ⟨.nil, fun p hp => List.mem_singleton.mp hp ▸ ⟨hid, .nil⟩⟩
    have := Lexicon.tokens_text hP
    rw [regionOpenMarker_eq]
    simpa [Lexicon.Pieces.text, markerOf] using this
  have hids := tokens_openIds L'
  rw [htext, hbarrier, hbarrier, hopen, List.filterMap_append, htokens, tokens_openIds] at hids
  have hnd := L'.ids
  rw [← hids, List.nodup_append] at hnd
  exact hnd.2.2 id hmem id (by simp [openId]) rfl

private theorem tokens_append_newline_nil (s : JsString) :
    markerLexicon.tokens (s ++ str "\n") = markerLexicon.tokens s := by
  have hbarrier := Lexicon.tokens_append_barrier fun m (hm : markerLexicon.Valid m) => newline_not_mem_text hm
  have hnil : markerLexicon.tokens ([] : JsString) = [] := Lexicon.tokens_eq_nil_iff.mpr Lexicon.Free.nil
  exact (hbarrier s []).trans (by rw [hnil, List.append_nil])

end layout

/-- Of a note in normal form that parses, a plan that only patches one of its regions
    does what a patch promises if and only if the patcher finds the region. -/
theorem regionPatched_iff (content : JsString) (sections : List Section) (hsections : parseSections content = .ok sections)
    (hnormal : NormalForm content) (plan : KnowledgeMutationPlan) (patch : NotePatch) (hplan : PatchesOnly plan patch)
    (hmem : patch.regionId ∈ (assistants sections).map (·.regionId)) :
    RegionPatched plan patch content (applyRegionPatch content patch) ↔ FindsRegion content patch.regionId := by
  obtain ⟨L, hL, rfl⟩ := parseSections_eq_ok_iff.mp hsections
  rw [Layout.sections, assistants_sectionsFrom] at hmem
  have hid : IsRegionId patch.regionId := by
    obtain ⟨b, hb, hbid⟩ := List.mem_filterMap.mp hmem
    exact (L.sound b hb).1.id _ hbid
  have hcontent : content = frontmatterBlock (parseNote content).frontmatter ++ (parseNote content).body := by
    rw [← composeNote_eq]
    exact hnormal.symm
  constructor
  · intro h
    by_contra hfinds
    obtain ⟨-, sections, -, hparse, -⟩ := (checkOwnership_update_ok_iff rfl).mp h.owned
    have happended : applyRegionPatch content patch = composeNote (parseNote content).frontmatter
        (if (parseNote content).body.length = 0 then renderRegion patch.regionId (neutralizeRegionMarkers patch.newBody)
          else (parseNote content).body ++ str "\n\n" ++
            renderRegion patch.regionId (neutralizeRegionMarkers patch.newBody)) := by
      simp only [applyRegionPatch]
      split
      · next start stop hstart hstop =>
        split
        · next hlt => exact absurd ⟨start, stop, hstart, hstop, hlt⟩ hfinds
        · rfl
      · rfl
    rw [happended, composeNote_eq] at hparse
    generalize htail : neutralizeRegionMarkers patch.newBody ++ str "\n" ++ regionCloseMarker patch.regionId = inner
    have hregion : renderRegion patch.regionId (neutralizeRegionMarkers patch.newBody) =
        regionOpenMarker patch.regionId ++ unit '\n' :: inner := by
      rw [← htail]
      simp [renderRegion, str, unit]
    rw [hregion] at hparse
    split at hparse
    · next hempty =>
      have hbody : (parseNote content).body = [] := List.length_eq_zero_iff.mp hempty
      rw [hbody, List.append_nil] at hcontent
      rcases frontmatterBlock_line (parseNote content).frontmatter with hnil | ⟨s, hs⟩
      · have htokens := L.tokens_text
        rw [hL, hcontent, hnil, Lexicon.tokens_eq_nil_iff.mpr Lexicon.Free.nil] at htokens
        have hids := tokens_openIds L
        rw [L.tokens_text, ← htokens] at hids
        rw [← hids] at hmem
        exact absurd hmem List.not_mem_nil
      · rw [hs] at hcontent
        refine @not_parse_of_appended L patch.regionId hid hmem s inner ?_ sections ?_
        · rw [hL, hcontent, tokens_append_newline_nil]
        · rw [hs] at hparse
          simpa [str, unit] using hparse
    · refine @not_parse_of_appended L patch.regionId hid hmem (content ++ str "\n") inner ?_ sections ?_
      · rw [hL, tokens_append_newline_nil]
      · have htext : frontmatterBlock (parseNote content).frontmatter ++ ((parseNote content).body ++ str "\n\n" ++
            (regionOpenMarker patch.regionId ++ unit '\n' :: inner)) =
              content ++ str "\n" ++ unit '\n' :: (regionOpenMarker patch.regionId ++ unit '\n' :: inner) := by
          conv_rhs => rw [hcontent]
          simp [str, unit]
        rwa [htext] at hparse
  · rintro ⟨start, stop, hstart, hstop, hlt⟩
    have hnext : applyRegionPatch content patch = composeNote (parseNote content).frontmatter
        (slice (parseNote content).body 0 start ++ renderRegion patch.regionId (neutralizeRegionMarkers patch.newBody) ++
          (parseNote content).body.drop (stop + (regionCloseMarker patch.regionId).length)) := by
      simp only [applyRegionPatch]
      have hs : indexOf (str "<!-- kw:region:" ++ patch.regionId ++ str " -->") (parseNote content).body = some start := hstart
      have ht : indexOf (str "<!-- /kw:region:" ++ patch.regionId ++ str " -->") (parseNote content).body = some stop := hstop
      rw [hs, ht]
      simp only [gt_iff_lt, hlt, if_true]
      rfl
    obtain ⟨before, inner, after, rest, hblocks, hbefore, hafter⟩ :=
      exists_region_of_finds hid (hL.trans hcontent) hstart hstop
    have hfree := free_framed.mpr (neutralizeRegionMarkers_free patch.newBody)
    obtain ⟨L', hhead, hblocks'⟩ := exists_replaced before rest hblocks hfree
    refine regionPatched_of_replaced hplan hL hblocks ?_ hhead hblocks' (dropNewlines_framed _)
    have hkept : ∀ region : JsString, frontmatterBlock (parseNote content).frontmatter ++
        (slice (parseNote content).body 0 start ++ region ++ (after ++ blocksText rest)) =
          L.head ++ blocksText before ++ (region ++ (after ++ blocksText rest)) := by
      intro region
      rw [← hbefore]
      simp
    rw [hnext, composeNote_eq, hafter, hkept, Layout.text, hhead, hblocks']
    simp [blocksText, renderRegion, regionOpenMarker_eq, regionCloseMarker_eq, Block.raw, Block.openMarker,
      Block.closeMarker, Block.inner, markerOf]

/-- A plan that patches the region `r` of the note `a.md`. -/
def regionPatch : NotePatch := ⟨str "a.md", str "r", str "new", notePath_ne_nil, by decide⟩

def patchPlan : KnowledgeMutationPlan := planOf [] [regionPatch] [] []

private theorem patchesOnly_patchPlan : PatchesOnly patchPlan regionPatch := ⟨rfl, rfl, rfl, rfl⟩

/-- The digests that patching a note of either family computes. -/
def patchDigests : KnownDigests where
  entries :=
    [(utf8 (renderGeneratedRegion (str "r") (str "old")),
        str "6f2e1c92e5d791a99d50adbaa9e0e3e675bf84a16921a7698f13f16b4d37fbaa"),
      (utf8 (str "a.md" ++ [0] ++ str "6f2e1c92e5d791a99d50adbaa9e0e3e675bf84a16921a7698f13f16b4d37fbaa"),
        str "9a71f11078e5f99f6f654d972bfa14771f328b3426b736e8b68aa3ec98f464b7"),
      (utf8 (renderRegion (str "r") (str "old")), str "f3cad9b8d01e07eb6b2d5d772193f00c2f9b6b4036c2eb18ff7083f411e58aca"),
      (utf8 (str "a.md" ++ [0] ++ str "f3cad9b8d01e07eb6b2d5d772193f00c2f9b6b4036c2eb18ff7083f411e58aca"),
        str "b603b5272df72abbaaacd67c55e3317e59d2e6de660af350c2fc05a6bfac6b7b"),
      (utf8 (renderRegion (str "r") (str "new")), str "82ddd59c55c8ed8bdcfae3afd410dc625a16b55203158497ac866fef4d3ae8d3"),
      (utf8 (str "a.md" ++ [0] ++ str "82ddd59c55c8ed8bdcfae3afd410dc625a16b55203158497ac866fef4d3ae8d3"),
        str "c418d4a2400af12a3110ad924f6a50329c304eae66a3dc088a0413b558252c12"),
      (utf8 patchPlan.data.stringify, str "1a8037dfc9d2a15a41f9704c3e2f1ac3514f93adec0b81c25af6bc40196b9937")]
  distinct := by decide +kernel
  digits := digits_of_all (by decide +kernel)

abbrev patchDeps : KnowledgeWriterDeps := memoryDeps (tabulated patchDigests) patchPlan none

/-- The command that patches the note `a.md` of the given content. -/
abbrev patchCommand (content : JsString) : KnowledgeWriteCommand :=
  commandOf (tabulated patchDigests) (.ofList [(str "a.md", content)]) patchPlan (str "k1")

/-- The fault-free run of the patch on that note. -/
def patchRun (content : JsString) : Except Cause (Except WriteFailure WriteSuccess) × World :=
  (kwPorts memoryListing).run createChoices 0 (applyPlan (patchCommand content) patchDeps)
    ⟨.ofList [(str "a.md", content)], .empty, []⟩

end sow.knowledge_writer
