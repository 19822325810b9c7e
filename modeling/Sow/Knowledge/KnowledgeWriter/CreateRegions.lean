import Sow.Knowledge.KnowledgeWriter.FrontmatterCodec
import Sow.Knowledge.KnowledgeWriter.WriterAtomicity
import Sow.Knowledge.MarkdownVault.NoteBody

open sow.js sow.effect sow.markdown_vault

namespace sow.knowledge_writer

def userOpenMarker : JsString := str "<!-- @user -->"

/-- A file that parses into exactly the regions `ids`, without a user span. -/
def HasExactly (ids : List JsString) (content : JsString) : Prop :=
  ∃ sections, parseSections content = .ok sections ∧ (assistants sections).map (·.regionId) = ids ∧
    ∀ s ∈ humans sections, startsWith s.text userOpenMarker = false

section layout

private theorem startsWith_user_of_free {text : JsString} (h : markerLexicon.Free text) :
    startsWith text userOpenMarker = false := by
  rw [Bool.eq_false_iff, ne_eq, startsWith_iff]
  rintro ⟨t, rfl⟩
  exact h [] ⟨false, .user⟩ t trivial rfl

private theorem humanTexts_unmarked_iff {head : JsString} {blocks : List (Block × JsString)}
    (hhead : markerLexicon.Free head) (hsound : ∀ b ∈ blocks, b.1.Sound ∧ markerLexicon.Free b.2) :
    (∀ t ∈ humanTexts head blocks, startsWith t userOpenMarker = false) ↔ ∀ b ∈ blocks, b.1.regionId.isSome := by
  have hgap : ∀ (text : JsString), markerLexicon.Free text →
      ∀ t ∈ (if text = [] then [] else [text]), startsWith t userOpenMarker = false := by
    intro text hfree t ht
    split at ht
    · exact absurd ht List.not_mem_nil
    · rw [List.mem_singleton.mp ht]
      exact startsWith_user_of_free hfree
  induction blocks generalizing head with
  | nil => exact iff_of_true (hgap head hhead) (by simp)
  | cons p blocks ih =>
    obtain ⟨b, after⟩ := p
    obtain ⟨-, hafter⟩ := hsound _ (List.mem_cons_self ..)
    have hrest : (∀ t ∈ humanTexts after blocks, startsWith t userOpenMarker = false) ↔
        ∀ b ∈ blocks, b.1.regionId.isSome := ih hafter fun b hb => hsound b (List.mem_cons_of_mem _ hb)
    have hblock : (∀ t ∈ (if b.regionId = none then [b.raw] else []), startsWith t userOpenMarker = false) ↔
        b.regionId.isSome := by
      cases b with
      | user inner =>
        have hstart : startsWith (Block.user inner).raw userOpenMarker = true := startsWith_iff.mpr ⟨_, rfl⟩
        simp [Block.regionId, hstart]
      | region opening closing id inner => simp [Block.regionId]
    rw [humanTexts, List.forall_mem_append, List.forall_mem_append, List.forall_mem_cons, hblock, hrest]
    exact ⟨fun h => ⟨h.1.2, h.2⟩, fun h => ⟨⟨hgap head hhead, h.1⟩, h.2⟩⟩

theorem hasExactly_text_iff {ids : List JsString} (L : Layout) :
    HasExactly ids L.text ↔ blockIds L.blocks = ids ∧ ∀ b ∈ L.blocks, b.1.regionId.isSome := by
  have hhumans : (∀ s ∈ humans L.sections, startsWith s.text userOpenMarker = false) ↔
      ∀ b ∈ L.blocks, b.1.regionId.isSome := by
    rw [← humanTexts_unmarked_iff L.headFree L.sound, ← humans_sectionsFrom 0]
    simp [Layout.sections]
  rw [HasExactly, L.parseSections_text]
  simp only [Except.ok.injEq, exists_eq_left', hhumans]
  rw [Layout.sections, assistants_sectionsFrom]

private theorem length_blockIds {blocks : List (Block × JsString)} (h : ∀ b ∈ blocks, b.1.regionId.isSome) :
    (blockIds blocks).length = blocks.length := by
  induction blocks with
  | nil => rfl
  | cons b blocks ih =>
    obtain ⟨id, hid⟩ := Option.isSome_iff_exists.mp (h b (List.mem_cons_self ..))
    have hcons : blockIds (b :: blocks) = id :: blockIds blocks := List.filterMap_cons_some hid
    rw [hcons, List.length_cons, List.length_cons, ih fun b hb => h b (List.mem_cons_of_mem _ hb)]

private theorem length_markers (blocks : List (Block × JsString)) :
    (blocks.flatMap fun b => [b.1.openMarker, b.1.closeMarker]).length = 2 * blocks.length := by
  induction blocks with
  | nil => rfl
  | cons b blocks ih =>
    rw [List.flatMap_cons, List.length_append, ih, List.length_cons]
    simp only [List.length_cons, List.length_nil]
    omega

/-- Text above a neutralized body leaves the body's regions the only ones exactly
    when it holds no marker. -/
theorem hasExactly_append_iff {block body : JsString} (hblock : block = [] ∨ ∃ s, block = s ++ str "\n") :
    HasExactly (bodyRegionIds body) (block ++ neutralizeNoteBody body) ↔ markerLexicon.Free block := by
  obtain ⟨L, htext, hids, hregions⟩ := neutralizeNoteBody_layout body
  rw [← htext]
  have htokens : markerLexicon.tokens (block ++ L.text) = markerLexicon.tokens block ++ markerLexicon.tokens L.text := by
    rcases hblock with rfl | ⟨s, rfl⟩
    · rw [List.nil_append, Lexicon.tokens_eq_nil_iff.mpr Lexicon.Free.nil, List.nil_append]
    · have hbarrier := Lexicon.tokens_append_barrier fun m (hm : markerLexicon.Valid m) => newline_not_mem_text hm
      have hnil : markerLexicon.tokens ([] : JsString) = [] := Lexicon.tokens_eq_nil_iff.mpr Lexicon.Free.nil
      have hleft := hbarrier s []
      rw [hnil, List.append_nil] at hleft
      rw [List.append_assoc]
      exact (hbarrier s L.text).trans (congrArg (· ++ _) hleft.symm)
  constructor
  · rintro ⟨sections, hparse, hsections⟩
    obtain ⟨L', htext', rfl⟩ := parseSections_eq_ok_iff.mp hparse
    obtain ⟨hids', hregions'⟩ := (hasExactly_text_iff L').mp ⟨_, L'.parseSections_text, hsections⟩
    have hsame : L'.blocks.length = L.blocks.length := by
      rw [← length_blockIds hregions', ← length_blockIds hregions, hids, hids']
    have hcount := congrArg List.length htokens
    rw [← htext', L'.tokens_text, L.tokens_text, List.length_append, length_markers, length_markers, hsame] at hcount
    exact Lexicon.tokens_eq_nil_iff.mp (List.length_eq_zero_iff.mp (by omega))
  · intro hfree
    have hhead : markerLexicon.Free (block ++ L.head) := by
      rcases hblock with rfl | ⟨s, rfl⟩
      · exact L.headFree
      · rw [List.append_assoc]
        exact free_append_newline.mpr ⟨hfree.of_append_left, L.headFree⟩
    have hnew := (hasExactly_text_iff ⟨block ++ L.head, L.blocks, hhead, L.sound, L.ids⟩).mpr ⟨hids, hregions⟩
    simpa [Layout.text] using hnew

/-- A note composed of a frontmatter and a neutralized body. -/
theorem hasExactly_composeNote_iff (fm : Map JsString JsString) (body : JsString) :
    HasExactly (bodyRegionIds body) (composeNote fm (neutralizeNoteBody body)) ↔
      markerLexicon.Free (frontmatterBlock fm) := by
  rw [composeNote_eq]
  exact hasExactly_append_iff (frontmatterBlock_line fm)

end layout

/-- The rendered note is read as the frontmatter and the body it was rendered from. -/
def ReadsBack (create : NoteCreate) : Prop :=
  parseNote (renderCreate create) = ⟨createFrontmatter create, neutralizeNoteBody create.body⟩

/-- A plan whose title holds a region. -/
def plantingPlan : KnowledgeMutationPlan :=
  planOf [⟨str "a.md", some (str "<!-- kw:region:x --><!-- /kw:region:x -->"), str "hi", none, notePath_ne_nil, by decide⟩] [] [] []

/-- The digests that creating its note in an empty vault computes. -/
def plantingDigests : KnownDigests where
  entries :=
    [(utf8 [], str "e3b0c44298fc1c149afbf4c8996fb92427ae41e4649b934ca495991b7852b855"),
      (utf8 (str "---\ntitle: \"<!-- kw:region:x --><!-- /kw:region:x -->\"\n---\nhi"),
        str "6759c82846ac510ffb524c7cf70cfcb148c33575deed805333b556e505137826"),
      (utf8 (str "a.md" ++ [0] ++ str "6759c82846ac510ffb524c7cf70cfcb148c33575deed805333b556e505137826"),
        str "03e7a3d8e4de52db455962f28c20ea9fda6a58c389cc60f1ce6a6d05c25db4b4"),
      (utf8 plantingPlan.data.stringify, str "0af8c9821c7c5f4ae4bde4897838658f291b21d40541d15017d0774227b477c6")]
  distinct := by decide +kernel
  digits := digits_of_all (by decide +kernel)

/-- The fault-free run of `plantingPlan` on an empty vault. -/
def plantingRun : Except Cause (Except WriteFailure WriteSuccess) × World :=
  (kwPorts memoryListing).run createChoices 0 (applyPlan (commandOf (tabulated plantingDigests) .empty plantingPlan (str "k1"))
    (memoryDeps (tabulated plantingDigests) plantingPlan none)) ⟨.empty, .empty, []⟩

theorem plantingRun_commits :
    plantingRun.2.files.get (str "a.md") = some (str "---\ntitle: \"<!-- kw:region:x --><!-- /kw:region:x -->\"\n---\nhi") ∧
      durableRevision plantingRun.1 = some (str "rev:03e7a3d8e4de52db455962f28c20ea9fda6a58c389cc60f1ce6a6d05c25db4b4") := by
  unfold plantingRun tabulated
  simp only [plantingDigests]
  repeat rw [str_ofList]
  decide +kernel

end sow.knowledge_writer
