import Sow.Knowledge.Gbrain.Derive.PageFacts
import Sow.Knowledge.KnowledgeWriter.FrontmatterCodec

open sow.js sow.contracts sow.markdown_vault
open sow.knowledge_writer (Sha256 KW_STAMP_FRONTMATTER_KEY VaultSnapshot)

namespace sow.gbrain

/-- What a note states apart from its text: that it is a page, a link, a tag, an entry of its timeline. -/
inductive FactKey where
  | page
  | link (dst field : JsString)
  | tag (tag : JsString)
  | timeline (seq : Nat)
  deriving DecidableEq

def FactKey.kind : FactKey → FactKind
  | page => .page
  | link _ _ => .link
  | tag _ => .tag
  | timeline _ => .timeline

/-- The identity of the fact of a page that states the key. -/
def FactKey.identity (slug : JsString) : FactKey → JsString
  | page => factIdentityPage slug
  | link dst field => factIdentityLink slug dst field
  | tag t => factIdentityTag slug t
  | timeline seq => factIdentityTimeline slug seq

section note

variable (path : Path) (content : JsString)

def noteSlug : JsString := pageSlug path (parseNote content).frontmatter

/-- The links of a note, each with the field that has it. -/
def noteLinks : List (JsString × JsString) :=
  ((wikilinkTargets (parseNote content).body).map fun dst => (dst, str "body")) ++
    ((parseNote content).frontmatter.entries.filter fun e =>
      e.1 ≠ str "slug" && e.1 ≠ str "tags" && e.1 ≠ KW_STAMP_FRONTMATTER_KEY).flatMap fun e =>
        (wikilinkTargets e.2).map fun dst => (dst, e.1)

def noteTags : List JsString := (((parseNote content).frontmatter.get (str "tags")).map parseTags).getD []

/-- What a note states, in the order in which the deriver comes to it. -/
def noteKeys : List FactKey :=
  .page :: (((noteLinks content).map fun link => .link link.1 link.2) ++ (noteTags content).map .tag ++
    (List.range (timelineEntries (parseNote content).body).length).map .timeline)

end note

/-- A Markdown note of the vault. -/
def IsNote (files : VaultSnapshot) (path : Path) (content : JsString) : Prop := files.get path = some content ∧ isMarkdownPath path = true

section identity

theorem colon_not_mem_field {content dst field : JsString} (h : (dst, field) ∈ noteLinks content) : unit ':' ∉ field := by
  unfold noteLinks at h
  rcases List.mem_append.mp h with hbody | hfrontmatter
  · obtain ⟨target, -, heq⟩ := List.mem_map.mp hbody
    rw [← (Prod.mk.inj heq).2]
    decide
  · obtain ⟨e, he, hlink⟩ := List.mem_flatMap.mp hfrontmatter
    obtain ⟨target, -, heq⟩ := List.mem_map.mp hlink
    rw [← (Prod.mk.inj heq).2]
    have hmem := List.mem_of_mem_filter he
    rw [parseNote_eq] at hmem
    exact (knowledge_writer.isEntry_of_mem_parseNote _ hmem).key_colon

theorem mem_noteKeys {content : JsString} {key : FactKey} (h : key ∈ noteKeys content) :
    key = .page ∨ (∃ dst field, key = .link dst field ∧ (dst, field) ∈ noteLinks content) ∨
      (∃ t, key = .tag t ∧ t ∈ noteTags content) ∨ ∃ seq, key = .timeline seq := by
  unfold noteKeys at h
  simp only [List.mem_cons, List.mem_append, List.mem_map] at h
  rcases h with rfl | (⟨link, hlink, rfl⟩ | ⟨t, ht, rfl⟩) | ⟨seq, -, rfl⟩
  · exact .inl rfl
  · exact .inr (.inl ⟨link.1, link.2, rfl, hlink⟩)
  · exact .inr (.inr (.inl ⟨t, rfl, ht⟩))
  · exact .inr (.inr (.inr ⟨seq, rfl⟩))

theorem link_mem_noteKeys {content dst field : JsString} (h : (dst, field) ∈ noteLinks content) : .link dst field ∈ noteKeys content := by
  unfold noteKeys
  simp only [List.mem_cons, List.mem_append, List.mem_map]
  exact .inr (.inl (.inl ⟨(dst, field), h, rfl⟩))

theorem tag_mem_noteKeys {content t : JsString} (h : t ∈ noteTags content) : .tag t ∈ noteKeys content := by
  unfold noteKeys
  simp only [List.mem_cons, List.mem_append, List.mem_map]
  exact .inr (.inl (.inr ⟨t, h, rfl⟩))

theorem page_mem_noteKeys (content : JsString) : .page ∈ noteKeys content := List.mem_cons_self ..

theorem factIdentityLink_eq (slug dst field : JsString) :
    factIdentityLink slug dst field = str "link:" ++ (slug ++ str "->" ++ dst ++ str ":" ++ field) := by
  simp only [factIdentityLink, List.append_assoc]

theorem factIdentityTag_eq (slug t : JsString) : factIdentityTag slug t = str "tag:" ++ (slug ++ str ":" ++ t) := by
  simp only [factIdentityTag, List.append_assoc]

theorem factIdentityTimeline_eq (slug : JsString) (seq : Nat) :
    factIdentityTimeline slug seq = str "timeline:" ++ (slug ++ str ":" ++ decimal seq) := by
  simp only [factIdentityTimeline, List.append_assoc]

theorem identity_prefixed (slug : JsString) (key : FactKey) : ∃ rest, key.identity slug = FACT_KIND_IDENTITY_PREFIX key.kind ++ rest := by
  cases key with
  | page => exact ⟨slug, rfl⟩
  | link dst field => exact ⟨_, factIdentityLink_eq slug dst field⟩
  | tag t => exact ⟨_, factIdentityTag_eq slug t⟩
  | timeline seq => exact ⟨_, factIdentityTimeline_eq slug seq⟩

/-- Two letters of the identity of a fact tell its kind. -/
theorem identity_kind {slug slug' : JsString} {key key' : FactKey} (h : key.identity slug = key'.identity slug') : key.kind = key'.kind := by
  obtain ⟨rest, heq⟩ := identity_prefixed slug key
  obtain ⟨rest', heq'⟩ := identity_prefixed slug' key'
  have htake : (FACT_KIND_IDENTITY_PREFIX key.kind ++ rest).take 2 = (FACT_KIND_IDENTITY_PREFIX key'.kind ++ rest').take 2 := by
    rw [← heq, ← heq', h]
  generalize key.kind = k at htake ⊢
  generalize key'.kind = k' at htake ⊢
  cases k <;> cases k' <;> first | rfl | exact absurd htake (by simp [FACT_KIND_IDENTITY_PREFIX, str])

/-- On one page no two things have one identity. -/
theorem identity_inj {content slug : JsString} {key key' : FactKey} (hkey : key ∈ noteKeys content) (hkey' : key' ∈ noteKeys content)
    (h : key.identity slug = key'.identity slug) : key = key' := by
  have hkind := identity_kind h
  rcases mem_noteKeys hkey with rfl | ⟨dst, field, rfl, hlink⟩ | ⟨t, rfl, -⟩ | ⟨seq, rfl⟩ <;>
    rcases mem_noteKeys hkey' with rfl | ⟨dst', field', rfl, hlink'⟩ | ⟨t', rfl, -⟩ | ⟨seq', rfl⟩ <;>
      first | rfl | (cases hkind; done) | skip
  · have hjoined : (slug ++ str "->" ++ dst) ++ unit ':' :: field = (slug ++ str "->" ++ dst') ++ unit ':' :: field' := by
      have heq := List.append_cancel_left ((factIdentityLink_eq ..).symm.trans (h.trans (factIdentityLink_eq ..)))
      simpa [str, unit] using heq
    obtain ⟨hfront, rfl⟩ := lastField_inj (colon_not_mem_field hlink) (colon_not_mem_field hlink') hjoined
    rw [List.append_cancel_left hfront]
  · rw [List.append_cancel_left h]
  · rw [decimal_injective (List.append_cancel_left h)]

end identity

section candidates

variable {sha256 : Sha256} {snapshot : CanonicalVaultSnapshot} {path : Path} {content : JsString} {page : PageProvenance}

theorem computePageProvenance_isSome : (computePageProvenance sha256 path content).isSome = true ↔ noteSlug path content ≠ [] := by
  unfold computePageProvenance
  dsimp only
  split
  · next hempty =>
    simp only [Option.isSome_none, Bool.false_eq_true, false_iff, not_not]
    exact List.length_eq_zero_iff.mp hempty
  · next hslug =>
    simp only [Option.isSome_some, true_iff]
    exact fun hnil => hslug (List.length_eq_zero_iff.mpr hnil)

theorem computePageProvenance_slug (h : computePageProvenance sha256 path content = some page) :
    page.slug = noteSlug path content ∧ page.pageIdentity = factIdentityPage page.slug ∧ ∃ text, page.pageSha = sha256.text text := by
  unfold computePageProvenance at h
  dsimp only at h
  split at h
  · cases h
  · obtain rfl := Option.some.inj h
    exact ⟨rfl, rfl, _, rfl⟩

/-- A candidate for something that a note states. -/
structure CandidateOf (sha256 : Sha256) (snapshot : CanonicalVaultSnapshot) (path : Path) (slug : JsString) (key : FactKey) (c : FactCandidate) :
    Prop where
  path_eq : c.path = path
  identity_eq : c.identity = key.identity slug
  fact_eq : ∃ text, c.fact = ⟨c.identity, key.kind, snapshot.workspaceId, sha256.text text, snapshot.revisionId⟩
  provenance_eq : c.provenance.originPath = path ∧ c.provenance.kwRevision = snapshot.revisionId ∧
    c.provenance.mdContentSha = c.fact.mdContentSha

theorem candidateOf_spec (path : Path) (slug : JsString) (key : FactKey) (text : JsString) (origin : FactProvenanceOrigin)
    (linkSource : Option GbrainLinkSource) : CandidateOf sha256 snapshot path slug key
      (candidateOf snapshot path (key.identity slug) key.kind (sha256.text text) origin linkSource) where
  path_eq := rfl
  identity_eq := rfl
  fact_eq := ⟨text, rfl⟩
  provenance_eq := ⟨rfl, rfl, rfl⟩

/-- Each candidate of a page is for something that the note states. -/
theorem candidate_key (hpage : computePageProvenance sha256 path content = some page) {c : FactCandidate}
    (hc : c ∈ pageCandidates sha256 snapshot path content page) :
    ∃ key ∈ noteKeys content, CandidateOf sha256 snapshot path (noteSlug path content) key c := by
  obtain ⟨hslug, hidentity, text, hsha⟩ := computePageProvenance_slug hpage
  unfold pageCandidates at hc
  dsimp only at hc
  rw [hidentity, hsha, hslug] at hc
  simp only [List.mem_cons, List.mem_append, List.mem_map, List.mem_flatMap] at hc
  rcases hc with rfl | ((⟨dst, hdst, rfl⟩ | ⟨e, he, dst, hdst, rfl⟩) | ⟨t, ht, rfl⟩) | ⟨e, he, rfl⟩
  · exact ⟨.page, page_mem_noteKeys content, candidateOf_spec path _ .page text _ _⟩
  · refine ⟨.link dst (str "body"), link_mem_noteKeys (List.mem_append_left _ ?_), candidateOf_spec path _ (.link dst (str "body")) _ _ _⟩
    exact List.mem_map_of_mem hdst
  · refine ⟨.link dst e.1, link_mem_noteKeys (List.mem_append_right _ ?_), candidateOf_spec path _ (.link dst e.1) _ _ _⟩
    exact List.mem_flatMap.mpr ⟨e, he, List.mem_map_of_mem hdst⟩
  · exact ⟨.tag t, tag_mem_noteKeys ht, candidateOf_spec path _ (.tag t) _ _ _⟩
  · refine ⟨.timeline e.2, ?_, candidateOf_spec path _ (.timeline e.2) _ _ _⟩
    have hlt := (List.mem_zipIdx he).2.1
    unfold noteKeys
    simp only [List.mem_cons, List.mem_append, List.mem_map, List.mem_range]
    exact .inr (.inr ⟨e.2, by omega, rfl⟩)

/-- Each thing that the note states has a candidate of the page. -/
theorem exists_candidate (hpage : computePageProvenance sha256 path content = some page) {key : FactKey} (hkey : key ∈ noteKeys content) :
    ∃ c ∈ pageCandidates sha256 snapshot path content page, CandidateOf sha256 snapshot path (noteSlug path content) key c := by
  obtain ⟨hslug, hidentity, text, hsha⟩ := computePageProvenance_slug hpage
  unfold pageCandidates
  dsimp only
  rw [hidentity, hsha, hslug]
  unfold noteKeys noteLinks at hkey
  simp only [List.mem_cons, List.mem_append, List.mem_map, List.mem_flatMap] at hkey ⊢
  rcases hkey with rfl | (⟨link, ⟨dst, hdst, rfl⟩ | ⟨e, he, dst, hdst, rfl⟩, rfl⟩ | ⟨t, ht, rfl⟩) | ⟨seq, hseq, rfl⟩
  · exact ⟨_, .inl rfl, candidateOf_spec path _ .page text _ _⟩
  · exact ⟨_, .inr (.inl (.inl (.inl ⟨dst, hdst, rfl⟩))), candidateOf_spec path _ (.link dst (str "body")) _ _ _⟩
  · exact ⟨_, .inr (.inl (.inl (.inr ⟨e, he, dst, hdst, rfl⟩))), candidateOf_spec path _ (.link dst e.1) _ _ _⟩
  · exact ⟨_, .inr (.inl (.inr ⟨t, ht, rfl⟩)), candidateOf_spec path _ (.tag t) _ _ _⟩
  · have hlt := List.mem_range.mp hseq
    refine ⟨_, .inr (.inr ⟨((timelineEntries (parseNote content).body)[seq], seq), ?_, rfl⟩), candidateOf_spec path _ (.timeline seq) _ _ _⟩
    rw [List.mk_mem_zipIdx_iff_getElem?]
    exact List.getElem?_eq_getElem hlt

/-- The candidates of the note at a path, if there is one. -/
def candidatesAt (sha256 : Sha256) (snapshot : CanonicalVaultSnapshot) (path : Path) : List FactCandidate :=
  match snapshot.files.get path with
  | none => []
  | some content =>
    if isMarkdownPath path then (computePageProvenance sha256 path content).elim [] (pageCandidates sha256 snapshot path content) else []

/-- Where every note has a slug, the candidates of every note are collected. -/
theorem collectCandidates_eq (hslugs : ∀ path content, IsNote snapshot.files path content → noteSlug path content ≠ []) (paths : List Path) :
    collectCandidates sha256 snapshot paths = .ok (paths.flatMap (candidatesAt sha256 snapshot)) := by
  induction paths with
  | nil => rfl
  | cons path paths ih =>
    rw [collectCandidates, List.flatMap_cons, candidatesAt]
    cases hget : snapshot.files.get path with
    | none =>
      rw [List.nil_append]
      exact ih
    | some content =>
      dsimp only
      by_cases hmd : isMarkdownPath path = true
      · obtain ⟨page, hpage⟩ := Option.isSome_iff_exists.mp
          ((@computePageProvenance_isSome sha256 path content).mpr (hslugs path content ⟨hget, hmd⟩))
        rw [if_pos hmd, if_pos hmd, hpage, ih]
        rfl
      · rw [if_neg hmd, if_neg hmd, List.nil_append]
        exact ih

theorem mem_candidatesAt {c : FactCandidate} : c ∈ candidatesAt sha256 snapshot path ↔
    ∃ content page, IsNote snapshot.files path content ∧ computePageProvenance sha256 path content = some page ∧
      c ∈ pageCandidates sha256 snapshot path content page := by
  unfold candidatesAt IsNote
  cases hget : snapshot.files.get path with
  | none => simp
  | some content =>
    dsimp only
    by_cases hmd : isMarkdownPath path = true
    · rw [if_pos hmd]
      cases hpage : computePageProvenance sha256 path content with
      | none => simp [hpage]
      | some page => simp [hpage, hmd]
    · simp [hmd]

/-- All candidates of the vault, in the order of the paths. -/
def allCandidates (sha256 : Sha256) (snapshot : CanonicalVaultSnapshot) : List FactCandidate :=
  (sort snapshot.files.keys).flatMap (candidatesAt sha256 snapshot)

theorem mem_allCandidates {c : FactCandidate} : c ∈ allCandidates sha256 snapshot ↔
    ∃ path content page, IsNote snapshot.files path content ∧ computePageProvenance sha256 path content = some page ∧
      c ∈ pageCandidates sha256 snapshot path content page := by
  unfold allCandidates
  rw [List.mem_flatMap]
  constructor
  · rintro ⟨path, -, hc⟩
    exact ⟨path, mem_candidatesAt.mp hc⟩
  · rintro ⟨path, content, page, hnote, hpage, hc⟩
    refine ⟨path, ?_, mem_candidatesAt.mpr ⟨content, page, hnote, hpage, hc⟩⟩
    rw [(sort_perm _).mem_iff, Map.mem_keys_iff, hnote.1]
    rfl

theorem fact_identity_of_mem {c : FactCandidate} (hc : c ∈ allCandidates sha256 snapshot) : c.fact.factIdentity = c.identity := by
  obtain ⟨path, content, page, hnote, hpage, hc⟩ := mem_allCandidates.mp hc
  obtain ⟨key, -, hof⟩ := candidate_key hpage hc
  obtain ⟨text, hfact⟩ := hof.fact_eq
  rw [hfact]

end candidates

section dedupe

variable {candidates : List FactCandidate} {byIdentity result : Map JsString FactCandidate}

/-- The first candidate of each identity is kept. -/
theorem get_dedupe (h : dedupe byIdentity candidates = .ok result) (id : JsString) :
    result.get id = (byIdentity.get id).or (candidates.find? fun c => c.identity = id) := by
  induction candidates generalizing byIdentity with
  | nil =>
    rw [← Except.ok.inj h, List.find?_nil, Option.or_none]
  | cons d candidates ih =>
    rw [dedupe] at h
    cases hget : byIdentity.get d.identity with
    | none =>
      rw [hget] at h
      rw [ih h, Map.get_set, List.find?_cons]
      by_cases hid : d.identity = id
      · subst hid
        rw [if_pos rfl, hget]
        simp
      · rw [if_neg hid]
        simp [hid]
    | some existing =>
      rw [hget] at h
      dsimp only at h
      split at h
      · rw [ih h, List.find?_cons]
        by_cases hid : d.identity = id
        · subst hid
          rw [hget]
          rfl
        · simp [hid]
      · cases h

/-- Candidates of one identity are of one page: the derivation goes on if and only if this is so. -/
theorem dedupe_isOk_iff : (∃ result, dedupe byIdentity candidates = .ok result) ↔
    (∀ c ∈ candidates, ∀ existing, byIdentity.get c.identity = some existing → existing.path = c.path) ∧
      candidates.Pairwise fun c d => c.identity = d.identity → c.path = d.path := by
  induction candidates generalizing byIdentity with
  | nil => simp [dedupe]
  | cons d candidates ih =>
    rw [dedupe, List.pairwise_cons, List.forall_mem_cons]
    cases hget : byIdentity.get d.identity with
    | none =>
      dsimp only
      rw [ih]
      constructor
      · rintro ⟨hold, hpairs⟩
        refine ⟨⟨fun existing h => absurd h (by simp), fun c hc existing h => hold c hc existing ?_⟩, fun c hc heq => ?_, hpairs⟩
        · rw [Map.get_set_of_ne]
          · exact h
          · intro heq
            rw [← heq, hget] at h
            cases h
        · exact hold c hc d (by rw [heq, Map.get_set_self])
      · rintro ⟨⟨-, hold⟩, hnew, hpairs⟩
        refine ⟨fun c hc existing h => ?_, hpairs⟩
        rw [Map.get_set] at h
        split at h
        · next heq =>
          rw [← Option.some.inj h]
          exact hnew c hc heq
        · exact hold c hc existing h
    | some existing =>
      dsimp only
      split
      · next hpath =>
        rw [ih]
        constructor
        · rintro ⟨hold, hpairs⟩
          refine ⟨⟨fun e h => Option.some.inj h ▸ hpath, hold⟩, fun c hc heq => ?_, hpairs⟩
          rw [← hpath]
          exact hold c hc existing (by rw [← heq, hget])
        · rintro ⟨⟨-, hold⟩, -, hpairs⟩
          exact ⟨hold, hpairs⟩
      · next hpath =>
        constructor
        · rintro ⟨result, h⟩
          cases h
        · rintro ⟨⟨hold, -⟩, -⟩
          exact absurd (hold existing rfl) hpath

end dedupe

theorem mapM_validate_iff {candidates : List FactCandidate} {facts : List DerivedFact} : candidates.mapM validate = .ok facts ↔
    (∀ c ∈ candidates, isSemanticFact c.fact = true ∧ isFactProvenance c.provenance = true) ∧
      facts = candidates.map fun c => ⟨c.fact, c.provenance⟩ := by
  induction candidates generalizing facts with
  | nil =>
    rw [List.mapM_nil, List.map_nil]
    exact ⟨fun h => ⟨fun c hc => absurd hc List.not_mem_nil, (Except.ok.inj h).symm⟩, fun h => by rw [h.2]; rfl⟩
  | cons c candidates ih =>
    rw [List.mapM_cons, List.forall_mem_cons, List.map_cons]
    have hcheck : validate c = if isSemanticFact c.fact = true ∧ isFactProvenance c.provenance = true
        then .ok ⟨c.fact, c.provenance⟩ else .error (.schema_invalid c.identity) := by
      unfold validate
      simp only [Bool.and_eq_true]
    rw [hcheck]
    split
    · next hvalid =>
      constructor
      · intro h
        cases hrest : candidates.mapM validate with
        | error e =>
          rw [hrest] at h
          cases h
        | ok rest =>
          rw [hrest] at h
          obtain ⟨hall, hfacts⟩ := ih.mp hrest
          refine ⟨⟨hvalid, hall⟩, ?_⟩
          rw [← Except.ok.inj h, hfacts]
      · rintro ⟨⟨-, hall⟩, rfl⟩
        rw [ih.mpr ⟨hall, rfl⟩]
        rfl
    · next hinvalid =>
      refine ⟨fun h => ?_, fun h => absurd h.1.1 hinvalid⟩
      cases h

section derive

variable {sha256 : Sha256} {snapshot : CanonicalVaultSnapshot}

/-- No identity is of two pages, and every fact passes its schema. -/
def Derivable (sha256 : Sha256) (snapshot : CanonicalVaultSnapshot) : Prop :=
  (∀ c ∈ allCandidates sha256 snapshot, ∀ d ∈ allCandidates sha256 snapshot, c.identity = d.identity → c.path = d.path) ∧
    ∀ c ∈ allCandidates sha256 snapshot, (allCandidates sha256 snapshot).find? (fun d => d.identity = c.identity) = some c →
      isSemanticFact c.fact = true ∧ isFactProvenance c.provenance = true

theorem mem_kept {byIdentity : Map JsString FactCandidate} (h : dedupe .empty (allCandidates sha256 snapshot) = .ok byIdentity) {c : FactCandidate} :
    c ∈ sortBy FactCandidate.identity (byIdentity.entries.map Prod.snd) ↔
      (allCandidates sha256 snapshot).find? (fun d => d.identity = c.identity) = some c := by
  have hget : ∀ id, byIdentity.get id = (allCandidates sha256 snapshot).find? fun d => d.identity = id := by
    intro id
    rw [get_dedupe h, Map.get_empty, Option.none_or]
  rw [(sortBy_perm _ _).mem_iff, List.mem_map]
  constructor
  · rintro ⟨⟨id, c⟩, hmem, rfl⟩
    have hfind := (hget id).symm.trans (Map.get_eq_some_iff.mpr hmem)
    have hid : c.identity = id := by simpa using List.find?_some hfind
    rw [hid]
    exact hfind
  · intro hfind
    exact ⟨(c.identity, c), Map.get_eq_some_iff.mp ((hget _).trans hfind), rfl⟩

/-- The kept candidates are in the order of their identities, none twice. -/
theorem kept_sorted {byIdentity : Map JsString FactCandidate} (h : dedupe .empty (allCandidates sha256 snapshot) = .ok byIdentity) :
    (sortBy FactCandidate.identity (byIdentity.entries.map Prod.snd)).Pairwise fun c d => LtUnits c.identity d.identity := by
  have hkeys : (byIdentity.entries.map Prod.snd).map FactCandidate.identity = byIdentity.keys := by
    rw [List.map_map]
    apply List.map_congr_left
    rintro ⟨id, c⟩ hmem
    have hget := Map.get_eq_some_iff.mpr hmem
    rw [get_dedupe h, Map.get_empty, Option.none_or] at hget
    simpa using List.find?_some hget
  have hnodup : ((sortBy FactCandidate.identity (byIdentity.entries.map Prod.snd)).map FactCandidate.identity).Nodup := by
    rw [((sortBy_perm FactCandidate.identity _).map _).nodup_iff, hkeys]
    exact byIdentity.nodup
  refine ((pairwise_sortBy _ _).and (List.pairwise_map.mp hnodup)).imp ?_
  rintro c d ⟨hle, hne⟩
  exact lt_of_le_of_ne (α := List Nat) hle fun heq => hne (toNat_map_injective heq)

/-- Where every note has a slug, the derivation keeps the first candidate of each identity and checks it. -/
theorem deriveCanonicalFacts_eq (hslugs : ∀ path content, IsNote snapshot.files path content → noteSlug path content ≠ []) :
    deriveCanonicalFacts sha256 snapshot = (dedupe .empty (allCandidates sha256 snapshot)).bind fun byIdentity =>
      (sortBy FactCandidate.identity (byIdentity.entries.map Prod.snd)).mapM validate := by
  unfold deriveCanonicalFacts
  rw [collectCandidates_eq hslugs]
  rfl

/-- The facts of a derivation that ends well: one for the first candidate of each identity, in order. -/
theorem facts_of_derive (hslugs : ∀ path content, IsNote snapshot.files path content → noteSlug path content ≠ []) {facts : List DerivedFact}
    (h : deriveCanonicalFacts sha256 snapshot = .ok facts) : Derivable sha256 snapshot ∧
      (facts.Pairwise fun a b => LtUnits a.fact.factIdentity b.fact.factIdentity) ∧
      ∀ df, df ∈ facts ↔ ∃ c, (allCandidates sha256 snapshot).find? (fun d => d.identity = c.identity) = some c ∧
        df = ⟨c.fact, c.provenance⟩ := by
  rw [deriveCanonicalFacts_eq hslugs] at h
  cases hdedupe : dedupe .empty (allCandidates sha256 snapshot) with
  | error e =>
    rw [hdedupe] at h
    cases h
  | ok byIdentity =>
    rw [hdedupe] at h
    obtain ⟨hvalid, rfl⟩ := mapM_validate_iff.mp h
    have hmem : ∀ c, c ∈ sortBy FactCandidate.identity (byIdentity.entries.map Prod.snd) → c ∈ allCandidates sha256 snapshot :=
      fun c hc => List.mem_of_find?_eq_some ((mem_kept hdedupe).mp hc)
    refine ⟨⟨?_, fun c _ hfirst => hvalid c ((mem_kept hdedupe).mpr hfirst)⟩, ?_, fun df => ?_⟩
    · have hpairwise := (dedupe_isOk_iff.mp ⟨byIdentity, hdedupe⟩).2
      have hsymm : Std.Symm fun c d : FactCandidate => c.identity = d.identity → c.path = d.path :=
        ⟨fun x y hxy heq => (hxy heq.symm).symm⟩
      intro c hc d hd
      by_cases hcd : c = d
      · exact fun _ => congrArg FactCandidate.path hcd
      · exact hpairwise.forall hc hd hcd
    · rw [List.pairwise_map]
      refine (kept_sorted hdedupe).imp_of_mem ?_
      intro c d hc hd hlt
      rw [fact_identity_of_mem (hmem c hc), fact_identity_of_mem (hmem d hd)]
      exact hlt
    · rw [List.mem_map]
      simp only [mem_kept hdedupe, eq_comm]

/-- Without collisions and refusals the derivation ends well. -/
theorem derive_of_derivable (hslugs : ∀ path content, IsNote snapshot.files path content → noteSlug path content ≠ [])
    (h : Derivable sha256 snapshot) : ∃ facts, deriveCanonicalFacts sha256 snapshot = .ok facts := by
  obtain ⟨hpaths, hvalid⟩ := h
  rw [deriveCanonicalFacts_eq hslugs]
  obtain ⟨byIdentity, hdedupe⟩ := (@dedupe_isOk_iff (allCandidates sha256 snapshot) .empty).mpr
    ⟨fun c _ existing hget => absurd hget (by simp), List.pairwise_of_forall_mem_list hpaths⟩
  rw [hdedupe]
  refine ⟨(sortBy FactCandidate.identity (byIdentity.entries.map Prod.snd)).map fun c => ⟨c.fact, c.provenance⟩,
    mapM_validate_iff.mpr ⟨fun c hc => ?_, rfl⟩⟩
  have hfirst := (mem_kept hdedupe).mp hc
  exact hvalid c (List.mem_of_find?_eq_some hfirst) hfirst

end derive

end sow.gbrain
