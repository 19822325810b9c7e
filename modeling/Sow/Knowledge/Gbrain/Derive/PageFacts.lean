import Sow.Knowledge.Gbrain.Derive.CanonicalFactDeriver

open sow.js sow.contracts sow.markdown_vault
open sow.knowledge_writer (Sha256)

namespace sow.gbrain

section

variable {sha256 : Sha256} {snapshot : CanonicalVaultSnapshot}

/-- A candidate of a committed page. -/
def DerivedFrom (sha256 : Sha256) (snapshot : CanonicalVaultSnapshot) (c : FactCandidate) : Prop :=
  ∃ path content page, snapshot.files.get path = some content ∧ computePageProvenance sha256 path content = some page ∧
    c ∈ pageCandidates sha256 snapshot path content page

theorem derivedFrom_of_collect {paths : List Path} {candidates : List FactCandidate}
    (h : collectCandidates sha256 snapshot paths = .ok candidates) : ∀ c ∈ candidates, DerivedFrom sha256 snapshot c := by
  induction paths generalizing candidates with
  | nil =>
    intro c hc
    rw [← Except.ok.inj h] at hc
    cases hc
  | cons path paths ih =>
    rw [collectCandidates] at h
    cases hget : snapshot.files.get path with
    | none =>
      rw [hget] at h
      exact ih h
    | some content =>
      rw [hget] at h
      dsimp only at h
      split at h
      · cases hpage : computePageProvenance sha256 path content with
        | none =>
          rw [hpage] at h
          cases h
        | some page =>
          rw [hpage] at h
          dsimp only at h
          cases hrest : collectCandidates sha256 snapshot paths with
          | error e =>
            rw [hrest] at h
            cases h
          | ok rest =>
            rw [hrest] at h
            intro c hc
            rw [← Except.ok.inj h] at hc
            rcases List.mem_append.mp hc with hc | hc
            · exact ⟨path, content, page, hget, hpage, hc⟩
            · exact ih hrest c hc
      · exact ih h

theorem mem_of_dedupe {candidates : List FactCandidate} {byIdentity result : Map JsString FactCandidate}
    (h : dedupe byIdentity candidates = .ok result) {id : JsString} {c : FactCandidate} (hc : result.get id = some c) :
    byIdentity.get id = some c ∨ c ∈ candidates := by
  induction candidates generalizing byIdentity with
  | nil =>
    rw [← Except.ok.inj h] at hc
    exact .inl hc
  | cons d candidates ih =>
    rw [dedupe] at h
    cases hget : byIdentity.get d.identity with
    | none =>
      rw [hget] at h
      rcases ih h with hold | hmem
      · rw [Map.get_set] at hold
        split at hold
        · exact .inr (List.mem_cons.mpr (.inl (Option.some.inj hold).symm))
        · exact .inl hold
      · exact .inr (List.mem_cons_of_mem _ hmem)
    | some existing =>
      rw [hget] at h
      dsimp only at h
      split at h
      · exact (ih h).imp_right (List.mem_cons_of_mem _)
      · cases h

private theorem ok_of_bind {ε α β : Type} {x : Except ε α} {f : α → Except ε β} {b : β} (h : (x >>= f) = .ok b) :
    ∃ a, x = .ok a ∧ f a = .ok b := by
  cases x with
  | error e => cases h
  | ok a => exact ⟨a, rfl, h⟩

theorem validate_ok {c : FactCandidate} {df : DerivedFact} (h : validate c = .ok df) :
    df = ⟨c.fact, c.provenance⟩ ∧ isFactProvenance c.provenance = true := by
  unfold validate at h
  split at h
  · next hvalid => exact ⟨(Except.ok.inj h).symm, (Bool.and_eq_true_iff.mp hvalid).2⟩
  · cases h

theorem mem_of_mapM_validate {candidates : List FactCandidate} {facts : List DerivedFact}
    (h : candidates.mapM validate = .ok facts) {df : DerivedFact} (hdf : df ∈ facts) :
    ∃ c ∈ candidates, df = ⟨c.fact, c.provenance⟩ ∧ isFactProvenance c.provenance = true := by
  induction candidates generalizing facts with
  | nil =>
    rw [List.mapM_nil] at h
    rw [← Except.ok.inj h] at hdf
    cases hdf
  | cons c candidates ih =>
    rw [List.mapM_cons] at h
    obtain ⟨valid, hvalid, h⟩ := ok_of_bind h
    obtain ⟨rest, hrest, h⟩ := ok_of_bind h
    rw [← Except.ok.inj h] at hdf
    rcases List.mem_cons.mp hdf with rfl | hdf
    · exact ⟨c, List.mem_cons_self, validate_ok hvalid⟩
    · obtain ⟨d, hd, heq⟩ := ih hrest hdf
      exact ⟨d, List.mem_cons_of_mem _ hd, heq⟩

/-- A derived fact is that of a candidate of a committed page. -/
theorem derivedFrom_of_derive {facts : List DerivedFact} (h : deriveCanonicalFacts sha256 snapshot = .ok facts)
    {df : DerivedFact} (hdf : df ∈ facts) :
    ∃ c, DerivedFrom sha256 snapshot c ∧ df = ⟨c.fact, c.provenance⟩ ∧ isFactProvenance c.provenance = true := by
  unfold deriveCanonicalFacts at h
  obtain ⟨candidates, hcollect, h⟩ := ok_of_bind h
  obtain ⟨byIdentity, hdedupe, h⟩ := ok_of_bind h
  obtain ⟨c, hc, rfl, hvalid⟩ := mem_of_mapM_validate h hdf
  refine ⟨c, ?_, rfl, hvalid⟩
  have hperm : (sortBy FactCandidate.identity (byIdentity.entries.map Prod.snd)).Perm (byIdentity.entries.map Prod.snd) :=
    List.perm_insertionSort _ _
  obtain ⟨⟨id, c'⟩, hmem, rfl⟩ := List.mem_map.mp (hperm.mem_iff.mp hc)
  rcases mem_of_dedupe hdedupe (Map.get_eq_some_iff.mpr hmem) with hempty | hcandidate
  · cases hempty
  · exact derivedFrom_of_collect hcollect _ hcandidate

/-- The digest of a fact that is not a page is that of a text that names its kind. -/
def OtherDigest (sha256 : Sha256) (sha : JsString) : Prop :=
  ∃ kind, (kind = str "link" ∨ kind = str "tag" ∨ kind = str "timeline") ∧ ∃ rest, sha = sha256.text (kind ++ NUL ++ rest)

/-- A page has one page fact, with its identity and its digest; every other fact of it is of
    another kind, and digests a text of that kind. -/
theorem pageCandidates_cases {path : Path} {content : JsString} {page : PageProvenance} {c : FactCandidate}
    (hc : c ∈ pageCandidates sha256 snapshot path content page) :
    (c.path = path ∧ c.provenance.originPath = path ∧ c.fact.workspaceId = snapshot.workspaceId) ∧
      ((c.fact.factKind = .page ∧ c.fact.factIdentity = page.pageIdentity ∧ c.fact.mdContentSha = page.pageSha) ∨
        (c.fact.factKind ≠ .page ∧ OtherDigest sha256 c.fact.mdContentSha)) := by
  unfold pageCandidates at hc
  dsimp only at hc
  simp only [List.mem_cons, List.mem_append, List.mem_map, List.mem_flatMap] at hc
  rcases hc with rfl | ((⟨dst, -, rfl⟩ | ⟨e, -, dst, -, rfl⟩) | ⟨tag, -, rfl⟩) | ⟨e, -, rfl⟩
  · exact ⟨⟨rfl, rfl, rfl⟩, .inl ⟨rfl, rfl, rfl⟩⟩
  · refine ⟨⟨rfl, rfl, rfl⟩, .inr ⟨by simp [candidateOf], str "link", .inl rfl, ?_⟩⟩
    exact ⟨page.slug ++ NUL ++ dst ++ NUL ++ str "body" ++ NUL ++ str "markdown", by simp [candidateOf]⟩
  · refine ⟨⟨rfl, rfl, rfl⟩, .inr ⟨by simp [candidateOf], str "link", .inl rfl, ?_⟩⟩
    exact ⟨page.slug ++ NUL ++ dst ++ NUL ++ e.1 ++ NUL ++ str "frontmatter", by simp [candidateOf]⟩
  · refine ⟨⟨rfl, rfl, rfl⟩, .inr ⟨by simp [candidateOf], str "tag", .inr (.inl rfl), ?_⟩⟩
    exact ⟨page.slug ++ NUL ++ tag, by simp [candidateOf]⟩
  · refine ⟨⟨rfl, rfl, rfl⟩, .inr ⟨by simp [candidateOf], str "timeline", .inr (.inr rfl), ?_⟩⟩
    exact ⟨page.slug ++ NUL ++ decimal e.2 ++ NUL ++ normalizeText e.1, by simp [candidateOf]⟩

private theorem utf8_page_ne {c : UInt16} (hc : c = unit 'l' ∨ c = unit 't') (s t : JsString) :
    utf8 (unit 'p' :: s) ≠ utf8 (c :: t) := by
  have hp : String.utf8EncodeChar (scalarOf (unit 'p')) = [112] := by decide
  have hl : String.utf8EncodeChar (scalarOf (unit 'l')) = [108] := by decide
  have ht : String.utf8EncodeChar (scalarOf (unit 't')) = [116] := by decide
  intro heq
  rw [utf8_cons (by decide), hp] at heq
  rcases hc with rfl | rfl
  · rw [utf8_cons (by decide), hl] at heq
    exact absurd (List.cons.inj heq).1 (by decide)
  · rw [utf8_cons (by decide), ht] at heq
    exact absurd (List.cons.inj heq).1 (by decide)

/-- No page digests the text of another kind of fact. -/
theorem pageSha_not_other (hsha : sha256.Law) {path : Path} {content : JsString} {page : PageProvenance}
    (hpage : computePageProvenance sha256 path content = some page) : ¬ OtherDigest sha256 page.pageSha := by
  rintro ⟨kind, hkind, rest, heq⟩
  unfold computePageProvenance at hpage
  dsimp only at hpage
  split at hpage
  · cases hpage
  · rw [← Option.some.inj hpage] at heq
    -- the two texts differ in their first byte
    have hutf8 := hsha.injective heq
    simp only [List.append_assoc] at hutf8
    rcases hkind with rfl | rfl | rfl
    · exact utf8_page_ne (.inl rfl) _ _ hutf8
    · exact utf8_page_ne (.inr rfl) _ _ hutf8
    · exact utf8_page_ne (.inr rfl) _ _ hutf8

end

end sow.gbrain
