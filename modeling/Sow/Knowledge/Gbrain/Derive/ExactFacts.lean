import Sow.Domain.Sha256
import Sow.Knowledge.Gbrain.Derive.FactKeys

open sow.js sow.contracts sow.markdown_vault
open sow.knowledge_writer (Sha256 VaultSnapshot)

namespace sow.gbrain

section files

variable (files : VaultSnapshot)

/-- Every note has a slug, and no other note has it. -/
def DistinctSlugs : Prop :=
  (∀ path content, IsNote files path content → noteSlug path content ≠ []) ∧
    ∀ path content path' content', IsNote files path content → IsNote files path' content' →
      noteSlug path content = noteSlug path' content' → path = path'

/-- No line ends inside a slug, a link target or the name of a field with a link, and a field
    without a name has an arrow and a colon elsewhere in the identity of its link. -/
def Nameable (slug : JsString) (links : List (JsString × JsString)) : Prop :=
  slug.all isDot = true ∧ ∀ dst field, (dst, field) ∈ links →
    dst.all isDot = true ∧ field.all isDot = true ∧ (field = [] → hasInnerArrow (slug ++ str "->" ++ dst ++ str ":") = true)

/-- Every note can be named, and no two notes join a slug and a link, or a slug and a tag, to one text. -/
structure Unambiguous : Prop where
  nameable : ∀ path content, IsNote files path content → Nameable (noteSlug path content) (noteLinks content)
  links : ∀ path content path' content', IsNote files path content → IsNote files path' content' → path ≠ path' →
    ∀ dst field dst' field', (dst, field) ∈ noteLinks content → (dst', field') ∈ noteLinks content' →
      noteSlug path content ++ str "->" ++ dst ++ str ":" ++ field ≠ noteSlug path' content' ++ str "->" ++ dst' ++ str ":" ++ field'
  tags : ∀ path content path' content', IsNote files path content → IsNote files path' content' → path ≠ path' →
    ∀ tag tag', tag ∈ noteTags content → tag' ∈ noteTags content' →
      noteSlug path content ++ str ":" ++ tag ≠ noteSlug path' content' ++ str ":" ++ tag'

end files

section spec

/-- The fact of a note for something that it states. -/
def FactOf (path : Path) (content : JsString) (key : FactKey) (df : DerivedFact) : Prop :=
  df.provenance.originPath = path ∧ df.fact.factKind = key.kind ∧ df.fact.factIdentity = key.identity (noteSlug path content)

/-- The facts are in the order of their identities, with none twice, and there is exactly one of
    them for each thing that a note states. -/
structure ExactFacts (snapshot : CanonicalVaultSnapshot) (facts : List DerivedFact) : Prop where
  sorted : facts.Pairwise fun a b => LtUnits a.fact.factIdentity b.fact.factIdentity
  complete : ∀ path content, IsNote snapshot.files path content → ∀ key ∈ noteKeys content,
    ∃! df, df ∈ facts ∧ FactOf path content key df
  sound : ∀ df ∈ facts, ∃! x : Path × FactKey, ∃ content, IsNote snapshot.files x.1 content ∧ x.2 ∈ noteKeys content ∧
    FactOf x.1 content x.2 df

/-- The derivation gives exactly the facts of the notes, in whatever order the map has the files. -/
structure DerivesExactly (sha256 : Sha256) (snapshot : CanonicalVaultSnapshot) (facts : List DerivedFact) : Prop where
  exact : ExactFacts snapshot facts
  ordered : ∀ files : VaultSnapshot, (∀ path, files.get path = snapshot.files.get path) →
    deriveCanonicalFacts sha256 { snapshot with files := files } = .ok facts

/-- The facts that do not come from a note. -/
def factsApart (path : Path) (facts : List DerivedFact) : List DerivedFact :=
  facts.filter fun df => df.provenance.originPath ≠ path

end spec

section names

/-- What the schema asks of an identity after the prefix of its kind. -/
def identityRest : FactKind → JsString → Bool
  | .page, rest => 0 < rest.length
  | .link, rest => hasInnerArrow rest
  | .timeline, rest => hasInnerColon rest
  | .tag, rest => hasInnerColon rest

theorem isFactIdentity_prefixed (kind : FactKind) (rest : JsString) :
    isFactIdentity (FACT_KIND_IDENTITY_PREFIX kind ++ rest) = (rest.all isDot && identityRest kind rest) := by
  have hself : ∀ lit : JsString, stripLit lit (lit ++ rest) = some rest := fun lit => Piece.stripLit_eq_some.mpr rfl
  have hother : ∀ k : FactKind, k ≠ kind → stripLit (FACT_KIND_IDENTITY_PREFIX k) (FACT_KIND_IDENTITY_PREFIX kind ++ rest) = none := by
    intro k hk
    cases k <;> cases kind <;> first | exact absurd rfl hk | rfl
  have hdot : (FACT_KIND_IDENTITY_PREFIX kind ++ rest).all isDot = rest.all isDot := by
    have hprefix : (FACT_KIND_IDENTITY_PREFIX kind).all isDot = true := by
      cases kind <;> decide
    rw [List.all_append, hprefix, Bool.true_and]
  unfold isFactIdentity
  rw [hdot]
  congr 1
  have hpage := hother .page
  have hlink := hother .link
  have htimeline := hother .timeline
  have htag := hother .tag
  have hkind := hself (FACT_KIND_IDENTITY_PREFIX kind)
  cases kind <;> simp [FACT_KIND_IDENTITY_PREFIX] at hpage hlink htimeline htag hkind ⊢ <;> simp [*, identityRest]

theorem hasInnerColon_append {a b : JsString} (ha : a ≠ []) (hb : b ≠ []) : hasInnerColon (a ++ str ":" ++ b) = true := by
  have hlen := List.length_pos_iff.mpr ha
  have hlen' := List.length_pos_iff.mpr hb
  have hdrop : (a ++ str ":" ++ b).drop a.length = str ":" ++ b := by
    rw [List.append_assoc, List.drop_left]
  unfold hasInnerColon
  rw [List.any_eq_true]
  refine ⟨a.length, by simp [str], ?_⟩
  rw [hdrop]
  simp [str, startsWith]
  omega

theorem hasInnerArrow_append {a b : JsString} (ha : a ≠ []) (hb : hasInnerColon b = true) : hasInnerArrow (a ++ str "->" ++ b) = true := by
  have hlen := List.length_pos_iff.mpr ha
  have hdrop : (a ++ str "->" ++ b).drop a.length = str "->" ++ b := by
    rw [List.append_assoc, List.drop_left]
  have hdrop' : (a ++ str "->" ++ b).drop (a.length + 2) = b := by
    rw [← List.drop_drop, hdrop]
    rfl
  unfold hasInnerArrow
  rw [List.any_eq_true]
  refine ⟨a.length, by simp [str], ?_⟩
  rw [hdrop, hdrop', hb]
  simp [str, startsWith]
  omega

theorem dot_of_not_space {c : UInt16} (h : isSpace c = false) : isDot c = true := by
  by_contra hnot
  have hcases : c = 0x0A ∨ c = 0x0D ∨ c = 0x2028 ∨ c = 0x2029 := by
    by_contra hne
    obtain ⟨h1, h2, h3, h4⟩ : c ≠ 0x0A ∧ c ≠ 0x0D ∧ c ≠ 0x2028 ∧ c ≠ 0x2029 := by
      refine ⟨?_, ?_, ?_, ?_⟩ <;> (rintro rfl; exact hne (by decide))
    exact hnot (by simp [isDot, h1, h2, h3, h4])
  rcases hcases with rfl | rfl | rfl | rfl <;> exact absurd h (by decide)

theorem sep_not_mem_splitOnPPrepend {α : Type} {p : α → Bool} {c : α} (hc : p c = true) (l acc : List α) (hacc : c ∉ acc) :
    ∀ piece ∈ l.splitOnPPrepend p acc, c ∉ piece := by
  induction l generalizing acc with
  | nil =>
    intro piece hpiece
    rw [List.splitOnPPrepend_nil, List.mem_singleton] at hpiece
    rwa [hpiece, List.mem_reverse]
  | cons x l ih =>
    intro piece hpiece
    rw [List.splitOnPPrepend_cons_eq_if] at hpiece
    split at hpiece
    · rcases List.mem_cons.mp hpiece with rfl | hpiece
      · rwa [List.mem_reverse]
      · exact ih [] List.not_mem_nil piece hpiece
    · next hx =>
      refine ih (x :: acc) ?_ piece hpiece
      rintro hmem
      rcases List.mem_cons.mp hmem with rfl | hmem
      · exact hx hc
      · exact hacc hmem

/-- A tag is a text without blanks. -/
theorem tag_dots {content t : JsString} (h : t ∈ noteTags content) : t ≠ [] ∧ t.all isDot = true := by
  unfold noteTags at h
  cases htags : (parseNote content).frontmatter.get (str "tags") with
  | none =>
    rw [htags] at h
    exact absurd h List.not_mem_nil
  | some value =>
    rw [htags] at h
    change t ∈ parseTags value at h
    unfold parseTags at h
    rw [List.mem_eraseDups, List.mem_filterMap] at h
    obtain ⟨raw, hraw, ht⟩ := h
    dsimp only at ht
    split at ht
    · next hlen =>
      obtain rfl := Option.some.inj ht
      refine ⟨List.length_pos_iff.mp hlen, List.all_eq_true.mpr fun c hc => dot_of_not_space ?_⟩
      have hstripped := mem_of_mem_trim hc
      have hmem : c ∈ raw := by
        unfold stripLit at hstripped
        split at hstripped
        · exact List.mem_of_mem_drop hstripped
        · exact hstripped
      cases hspace : isSpace c with
      | false => rfl
      | true => exact absurd hmem (sep_not_mem_splitOnPPrepend (by simp [hspace]) value [] List.not_mem_nil raw hraw)
    · cases ht

theorem target_ne_nil {text dst : JsString} (h : dst ∈ wikilinkTargets text) : dst ≠ [] := by
  unfold wikilinkTargets at h
  rw [List.mem_eraseDups] at h
  simpa using List.of_mem_filter h

theorem link_ne_nil {content dst field : JsString} (h : (dst, field) ∈ noteLinks content) : dst ≠ [] := by
  unfold noteLinks at h
  rcases List.mem_append.mp h with hbody | hfrontmatter
  · obtain ⟨target, htarget, heq⟩ := List.mem_map.mp hbody
    exact (Prod.mk.inj heq).1 ▸ target_ne_nil htarget
  · obtain ⟨e, -, hlink⟩ := List.mem_flatMap.mp hfrontmatter
    obtain ⟨target, htarget, heq⟩ := List.mem_map.mp hlink
    exact (Prod.mk.inj heq).1 ▸ target_ne_nil htarget

theorem decimal_dots (n : Nat) : (decimal n).all isDot = true := by
  refine List.all_eq_true.mpr fun c hc => dot_of_not_space ?_
  obtain ⟨hlow, hhigh⟩ := digit_of_mem_decimal hc
  simp only [isSpace, Bool.or_eq_false_iff, Bool.and_eq_false_iff, decide_eq_false_iff_not, beq_eq_false_iff_ne]
  omega

/-- The schema lets the identities of a note pass if and only if the note can be named. -/
theorem isFactIdentity_iff {slug content : JsString} (hslug : slug ≠ []) :
    (∀ key ∈ noteKeys content, isFactIdentity (key.identity slug) = true) ↔ Nameable slug (noteLinks content) := by
  have hpage : isFactIdentity (FactKey.page.identity slug) = slug.all isDot := by
    have hlen := List.length_pos_iff.mpr hslug
    change isFactIdentity (FACT_KIND_IDENTITY_PREFIX .page ++ slug) = _
    rw [isFactIdentity_prefixed]
    simp [identityRest, hlen]
  have hcolon : (str ":").all isDot = true := by decide
  have harrow : (str "->").all isDot = true := by decide
  have hlink : ∀ dst field, (dst, field) ∈ noteLinks content → (isFactIdentity ((FactKey.link dst field).identity slug) = true ↔
      slug.all isDot = true ∧ dst.all isDot = true ∧ field.all isDot = true ∧
        (field = [] → hasInnerArrow (slug ++ str "->" ++ dst ++ str ":") = true)) := by
    intro dst field hmem
    have heq : (FactKey.link dst field).identity slug = FACT_KIND_IDENTITY_PREFIX .link ++ (slug ++ str "->" ++ dst ++ str ":" ++ field) :=
      factIdentityLink_eq slug dst field
    have hrest : hasInnerArrow (slug ++ str "->" ++ dst ++ str ":" ++ field) = true ↔
        (field = [] → hasInnerArrow (slug ++ str "->" ++ dst ++ str ":") = true) := by
      by_cases hfield : field = []
      · rw [hfield, List.append_nil]
        exact ⟨fun h _ => h, fun h => h rfl⟩
      · have hinner := hasInnerArrow_append hslug (hasInnerColon_append (link_ne_nil hmem) hfield)
        have hassoc : slug ++ str "->" ++ (dst ++ str ":" ++ field) = slug ++ str "->" ++ dst ++ str ":" ++ field := by
          simp only [List.append_assoc]
        rw [hassoc] at hinner
        exact ⟨fun _ hnil => absurd hnil hfield, fun _ => hinner⟩
    rw [heq, isFactIdentity_prefixed, identityRest, Bool.and_eq_true, hrest]
    simp only [List.all_append, Bool.and_eq_true, hcolon, harrow, and_true, and_assoc]
  have htag : ∀ t ∈ noteTags content, isFactIdentity ((FactKey.tag t).identity slug) = slug.all isDot := by
    intro t ht
    obtain ⟨hne, hdots⟩ := tag_dots ht
    have heq : (FactKey.tag t).identity slug = FACT_KIND_IDENTITY_PREFIX .tag ++ (slug ++ str ":" ++ t) := factIdentityTag_eq slug t
    rw [heq, isFactIdentity_prefixed, identityRest, hasInnerColon_append hslug hne]
    simp only [List.all_append, hcolon, hdots, Bool.and_true]
  have htimeline : ∀ seq, isFactIdentity ((FactKey.timeline seq).identity slug) = slug.all isDot := by
    intro seq
    have heq : (FactKey.timeline seq).identity slug = FACT_KIND_IDENTITY_PREFIX .timeline ++ (slug ++ str ":" ++ decimal seq) :=
      factIdentityTimeline_eq slug seq
    rw [heq, isFactIdentity_prefixed, identityRest, hasInnerColon_append hslug (decimal_ne_nil seq)]
    simp only [List.all_append, hcolon, decimal_dots, Bool.and_true]
  constructor
  · intro h
    refine ⟨hpage ▸ h .page (page_mem_noteKeys content), fun dst field hmem => ?_⟩
    exact ((hlink dst field hmem).mp (h _ (link_mem_noteKeys hmem))).2
  · rintro ⟨hdots, hlinks⟩ key hkey
    rcases mem_noteKeys hkey with rfl | ⟨dst, field, rfl, hmem⟩ | ⟨t, rfl, ht⟩ | ⟨seq, rfl⟩
    · rw [hpage, hdots]
    · exact (hlink dst field hmem).mpr ⟨hdots, hlinks dst field hmem⟩
    · rw [htag t ht, hdots]
    · rw [htimeline seq, hdots]

end names

section derive

variable {sha256 : Sha256} {snapshot : CanonicalVaultSnapshot}

/-- A candidate passes the schemas if and only if its identity does. -/
theorem valid_iff (hdigest : ∀ bytes, isMdContentSha (sha256 bytes) = true) (hworkspace : isWorkspaceId snapshot.workspaceId = true)
    (hrevision : isBrandedId snapshot.revisionId = true) {path : Path} (hpath : isMarkdownPath path = true) {slug : JsString} {key : FactKey}
    {c : FactCandidate} (hc : CandidateOf sha256 snapshot path slug key c) :
    (isSemanticFact c.fact = true ∧ isFactProvenance c.provenance = true) ↔ isFactIdentity c.identity = true := by
  obtain ⟨text, hfact⟩ := hc.fact_eq
  obtain ⟨horigin, hkw, hsha⟩ := hc.provenance_eq
  have hne : 0 < path.length := by
    cases path with
    | nil => exact absurd hpath (by decide)
    | cons c path => exact Nat.succ_pos _
  have hprefix : startsWith c.identity (FACT_KIND_IDENTITY_PREFIX key.kind) = true := by
    rw [hc.identity_eq]
    exact startsWith_iff.mpr (identity_prefixed slug key)
  have hprovenance : isFactProvenance c.provenance = true := by
    unfold isFactProvenance
    rw [hkw, horigin, hsha, hfact, hrevision]
    simp [hne, Sha256.text, hdigest]
  unfold isSemanticFact
  rw [hfact, hworkspace, hrevision]
  simp only [ hprefix, hprovenance, Sha256.text, hdigest, Bool.and_true, and_true]

/-- What a candidate of the vault is of. -/
theorem exists_note {c : FactCandidate} (hc : c ∈ allCandidates sha256 snapshot) :
    ∃ path content, IsNote snapshot.files path content ∧ ∃ key ∈ noteKeys content,
      CandidateOf sha256 snapshot path (noteSlug path content) key c := by
  obtain ⟨path, content, page, hnote, hpage, hc⟩ := mem_allCandidates.mp hc
  exact ⟨path, content, hnote, candidate_key hpage hc⟩

theorem exists_candidate_of_key (hslugs : ∀ path content, IsNote snapshot.files path content → noteSlug path content ≠ []) {path : Path}
    {content : JsString} (hnote : IsNote snapshot.files path content) {key : FactKey} (hkey : key ∈ noteKeys content) :
    ∃ c ∈ allCandidates sha256 snapshot, CandidateOf sha256 snapshot path (noteSlug path content) key c := by
  obtain ⟨page, hpage⟩ := Option.isSome_iff_exists.mp ((@computePageProvenance_isSome sha256 path content).mpr (hslugs path content hnote))
  obtain ⟨c, hc, hof⟩ := @exists_candidate sha256 snapshot _ _ _ hpage _ hkey
  exact ⟨c, mem_allCandidates.mpr ⟨path, content, page, hnote, hpage, hc⟩, hof⟩

theorem exists_first {c : FactCandidate} (hc : c ∈ allCandidates sha256 snapshot) :
    ∃ d, (allCandidates sha256 snapshot).find? (fun d => d.identity = c.identity) = some d ∧ d ∈ allCandidates sha256 snapshot ∧
      d.identity = c.identity := by
  obtain ⟨d, hd⟩ := Option.isSome_iff_exists.mp (List.find?_isSome.mpr ⟨c, hc, decide_eq_true rfl⟩ :
    ((allCandidates sha256 snapshot).find? fun d => d.identity = c.identity).isSome = true)
  exact ⟨d, hd, List.mem_of_find?_eq_some hd, by simpa using List.find?_some hd⟩

/-- Two notes share an identity only where they join their slugs to links or to tags alike. -/
theorem collides_cases {files : VaultSnapshot} (hslugs : DistinctSlugs files) {path path' : Path} {content content' : JsString}
    (hnote : IsNote files path content) (hnote' : IsNote files path' content') (hne : path ≠ path') {key key' : FactKey}
    (hkey : key ∈ noteKeys content) (hkey' : key' ∈ noteKeys content')
    (h : key.identity (noteSlug path content) = key'.identity (noteSlug path' content')) :
    (∃ dst field dst' field', (dst, field) ∈ noteLinks content ∧ (dst', field') ∈ noteLinks content' ∧
      noteSlug path content ++ str "->" ++ dst ++ str ":" ++ field = noteSlug path' content' ++ str "->" ++ dst' ++ str ":" ++ field') ∨
    ∃ t t', t ∈ noteTags content ∧ t' ∈ noteTags content' ∧
      noteSlug path content ++ str ":" ++ t = noteSlug path' content' ++ str ":" ++ t' := by
  have hkind := identity_kind h
  have hdistinct : noteSlug path content ≠ noteSlug path' content' := fun heq => hne (hslugs.2 _ _ _ _ hnote hnote' heq)
  rcases mem_noteKeys hkey with rfl | ⟨dst, field, rfl, hlink⟩ | ⟨t, rfl, ht⟩ | ⟨seq, rfl⟩ <;>
    rcases mem_noteKeys hkey' with rfl | ⟨dst', field', rfl, hlink'⟩ | ⟨t', rfl, ht'⟩ | ⟨seq', rfl⟩ <;>
      first | (cases hkind; done) | skip
  · exact absurd (List.append_cancel_left h) hdistinct
  · have heq := (factIdentityLink_eq ..).symm.trans (h.trans (factIdentityLink_eq ..))
    exact .inl ⟨dst, field, dst', field', hlink, hlink', List.append_cancel_left heq⟩
  · have heq := (factIdentityTag_eq ..).symm.trans (h.trans (factIdentityTag_eq ..))
    exact .inr ⟨t, t', ht, ht', List.append_cancel_left heq⟩
  · have heq := (factIdentityTimeline_eq ..).symm.trans (h.trans (factIdentityTimeline_eq ..))
    have hjoined : noteSlug path content ++ unit ':' :: decimal seq = noteSlug path' content' ++ unit ':' :: decimal seq' := by
      simpa [str, unit] using List.append_cancel_left heq
    have hcolon : ∀ n, unit ':' ∉ decimal n := fun n hmem => absurd (digit_of_mem_decimal hmem) (by decide)
    exact absurd (lastField_inj (hcolon seq) (hcolon seq') hjoined).1 hdistinct

/-- The derivation meets no collision and no refusal if and only if the notes are unambiguous. -/
theorem derivable_iff (hdigest : ∀ bytes, isMdContentSha (sha256 bytes) = true) (hworkspace : isWorkspaceId snapshot.workspaceId = true)
    (hrevision : isBrandedId snapshot.revisionId = true) (hslugs : DistinctSlugs snapshot.files) :
    Derivable sha256 snapshot ↔ Unambiguous snapshot.files := by
  constructor
  · rintro ⟨hpaths, hvalid⟩
    have hcollide : ∀ path content path' content', IsNote snapshot.files path content → IsNote snapshot.files path' content' → path ≠ path' →
        ∀ key ∈ noteKeys content, ∀ key' ∈ noteKeys content', key.identity (noteSlug path content) ≠ key'.identity (noteSlug path' content') := by
      intro path content path' content' hnote hnote' hne key hkey key' hkey' heq
      obtain ⟨c, hc, hof⟩ := @exists_candidate_of_key sha256 snapshot hslugs.1 _ _ hnote _ hkey
      obtain ⟨c', hc', hof'⟩ := @exists_candidate_of_key sha256 snapshot hslugs.1 _ _ hnote' _ hkey'
      have hpath := hpaths c hc c' hc' (by rw [hof.identity_eq, hof'.identity_eq, heq])
      rw [hof.path_eq, hof'.path_eq] at hpath
      exact hne hpath
    refine ⟨fun path content hnote => ?_, ?_, ?_⟩
    · rw [← isFactIdentity_iff (hslugs.1 path content hnote)]
      intro key hkey
      obtain ⟨c, hc, hof⟩ := @exists_candidate_of_key sha256 snapshot hslugs.1 _ _ hnote _ hkey
      obtain ⟨d, hfirst, hd, hid⟩ := exists_first hc
      obtain ⟨path', content', hnote', key', -, hof'⟩ := exists_note hd
      rw [← hof.identity_eq, ← hid]
      rw [← hid] at hfirst
      exact (valid_iff hdigest hworkspace hrevision hnote'.2 hof').mp (hvalid d hd hfirst)
    · intro path content path' content' hnote hnote' hne dst field dst' field' hlink hlink' heq
      refine hcollide path content path' content' hnote hnote' hne _ (link_mem_noteKeys hlink) _ (link_mem_noteKeys hlink') ?_
      exact (factIdentityLink_eq ..).trans ((congrArg _ heq).trans (factIdentityLink_eq ..).symm)
    · intro path content path' content' hnote hnote' hne t t' ht ht' heq
      refine hcollide path content path' content' hnote hnote' hne _ (tag_mem_noteKeys ht) _ (tag_mem_noteKeys ht') ?_
      exact (factIdentityTag_eq ..).trans ((congrArg _ heq).trans (factIdentityTag_eq ..).symm)
  · intro h
    refine ⟨fun c hc d hd heq => ?_, fun c hc _ => ?_⟩
    · obtain ⟨path, content, hnote, key, hkey, hof⟩ := exists_note hc
      obtain ⟨path', content', hnote', key', hkey', hof'⟩ := exists_note hd
      rw [hof.path_eq, hof'.path_eq]
      by_contra hne
      rw [hof.identity_eq, hof'.identity_eq] at heq
      rcases collides_cases hslugs hnote hnote' hne hkey hkey' heq with ⟨dst, field, dst', field', hlink, hlink', hjoined⟩ | ⟨t, t', ht, ht', hjoined⟩
      · exact h.links _ _ _ _ hnote hnote' hne _ _ _ _ hlink hlink' hjoined
      · exact h.tags _ _ _ _ hnote hnote' hne _ _ ht ht' hjoined
    · obtain ⟨path, content, hnote, key, hkey, hof⟩ := exists_note hc
      rw [valid_iff hdigest hworkspace hrevision hnote.2 hof, hof.identity_eq]
      exact (isFactIdentity_iff (hslugs.1 path content hnote)).mpr (h.nameable path content hnote) key hkey

/-- A derivation that ends well gives exactly the facts of the notes. -/
theorem exactFacts_of_derive (hslugs : DistinctSlugs snapshot.files) {facts : List DerivedFact}
    (h : deriveCanonicalFacts sha256 snapshot = .ok facts) : ExactFacts snapshot facts := by
  obtain ⟨⟨hpaths, -⟩, hsorted, hmem⟩ := facts_of_derive hslugs.1 h
  refine ⟨hsorted, fun path content hnote key hkey => ?_, fun df hdf => ?_⟩
  · obtain ⟨c, hc, hof⟩ := @exists_candidate_of_key sha256 snapshot hslugs.1 _ _ hnote _ hkey
    obtain ⟨d, hfirst, hd, hid⟩ := exists_first hc
    obtain ⟨path', content', hnote', key', hkey', hof'⟩ := exists_note hd
    have hpath : path' = path := by
      rw [← hof.path_eq, ← hof'.path_eq]
      exact hpaths d hd c hc hid
    subst hpath
    obtain rfl : content' = content := Option.some.inj (hnote'.1.symm.trans hnote.1)
    obtain rfl : key' = key := by
      apply identity_inj hkey' hkey
      rw [← hof'.identity_eq, ← hof.identity_eq, hid]
    obtain ⟨text, hfact⟩ := hof'.fact_eq
    rw [← hid] at hfirst
    refine ⟨⟨d.fact, d.provenance⟩, ⟨(hmem _).mpr ⟨d, hfirst, rfl⟩, hof'.provenance_eq.1, ?_, ?_⟩, ?_⟩
    · dsimp only
      rw [hfact]
    · rw [← hof'.identity_eq]
      exact fact_identity_of_mem hd
    · rintro df ⟨hdf, -, -, hidentity⟩
      obtain ⟨e, hfirst', rfl⟩ := (hmem df).mp hdf
      have he := List.mem_of_find?_eq_some hfirst'
      have heq : e.identity = d.identity := by
        rw [← fact_identity_of_mem he, hof'.identity_eq]
        exact hidentity
      rw [heq] at hfirst'
      obtain rfl := Option.some.inj (hfirst'.symm.trans hfirst)
      rfl
  · obtain ⟨c, hfirst, rfl⟩ := (hmem df).mp hdf
    have hc := List.mem_of_find?_eq_some hfirst
    obtain ⟨path, content, hnote, key, hkey, hof⟩ := exists_note hc
    obtain ⟨text, hfact⟩ := hof.fact_eq
    refine ⟨(path, key), ⟨content, hnote, hkey, hof.provenance_eq.1, ?_, ?_⟩, ?_⟩
    · dsimp only
      rw [hfact]
    · dsimp only
      rw [fact_identity_of_mem hc, hof.identity_eq]
    · rintro ⟨path', key'⟩ ⟨content', hnote', hkey', horigin, -, hidentity⟩
      dsimp only at hnote' hkey' horigin hidentity
      obtain rfl : path = path' := hof.provenance_eq.1.symm.trans horigin
      obtain rfl : content' = content := Option.some.inj (hnote'.1.symm.trans hnote.1)
      rw [fact_identity_of_mem hc, hof.identity_eq] at hidentity
      rw [identity_inj hkey' hkey hidentity.symm]

/-- The derivation reads the map of files by its lookups only. -/
theorem derive_congr (hslugs : DistinctSlugs snapshot.files) {files : VaultSnapshot} (h : ∀ path, files.get path = snapshot.files.get path) :
    deriveCanonicalFacts sha256 { snapshot with files := files } = deriveCanonicalFacts sha256 snapshot := by
  have hslugs' : ∀ path content, IsNote files path content → noteSlug path content ≠ [] :=
    fun path content hnote => hslugs.1 path content ⟨(h path).symm.trans hnote.1, hnote.2⟩
  have hkeys : sort files.keys = sort snapshot.files.keys := by
    apply sort_eq_of_perm
    refine (List.perm_ext_iff_of_nodup (show files.keys.Nodup from files.nodup) snapshot.files.nodup).mpr fun path => ?_
    rw [Map.mem_keys_iff]
    exact (congrArg (fun found => found.isSome = true) (h path)).to_iff.trans Map.mem_keys_iff.symm
  have hall : allCandidates sha256 { snapshot with files := files } = allCandidates sha256 snapshot := by
    unfold allCandidates
    dsimp only
    rw [hkeys]
    congr 1
    funext path
    unfold candidatesAt
    dsimp only
    rw [h]
    rfl
  rw [@deriveCanonicalFacts_eq sha256 { snapshot with files := files } hslugs', deriveCanonicalFacts_eq hslugs.1, hall]

/-- The first candidate of an identity is the first one of its own page. -/
theorem first_iff (hpaths : ∀ c ∈ allCandidates sha256 snapshot, ∀ d ∈ allCandidates sha256 snapshot, c.identity = d.identity → c.path = d.path)
    {id : JsString} {c : FactCandidate} : (allCandidates sha256 snapshot).find? (fun d => d.identity = id) = some c ↔
      ∃ path, (candidatesAt sha256 snapshot path).find? (fun d => d.identity = id) = some c := by
  have hforward : ∀ {c}, (allCandidates sha256 snapshot).find? (fun d => d.identity = id) = some c →
      ∃ path, (candidatesAt sha256 snapshot path).find? (fun d => d.identity = id) = some c := by
    intro c h
    unfold allCandidates at h
    rw [List.find?_flatMap] at h
    obtain ⟨path, -, hfirst⟩ := List.exists_of_findSome?_eq_some h
    exact ⟨path, hfirst⟩
  have hall : ∀ {path c}, (candidatesAt sha256 snapshot path).find? (fun d => d.identity = id) = some c →
      c ∈ allCandidates sha256 snapshot ∧ c.path = path ∧ c.identity = id := by
    intro path c h
    obtain ⟨content, page, hnote, hpage, hc⟩ := mem_candidatesAt.mp (List.mem_of_find?_eq_some h)
    obtain ⟨key, -, hof⟩ := candidate_key hpage hc
    exact ⟨mem_allCandidates.mpr ⟨path, content, page, hnote, hpage, hc⟩, hof.path_eq, by simpa using List.find?_some h⟩
  refine ⟨hforward, ?_⟩
  rintro ⟨path, h⟩
  obtain ⟨hc, hpath, hid⟩ := hall h
  obtain ⟨d, hfirst, hd, hid'⟩ := exists_first hc
  rw [hid] at hfirst hid'
  obtain ⟨path', h'⟩ := hforward hfirst
  obtain ⟨-, hpath', -⟩ := hall h'
  have heq : path' = path := by
    rw [← hpath', ← hpath]
    exact hpaths d hd c hc (hid'.trans hid.symm)
  rw [heq] at h'
  obtain rfl := Option.some.inj (h'.symm.trans h)
  exact hfirst

/-- Facts in the order of their identities are told apart by which they are. -/
theorem eq_of_sorted {l l' : List DerivedFact} (h : l.Pairwise fun a b => LtUnits a.fact.factIdentity b.fact.factIdentity)
    (h' : l'.Pairwise fun a b => LtUnits a.fact.factIdentity b.fact.factIdentity) (hmem : ∀ df, df ∈ l ↔ df ∈ l') : l = l' := by
  have hirrefl : ∀ {a b : DerivedFact}, LtUnits a.fact.factIdentity b.fact.factIdentity → a ≠ b := by
    rintro a b hlt rfl
    exact lt_irrefl (α := List Nat) _ hlt
  have hperm : l.Perm l' := (List.perm_ext_iff_of_nodup (h.imp hirrefl) (h'.imp hirrefl)).mpr hmem
  refine hperm.eq_of_pairwise (fun a b _ _ hab hba => ?_) h h'
  exact absurd (lt_trans (α := List Nat) hab hba) (lt_irrefl (α := List Nat) _)

/-- Replacing a note leaves the facts of the others. -/
theorem factsApart_eq {files : VaultSnapshot} {path : Path} (hslugs : DistinctSlugs snapshot.files) (hslugs' : DistinctSlugs files)
    (hget : ∀ other, other ≠ path → files.get other = snapshot.files.get other) {facts facts' : List DerivedFact}
    (h : deriveCanonicalFacts sha256 snapshot = .ok facts) (h' : deriveCanonicalFacts sha256 { snapshot with files := files } = .ok facts') :
    factsApart path facts = factsApart path facts' := by
  obtain ⟨⟨hpaths, -⟩, hsorted, hmem⟩ := facts_of_derive hslugs.1 h
  obtain ⟨⟨hpaths', -⟩, hsorted', hmem'⟩ := @facts_of_derive sha256 { snapshot with files := files } hslugs'.1 _ h'
  have hat : ∀ other, other ≠ path → candidatesAt sha256 { snapshot with files := files } other = candidatesAt sha256 snapshot other := by
    intro other hother
    unfold candidatesAt
    dsimp only
    rw [hget other hother]
    rfl
  have horigin : ∀ (S : CanonicalVaultSnapshot) (other : Path) (id : JsString) (c : FactCandidate),
      (candidatesAt sha256 S other).find? (fun d => d.identity = id) = some c → c.provenance.originPath = other := by
    intro S other id c hfirst
    obtain ⟨content, page, -, hpage, hc⟩ := mem_candidatesAt.mp (List.mem_of_find?_eq_some hfirst)
    obtain ⟨key, -, hof⟩ := candidate_key hpage hc
    exact hof.provenance_eq.1
  refine eq_of_sorted (hsorted.sublist List.filter_sublist) (hsorted'.sublist List.filter_sublist) fun df => ?_
  unfold factsApart
  simp only [List.mem_filter, hmem, hmem', first_iff hpaths, first_iff hpaths', ne_eq, decide_eq_true_eq]
  constructor
  · rintro ⟨⟨c, ⟨other, hfirst⟩, rfl⟩, hapart⟩
    have hother : other ≠ path := horigin _ _ _ _ hfirst ▸ hapart
    exact ⟨⟨c, ⟨other, by rw [hat other hother]; exact hfirst⟩, rfl⟩, hapart⟩
  · rintro ⟨⟨c, ⟨other, hfirst⟩, rfl⟩, hapart⟩
    have hother : other ≠ path := horigin _ _ _ _ hfirst ▸ hapart
    exact ⟨⟨c, ⟨other, by rw [← hat other hother]; exact hfirst⟩, rfl⟩, hapart⟩

/-- The derivation gives exactly the facts of every note, before and after one of them is replaced, and
    leaves the facts of the others, if and only if the notes are unambiguous before and after. -/
theorem deriveCanonicalFacts_exact_iff (hdigest : ∀ bytes, isMdContentSha (sha256 bytes) = true) (hworkspace : isWorkspaceId snapshot.workspaceId = true)
    (hrevision : isBrandedId snapshot.revisionId = true) {path : Path} {content' : JsString}
    (hslugs : DistinctSlugs snapshot.files) (hslugs' : DistinctSlugs (snapshot.files.set path content')) :
    (∃ facts facts', DerivesExactly sha256 snapshot facts ∧
        DerivesExactly sha256 { snapshot with files := snapshot.files.set path content' } facts' ∧ factsApart path facts = factsApart path facts') ↔
      Unambiguous snapshot.files ∧ Unambiguous (snapshot.files.set path content') := by
  have hiff := @derivable_iff sha256 snapshot hdigest hworkspace hrevision hslugs
  have hiff' := @derivable_iff sha256 { snapshot with files := snapshot.files.set path content' } hdigest hworkspace hrevision hslugs'
  constructor
  · rintro ⟨facts, facts', hexact, hexact', -⟩
    have hok := hexact.ordered snapshot.files fun _ => rfl
    have hok' := hexact'.ordered (snapshot.files.set path content') fun _ => rfl
    exact ⟨hiff.mp (facts_of_derive hslugs.1 hok).1,
      hiff'.mp (@facts_of_derive sha256 { snapshot with files := snapshot.files.set path content' } hslugs'.1 _ hok').1⟩
  · rintro ⟨h, h'⟩
    obtain ⟨facts, hok⟩ := derive_of_derivable hslugs.1 (hiff.mpr h)
    obtain ⟨facts', hok'⟩ := @derive_of_derivable sha256 { snapshot with files := snapshot.files.set path content' } hslugs'.1 (hiff'.mpr h')
    refine ⟨facts, facts', ⟨exactFacts_of_derive hslugs hok, fun files hfiles => ?_⟩, ⟨exactFacts_of_derive hslugs' hok', fun files hfiles => ?_⟩, ?_⟩
    · rw [derive_congr hslugs hfiles]
      exact hok
    · rw [@derive_congr sha256 { snapshot with files := snapshot.files.set path content' } hslugs' files hfiles]
      exact hok'
    · exact factsApart_eq hslugs hslugs' (fun other hother => Map.get_set_of_ne _ _ (Ne.symm hother)) hok hok'

end derive

section examples

/-- SHA-256 of the standard, in hexadecimal digits. -/
def fipsHex : Sha256 := fun bytes => sow.domain.hexOf (sow.fips180.SHA256 bytes)

theorem isMdContentSha_fipsHex (bytes : List UInt8) : isMdContentSha (fipsHex bytes) = true := by
  have hdigit : ∀ n < 16, isLowerHex (Json.hexDigit n) = true := by decide
  have hlen : ∀ digest : List UInt8, (sow.domain.hexOf digest).length = 2 * digest.length := by
    intro digest
    induction digest with
    | nil => rfl
    | cons byte digest ih =>
      rw [sow.domain.hexOf, List.flatMap_cons, List.length_append, ← sow.domain.hexOf, ih, List.length_cons]
      simp only [List.length_cons, List.length_nil]
      omega
  unfold isMdContentSha fipsHex
  rw [Bool.and_eq_true, decide_eq_true_eq, hlen, List.all_eq_true]
  refine ⟨rfl, fun c hc => ?_⟩
  obtain ⟨byte, -, hc⟩ := List.mem_flatMap.mp hc
  have hbyte := byte.toNat_lt
  simp only [List.mem_cons, List.not_mem_nil, or_false] at hc
  rcases hc with rfl | rfl
  · exact hdigit _ (by omega)
  · exact hdigit _ (by omega)

/-- A vault of one note. -/
def vaultOf (content : JsString) : CanonicalVaultSnapshot where
  workspaceId := str "personal-business"
  revisionId := str "rev-1"
  files := Map.ofList [(str "n.md", content)]

theorem note_of_vaultOf {content c : JsString} {path : Path} (h : IsNote (vaultOf content).files path c) : path = str "n.md" ∧ c = content := by
  have hmem := Map.mem_of_get_ofList h.1
  rw [List.mem_singleton] at hmem
  exact Prod.mk.inj hmem

theorem distinctSlugs_vaultOf {content : JsString} (hslug : noteSlug (str "n.md") content ≠ []) : DistinctSlugs (vaultOf content).files := by
  constructor
  · intro path c hnote
    obtain ⟨rfl, rfl⟩ := note_of_vaultOf hnote
    exact hslug
  · intro path c path' c' hnote hnote' _
    rw [(note_of_vaultOf hnote).1, (note_of_vaultOf hnote').1]

theorem set_vaultOf (content content' : JsString) : (vaultOf content).files.set (str "n.md") content' = (vaultOf content').files := rfl

/-- A link to `b`, then one whose target has a line break in it. -/
def linked : JsString := str "see [[b]]"

def brokenLink : JsString := str "see [[b\nc]]"

theorem brokenLink_not_nameable : ¬ Unambiguous (vaultOf brokenLink).files := by
  intro h
  have hnote : IsNote (vaultOf brokenLink).files (str "n.md") brokenLink := ⟨rfl, by decide⟩
  have hmem : (str "b\nc", str "body") ∈ noteLinks brokenLink := by decide +kernel
  exact absurd ((h.nameable _ _ hnote).2 _ _ hmem).1 (by decide)

theorem linked_exact : (∃ facts facts', DerivesExactly fipsHex (vaultOf linked) facts ∧
    DerivesExactly fipsHex { vaultOf linked with files := (vaultOf linked).files.set (str "n.md") brokenLink } facts' ∧
      factsApart (str "n.md") facts = factsApart (str "n.md") facts') ↔
    Unambiguous (vaultOf linked).files ∧ Unambiguous ((vaultOf linked).files.set (str "n.md") brokenLink) :=
  deriveCanonicalFacts_exact_iff isMdContentSha_fipsHex (by decide) (by decide) (distinctSlugs_vaultOf (by decide +kernel))
    (@distinctSlugs_vaultOf brokenLink (by decide +kernel))

/-- A link over two lines makes the derivation of its vault fail. -/
theorem brokenLink_not_exact : ¬ ∀ (sha256 : Sha256) (snapshot : CanonicalVaultSnapshot) (path : Path) (content' : JsString),
    (∀ bytes, isMdContentSha (sha256 bytes) = true) → isWorkspaceId snapshot.workspaceId = true → isBrandedId snapshot.revisionId = true →
    DistinctSlugs snapshot.files → DistinctSlugs (snapshot.files.set path content') →
      ∃ facts facts', DerivesExactly sha256 snapshot facts ∧
        DerivesExactly sha256 { snapshot with files := snapshot.files.set path content' } facts' ∧
          factsApart path facts = factsApart path facts' := by
  intro h
  have hslugs : DistinctSlugs (vaultOf brokenLink).files := distinctSlugs_vaultOf (by decide +kernel)
  have hworkspace : isWorkspaceId (vaultOf brokenLink).workspaceId = true := by decide
  have hrevision : isBrandedId (vaultOf brokenLink).revisionId = true := by decide
  obtain ⟨facts, -, hexact, -, -⟩ := h fipsHex (vaultOf brokenLink) (str "n.md") brokenLink isMdContentSha_fipsHex hworkspace hrevision
    hslugs hslugs
  have hok := hexact.ordered _ fun _ => rfl
  have hderivable := (facts_of_derive hslugs.1 hok).1
  exact brokenLink_not_nameable ((derivable_iff isMdContentSha_fipsHex hworkspace hrevision hslugs).mp hderivable)

end examples

end sow.gbrain
