import Sow.Knowledge.Gbrain.Derive.CanonicalFactDeriver
import Sow.Knowledge.KnowledgeWriter.FrontmatterCodec
import Sow.Knowledge.KnowledgeWriter.MemoryPorts

open sow.js sow.markdown_vault
open sow.knowledge_writer (Sha256 ParsedNote IsEntry KnownDigests tabulated tabulated_law digits_of_all isHexDigit)

namespace sow.gbrain

/-- The line of one entry in the hashed text. -/
def metaLine (entry : JsString × JsString) : JsString := entry.1 ++ str "=" ++ entry.2

/-- The scalar entries in the order they are hashed. -/
def sortedMeta (note : ParsedNote) : List (JsString × JsString) := sortBy Prod.fst (scalarMeta note.frontmatter)

/-- What the page hash reads of a note after its slug. -/
def hashedText (note : ParsedNote) : JsString :=
  normalizeText note.body ++ NUL ++ join (str "\n") ((sortedMeta note).map metaLine)

/-- The scalar value of a key. -/
def scalarValue (note : ParsedNote) (key : JsString) : Option JsString :=
  (note.frontmatter.get key).filter fun value => isScalarMeta (key, value)

/-- Two notes that use the separators of the hashed text alike: as many NULs in
    their bodies, as many `=` in the keys at each place, the same lone
    surrogates in the text. -/
structure SameSeparators (n n' : ParsedNote) : Prop where
  nuls : (normalizeText n.body).count 0 = (normalizeText n'.body).count 0
  equals : ∀ x ∈ (sortedMeta n).zip (sortedMeta n'), x.1.1.count (unit '=') = x.2.1.count (unit '=')
  surrogates : loneSurrogates 0 (hashedText n) = loneSurrogates 0 (hashedText n')

theorem mem_scalarMeta {note : ParsedNote} {key value : JsString} :
    (key, value) ∈ scalarMeta note.frontmatter ↔ scalarValue note key = some value := by
  rw [scalarMeta, List.mem_filter, ← Map.get_eq_some_iff, scalarValue, Option.filter_eq_some_iff]

theorem nodup_scalarMeta (note : ParsedNote) : ((scalarMeta note.frontmatter).map Prod.fst).Nodup :=
  note.frontmatter.nodup.sublist (List.filter_sublist.map Prod.fst)

theorem sortedMeta_perm (note : ParsedNote) : (sortedMeta note).Perm (scalarMeta note.frontmatter) := sortBy_perm _ _

private theorem eq_of_mem_zip_self {α : Type} {l : List α} {x : α × α} (h : x ∈ l.zip l) : x.1 = x.2 := by
  induction l with
  | nil => exact absurd h List.not_mem_nil
  | cons a l ih =>
    rcases List.mem_cons.mp h with rfl | h
    · rfl
    · exact ih h

/-- The hashed list of entries is a function of the scalar map. -/
theorem sortedMeta_congr {n n' : ParsedNote} (h : ∀ key, scalarValue n key = scalarValue n' key) :
    sortedMeta n = sortedMeta n' := by
  have hperm : (scalarMeta n.frontmatter).Perm (scalarMeta n'.frontmatter) := by
    refine (List.perm_ext_iff_of_nodup ((nodup_scalarMeta n).of_map _) ((nodup_scalarMeta n').of_map _)).mpr ?_
    rintro ⟨key, value⟩
    rw [mem_scalarMeta, mem_scalarMeta, h]
  have hsorted : (sortedMeta n).Perm (sortedMeta n') := ((sortedMeta_perm n).trans hperm).trans (sortedMeta_perm n').symm
  have hnodup : ((sortedMeta n).map Prod.fst).Nodup := ((sortedMeta_perm n).map Prod.fst).nodup_iff.mpr (nodup_scalarMeta n)
  refine hsorted.eq_of_pairwise ?_ (pairwise_sortBy _ _) (pairwise_sortBy _ _)
  intro e e' he he' hle hle'
  exact List.inj_on_of_nodup_map hnodup he (hsorted.mem_iff.mpr he') (hle.antisymm hle')

/-- Entries with as many `=` in their keys are told apart by their lines. -/
theorem metaLines_inj {l l' : List (JsString × JsString)}
    (hcount : ∀ x ∈ l.zip l', x.1.1.count (unit '=') = x.2.1.count (unit '='))
    (h : l.map metaLine = l'.map metaLine) : l = l' := by
  induction l generalizing l' with
  | nil => exact (List.map_eq_nil_iff.mp h.symm).symm
  | cons e l ih =>
    cases l' with
    | nil => exact absurd h (List.cons_ne_nil _ _)
    | cons e' l' =>
      rw [List.map_cons, List.map_cons] at h
      obtain ⟨hline, htail⟩ := List.cons.inj h
      have hfields : e.1 ++ unit '=' :: e.2 = e'.1 ++ unit '=' :: e'.2 := by
        simpa [metaLine, str, unit] using hline
      have hkeys : e.1.count (unit '=') = e'.1.count (unit '=') := hcount (e, e') (List.mem_cons_self ..)
      obtain ⟨hkey, hvalue⟩ := field_inj_of_count hkeys hfields
      rw [Prod.ext hkey hvalue, ih (fun x hx => hcount x (List.mem_cons_of_mem _ hx)) htail]

section notes

variable (content : JsString)

theorem isEntry_of_mem_sortedMeta {e : JsString × JsString} (he : e ∈ sortedMeta (parseNote content)) : IsEntry e := by
  have hmem := List.mem_of_mem_filter ((sortedMeta_perm _).mem_iff.mp he)
  rw [parseNote_eq] at hmem
  exact knowledge_writer.isEntry_of_mem_parseNote _ hmem

theorem metaLine_line {line : JsString} (h : line ∈ (sortedMeta (parseNote content)).map metaLine) :
    unit '\n' ∉ line ∧ line ≠ [] := by
  obtain ⟨e, he, rfl⟩ := List.mem_map.mp h
  have hentry := isEntry_of_mem_sortedMeta content he
  unfold metaLine
  constructor
  · simp only [List.mem_append]
    rintro ((hmem | hmem) | hmem)
    · exact hentry.key_line hmem
    · exact absurd hmem (by decide)
    · exact hentry.value_line hmem
  · simp [str]

end notes

/-- Lines that are not empty are told apart by the text they join to. -/
theorem join_inj {l l' : List JsString} (hl : ∀ x ∈ l, unit '\n' ∉ x ∧ x ≠ []) (hl' : ∀ x ∈ l', unit '\n' ∉ x ∧ x ≠ [])
    (h : join (str "\n") l = join (str "\n") l') : l = l' := by
  have hsplit : ∀ {l : List JsString}, (∀ x ∈ l, unit '\n' ∉ x ∧ x ≠ []) → l ≠ [] →
      split (unit '\n') (join (str "\n") l) = l := fun hl hne => split_join _ hne fun p hp => (hl p hp).1
  have hnil : ∀ {l : List JsString}, (∀ x ∈ l, unit '\n' ∉ x ∧ x ≠ []) → l ≠ [] → l ≠ split (unit '\n') [] := by
    rintro l hl hne rfl
    exact (hl [] (by decide)).2 rfl
  by_cases hne : l = []
  · subst hne
    by_contra hne'
    apply hnil hl' (Ne.symm hne')
    rw [← hsplit hl' (Ne.symm hne'), ← h]
    rfl
  · by_cases hne' : l' = []
    · subst hne'
      refine absurd ?_ (hnil hl hne)
      rw [← hsplit hl hne, h]
      rfl
    · rw [← hsplit hl hne, h, hsplit hl' hne']

/-- The page hash of a note is the digest of its slug and its hashed text. -/
theorem computePageProvenance_eq {sha256 : Sha256} {path : Path} {content : JsString} {p : PageProvenance}
    (h : computePageProvenance sha256 path content = some p) :
    p.pageSha = sha256.text (str "page" ++ NUL ++ p.slug ++ 0 :: hashedText (parseNote content)) := by
  simp only [computePageProvenance] at h
  split_ifs at h
  obtain rfl := Option.some.inj h
  have hline : metaLine = fun e => e.1 ++ str "=" ++ e.2 := rfl
  simp [hashedText, sortedMeta, NUL, hline]

/-- A note whose hashed parts hold no separator and are well formed. -/
structure Plain (note : ParsedNote) : Prop where
  nul : 0 ∉ normalizeText note.body
  equal : ∀ e ∈ sortedMeta note, unit '=' ∉ e.1
  wellFormed : isWellFormed (hashedText note) = true

theorem Plain.sameSeparators {n n' : ParsedNote} (h : Plain n) (h' : Plain n') : SameSeparators n n' where
  nuls := by rw [List.count_eq_zero_of_not_mem h.nul, List.count_eq_zero_of_not_mem h'.nul]
  equals := by
    intro x hx
    obtain ⟨hleft, hright⟩ := List.of_mem_zip hx
    rw [List.count_eq_zero_of_not_mem (h.equal _ hleft), List.count_eq_zero_of_not_mem (h'.equal _ hright)]
  surrogates := by rw [loneSurrogates_eq_nil h.wellFormed, loneSurrogates_eq_nil h'.wellFormed]

/-- Two notes with one slug and one page hash have the same body and the same scalar
    frontmatter exactly when they use the separators of the hashed text alike. -/
theorem pageSha_binds_iff {sha256 : Sha256} (hsha : Function.Injective sha256) {path : Path} {c c' : JsString}
    {p p' : PageProvenance} (hp : computePageProvenance sha256 path c = some p)
    (hp' : computePageProvenance sha256 path c' = some p') (hslug : p.slug = p'.slug) (hpage : p.pageSha = p'.pageSha) :
    (normalizeText (parseNote c).body = normalizeText (parseNote c').body ∧
      ∀ key, scalarValue (parseNote c) key = scalarValue (parseNote c') key) ↔
    SameSeparators (parseNote c) (parseNote c') := by
  constructor
  · rintro ⟨hbody, hscalar⟩
    have hmeta := sortedMeta_congr hscalar
    refine ⟨by rw [hbody], fun x hx => ?_, ?_⟩
    · rw [hmeta] at hx
      rw [eq_of_mem_zip_self hx]
    · rw [hashedText, hashedText, hbody, hmeta]
  · intro hsame
    rw [computePageProvenance_eq hp, computePageProvenance_eq hp', hslug] at hpage
    have hwell := utf8_eq_iff.mp (hsha hpage)
    rw [toWellFormed_append (by decide), toWellFormed_append (by decide), List.append_cancel_left_eq,
      toWellFormed_cons (by decide), toWellFormed_cons (by decide)] at hwell
    have htext := eq_of_toWellFormed_eq (List.cons.inj hwell).2 hsame.surrogates
    simp only [hashedText, NUL, List.append_assoc, List.singleton_append] at htext
    obtain ⟨hbody, hlines⟩ := field_inj_of_count hsame.nuls htext
    have hmeta := metaLines_inj hsame.equals (join_inj (fun _ => metaLine_line c) (fun _ => metaLine_line c') hlines)
    refine ⟨hbody, fun key => ?_⟩
    ext value
    rw [← mem_scalarMeta, ← mem_scalarMeta, ← (sortedMeta_perm _).mem_iff, hmeta, (sortedMeta_perm _).mem_iff]

section pages

def pageEntries : List (List UInt8 × JsString) :=
  [(utf8 (str "page" ++ NUL ++ str "n" ++ NUL ++ str "Hi" ++ NUL ++ str "a=1\nb=2"),
      str "14761b95e20ee30ce2e7b137532a123979407a23d2a6fa6ab53cd439ec181c34"),
    (utf8 (str "page" ++ NUL ++ str "n" ++ NUL ++ NUL ++ str "a=b=c"),
      str "ab7a3e7530bedbc3a92a5f9265062ec44103119f2bee3320326d2e0cf7129241")]

theorem pageEntries_distinct : (pageEntries.map Prod.snd).Nodup := by decide

theorem pageEntries_digits : ∀ e ∈ pageEntries, e.2.length = 64 ∧ ∀ c ∈ e.2, isHexDigit c = true :=
  digits_of_all (by decide +kernel)

def pageDigests : KnownDigests := ⟨pageEntries, pageEntries_distinct, pageEntries_digits⟩

def tidyPage : JsString := str "---\na: 1\nb: 2\n---\nHi\n"

/-- The entries in another order, and blanks around the body. -/
def looseNote : JsString := str "---\nb: 2\na: 1\n---\n\nHi  \n"

def tidyProvenance : PageProvenance :=
  ⟨str "n", str "page:n", str "14761b95e20ee30ce2e7b137532a123979407a23d2a6fa6ab53cd439ec181c34"⟩

theorem tidyPage_bound :
    (normalizeText (parseNote tidyPage).body = normalizeText (parseNote looseNote).body ∧
      ∀ key, scalarValue (parseNote tidyPage) key = scalarValue (parseNote looseNote) key) ↔
    SameSeparators (parseNote tidyPage) (parseNote looseNote) := by
  have htidy : computePageProvenance (tabulated pageDigests) (str "n.md") tidyPage = some tidyProvenance := by decide +kernel
  have hloose : computePageProvenance (tabulated pageDigests) (str "n.md") looseNote = some tidyProvenance := by decide +kernel
  exact pageSha_binds_iff (tabulated_law pageDigests).injective htidy hloose rfl rfl

/-- A page whose key holds a `=`, and a page whose value does. -/
def equalsInKey : JsString := str "---\na=b: c\n---\n"

def equalsInValue : JsString := str "---\na: b=c\n---\n"

def equalsProvenance : PageProvenance :=
  ⟨str "n", str "page:n", str "ab7a3e7530bedbc3a92a5f9265062ec44103119f2bee3320326d2e0cf7129241"⟩

/-- They share their page hash and not their frontmatter. -/
theorem equalsInKey_shares_page :
    Function.Injective (tabulated pageDigests) ∧
    computePageProvenance (tabulated pageDigests) (str "n.md") equalsInKey = some equalsProvenance ∧
    computePageProvenance (tabulated pageDigests) (str "n.md") equalsInValue = some equalsProvenance ∧
    ¬ ∀ key, scalarValue (parseNote equalsInKey) key = scalarValue (parseNote equalsInValue) key := by
  refine ⟨(tabulated_law pageDigests).injective, by decide +kernel, by decide +kernel, fun h => ?_⟩
  have hkey := h (str "a")
  exact absurd hkey (by decide)

end pages

end sow.gbrain
