import Sow.Knowledge.KnowledgeWriter.MemoryPorts

open sow.js sow.markdown_vault

namespace sow.knowledge_writer

/-- The files of a snapshot by path, as the digest reads them: each lone surrogate
    of a path or of a content is encoded as U+FFFD. -/
def encodedListing (m : VaultSnapshot) : List (Path × JsString) :=
  (sortBy Prod.fst m.entries).map fun e => (toWellFormed e.1, toWellFormed e.2)

/-- Paths without NUL. -/
def NulFree (m : VaultSnapshot) : Prop := ∀ p ∈ m.keys, 0 ∉ p

private theorem append_lt_append {a b x y : List Nat} (hb : 0 ∉ b) (h : a < b) : a ++ 0 :: x < b ++ 0 :: y := by
  induction a generalizing b with
  | nil =>
    cases b with
    | nil => exact absurd h (List.lt_irrefl _)
    | cons d b =>
      have hd : d ≠ 0 := fun hd => hb (hd ▸ List.mem_cons_self ..)
      exact List.cons_lt_cons_iff.mpr (.inl (Nat.pos_of_ne_zero hd))
  | cons c a ih =>
    cases b with
    | nil => exact absurd h (List.not_lt_nil _)
    | cons d b =>
      rw [List.cons_append, List.cons_append, List.cons_lt_cons_iff]
      rcases List.cons_lt_cons_iff.mp h with hlt | ⟨heq, hlt⟩
      · exact .inl hlt
      · exact .inr ⟨heq, ih (fun hm => hb (List.mem_cons_of_mem _ hm)) hlt⟩

/-- Lines are in the order of their paths. -/
theorem leUnits_revisionLine {sha256 : Sha256} {e e' : Path × JsString} (hnul : 0 ∉ e'.1) (hne : e.1 ≠ e'.1)
    (h : LeUnits e.1 e'.1) : LeUnits (revisionLine sha256 e) (revisionLine sha256 e') := by
  have hlt : e.1.map UInt16.toNat < e'.1.map UInt16.toNat :=
    lt_of_le_of_ne h fun heq => hne (toNat_map_injective heq)
  have hnul' : 0 ∉ e'.1.map UInt16.toNat := by
    rw [List.mem_map]
    rintro ⟨c, hc, hzero⟩
    have hc0 : c = 0 := UInt16.toNat_inj.mp hzero
    exact hnul (hc0 ▸ hc)
  refine le_of_lt ?_
  simp only [revisionLine, List.append_assoc, List.singleton_append, List.map_append, List.map_cons]
  exact append_lt_append hnul' hlt

section identity

variable {sha256 : Sha256} {m m' : VaultSnapshot}

/-- `computeRevisionId` sorts its lines by path. -/
theorem sort_revisionLines (hm : NulFree m) :
    sort (m.entries.map (revisionLine sha256)) = (sortBy Prod.fst m.entries).map (revisionLine sha256) := by
  symm
  have hperm := sortBy_perm Prod.fst m.entries
  apply eq_sort_of_perm (hperm.map _)
  have hnodup : ((sortBy Prod.fst m.entries).map Prod.fst).Nodup := (hperm.map Prod.fst).nodup_iff.mpr m.nodup
  rw [List.pairwise_map]
  refine ((pairwise_sortBy Prod.fst m.entries).and (List.pairwise_map.mp hnodup)).imp_of_mem fun {e e'} _ he' h => ?_
  exact leUnits_revisionLine (hm _ (List.mem_map_of_mem (hperm.mem_iff.mp he'))) h.2 h.1

theorem toWellFormed_revisionLine (hsha : sha256.Law) (e : Path × JsString) :
    toWellFormed (revisionLine sha256 e) = revisionLine sha256 (toWellFormed e.1, toWellFormed e.2) := by
  have hdigest : sha256.text (toWellFormed e.2) = sha256.text e.2 := by
    have hbytes : utf8 (toWellFormed e.2) = utf8 e.2 := by rw [utf8, codePoints_toWellFormed, utf8]
    rw [Sha256.text, Sha256.text, hbytes]
  simp only [revisionLine, List.append_assoc, List.singleton_append]
  rw [toWellFormed_append (by decide), toWellFormed_cons (by decide), toWellFormed_eq_self (isWellFormed_text hsha _), hdigest]

theorem toWellFormed_join (lines : List JsString) :
    toWellFormed (join (str "\n") lines) = join (str "\n") (lines.map toWellFormed) := by
  induction lines with
  | nil => rfl
  | cons line lines ih =>
    cases lines with
    | nil => rw [join_singleton, List.map_singleton, join_singleton]
    | cons line' lines =>
      rw [List.map_cons, List.map_cons, join_cons_cons, join_cons_cons, ← List.map_cons, ← ih]
      exact (toWellFormed_append (by decide) _ _).trans (congrArg (toWellFormed line ++ ·) (toWellFormed_cons (by decide) _))

/-- What the revision id is the digest of: the lines of the encoded listing. -/
theorem toWellFormed_revisionText (hsha : sha256.Law) (hm : NulFree m) :
    toWellFormed (join (str "\n") (sort (m.entries.map (revisionLine sha256)))) =
      join (str "\n") ((encodedListing m).map (revisionLine sha256)) := by
  rw [sort_revisionLines hm, toWellFormed_join, encodedListing, List.map_map, List.map_map]
  congr 1
  exact List.map_congr_left fun e _ => toWellFormed_revisionLine hsha e

theorem encodedListing_spec (hm : NulFree m) {e : Path × JsString} (he : e ∈ encodedListing m) :
    0 ∉ e.1 ∧ isWellFormed e.2 = true := by
  obtain ⟨f, hf, rfl⟩ := List.mem_map.mp he
  refine ⟨fun hzero => ?_, isWellFormed_toWellFormed _⟩
  have hpath := hm f.1 (List.mem_map_of_mem ((sortBy_perm Prod.fst m.entries).mem_iff.mp hf))
  exact (mem_of_mem_toWellFormed hzero).elim hpath (by decide)

private theorem map_revisionLine_inj (hsha : sha256.Law) {l l' : List (Path × JsString)}
    (hl : ∀ e ∈ l, 0 ∉ e.1 ∧ isWellFormed e.2 = true) (hl' : ∀ e ∈ l', 0 ∉ e.1 ∧ isWellFormed e.2 = true)
    (h : l.map (revisionLine sha256) = l'.map (revisionLine sha256)) : l = l' := by
  induction l generalizing l' with
  | nil => exact (List.map_eq_nil_iff.mp h.symm).symm
  | cons e l ih =>
    cases l' with
    | nil => exact absurd h (List.cons_ne_nil _ _)
    | cons e' l' =>
      rw [List.map_cons, List.map_cons] at h
      obtain ⟨hline, htail⟩ := List.cons.inj h
      have he := hl e (List.mem_cons_self ..)
      have he' := hl' e' (List.mem_cons_self ..)
      simp only [revisionLine, List.append_assoc, List.singleton_append] at hline
      obtain ⟨hpath, hdigest⟩ := field_inj he.1 he'.1 hline
      have hcontent := utf8_injective he.2 he'.2 (hsha.injective hdigest)
      rw [Prod.ext hpath hcontent, ih (fun x hx => hl x (List.mem_cons_of_mem _ hx)) (fun x hx => hl' x (List.mem_cons_of_mem _ hx)) htail]

/-- A revision id identifies the encoded files of a vault. -/
theorem computeRevisionId_eq_iff (hsha : sha256.Law) (hm : NulFree m) (hm' : NulFree m') :
    computeRevisionId sha256 m = computeRevisionId sha256 m' ↔ encodedListing m = encodedListing m' := by
  have hline : ∀ {m : VaultSnapshot}, NulFree m → ∀ line ∈ (encodedListing m).map (revisionLine sha256), IsLine line := by
    intro m hm line hl
    obtain ⟨e, he, rfl⟩ := List.mem_map.mp hl
    exact isLine_revisionLine hsha (encodedListing_spec hm he).1
  have htext : computeRevisionId sha256 m = computeRevisionId sha256 m' ↔
      toWellFormed (join (str "\n") (sort (m.entries.map (revisionLine sha256)))) =
        toWellFormed (join (str "\n") (sort (m'.entries.map (revisionLine sha256)))) := by
    rw [← utf8_eq_iff]
    unfold computeRevisionId
    constructor
    · exact fun h => hsha.injective (List.append_cancel_left h)
    · intro h
      dsimp only [Sha256.text]
      rw [h]
  rw [htext, toWellFormed_revisionText hsha hm, toWellFormed_revisionText hsha hm']
  constructor
  · intro h
    have hlines := join_lines_inj (hline hm) (hline hm') h
    exact map_revisionLine_inj hsha (fun e => encodedListing_spec hm) (fun e => encodedListing_spec hm') hlines
  · intro h
    rw [h]

/-- A snapshot whose paths and contents are well formed. -/
def WellFormed (m : VaultSnapshot) : Prop := ∀ e ∈ m.entries, isWellFormed e.1 = true ∧ isWellFormed e.2 = true

theorem encodedListing_eq_self (hm : WellFormed m) : encodedListing m = sortBy Prod.fst m.entries := by
  have hself : (sortBy Prod.fst m.entries).map (fun e => (toWellFormed e.1, toWellFormed e.2)) =
      (sortBy Prod.fst m.entries).map id := by
    refine List.map_congr_left fun e he => ?_
    obtain ⟨hpath, hcontent⟩ := hm e ((sortBy_perm Prod.fst m.entries).mem_iff.mp he)
    rw [toWellFormed_eq_self hpath, toWellFormed_eq_self hcontent]
    rfl
  rw [encodedListing, hself, List.map_id]

/-- Revision ids identify vaults up to the encoding of their files, in any order of
    insertion; vaults of well-formed text they identify as they are. -/
theorem revisionId_identifies (hsha : sha256.Law) (hm : NulFree m) (hm' : NulFree m') :
    (computeRevisionId sha256 m = computeRevisionId sha256 m' ↔ encodedListing m = encodedListing m') ∧
    (WellFormed m → WellFormed m' →
      (computeRevisionId sha256 m = computeRevisionId sha256 m' ↔ ∀ p, m.get p = m'.get p)) := by
  have hencoded := computeRevisionId_eq_iff hsha hm hm'
  refine ⟨hencoded, fun hwell hwell' => ⟨fun h p => ?_, computeRevisionId_congr⟩⟩
  have hsorted := hencoded.mp h
  rw [encodedListing_eq_self hwell, encodedListing_eq_self hwell'] at hsorted
  have hperm : m.entries.Perm m'.entries :=
    (sortBy_perm Prod.fst m.entries).symm.trans (hsorted ▸ sortBy_perm Prod.fst m'.entries)
  ext content
  rw [Map.get_eq_some_iff, Map.get_eq_some_iff]
  exact hperm.mem_iff

end identity

section lines

/-- A path that holds a line break, and two insertion orders. -/
def brokenLineVault : VaultSnapshot := .ofList [(str "a\n.md", str "x"), (str "b.md", str "y")]

def turnedVault : VaultSnapshot := .ofList [(str "b.md", str "y"), (str "a\n.md", str "x")]

def brokenLineEntries : List (List UInt8 × JsString) :=
  [(utf8 (str "x"), str "2d711642b726b04401627ca9fbac32f5c8530fb1903cc4db02258717921a4881"),
    (utf8 (str "y"), str "a1fce4363854ff888cff4b8e7875d600c2682390412a8cf79b37d0b11148b0fa"),
    (utf8 (str "a\n.md" ++ [0] ++ str "2d711642b726b04401627ca9fbac32f5c8530fb1903cc4db02258717921a4881" ++ str "\n" ++
      (str "b.md" ++ [0] ++ str "a1fce4363854ff888cff4b8e7875d600c2682390412a8cf79b37d0b11148b0fa")),
      str "b6b64c7c577e136c4bf372a33f3d2d6dda7b872740b6bfbfcb7b8cd52d666cc7")]

theorem brokenLineEntries_lawful : (brokenLineEntries.map Prod.snd).Nodup ∧
    brokenLineEntries.all (fun e => e.2.length == 64 && e.2.all isHexDigit) = true := by decide +kernel

theorem brokenLineEntries_distinct : (brokenLineEntries.map Prod.snd).Nodup := brokenLineEntries_lawful.1

theorem brokenLineEntries_digits : ∀ e ∈ brokenLineEntries, e.2.length = 64 ∧ ∀ c ∈ e.2, isHexDigit c = true :=
  digits_of_all brokenLineEntries_lawful.2

def brokenLineDigests : KnownDigests := ⟨brokenLineEntries, brokenLineEntries_distinct, brokenLineEntries_digits⟩

theorem brokenLineVault_identified :
    computeRevisionId (tabulated brokenLineDigests) brokenLineVault =
      str "rev:b6b64c7c577e136c4bf372a33f3d2d6dda7b872740b6bfbfcb7b8cd52d666cc7" ∧
    (computeRevisionId (tabulated brokenLineDigests) brokenLineVault = computeRevisionId (tabulated brokenLineDigests) turnedVault ↔
      ∀ p, brokenLineVault.get p = turnedVault.get p) := by
  have hnul : NulFree brokenLineVault := by
    unfold NulFree
    decide
  have hnul' : NulFree turnedVault := by
    unfold NulFree
    decide
  have hwell : WellFormed brokenLineVault := by
    unfold WellFormed
    decide
  have hwell' : WellFormed turnedVault := by
    unfold WellFormed
    decide
  refine ⟨?_, ?_⟩
  · unfold tabulated
    simp only [brokenLineDigests, brokenLineEntries]
    repeat rw [str_ofList]
    decide +kernel
  exact (revisionId_identifies (tabulated_law brokenLineDigests) hnul hnul').2 hwell hwell'

end lines

section surrogate

/-- A note of one lone surrogate, and a note of the character that is encoded in its place. -/
def loneVault : VaultSnapshot := .ofList [(str "a.md", [0xD800])]

def replacedVault : VaultSnapshot := .ofList [(str "a.md", [0xFFFD])]

def loneEntries : List (List UInt8 × JsString) :=
  [(utf8 [0xFFFD], str "83d544ccc223c057d2bf80d3f2a32982c32c3c0db8e2674820da5064783fb097"),
    (utf8 (str "a.md" ++ [0] ++ str "83d544ccc223c057d2bf80d3f2a32982c32c3c0db8e2674820da5064783fb097"),
      str "986fb2b8304eaa75398141f77e76c1f577b61589772e1854f763c8537d8e59c8")]

theorem loneEntries_lawful : (loneEntries.map Prod.snd).Nodup ∧
    loneEntries.all (fun e => e.2.length == 64 && e.2.all isHexDigit) = true := by decide +kernel

theorem loneEntries_distinct : (loneEntries.map Prod.snd).Nodup := loneEntries_lawful.1

theorem loneEntries_digits : ∀ e ∈ loneEntries, e.2.length = 64 ∧ ∀ c ∈ e.2, isHexDigit c = true :=
  digits_of_all loneEntries_lawful.2

def loneDigests : KnownDigests := ⟨loneEntries, loneEntries_distinct, loneEntries_digits⟩

/-- Two vaults of one note each that differ in it and share their revision id. -/
theorem loneVault_shares_revisionId :
    NulFree loneVault ∧ NulFree replacedVault ∧
    ¬ (computeRevisionId (tabulated loneDigests) loneVault = computeRevisionId (tabulated loneDigests) replacedVault ↔
      ∀ p, loneVault.get p = replacedVault.get p) := by
  have hnul : NulFree loneVault := by
    unfold NulFree
    decide
  have hnul' : NulFree replacedVault := by
    unfold NulFree
    decide
  have hsame : computeRevisionId (tabulated loneDigests) loneVault = computeRevisionId (tabulated loneDigests) replacedVault := by
    decide +kernel
  refine ⟨hnul, hnul', fun h => ?_⟩
  have hget := h.mp hsame (str "a.md")
  exact absurd hget (by decide)

end surrogate

end sow.knowledge_writer
