import Sow.Knowledge.KnowledgeWriter.NoteReader
import Sow.Knowledge.KnowledgeWriter.Projection
import Sow.Knowledge.KnowledgeWriter.ScalarCodec

open sow.js sow.markdown_vault

namespace sow.knowledge_writer

/-- A key that is read back as it is written. -/
structure IsKey (key : JsString) : Prop where
  line : ∀ c ∈ key, InLine c
  colon : unit ':' ∉ key
  trimmed : Trimmed key

/-- A unit of the text of a number. -/
def isNumberUnit (c : UInt16) : Bool := Json.isDigit c || (str "+-.eE").contains c

mutual

/-- The texts of the numbers in a value. -/
def numberTexts : Json → List JsString
  | .num text => [text]
  | .arr items => numberTextsOfItems items
  | .obj fields => numberTextsOfFields fields
  | _ => []

def numberTextsOfItems : List Json → List JsString
  | [] => []
  | v :: items => numberTexts v ++ numberTextsOfItems items

def numberTextsOfFields : List (JsString × Json) → List JsString
  | [] => []
  | (_, v) :: fields => numberTexts v ++ numberTextsOfFields fields

end

/-- A value whose numbers are written as numbers are. -/
def Numeric (value : Option Json) : Prop := ∀ v, value = some v → ∀ text ∈ numberTexts v, ∀ c ∈ text, isNumberUnit c = true

section values

private theorem inLine_of_isNumberUnit {c : UInt16} (h : isNumberUnit c = true) : InLine c := by
  rw [isNumberUnit, Bool.or_eq_true] at h
  rcases h with h | h
  · simp only [Json.isDigit, Bool.and_eq_true, decide_eq_true_eq] at h
    exact inLine_of_le (by omega)
  · have hmarks : ∀ d ∈ str "+-.eE", InLine d := by
      unfold InLine
      decide
    exact hmarks c (List.contains_iff_mem.mp h)

private theorem inLine_of_mem_marks {c : UInt16} {s : JsString} (hs : s.all (fun c => decide (32 ≤ c.toNat)) = true) (h : c ∈ s) : InLine c :=
  inLine_of_le (of_decide_eq_true (List.all_eq_true.mp hs c h))

private theorem inLine_quote {c : UInt16} {s : JsString} (h : c ∈ Json.quote s) : InLine c := inLine_of_le (Json.le_of_mem_quote h)

mutual

theorem inLine_stringify (v : Json) (hnum : ∀ text ∈ numberTexts v, ∀ c ∈ text, isNumberUnit c = true) :
    ∀ c ∈ Json.stringify v, InLine c := by
  intro c hc
  cases v with
  | null => exact inLine_of_mem_marks rfl hc
  | bool b =>
    cases b with
    | true => exact inLine_of_mem_marks rfl hc
    | false => exact inLine_of_mem_marks rfl hc
  | num text => exact inLine_of_isNumberUnit (hnum text (List.mem_singleton_self _) c hc)
  | str s => exact inLine_quote hc
  | arr items =>
    simp only [Json.stringify, List.mem_append] at hc
    rcases hc with (hc | hc) | hc
    · exact inLine_of_mem_marks rfl hc
    · exact inLine_stringifyItems items hnum c hc
    · exact inLine_of_mem_marks rfl hc
  | obj fields =>
    simp only [Json.stringify, List.mem_append] at hc
    rcases hc with (hc | hc) | hc
    · exact inLine_of_mem_marks rfl hc
    · exact inLine_stringifyFields fields hnum c hc
    · exact inLine_of_mem_marks rfl hc

theorem inLine_stringifyItems (items : List Json) (hnum : ∀ text ∈ numberTextsOfItems items, ∀ c ∈ text, isNumberUnit c = true) :
    ∀ c ∈ Json.stringifyItems items, InLine c := by
  intro c hc
  cases items with
  | nil => exact absurd hc List.not_mem_nil
  | cons v rest =>
    have hfirst := inLine_stringify v (fun text ht => hnum text (List.mem_append_left _ ht)) c
    have hrest := inLine_stringifyItems rest (fun text ht => hnum text (List.mem_append_right _ ht)) c
    cases rest with
    | nil => exact hfirst hc
    | cons w rest =>
      simp only [Json.stringifyItems, List.mem_append] at hc
      rcases hc with (hc | hc) | hc
      · exact hfirst hc
      · exact inLine_of_mem_marks rfl hc
      · exact hrest hc

theorem inLine_stringifyFields (fields : List (JsString × Json))
    (hnum : ∀ text ∈ numberTextsOfFields fields, ∀ c ∈ text, isNumberUnit c = true) :
    ∀ c ∈ Json.stringifyFields fields, InLine c := by
  intro c hc
  cases fields with
  | nil => exact absurd hc List.not_mem_nil
  | cons field rest =>
    obtain ⟨k, v⟩ := field
    have hfirst := inLine_stringify v (fun text ht => hnum text (List.mem_append_left _ ht)) c
    have hrest := inLine_stringifyFields rest (fun text ht => hnum text (List.mem_append_right _ ht)) c
    cases rest with
    | nil =>
      simp only [Json.stringifyFields, List.mem_append] at hc
      rcases hc with (hc | hc) | hc
      · exact inLine_quote hc
      · exact inLine_of_mem_marks rfl hc
      · exact hfirst hc
    | cons f rest =>
      simp only [Json.stringifyFields, List.mem_append] at hc
      rcases hc with (((hc | hc) | hc) | hc) | hc
      · exact inLine_quote hc
      · exact inLine_of_mem_marks rfl hc
      · exact hfirst hc
      · exact inLine_of_mem_marks rfl hc
      · exact hrest hc

end

/-- Every value is written on one line. -/
theorem inLine_serialized {value : Option Json} (hnum : Numeric value) {c : UInt16} (h : c ∈ serializeScalar value) : InLine c := by
  cases value with
  | none => exact inLine_of_mem_marks rfl h
  | some v =>
    have hstringify := inLine_stringify v (hnum v rfl) c
    cases v with
    | str s => exact inLine_serializeScalar h
    | _ => exact hstringify h

end values

section keys

theorem returnFree_normalizeNote {content : JsString} : unit '\r' ∉ normalizeNote content := by
  have hfold : ∀ s : JsString, unit '\r' ∉ foldCr s := by
    intro s hmem
    obtain ⟨c, -, hc⟩ := List.mem_map.mp hmem
    split_ifs at hc with h
    · exact absurd hc (by decide)
    · exact h hc
  simp only [normalizeNote]
  split_ifs
  · exact hfold _
  · exact fun hmem => (List.mem_append.mp hmem).elim (hfold _) (by decide)
  · exact hfold _
  · exact fun hmem => (List.mem_append.mp hmem).elim (hfold _) (by decide)

/-- The reader finds no key that is not read back as it is written. -/
theorem readFrontmatterField_of_not_isKey {key : JsString} (h : ¬ IsKey key) (content : JsString) :
    readFrontmatterField content key = none := by
  rw [readFrontmatterField, Option.map_eq_none_iff, Map.get_eq_none_iff]
  intro hmem
  obtain ⟨e, he, rfl⟩ := List.mem_map.mp hmem
  have hentry := isEntry_of_mem_parseNote e he
  refine h ⟨fun c hc => ⟨?_, ?_⟩, hentry.key_colon, hentry.key_trimmed⟩
  · rintro rfl
    exact hentry.key_line hc
  · rintro rfl
    exact returnFree_normalizeNote (mem_of_parseNote (.inl ⟨e, he, .inl hc⟩))

end keys

section lines

variable {key value : JsString}

/-- The line of any entry with a clean key and a value on one line. -/
theorem parseLine_entryLine_trim (hkey : IsKey key) : parseLine (entryLine (key, value)) = some (key, trim value) := by
  have hline : entryLine (key, value) = key ++ unit ':' :: (unit ' ' :: value) := by simp [entryLine, str, unit]
  have hindex : indexOf (str ":") (entryLine (key, value)) = some key.length := by
    rw [hline]
    exact indexOf_unit hkey.colon
  have hbefore : slice (entryLine (key, value)) 0 key.length = key := by
    rw [hline, slice]
    simp
  have hafter : (entryLine (key, value)).drop (key.length + 1) = unit ' ' :: value := by
    rw [hline, ← List.drop_drop, List.drop_left]
    rfl
  rw [parseLine, hindex, Option.map_some, hbefore, hafter, trim_eq_self hkey.trimmed, trim_cons_space _ (by decide)]

private theorem mem_entryLine {c : UInt16} (h : c ∈ entryLine (key, value)) : c ∈ key ∨ c ∈ str ": " ∨ c ∈ value := by
  simpa [entryLine, or_assoc] using h

theorem inLine_of_mem_entryLine (hkey : ∀ c ∈ key, InLine c) (hvalue : ∀ c ∈ value, InLine c) {c : UInt16}
    (hc : c ∈ entryLine (key, value)) : InLine c := by
  have hmarks : ∀ c ∈ str ": ", InLine c := by
    unfold InLine
    decide
  exact (mem_entryLine hc).elim (hkey c) fun h => h.elim (hmarks c) (hvalue c)

/-- An entry whose parts are on one line is seen as one line, and no fence. -/
theorem breakLine_entryLine (hkey : ∀ c ∈ key, InLine c) (hvalue : ∀ c ∈ value, InLine c) :
    breakLine (entryLine (key, value)) = [entryLine (key, value)] ∧ IsWritten (entryLine (key, value)) := by
  have hline : ∀ c ∈ entryLine (key, value), InLine c := fun c hc => inLine_of_mem_entryLine hkey hvalue hc
  refine ⟨breakLine_eq_self (fun h => (hline _ h).1 rfl) fun h => (hline _ h).2 rfl, fun h => (hline _ h).1 rfl, fun h => ?_⟩
  exact (hline _ (List.mem_of_getLast? h)).2 rfl

theorem entryLine_ne_fence (e : JsString × JsString) : entryLine e ≠ FM_FENCE := by
  intro h
  have hcolon : unit ':' ∈ entryLine e := by simp [entryLine, str, unit]
  rw [h] at hcolon
  exact absurd hcolon (by decide)

/-- An entry of a parsed note is a written line. -/
theorem IsEntry.isWritten {e : JsString × JsString} (h : IsEntry e) : IsWritten (entryLine e) := by
  refine ⟨h.isBlockLine.1, fun hlast => ?_⟩
  obtain ⟨k, v⟩ := e
  cases v with
  | nil =>
    rw [entryLine, List.append_nil] at hlast
    have hspace : (k ++ str ": ").getLast? = some (unit ' ') := by
      rw [List.getLast?_append]
      rfl
    rw [hspace] at hlast
    exact absurd hlast (by decide)
  | cons c v =>
    rw [entryLine, List.getLast?_append_cons] at hlast
    exact absurd (h.value_trimmed.2 _ hlast) (by decide)

/-- A line seen as one is seen between the lines around it, or not at all. -/
theorem visibleLines_insert {line : JsString} (hline : breakLine line = [line]) (hfence : line ≠ FM_FENCE) (pre post : List JsString) :
    (∃ a b, visibleLines (pre ++ line :: post) = a ++ line :: b ∧ visibleLines (pre ++ post) = a ++ b) ∨
      visibleLines (pre ++ line :: post) = visibleLines (pre ++ post) := by
  unfold visibleLines
  rw [List.flatMap_append, List.flatMap_append, List.flatMap_cons, hline, List.singleton_append]
  by_cases hall : ∀ l ∈ pre.flatMap breakLine, decide (l ≠ FM_FENCE) = true
  · refine .inl ⟨pre.flatMap breakLine, (post.flatMap breakLine).takeWhile (· ≠ FM_FENCE), ?_, ?_⟩
    · rw [List.takeWhile_append_of_pos hall, List.takeWhile_cons_of_pos (by simpa using hfence)]
    · rw [List.takeWhile_append_of_pos hall]
  · have hshort : ((pre.flatMap breakLine).takeWhile (· ≠ FM_FENCE)).length ≠ (pre.flatMap breakLine).length := fun h =>
      hall (List.takeWhile_eq_self_iff.mp (List.IsPrefix.eq_of_length (List.takeWhile_prefix _) h))
    refine .inr ?_
    rw [List.takeWhile_append, if_neg hshort, List.takeWhile_append, if_neg hshort]

end lines

section rewrite

variable (content : JsString) (patch : FrontmatterPatch)

/-- The lines of the entries that the writer finds in a note, without those of one key. -/
def otherLines (key : JsString) : List JsString := ((parseNote content).frontmatter.delete key).entries.map entryLine

/-- Writer and reader agree on what a note holds under `key'`, apart from `key`. -/
def AgreeAt (key key' : JsString) : Prop :=
  ((parseLines (visibleLines (otherLines content key))).get key').map deserializeScalar = readFrontmatterField content key'

/-- A rewrite of one key keeps what is read under every other. -/
def KeepsOthers : Prop :=
  ∀ key, key ≠ patch.key → readFrontmatterField (applyFrontmatter content patch) key = readFrontmatterField content key

variable {content patch}

theorem isWritten_otherLines {key line : JsString} (h : line ∈ otherLines content key) : IsWritten line := by
  obtain ⟨e, he, rfl⟩ := List.mem_map.mp h
  exact (isEntry_of_mem_parseNote e (List.mem_of_mem_filter he)).isWritten

private theorem exists_setEntry (m : Map JsString JsString) (key value : JsString) :
    ∃ pre post, (m.set key value).entries = pre ++ (key, value) :: post ∧ (m.delete key).entries = pre ++ post := by
  have hnodup := m.nodup
  dsimp only [Map.set, Map.delete]
  generalize m.entries = l at hnodup
  induction l with
  | nil => exact ⟨[], [], rfl, rfl⟩
  | cons e l ih =>
    obtain ⟨k, v⟩ := e
    rw [List.map_cons, List.nodup_cons] at hnodup
    by_cases hk : k = key
    · subst hk
      refine ⟨[], l, by rw [Map.setEntry, if_pos rfl]; rfl, ?_⟩
      rw [List.filter_cons_of_neg (by simp), List.nil_append, List.filter_eq_self]
      intro e he
      have hne : e.1 ≠ k := fun heq => hnodup.1 (heq ▸ List.mem_map.mpr ⟨e, he, rfl⟩)
      simpa using hne
    · obtain ⟨pre, post, hset, hdelete⟩ := ih hnodup.2
      refine ⟨(k, v) :: pre, post, by rw [Map.setEntry, if_neg hk, hset, List.cons_append], ?_⟩
      rw [List.filter_cons_of_pos (by simpa using hk), hdelete, List.cons_append]

/-- A rewritten note is a block of lines: the written line among the others. -/
theorem applyFrontmatter_fenced :
    ∃ pre post body, applyFrontmatter content patch =
        fenced (pre ++ entryLine (patch.key, serializeScalar patch.value) :: post) body ∧
      otherLines content patch.key = pre ++ post := by
  obtain ⟨pre, post, hset, hdelete⟩ := exists_setEntry (parseNote content).frontmatter patch.key (serializeScalar patch.value)
  refine ⟨pre.map entryLine, post.map entryLine, (parseNote content).body, ?_, ?_⟩
  · rw [applyFrontmatter, composeNote_fenced (size_set_ne_zero _ _ _), hset, List.map_append, List.map_cons]
  · rw [otherLines, hdelete, List.map_append]

/-- What is read of a rewritten note, when the written line is one line. -/
theorem readFrontmatterField_applyFrontmatter (hnum : Numeric patch.value) (hkey : ∀ c ∈ patch.key, InLine c) :
    ∃ pre post, (∀ key, readFrontmatterField (applyFrontmatter content patch) key =
        ((parseLines (visibleLines (pre ++ entryLine (patch.key, serializeScalar patch.value) :: post))).get key).map deserializeScalar) ∧
      otherLines content patch.key = pre ++ post := by
  obtain ⟨pre, post, body, hnote, hothers⟩ := @applyFrontmatter_fenced content patch
  refine ⟨pre, post, fun key => ?_, hothers⟩
  rw [hnote, readFrontmatterField_fenced (by simp)]
  intro l hl
  rcases List.mem_append.mp hl with hl | hl
  · exact isWritten_otherLines (hothers ▸ List.mem_append_left _ hl)
  · rcases List.mem_cons.mp hl with rfl | hl
    · exact (breakLine_entryLine hkey fun c hc => inLine_serialized hnum hc).2
    · exact isWritten_otherLines (hothers ▸ List.mem_append_right _ hl)

/-- A clean key leaves all others as the writer sees them. -/
theorem applyFrontmatter_others (hnum : Numeric patch.value) (hkey : IsKey patch.key) {key : JsString} (hne : key ≠ patch.key) :
    readFrontmatterField (applyFrontmatter content patch) key =
      ((parseLines (visibleLines (otherLines content patch.key))).get key).map deserializeScalar := by
  obtain ⟨pre, post, hread, hothers⟩ := @readFrontmatterField_applyFrontmatter content patch hnum hkey.line
  have hline := (breakLine_entryLine hkey.line fun c hc => inLine_serialized hnum hc).1
  rw [hread, hothers]
  rcases visibleLines_insert hline (entryLine_ne_fence _) pre post with ⟨a, b, hwith, hwithout⟩ | hsame
  · rw [hwith, hwithout, get_parseLines_insert (parseLine_entryLine_trim hkey) a b (Ne.symm hne)]
  · rw [hsame]

theorem keepsOthers_iff (hnum : Numeric patch.value) (hkey : IsKey patch.key) :
    KeepsOthers content patch ↔ ∀ key, key ≠ patch.key → AgreeAt content patch.key key := by
  constructor
  · intro h key hne
    have hread := h key hne
    rwa [applyFrontmatter_others hnum hkey hne] at hread
  · intro h key hne
    rw [applyFrontmatter_others hnum hkey hne]
    exact h key hne

/-- A line that holds a `:` is read as an entry of a clean key. -/
theorem parseLine_entryLine_own {key value : JsString} (hkey : ∀ c ∈ key, InLine c) (hvalue : ∀ c ∈ value, InLine c) :
    ∃ own v, parseLine (entryLine (key, value)) = some (own, v) ∧ IsKey own := by
  have hcolon : unit ':' ∈ entryLine (key, value) := by simp [entryLine, str, unit]
  have hline := (breakLine_entryLine hkey hvalue).2
  cases hparse : parseLine (entryLine (key, value)) with
  | none =>
    rw [parseLine, Option.map_eq_none_iff] at hparse
    exact absurd hcolon (indexOf_unit_none.mp hparse)
  | some entry =>
    have hentry := isEntry_of_parseLine hline.feed hparse
    refine ⟨entry.1, entry.2, rfl, fun c hc => ?_, hentry.key_colon, hentry.key_trimmed⟩
    exact inLine_of_mem_entryLine hkey hvalue (mem_of_parseLine hparse (.inl hc))

/-- A key on one line that is not clean is written after all entries. -/
theorem applyFrontmatter_unclean (hkey : ∀ c ∈ patch.key, InLine c) (hunclean : ¬ IsKey patch.key) :
    applyFrontmatter content patch =
      fenced (otherLines content patch.key ++ [entryLine (patch.key, serializeScalar patch.value)]) (parseNote content).body := by
  have hnew : patch.key ∉ (parseNote content).frontmatter.keys := by
    intro hmem
    obtain ⟨e, he, heq⟩ := List.mem_map.mp hmem
    have hentry := isEntry_of_mem_parseNote e he
    exact hunclean ⟨hkey, heq ▸ hentry.key_colon, heq ▸ hentry.key_trimmed⟩
  have hdelete : ((parseNote content).frontmatter.delete patch.key).entries = (parseNote content).frontmatter.entries := by
    refine List.filter_eq_self.mpr fun e he => ?_
    have hne : e.1 ≠ patch.key := fun heq => hnew (List.mem_map.mpr ⟨e, he, heq⟩)
    simpa using hne
  rw [applyFrontmatter, composeNote_fenced (size_set_ne_zero _ _ _), Map.entries_set_of_none _ (Map.get_eq_none_iff.mpr hnew),
    List.map_append, List.map_singleton, otherLines, hdelete]

/-- It sets the key that its line is read as. -/
theorem keepsOthers_unclean_iff (hnum : Numeric patch.value) (hkey : ∀ c ∈ patch.key, InLine c) (hunclean : ¬ IsKey patch.key)
    (hopen : FM_FENCE ∉ (otherLines content patch.key).flatMap breakLine) {own value : JsString}
    (hparse : parseLine (entryLine (patch.key, serializeScalar patch.value)) = some (own, value)) (hown : own ≠ patch.key) :
    KeepsOthers content patch ↔
      (∀ key, key ≠ patch.key → key ≠ own → AgreeAt content patch.key key) ∧
        readFrontmatterField content own = some (deserializeScalar value) := by
  obtain ⟨hbreak, hwritten⟩ := breakLine_entryLine hkey fun c hc => inLine_serialized hnum hc
  have hseen : visibleLines (otherLines content patch.key) = (otherLines content patch.key).flatMap breakLine :=
    List.takeWhile_eq_self_iff.mpr fun l hl => by simpa using fun heq : l = FM_FENCE => hopen (heq ▸ hl)
  have hlast : visibleLines (otherLines content patch.key ++ [entryLine (patch.key, serializeScalar patch.value)]) =
      visibleLines (otherLines content patch.key) ++ [entryLine (patch.key, serializeScalar patch.value)] := by
    rw [hseen, visibleLines, List.flatMap_append, List.flatMap_singleton, hbreak, List.takeWhile_append_of_pos,
      List.takeWhile_cons_of_pos (by simpa using entryLine_ne_fence _), List.takeWhile_nil]
    exact fun l hl => by simpa using fun heq : l = FM_FENCE => hopen (heq ▸ hl)
  have hread : ∀ key, readFrontmatterField (applyFrontmatter content patch) key =
      if own = key then some (deserializeScalar value)
      else ((parseLines (visibleLines (otherLines content patch.key))).get key).map deserializeScalar := by
    intro key
    rw [applyFrontmatter_unclean hkey hunclean, readFrontmatterField_fenced (by simp), hlast, parseLines, List.foldl_append,
      List.foldl_cons, List.foldl_nil, setLine, hparse, Map.get_set]
    · split_ifs
      · rfl
      · rfl
    · intro l hl
      rcases List.mem_append.mp hl with hl | hl
      · exact isWritten_otherLines hl
      · rwa [List.mem_singleton.mp hl]
  constructor
  · intro h
    refine ⟨fun key hne hkeyne => ?_, ?_⟩
    · have hsame := h key hne
      rwa [hread, if_neg (Ne.symm hkeyne)] at hsame
    · have hsame := h own hown
      rw [hread, if_pos rfl] at hsame
      exact hsame.symm
  · rintro ⟨hothers, hvalue⟩ key hne
    rw [hread]
    split_ifs with heq
    · rw [← heq, hvalue]
    · exact hothers key hne (Ne.symm heq)

end rewrite

section plain

variable {content : JsString}

/-- On a note with line feeds only, no byte order mark and a last line that ends, writer
    and reader agree. -/
theorem agreeAt_of_plain (hreturn : unit '\r' ∉ content) (hbom : content.head? ≠ some 0xFEFF)
    (hend : endsWith content (str "\n") = true) {key key' : JsString} (hne : key' ≠ key) : AgreeAt content key key' := by
  have hnormal : normalizeNote content = content := by
    simp only [normalizeNote, if_neg hbom, foldCrLf_of_notMem hreturn, foldCr_of_notMem hreturn]
    rw [if_pos hend]
  have hentries : ∀ e ∈ ((parseNote content).frontmatter.delete key).entries, IsEntry e :=
    fun e he => isEntry_of_mem_parseNote e (List.mem_of_mem_filter he)
  have hseen : visibleLines (otherLines content key) = otherLines content key := by
    have hbreak : ∀ l ∈ otherLines content key, breakLine l = [l] := by
      intro l hl
      obtain ⟨e, he, rfl⟩ := List.mem_map.mp hl
      refine breakLine_eq_self (hentries e he).isBlockLine.1 fun hmem => hreturn ?_
      have hcase := mem_entryLine (show unit '\r' ∈ entryLine (e.1, e.2) from hmem)
      exact mem_of_parseNote (.inl ⟨e, List.mem_of_mem_filter he, hcase.imp_right fun h => h.resolve_left (by decide)⟩)
    have hflat : (otherLines content key).flatMap breakLine = otherLines content key := by
      have hmap : (otherLines content key).flatMap breakLine = (otherLines content key).flatMap fun l => [l] := by
        rw [List.flatMap_def, List.flatMap_def, List.map_congr_left hbreak]
      rw [hmap, List.flatMap_singleton']
    rw [visibleLines, hflat]
    refine List.takeWhile_eq_self_iff.mpr fun l hl => ?_
    obtain ⟨e, -, rfl⟩ := List.mem_map.mp hl
    simpa using entryLine_ne_fence e
  have hmap : parseLines (otherLines content key) = (parseNote content).frontmatter.delete key := by
    rw [otherLines, parseLines_entryLines hentries]
    exact Map.ext (Map.entries_ofList (Map.nodup _))
  rw [AgreeAt, hseen, hmap, Map.get_delete_of_ne _ (Ne.symm hne), readFrontmatterField, hnormal]

end plain

section foreign

/-- A note with the line endings of another tool. -/
def foreignNote : JsString := str "---\r\nstatus: open\r\n---\r\nHi\r\n"

theorem patchPath_ne_nil : str "n.md" ≠ [] := by decide

theorem ownerKey_ne_nil : str "owner" ≠ [] := by decide

def ownerPatch : FrontmatterPatch := ⟨str "n.md", str "owner", some (.str (str "me")), patchPath_ne_nil, ownerKey_ne_nil⟩

/-- The same note with line feeds keeps its status. -/
def nativeNote : JsString := str "---\nstatus: open\n---\nHi\n"

theorem ownerPatch_numeric : Numeric ownerPatch.value := by
  intro v hv
  obtain rfl := Option.some.inj hv
  exact fun text ht => absurd ht List.not_mem_nil

theorem ownerPatch_isKey : IsKey ownerPatch.key where
  line := by
    unfold InLine
    decide
  colon := by decide
  trimmed := by decide

end foreign

section create

/-- The fields that a create supplies; its title stands for an entry of that name. -/
def suppliedFields (create : NoteCreate) : Map JsString (Option Json) :=
  match create.title with
  | none => create.frontmatter.getD .empty
  | some title => (create.frontmatter.getD .empty).set (str "title") (some (.str title))

/-- The note of a create reads back its strings, and no field it was not given. -/
structure ReadsSupplied (create : NoteCreate) : Prop where
  strings : ∀ key s, (suppliedFields create).get key = some (some (.str s)) →
    readFrontmatterField (renderCreate create) key = some s
  others : ∀ key, (suppliedFields create).get key = none → readFrontmatterField (renderCreate create) key = none

theorem get_ofList_map {ν μ : Type} (m : Map JsString ν) (f : ν → μ) (key : JsString) :
    (Map.ofList (m.entries.map fun e => (e.1, f e.2))).get key = (m.get key).map f := by
  have hkeys : ((m.entries.map fun e => (e.1, f e.2)).map Prod.fst).Nodup := by
    rw [List.map_map]
    exact m.nodup
  ext v
  rw [Map.get_ofList_iff hkeys, Option.map_eq_some_iff]
  constructor
  · intro h
    obtain ⟨e, he, heq⟩ := List.mem_map.mp h
    obtain ⟨rfl, rfl⟩ := Prod.mk.inj heq
    exact ⟨e.2, Map.get_eq_some_iff.mpr he, rfl⟩
  · rintro ⟨value, hget, rfl⟩
    exact List.mem_map.mpr ⟨(key, value), Map.get_eq_some_iff.mp hget, rfl⟩

/-- Each field is written as its scalar. -/
theorem get_createFrontmatter (create : NoteCreate) (key : JsString) :
    (createFrontmatter create).get key = ((suppliedFields create).get key).map serializeScalar := by
  have hfold : ∀ m : Map JsString (Option Json),
      (m.entries.foldl (fun (fm : Map JsString JsString) e => fm.set e.1 (serializeScalar e.2)) .empty).get key =
        (m.get key).map serializeScalar := by
    intro m
    rw [← get_ofList_map, Map.ofList, List.foldl_map]
  unfold createFrontmatter suppliedFields
  cases create.title with
  | none => exact hfold _
  | some title =>
    dsimp only
    rw [Map.get_set, Map.get_set, hfold]
    split_ifs
    · rfl
    · rfl

theorem size_eq_zero_iff {ν : Type} {m : Map JsString ν} : m.size = 0 ↔ ∀ key, m.get key = none := by
  constructor
  · intro h key
    rw [Map.get_eq_none_iff, Map.keys, List.length_eq_zero_iff.mp h]
    exact List.not_mem_nil
  · intro h
    rw [Map.size, List.length_eq_zero_iff]
    refine List.eq_nil_iff_forall_not_mem.mpr fun e he => ?_
    exact Map.get_eq_none_iff.mp (h e.1) (List.mem_map_of_mem he)

variable {create : NoteCreate}

/-- Lines of entries with clean keys are read as those entries. -/
theorem visibleLines_entries {entries : List (JsString × JsString)} (hkey : ∀ e ∈ entries, IsKey e.1)
    (hvalue : ∀ e ∈ entries, ∀ c ∈ e.2, InLine c) :
    visibleLines (entries.map entryLine) = entries.map entryLine ∧
      parseLines (entries.map entryLine) = .ofList (entries.map fun e => (e.1, trim e.2)) := by
  constructor
  · have hflat : (entries.map entryLine).flatMap breakLine = entries.map entryLine := by
      have hmap : (entries.map entryLine).flatMap breakLine = (entries.map entryLine).flatMap fun l => [l] := by
        rw [List.flatMap_def, List.flatMap_def]
        congr 1
        refine List.map_congr_left fun l hl => ?_
        obtain ⟨e, he, rfl⟩ := List.mem_map.mp hl
        exact (breakLine_entryLine (hkey e he).line (hvalue e he)).1
      rw [hmap, List.flatMap_singleton']
    rw [visibleLines, hflat]
    refine List.takeWhile_eq_self_iff.mpr fun l hl => ?_
    obtain ⟨e, -, rfl⟩ := List.mem_map.mp hl
    simpa using entryLine_ne_fence e
  · rw [parseLines, Map.ofList, List.foldl_map, List.foldl_map]
    generalize (Map.empty : Map JsString JsString) = fm
    induction entries generalizing fm with
    | nil => rfl
    | cons e entries ih =>
      have hstep : setLine fm (entryLine e) = fm.set e.1 (trim e.2) := by
        rw [setLine, parseLine_entryLine_trim (hkey e (List.mem_cons_self ..))]
      rw [List.foldl_cons, List.foldl_cons, hstep]
      exact ih (fun e he => hkey e (List.mem_cons_of_mem _ he)) (fun e he => hvalue e (List.mem_cons_of_mem _ he)) _

/-- A create with clean keys is read field by field. -/
theorem readFrontmatterField_renderCreate (hnum : ∀ key value, (suppliedFields create).get key = some value → Numeric value)
    (hkeys : ∀ key ∈ (suppliedFields create).keys, IsKey key) (hne : (suppliedFields create).size ≠ 0) (key : JsString) :
    readFrontmatterField (renderCreate create) key =
      ((suppliedFields create).get key).map fun value => deserializeScalar (trim (serializeScalar value)) := by
  have hget := get_createFrontmatter create
  have hentry : ∀ e ∈ (createFrontmatter create).entries, IsKey e.1 ∧ ∀ c ∈ e.2, InLine c := by
    intro e he
    have hvalue := hget e.1
    rw [Map.get_eq_some_iff.mpr he] at hvalue
    obtain ⟨value, hsupplied, heq⟩ := Option.map_eq_some_iff.mp hvalue.symm
    refine ⟨hkeys e.1 (Map.mem_keys_iff.mpr (by rw [hsupplied]; rfl)), fun c hc => ?_⟩
    rw [← heq] at hc
    exact inLine_serialized (hnum _ _ hsupplied) hc
  have hsize : (createFrontmatter create).size ≠ 0 := by
    intro hzero
    refine hne (size_eq_zero_iff.mpr fun key => ?_)
    have hnone := size_eq_zero_iff.mp hzero key
    rwa [hget, Option.map_eq_none_iff] at hnone
  have hentries : (createFrontmatter create).entries ≠ [] := fun hnil => hsize (by rw [Map.size, hnil]; rfl)
  obtain ⟨hseen, hparsed⟩ := visibleLines_entries (fun e he => (hentry e he).1) fun e he => (hentry e he).2
  rw [renderCreate, composeNote_fenced hsize, readFrontmatterField_fenced (by simpa using hentries), hseen, hparsed, get_ofList_map, hget,
    Option.map_map, Option.map_map]
  · rfl
  · intro l hl
    obtain ⟨e, he, rfl⟩ := List.mem_map.mp hl
    exact (breakLine_entryLine (hentry e he).1.line (hentry e he).2).2

/-- With clean keys the strings are read back, unless the note has no field and its body
    is read as one; a string under any other key is lost. -/
theorem readsSupplied_iff (create : NoteCreate) (hnum : ∀ key value, (suppliedFields create).get key = some value → Numeric value) :
    ((∀ key ∈ (suppliedFields create).keys, IsKey key) →
      (ReadsSupplied create ↔ (suppliedFields create).size ≠ 0 ∨
        ∀ key, readFrontmatterField (neutralizeNoteBody create.body) key = none)) ∧
    ((∃ key s, (suppliedFields create).get key = some (some (.str s)) ∧ ¬ IsKey key) → ¬ ReadsSupplied create) := by
  constructor
  · intro hkeys
    by_cases hzero : (suppliedFields create).size = 0
    · have hnone := size_eq_zero_iff.mp hzero
      have hbody : renderCreate create = neutralizeNoteBody create.body := by
        have hempty : (createFrontmatter create).size = 0 :=
          size_eq_zero_iff.mpr fun key => by rw [get_createFrontmatter, hnone, Option.map_none]
        rw [renderCreate, composeNote, if_pos hempty]
      constructor
      · exact fun h => .inr fun key => hbody ▸ h.others key (hnone key)
      · rintro (h | h)
        · exact absurd hzero h
        · refine ⟨fun key s hs => ?_, fun key _ => hbody ▸ h key⟩
          rw [hnone] at hs
          exact absurd hs (by simp)
    · refine ⟨fun _ => .inl hzero, fun _ => ⟨fun key s hs => ?_, fun key hkey => ?_⟩⟩
      · rw [readFrontmatterField_renderCreate hnum hkeys hzero, hs, Option.map_some, trim_eq_self (trimmed_serializeScalar s),
          deserializeScalar_serializeScalar]
      · rw [readFrontmatterField_renderCreate hnum hkeys hzero, hkey, Option.map_none]
  · rintro ⟨key, s, hs, hunclean⟩ h
    have hread := h.strings key s hs
    rw [readFrontmatterField_of_not_isKey hunclean] at hread
    exact absurd hread (by simp)

end create

section forged

/-- A key that closes its line and begins the line of the reserved key. -/
def forgingKey : JsString := str "x\n" ++ KW_STAMP_FRONTMATTER_KEY

def forgedFields : Map JsString (Option Json) := .ofList [(forgingKey, some (.str (str "forged")))]

theorem untitled : (none : Option JsString) ≠ some [] := by decide

def forgedCreate : NoteCreate := ⟨str "n.md", none, str "Hi\n", some forgedFields, patchPath_ne_nil, untitled⟩

/-- Its entry is read as the stamp of the note. -/
theorem forgedCreate_sets_stamp :
    renderCreate forgedCreate = str "---\nx\nkwStamp: forged\n---\nHi\n" ∧
    (suppliedFields forgedCreate).get forgingKey = some (some (.str (str "forged"))) ∧
    (suppliedFields forgedCreate).get KW_STAMP_FRONTMATTER_KEY = none ∧
    readFrontmatterField (renderCreate forgedCreate) forgingKey = none ∧
    readFrontmatterField (renderCreate forgedCreate) KW_STAMP_FRONTMATTER_KEY = some (str "forged") := by
  decide +kernel

def ownedFields : Map JsString (Option Json) := .ofList [(str "owner", some (.str (str "a: b")))]

def ownedCreate : NoteCreate := ⟨str "n.md", none, str "Hi\n", some ownedFields, patchPath_ne_nil, untitled⟩

theorem ownedCreate_numeric : ∀ key value, (suppliedFields ownedCreate).get key = some value → Numeric value := by
  intro key value h v hv
  have hvalue := Map.mem_of_get_ofList h
  simp only [List.mem_singleton, Prod.mk.injEq] at hvalue
  obtain rfl := Option.some.inj (hv.symm.trans hvalue.2)
  exact fun text ht => absurd ht List.not_mem_nil

theorem ownedCreate_keys : ∀ key ∈ (suppliedFields ownedCreate).keys, IsKey key := by
  intro key h
  obtain rfl : key = str "owner" := List.mem_singleton.mp h
  exact ownerPatch_isKey

theorem ownedCreate_readsSupplied :
    ReadsSupplied ownedCreate ↔ (suppliedFields ownedCreate).size ≠ 0 ∨
      ∀ key, readFrontmatterField (neutralizeNoteBody ownedCreate.body) key = none :=
  (readsSupplied_iff ownedCreate ownedCreate_numeric).1 ownedCreate_keys

end forged

end sow.knowledge_writer
