import Sow.Knowledge.KnowledgeWriter.Frontmatter

open sow.js

namespace sow.knowledge_writer

/-- The closing fence with the line breaks around it. -/
def closeFence : JsString := str "\n" ++ FM_FENCE ++ str "\n"

/-- A line that can stand inside a block. -/
def IsBlockLine (line : JsString) : Prop := unit '\n' ∉ line ∧ line ≠ FM_FENCE

/-- A note with a block of the given lines. -/
def fenced (lines : List JsString) (body : JsString) : JsString :=
  FM_FENCE ++ str "\n" ++ (join (str "\n") lines ++ (closeFence ++ body))

/-- An entry as `parseNote` reads it: on one line, trimmed, with no `:` in its key. -/
structure IsEntry (entry : JsString × JsString) : Prop where
  key_line : unit '\n' ∉ entry.1
  key_colon : unit ':' ∉ entry.1
  key_trimmed : Trimmed entry.1
  value_line : unit '\n' ∉ entry.2
  value_trimmed : Trimmed entry.2

theorem joinLines_append {a b : List JsString} (ha : a ≠ []) (hb : b ≠ []) :
    join (str "\n") (a ++ b) = join (str "\n") a ++ unit '\n' :: join (str "\n") b := join_append ha hb

private theorem closeFence_eq : closeFence = unit '\n' :: str "---\n" := rfl

private theorem not_prefix_closeFence {line : JsString} (hline : IsBlockLine line) (rest : JsString) :
    closeFence.isPrefixOf (unit '\n' :: (line ++ unit '\n' :: rest)) = false := by
  rw [Bool.eq_false_iff, ne_eq, List.isPrefixOf_iff_prefix]
  rintro ⟨t, ht⟩
  have h : FM_FENCE ++ unit '\n' :: t = line ++ unit '\n' :: rest := (List.cons.inj ht).2
  exact hline.2 (field_inj (by decide) hline.1 h).1.symm

/-- The first closing fence after a block is the one that ends it. -/
theorem indexOf_closeFence {lines : List JsString} (hne : lines ≠ []) (hlines : ∀ l ∈ lines, IsBlockLine l)
    (body : JsString) :
    indexOf closeFence (unit '\n' :: (join (str "\n") lines ++ (closeFence ++ body))) =
      some ((join (str "\n") lines).length + 1) := by
  induction lines with
  | nil => exact absurd rfl hne
  | cons line lines ih =>
    have hline := hlines line (List.mem_cons_self ..)
    cases lines with
    | nil =>
      have hfirst : indexOf closeFence (closeFence ++ body) = some 0 := by
        rw [closeFence_eq, List.cons_append, indexOf,
          if_pos (List.isPrefixOf_iff_prefix.mpr ⟨body, by simp⟩)]
      rw [join_singleton, indexOf, if_neg]
      · rw [closeFence_eq] at hfirst ⊢
        rw [indexOf_append_of_not_mem _ hline.1, hfirst]
        rfl
      · exact Bool.eq_false_iff.mp (not_prefix_closeFence hline (str "---\n" ++ body))
    | cons line' lines =>
      have hrest := ih (by simp) fun l hl => hlines l (List.mem_cons_of_mem _ hl)
      rw [join_cons_cons, indexOf, if_neg]
      · rw [List.append_assoc, List.append_assoc, closeFence_eq, indexOf_append_of_not_mem _ hline.1,
          ← closeFence_eq]
        change (((indexOf closeFence (unit '\n' :: (join (str "\n") (line' :: lines) ++ (closeFence ++ body)))).map _).map
          _) = _
        rw [hrest]
        simp only [Option.map_some, List.length_append, Option.some.injEq]
        change _ + _ + 1 = _ + (1 + _) + 1
        omega
      · rw [List.append_assoc, List.append_assoc]
        exact Bool.eq_false_iff.mp (not_prefix_closeFence hline _)

private theorem startsWith_fence (rest : JsString) : startsWith (FM_FENCE ++ str "\n" ++ rest) (FM_FENCE ++ str "\n") = true :=
  startsWith_iff.mpr ⟨rest, rfl⟩

/-- A fenced note is read line by line, and its body is what follows the fence. -/
theorem parseNote_fenced {lines : List JsString} (hne : lines ≠ []) (hlines : ∀ l ∈ lines, IsBlockLine l)
    (body : JsString) : parseNote (fenced lines body) = ⟨parseLines lines, body⟩ := by
  have hindex : indexOfFrom (str "\n" ++ FM_FENCE ++ str "\n") (fenced lines body) FM_FENCE.length =
      some ((join (str "\n") lines).length + 4) := by
    rw [indexOfFrom]
    change (indexOf closeFence (unit '\n' :: (join (str "\n") lines ++ (closeFence ++ body)))).map _ = _
    rw [indexOf_closeFence hne hlines]
    rfl
  have hblock : slice (fenced lines body) (FM_FENCE.length + 1) ((join (str "\n") lines).length + 4) =
      join (str "\n") lines := by
    have h := slice_middle (FM_FENCE ++ str "\n") (join (str "\n") lines) (closeFence ++ body)
    rw [Nat.add_comm] at h
    exact h
  have hbody : (fenced lines body).drop ((join (str "\n") lines).length + 4 + FM_FENCE.length + 2) = body := by
    have hsplit : fenced lines body = (FM_FENCE ++ str "\n" ++ (join (str "\n") lines ++ closeFence)) ++ body := by
      simp [fenced]
    rw [hsplit, List.drop_left' ?_]
    simp only [List.length_append]
    change 4 + (_ + 5) = _ + 4 + 3 + 2
    omega
  have hstart : startsWith (fenced lines body) (FM_FENCE ++ str "\n") = true := startsWith_fence _
  rw [parseNote, if_pos hstart, hindex]
  simp only [hblock, hbody]
  rw [show str "\n" = [unit '\n'] from rfl, split_join _ hne fun l hl => (hlines l hl).1]

/-- Two fences with nothing between them. -/
theorem parseNote_emptyFence (body : JsString) : parseNote (str "---\n---\n" ++ body) = ⟨.empty, body⟩ := by
  have hindex : indexOfFrom (str "\n" ++ FM_FENCE ++ str "\n") (str "---\n---\n" ++ body) FM_FENCE.length = some 3 := by
    rfl
  have hstart : startsWith (str "---\n---\n" ++ body) (FM_FENCE ++ str "\n") = true :=
    startsWith_iff.mpr ⟨str "---\n" ++ body, rfl⟩
  rw [parseNote, if_pos hstart, hindex]
  rfl

/-- How `parseNote` reads a note: without a block, with an empty one, or with a
    block of lines. -/
inductive Framing (content : JsString) : Prop where
  | unfenced (h : parseNote content = ⟨.empty, content⟩)
      (hopen : ∀ lines body, content ≠ fenced lines body) (hempty : ∀ body, content ≠ str "---\n---\n" ++ body)
  | empty (body : JsString) (h : content = str "---\n---\n" ++ body)
  | block (lines : List JsString) (body : JsString) (hne : lines ≠ []) (hlines : ∀ l ∈ lines, IsBlockLine l)
      (h : content = fenced lines body)

/-- Where no fence begins before the end of a block, none of its lines is one. -/
private theorem isBlockLine_of_first {block rest : JsString}
    (hfirst : ∀ j < block.length + 1, ¬ closeFence <+: (unit '\n' :: (block ++ (closeFence ++ rest))).drop j) :
    ∀ l ∈ split (unit '\n') block, IsBlockLine l := by
  intro l hl
  refine ⟨not_mem_of_mem_split hl, ?_⟩
  rintro rfl
  obtain ⟨pre, post, hsplit⟩ := List.append_of_mem hl
  have hblock : unit '\n' :: block =
      pre.flatMap (unit '\n' :: ·) ++ (unit '\n' :: (FM_FENCE ++ post.flatMap (unit '\n' :: ·))) := by
    rw [← join_split (unit '\n') block, cons_join _ (split_ne_nil _ _), hsplit]
    simp
  obtain ⟨t, ht⟩ : ∃ t, post.flatMap (unit '\n' :: ·) ++ (closeFence ++ rest) = unit '\n' :: t := by
    cases post with
    | nil => exact ⟨_, rfl⟩
    | cons q post => exact ⟨_, rfl⟩
  have hlen : (pre.flatMap (unit '\n' :: ·)).length < block.length + 1 := by
    have h := congrArg List.length hblock
    simp only [List.length_cons, List.length_append] at h
    omega
  refine hfirst _ hlen ⟨t, ?_⟩
  have hwhole : unit '\n' :: (block ++ (closeFence ++ rest)) =
      pre.flatMap (unit '\n' :: ·) ++ (closeFence ++ t) := by
    rw [← List.cons_append, hblock]
    simp only [List.append_assoc, List.cons_append, ht]
    rfl
  rw [hwhole, List.drop_left]

theorem framing (content : JsString) : Framing content := by
  by_cases hstart : startsWith content (FM_FENCE ++ str "\n") = true
  · obtain ⟨rest, rfl⟩ := startsWith_iff.mp hstart
    have hindex : indexOfFrom (str "\n" ++ FM_FENCE ++ str "\n") (FM_FENCE ++ str "\n" ++ rest) FM_FENCE.length =
        (indexOf closeFence (unit '\n' :: rest)).map (· + 3) := rfl
    cases hidx : indexOf closeFence (unit '\n' :: rest) with
    | none =>
      have hnone := indexOf_eq_none_iff.mp hidx
      refine .unfenced ?_ ?_ ?_
      · rw [parseNote, if_pos hstart, hindex, hidx]
        rfl
      · intro lines body h
        have hrest : rest = join (str "\n") lines ++ (closeFence ++ body) := List.append_cancel_left h
        exact hnone (unit '\n' :: join (str "\n") lines) body (by rw [hrest]; simp)
      · intro body h
        have hrest : rest = str "---\n" ++ body := @List.append_cancel_left _ (FM_FENCE ++ str "\n") _ _ h
        exact hnone [] body (by rw [hrest]; rfl)
    | some i =>
      have hsplit := indexOf_split hidx
      cases i with
      | zero =>
        have hrest : rest = str "---\n" ++ rest.drop 4 := (List.cons.inj hsplit).2
        exact .empty (rest.drop 4) (by rw [hrest]; rfl)
      | succ i =>
        obtain ⟨hle, -, hfirst⟩ := indexOf_eq_some_iff.mp hidx
        have hlen : (rest.take i).length = i := by
          rw [List.length_take]
          simp only [List.length_cons] at hle
          omega
        have hrest : rest = rest.take i ++ (closeFence ++ (unit '\n' :: rest).drop (i + 1 + closeFence.length)) := by
          rw [List.take_succ_cons, List.cons_append, List.cons_append, List.append_assoc] at hsplit
          exact (List.cons.inj hsplit).2
        generalize (unit '\n' :: rest).drop (i + 1 + closeFence.length) = body at hrest
        generalize rest.take i = block at hrest hlen
        subst hrest
        refine .block (split (unit '\n') block) body (split_ne_nil _ _)
          (isBlockLine_of_first fun j hj => hfirst j (by omega)) ?_
        rw [fenced, show str "\n" = [unit '\n'] from rfl, join_split]
  · refine .unfenced ?_ ?_ ?_
    · rw [parseNote, if_neg hstart]
    · rintro lines body rfl
      exact hstart (startsWith_fence _)
    · rintro body rfl
      exact hstart (startsWith_iff.mpr ⟨str "---\n" ++ body, rfl⟩)

private theorem colon_mem_entryLine (entry : JsString × JsString) : unit ':' ∈ entryLine entry := by
  simp [entryLine, str, unit]

theorem IsEntry.isBlockLine {entry : JsString × JsString} (h : IsEntry entry) : IsBlockLine (entryLine entry) := by
  constructor
  · simp only [entryLine, List.mem_append]
    rintro ((hmem | hmem) | hmem)
    · exact h.key_line hmem
    · exact absurd hmem (by decide)
    · exact h.value_line hmem
  · intro heq
    have hmem := colon_mem_entryLine entry
    rw [heq] at hmem
    exact absurd hmem (by decide)

/-- The line of an entry is read back as that entry. -/
theorem parseLine_entryLine {entry : JsString × JsString} (h : IsEntry entry) :
    parseLine (entryLine entry) = some entry := by
  obtain ⟨key, value⟩ := entry
  have hline : entryLine (key, value) = key ++ unit ':' :: (unit ' ' :: value) := by
    simp [entryLine, str, unit]
  have hindex : indexOf (str ":") (entryLine (key, value)) = some key.length := by
    rw [hline]
    exact indexOf_unit h.key_colon
  have hkey : slice (entryLine (key, value)) 0 key.length = key := by
    rw [hline, slice]
    simp
  have hvalue : (entryLine (key, value)).drop (key.length + 1) = unit ' ' :: value := by
    rw [hline, ← List.drop_drop, List.drop_left]
    rfl
  rw [parseLine, hindex, Option.map_some, hkey, hvalue, trim_eq_self h.key_trimmed,
    trim_cons_space _ (by decide), trim_eq_self h.value_trimmed]

theorem parseLines_entryLines {entries : List (JsString × JsString)} (h : ∀ e ∈ entries, IsEntry e) :
    parseLines (entries.map entryLine) = .ofList entries := by
  rw [parseLines, Map.ofList, List.foldl_map]
  generalize (Map.empty : Map JsString JsString) = fm
  induction entries generalizing fm with
  | nil => rfl
  | cons e entries ih =>
    have hstep : setLine fm (entryLine e) = fm.set e.1 e.2 := by
      rw [setLine, parseLine_entryLine (h e (List.mem_cons_self ..))]
    rw [List.foldl_cons, List.foldl_cons, hstep]
    exact ih (fun e he => h e (List.mem_cons_of_mem _ he)) _

/-- The text that `composeNote` puts before the body. -/
def frontmatterBlock (fm : Map JsString JsString) : JsString :=
  if fm.size = 0 then []
  else FM_FENCE ++ str "\n" ++ (join (str "\n") (fm.entries.map entryLine) ++ closeFence)

theorem composeNote_eq (fm : Map JsString JsString) (body : JsString) :
    composeNote fm body = frontmatterBlock fm ++ body := by
  rw [composeNote, frontmatterBlock]
  split
  · rfl
  · simp [closeFence]

theorem composeNote_fenced {fm : Map JsString JsString} (hne : fm.size ≠ 0) (body : JsString) :
    composeNote fm body = fenced (fm.entries.map entryLine) body := by
  rw [composeNote_eq, frontmatterBlock, if_neg hne]
  simp [fenced]

/-- The text of a frontmatter ends with a line. -/
theorem frontmatterBlock_line (fm : Map JsString JsString) :
    frontmatterBlock fm = [] ∨ ∃ s, frontmatterBlock fm = s ++ str "\n" := by
  unfold frontmatterBlock
  split
  · exact .inl rfl
  · refine .inr ⟨FM_FENCE ++ str "\n" ++ (join (str "\n") (fm.entries.map entryLine) ++ (str "\n" ++ FM_FENCE)), ?_⟩
    simp [closeFence]

/-- A nonempty map of well-formed entries survives a round trip through a note. -/
theorem parseNote_composeNote {fm : Map JsString JsString} (hne : fm.size ≠ 0) (h : ∀ e ∈ fm.entries, IsEntry e)
    (body : JsString) : parseNote (composeNote fm body) = ⟨fm, body⟩ := by
  have hentries : fm.entries ≠ [] := fun he => hne (by rw [Map.size, he]; rfl)
  rw [composeNote_fenced hne, parseNote_fenced (by simpa using hentries), parseLines_entryLines h]
  · exact congrArg (ParsedNote.mk · body) (Map.ext (Map.entries_ofList fm.nodup))
  · intro l hl
    obtain ⟨e, he, rfl⟩ := List.mem_map.mp hl
    exact (h e he).isBlockLine

/-- The units of an entry are units of its line. -/
theorem mem_of_parseLine {line : JsString} {e : JsString × JsString} (h : parseLine line = some e) {c : UInt16}
    (hc : c ∈ e.1 ∨ c ∈ e.2) : c ∈ line := by
  obtain ⟨sep, -, rfl⟩ := Option.map_eq_some_iff.mp h
  rcases hc with hc | hc
  · exact List.mem_of_mem_take (by simpa [slice] using mem_of_mem_trim hc)
  · exact List.mem_of_mem_drop (mem_of_mem_trim hc)

theorem isEntry_of_parseLine {line : JsString} (hline : unit '\n' ∉ line) {entry : JsString × JsString}
    (h : parseLine line = some entry) : IsEntry entry := by
  have hmem := fun c => @mem_of_parseLine line entry h c
  obtain ⟨sep, hsep, rfl⟩ := Option.map_eq_some_iff.mp h
  obtain ⟨-, -, hfirst⟩ := indexOf_eq_some_iff.mp hsep
  refine ⟨fun hc => hline (hmem _ (.inl hc)), fun hc => ?_, trimmed_trim _, fun hc => hline (hmem _ (.inr hc)),
    trimmed_trim _⟩
  have hkey : unit ':' ∈ line.take sep := by simpa [slice] using mem_of_mem_trim hc
  obtain ⟨j, hj, hget⟩ := List.mem_iff_getElem.mp hkey
  rw [List.length_take] at hj
  refine hfirst j (by omega) ?_
  rw [List.getElem_take] at hget
  rw [List.drop_eq_getElem_cons (by omega), hget]
  exact ⟨_, rfl⟩

/-- An entry of a block is the entry of one of its lines. -/
theorem exists_parseLine_of_mem {lines : List JsString} {e : JsString × JsString}
    (h : e ∈ (parseLines lines).entries) : ∃ line ∈ lines, parseLine line = some e := by
  have hfold : ∀ fm : Map JsString JsString, e ∈ (lines.foldl setLine fm).entries →
      e ∈ fm.entries ∨ ∃ line ∈ lines, parseLine line = some e := by
    clear h
    induction lines with
    | nil => exact fun fm h => .inl h
    | cons line lines ih =>
      intro fm h
      rcases ih _ h with h | ⟨l, hl, hparse⟩
      · rw [setLine] at h
        cases hline : parseLine line with
        | none =>
          rw [hline] at h
          exact .inl h
        | some entry =>
          rw [hline] at h
          have hget := Map.get_eq_some_iff.mpr h
          rw [Map.get_set] at hget
          split at hget
          · next hk =>
            refine .inr ⟨line, List.mem_cons_self .., hline.trans (congrArg some ?_)⟩
            exact Prod.ext hk (Option.some.inj hget)
          · exact .inl (Map.get_eq_some_iff.mp hget)
      · exact .inr ⟨l, List.mem_cons_of_mem _ hl, hparse⟩
  rcases hfold .empty h with h | h
  · exact absurd h (by simp [Map.empty])
  · exact h

/-- Every entry that `parseNote` returns is well formed. -/
theorem isEntry_of_mem_parseNote {content : JsString} :
    ∀ e ∈ (parseNote content).frontmatter.entries, IsEntry e := by
  cases framing content with
  | unfenced h _ _ => simp [h, Map.empty]
  | empty body h => simp [h, parseNote_emptyFence, Map.empty]
  | block lines body hne hl h =>
    rw [h, parseNote_fenced hne hl]
    intro e he
    obtain ⟨line, hline, hparse⟩ := exists_parseLine_of_mem he
    exact isEntry_of_parseLine (hl line hline).1 hparse

private theorem mem_join_of_mem {c : UInt16} {line : JsString} {lines : List JsString} (h : line ∈ lines) (hc : c ∈ line) :
    c ∈ join (str "\n") lines := by
  induction lines with
  | nil => simp at h
  | cons l ls ih =>
    cases ls with
    | nil => rwa [join_singleton, ← List.mem_singleton.mp h]
    | cons l' ls =>
      rw [join_cons_cons]
      rcases List.mem_cons.mp h with rfl | h
      · exact List.mem_append_left _ hc
      · exact List.mem_append_right _ (List.mem_append_right _ (ih h))

/-- The entries and the body of a note are made of its units. -/
theorem mem_of_parseNote {content : JsString} {c : UInt16}
    (h : (∃ e ∈ (parseNote content).frontmatter.entries, c ∈ e.1 ∨ c ∈ e.2) ∨ c ∈ (parseNote content).body) :
    c ∈ content := by
  cases framing content with
  | unfenced hnote _ _ => simpa [hnote, Map.empty] using h
  | empty body hnote =>
    rw [hnote, parseNote_emptyFence] at h
    simp only [Map.empty, List.not_mem_nil, false_and, exists_false, false_or] at h
    rw [hnote]
    exact List.mem_append_right _ h
  | block lines body hne hl hnote =>
    rw [hnote, parseNote_fenced hne hl] at h
    rw [hnote, fenced]
    refine List.mem_append_right _ ?_
    rcases h with ⟨e, he, hc⟩ | hc
    · obtain ⟨line, hline, hparse⟩ := exists_parseLine_of_mem he
      exact List.mem_append_left _ (mem_join_of_mem hline (mem_of_parseLine hparse hc))
    · exact List.mem_append_right _ (List.mem_append_right _ hc)

theorem isEntry_of_mem_set {fm : Map JsString JsString} {key value : JsString} (hfm : ∀ e ∈ fm.entries, IsEntry e)
    (hnew : IsEntry (key, value)) : ∀ e ∈ (fm.set key value).entries, IsEntry e := by
  rintro ⟨k, v⟩ he
  have hget := Map.get_eq_some_iff.mpr he
  rw [Map.get_set] at hget
  split at hget
  · next hk =>
    obtain rfl := Option.some.inj hget
    exact hk ▸ hnew
  · exact hfm _ (Map.get_eq_some_iff.mp hget)

theorem size_set_ne_zero (fm : Map JsString JsString) (key value : JsString) : (fm.set key value).size ≠ 0 := by
  intro h
  have hmem := Map.get_eq_some_iff.mp (Map.get_set_self fm key value)
  rw [List.length_eq_zero_iff.mp h] at hmem
  exact absurd hmem List.not_mem_nil

theorem foldCrLf_of_notMem {s : JsString} (h : unit '\r' ∉ s) : foldCrLf s = s := by
  fun_induction foldCrLf s with
  | case1 => rfl
  | case2 c => rfl
  | case3 c d s hcr ih => exact absurd (hcr.1 ▸ List.mem_cons_self ..) h
  | case4 c d s hcr ih => rw [ih fun hmem => h (List.mem_cons_of_mem _ hmem)]

theorem foldCr_of_notMem {s : JsString} (h : unit '\r' ∉ s) : foldCr s = s := by
  rw [foldCr]
  conv_rhs => rw [← List.map_id s]
  refine List.map_congr_left fun c hc => if_neg ?_
  rintro rfl
  exact h hc

/-- Without carriage returns and byte order mark the reader at most ends the last line. -/
theorem normalizeNote_eq_append {content : JsString} (hcr : unit '\r' ∉ content) (hbom : content.head? ≠ some 0xFEFF) :
    ∃ suffix, normalizeNote content = content ++ suffix := by
  simp only [normalizeNote, if_neg hbom, foldCrLf_of_notMem hcr, foldCr_of_notMem hcr]
  split
  · exact ⟨[], (List.append_nil _).symm⟩
  · exact ⟨str "\n", rfl⟩

end sow.knowledge_writer
