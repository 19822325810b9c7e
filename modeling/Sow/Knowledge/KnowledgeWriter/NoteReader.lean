import Sow.Knowledge.KnowledgeWriter.FrontmatterCodec

open sow.js

namespace sow.knowledge_writer

/-- Every line ending is read as a line feed. -/
def foldLines (s : JsString) : JsString := foldCr (foldCrLf s)

/-- The lines the reader sees in one written line. -/
def breakLine (line : JsString) : List JsString := split (unit '\n') (foldCr line)

/-- The lines the reader sees of a written block: all up to the first that is a fence. -/
def visibleLines (lines : List JsString) : List JsString := (lines.flatMap breakLine).takeWhile (· ≠ FM_FENCE)

/-- A line as a writer composes it: the line feed after it is read as one line break. -/
structure IsWritten (line : JsString) : Prop where
  feed : unit '\n' ∉ line
  last : line.getLast? ≠ some (unit '\r')

theorem foldCr_append (a b : JsString) : foldCr (a ++ b) = foldCr a ++ foldCr b := List.map_append

theorem foldCrLf_cons {c : UInt16} (s : JsString) (h : c ≠ unit '\r') : foldCrLf (c :: s) = c :: foldCrLf s := by
  cases s with
  | nil => rfl
  | cons d s => rw [foldCrLf, if_neg fun hpair => h hpair.1]

theorem foldCrLf_eq_self {s : JsString} (h : unit '\n' ∉ s) : foldCrLf s = s := by
  fun_induction foldCrLf s with
  | case1 => rfl
  | case2 c => rfl
  | case3 c d s hpair ih => exact absurd (hpair.2 ▸ List.mem_cons_of_mem _ (List.mem_cons_self ..)) h
  | case4 c d s hpair ih => rw [ih fun hmem => h (List.mem_cons_of_mem _ hmem)]

/-- A text that does not end in a carriage return is folded apart from the line feed after it. -/
theorem foldCrLf_append {a : JsString} (h : a.getLast? ≠ some (unit '\r')) (b : JsString) :
    foldCrLf (a ++ unit '\n' :: b) = foldCrLf a ++ unit '\n' :: foldCrLf b := by
  fun_induction foldCrLf a with
  | case1 => exact foldCrLf_cons b (by decide)
  | case2 c =>
    have hc : c ≠ unit '\r' := fun hc => h (by rw [hc]; rfl)
    rw [List.singleton_append, foldCrLf_cons _ hc, foldCrLf_cons b (by decide), List.singleton_append]
  | case3 c d s hpair ih =>
    rw [List.cons_append, List.cons_append, foldCrLf, if_pos hpair]
    cases s with
    | nil => rw [List.nil_append, foldCrLf_cons b (by decide)] ; rfl
    | cons e s =>
      rw [List.getLast?_cons_cons, List.getLast?_cons_cons] at h
      rw [ih h, List.cons_append]
  | case4 c d s hpair ih =>
    rw [List.getLast?_cons_cons] at h
    rw [List.cons_append, List.cons_append, foldCrLf, if_neg hpair, ← List.cons_append, ih h, List.cons_append]

theorem foldLines_append {a : JsString} (h : a.getLast? ≠ some (unit '\r')) (b : JsString) :
    foldLines (a ++ unit '\n' :: b) = foldLines a ++ unit '\n' :: foldLines b := by
  rw [foldLines, foldCrLf_append h, foldCr_append]
  rfl

theorem foldLines_line {line : JsString} (h : unit '\n' ∉ line) : foldLines line = foldCr line := by
  rw [foldLines, foldCrLf_eq_self h]

theorem breakLine_ne_nil (line : JsString) : breakLine line ≠ [] := split_ne_nil _ _

theorem join_breakLine (line : JsString) : join (str "\n") (breakLine line) = foldCr line := join_split _ _

theorem notMem_of_mem_breakLine {line l : JsString} (h : l ∈ breakLine line) : unit '\n' ∉ l := not_mem_of_mem_split h

/-- Without carriage returns a line is seen as it is. -/
theorem breakLine_eq_self {line : JsString} (hfeed : unit '\n' ∉ line) (hreturn : unit '\r' ∉ line) : breakLine line = [line] := by
  have hsplit := @split_join (unit '\n') [line] (List.cons_ne_nil _ _) fun p hp => List.mem_singleton.mp hp ▸ hfeed
  rw [join_singleton] at hsplit
  rw [breakLine, foldCr_of_notMem hreturn, hsplit]

/-- The lines of a block are folded one by one. -/
theorem foldLines_join {lines : List JsString} (hne : lines ≠ []) (h : ∀ l ∈ lines, IsWritten l) (rest : JsString) :
    foldLines (join (str "\n") lines ++ unit '\n' :: rest) =
      join (str "\n") (lines.flatMap breakLine) ++ unit '\n' :: foldLines rest := by
  induction lines with
  | nil => exact absurd rfl hne
  | cons line lines ih =>
    have hline := h line (List.mem_cons_self ..)
    cases lines with
    | nil =>
      rw [join_singleton, foldLines_append hline.last, foldLines_line hline.feed, List.flatMap_singleton, join_breakLine]
    | cons line' lines =>
      have hrest := ih (List.cons_ne_nil _ _) fun l hl => h l (List.mem_cons_of_mem _ hl)
      have hseen : (line' :: lines).flatMap breakLine ≠ [] := by
        rw [List.flatMap_cons]
        exact fun heq => breakLine_ne_nil line' (List.append_eq_nil_iff.mp heq).1
      have hcons : (line :: line' :: lines).flatMap breakLine = breakLine line ++ (line' :: lines).flatMap breakLine :=
        List.flatMap_cons ..
      rw [join_cons_cons, List.append_assoc, List.append_assoc]
      change foldLines (line ++ unit '\n' :: (join (str "\n") (line' :: lines) ++ unit '\n' :: rest)) = _
      rw [foldLines_append hline.last, hrest, foldLines_line hline.feed, hcons,
        joinLines_append (breakLine_ne_nil line) hseen, join_breakLine, List.append_assoc, List.cons_append]

/-- A written block as the reader normalizes it. -/
theorem normalizeNote_fenced {lines : List JsString} (hne : lines ≠ []) (h : ∀ l ∈ lines, IsWritten l) (body : JsString) :
    ∃ body', normalizeNote (fenced lines body) = fenced (lines.flatMap breakLine) body' := by
  have hbom : (fenced lines body).head? ≠ some 0xFEFF := by
    rw [show (fenced lines body).head? = some (unit '-') from rfl]
    decide
  have hfold : foldLines (fenced lines body) = fenced (lines.flatMap breakLine) (foldLines body) := by
    have hopen : fenced lines body = FM_FENCE ++ unit '\n' :: (join (str "\n") lines ++ unit '\n' :: (FM_FENCE ++ unit '\n' :: body)) := by
      simp [fenced, closeFence, str, unit, FM_FENCE]
    rw [hopen, foldLines_append (by decide), foldLines_join hne h, foldLines_append (by decide)]
    simp [fenced, closeFence, str, unit, FM_FENCE, foldLines, foldCrLf, foldCr]
  simp only [normalizeNote, if_neg hbom]
  rw [foldLines] at hfold
  rw [hfold]
  split
  · exact ⟨foldLines body, rfl⟩
  · exact ⟨foldLines body ++ str "\n", by simp [fenced]⟩

/-- A fenced text is read up to the first of its lines that is a fence. -/
theorem parseNote_fenced_lines {lines : List JsString} (hne : lines ≠ []) (h : ∀ l ∈ lines, unit '\n' ∉ l) (body : JsString) :
    (parseNote (fenced lines body)).frontmatter = parseLines (lines.takeWhile (· ≠ FM_FENCE)) := by
  by_cases hfence : FM_FENCE ∈ lines
  · obtain ⟨pre, post, rfl, hpre⟩ := List.eq_append_cons_of_mem hfence
    have hblock : ∀ l ∈ pre, IsBlockLine l := fun l hl => ⟨h l (List.mem_append_left _ hl), fun heq => hpre (heq ▸ hl)⟩
    have htake : (pre ++ FM_FENCE :: post).takeWhile (· ≠ FM_FENCE) = pre := by
      rw [List.takeWhile_append_of_pos, List.takeWhile_cons_of_neg (by decide), List.append_nil]
      intro l hl
      simpa using (hblock l hl).2
    obtain ⟨rest, hrest⟩ : ∃ rest, join (str "\n") (FM_FENCE :: post) ++ (closeFence ++ body) = FM_FENCE ++ unit '\n' :: rest := by
      cases post with
      | nil => exact ⟨FM_FENCE ++ unit '\n' :: body, by rw [join_singleton]; rfl⟩
      | cons l post =>
        refine ⟨join (str "\n") (l :: post) ++ (closeFence ++ body), ?_⟩
        rw [join_cons_cons, List.append_assoc, List.append_assoc]
        rfl
    rw [htake]
    by_cases hnil : pre = []
    · subst hnil
      have hempty : fenced ([] ++ FM_FENCE :: post) body = str "---\n---\n" ++ rest := by
        rw [List.nil_append, fenced, hrest]
        rfl
      rw [hempty, parseNote_emptyFence]
      rfl
    · have hsplit : fenced (pre ++ FM_FENCE :: post) body = fenced pre rest := by
        rw [fenced, joinLines_append hnil (List.cons_ne_nil _ _), List.append_assoc (join (str "\n") pre), List.cons_append, hrest]
        simp [fenced, closeFence, str, unit]
      rw [hsplit, parseNote_fenced hnil hblock]
  · have hblock : ∀ l ∈ lines, IsBlockLine l := fun l hl => ⟨h l hl, fun heq => hfence (heq ▸ hl)⟩
    rw [parseNote_fenced hne hblock, List.takeWhile_eq_self_iff.mpr]
    intro l hl
    simpa using (hblock l hl).2

/-- What the reader finds in a written block. -/
theorem readFrontmatterField_fenced {lines : List JsString} (hne : lines ≠ []) (h : ∀ l ∈ lines, IsWritten l) (body key : JsString) :
    readFrontmatterField (fenced lines body) key = ((parseLines (visibleLines lines)).get key).map deserializeScalar := by
  obtain ⟨body', hnormal⟩ := normalizeNote_fenced hne h body
  have hseen : lines.flatMap breakLine ≠ [] := by
    obtain ⟨line, lines, rfl⟩ := List.exists_cons_of_ne_nil hne
    rw [List.flatMap_cons]
    exact fun heq => breakLine_ne_nil line (List.append_eq_nil_iff.mp heq).1
  have hlines : ∀ l ∈ lines.flatMap breakLine, unit '\n' ∉ l := by
    intro l hl
    obtain ⟨line, -, hmem⟩ := List.mem_flatMap.mp hl
    exact notMem_of_mem_breakLine hmem
  rw [readFrontmatterField, hnormal, parseNote_fenced_lines hseen hlines]
  rfl

/-- The value of a key after a run of lines depends on its value before. -/
theorem get_foldl_setLine {fm fm' : Map JsString JsString} {key : JsString} (h : fm.get key = fm'.get key) (lines : List JsString) :
    (lines.foldl setLine fm).get key = (lines.foldl setLine fm').get key := by
  induction lines generalizing fm fm' with
  | nil => exact h
  | cons line lines ih =>
    apply ih
    unfold setLine
    cases parseLine line with
    | none => exact h
    | some entry => rw [Map.get_set, Map.get_set, h]

/-- A line sets its own key and no other. -/
theorem get_parseLines_insert {line key value : JsString} (hline : parseLine line = some (key, value)) (pre post : List JsString)
    {key' : JsString} (hne : key ≠ key') :
    (parseLines (pre ++ line :: post)).get key' = (parseLines (pre ++ post)).get key' := by
  rw [parseLines, parseLines, List.foldl_append, List.foldl_append, List.foldl_cons]
  apply get_foldl_setLine
  rw [setLine, hline]
  exact Map.get_set_of_ne _ _ hne

end sow.knowledge_writer
