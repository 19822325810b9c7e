import Sow.Knowledge.KnowledgeWriter.RegionPatch

open sow.js

namespace sow.knowledge_writer

def wikilinkOf (dstSlug : JsString) : JsString := str "[[" ++ dstSlug ++ str "]]"

def isBlankUnit (c : UInt16) : Bool := c == unit ' ' || c == unit '\t'

/-- `line.replace(/[ \t]+$/u, "")` -/
def stripBlanks (line : JsString) : JsString := line.rdropWhile isBlankUnit

/-- A line without the first occurrence of the link, and without the blanks at its end. -/
def lineWithout (wikilink line : JsString) : JsString := stripBlanks (replaceFirst line wikilink [])

/-- The lines of a body from which the link is removed. -/
def linesWithout (wikilink : JsString) (lines : List JsString) : List JsString :=
  dropRepeatedEmpty none (lines.map (lineWithout wikilink))

section empties

/-- Not both lines are empty. -/
def NotBothEmpty (a b : JsString) : Prop := ¬ (a = [] ∧ b = [])

theorem dropRepeatedEmpty_sublist (before : Option JsString) (lines : List JsString) :
    (dropRepeatedEmpty before lines).Sublist lines := by
  induction lines generalizing before with
  | nil => exact .slnil
  | cons line lines ih =>
    rw [dropRepeatedEmpty]
    split
    · exact (ih (some line)).cons line
    · exact (ih (some line)).cons_cons line

theorem dropRepeatedEmpty_append (before : Option JsString) (a b : List JsString) :
    dropRepeatedEmpty before (a ++ b) = dropRepeatedEmpty before a ++ dropRepeatedEmpty (a.getLast?.or before) b := by
  induction a generalizing before with
  | nil => simp [dropRepeatedEmpty]
  | cons line a ih =>
    have hlast : (line :: a).getLast?.or before = a.getLast?.or (some line) := by
      rw [List.getLast?_cons]
      cases a.getLast? <;> rfl
    rw [List.cons_append, dropRepeatedEmpty, dropRepeatedEmpty, ih, hlast]
    split
    · rfl
    · rfl

theorem dropRepeatedEmpty_isChain (before : Option JsString) (lines : List JsString) :
    (before.toList ++ dropRepeatedEmpty before lines).IsChain NotBothEmpty := by
  induction lines generalizing before with
  | nil => cases before <;> simp [dropRepeatedEmpty]
  | cons line lines ih =>
    have hrest := ih (some line)
    rw [dropRepeatedEmpty]
    split
    · next h =>
      rw [h.2, ← h.1]
      exact hrest
    · next h =>
      cases before with
      | none => exact hrest
      | some prev =>
        refine List.isChain_cons_cons.mpr ⟨?_, hrest⟩
        rintro ⟨rfl, rfl⟩
        exact h ⟨rfl, rfl⟩

theorem dropRepeatedEmpty_eq_self {before : Option JsString} {lines : List JsString}
    (h : (before.toList ++ lines).IsChain NotBothEmpty) : dropRepeatedEmpty before lines = lines := by
  induction lines generalizing before with
  | nil => rfl
  | cons line lines ih =>
    have hrest : ((some line).toList ++ lines).IsChain NotBothEmpty := h.right_of_append
    rw [dropRepeatedEmpty, ih hrest, if_neg]
    rintro ⟨rfl, rfl⟩
    exact (List.isChain_cons_cons.mp h).1 ⟨rfl, rfl⟩

end empties

section kept

variable (wikilink : JsString)

/-- The lines after an edit are the lines before it: one without the link is as it was, one with the link
    is there without it, or not at all. -/
inductive KeptLines : List JsString → List JsString → Prop where
  | nil : KeptLines [] []
  | keep {line lines out} (hfree : includes line wikilink = false) (h : KeptLines lines out) : KeptLines (line :: lines) (line :: out)
  | edit {line lines out} (hlink : includes line wikilink = true) (h : KeptLines lines out) :
    KeptLines (line :: lines) (lineWithout wikilink line :: out)
  | drop {line lines out} (hlink : includes line wikilink = true) (h : KeptLines lines out) : KeptLines (line :: lines) out

/-- Between two empty lines there is a line that is not left empty. -/
def EmptiesApart (lines : List JsString) : Prop :=
  ∀ before between after, lines = before ++ [] :: (between ++ [] :: after) → ∃ line ∈ between, lineWithout wikilink line ≠ []

variable {wikilink}

theorem EmptiesApart.tail {line : JsString} {lines : List JsString} (h : EmptiesApart wikilink (line :: lines)) :
    EmptiesApart wikilink lines := by
  intro before between after heq
  exact h (line :: before) between after (by rw [heq]; rfl)

theorem EmptiesApart.skip {line : JsString} {lines : List JsString} (hleft : lineWithout wikilink line = [])
    (h : EmptiesApart wikilink ([] :: line :: lines)) : EmptiesApart wikilink ([] :: lines) := by
  intro before between after heq
  cases before with
  | nil =>
    obtain ⟨other, hother, hne⟩ := h [] (line :: between) after (by rw [(List.cons.inj heq).2]; rfl)
    rcases List.mem_cons.mp hother with rfl | hmem
    · exact absurd hleft hne
    · exact ⟨other, hmem, hne⟩
  | cons first before => exact h.tail.tail before between after (List.cons.inj heq).2

private theorem keptLines_run {lines : List JsString}
    (hstrip : ∀ line ∈ lines, includes line wikilink = false → lineWithout wikilink line = line) :
    (∀ before, before ≠ some [] → EmptiesApart wikilink lines →
      KeptLines wikilink lines (dropRepeatedEmpty before (lines.map (lineWithout wikilink)))) ∧
    (EmptiesApart wikilink ([] :: lines) →
      KeptLines wikilink lines (dropRepeatedEmpty (some []) (lines.map (lineWithout wikilink)))) ∧
    ∀ first, includes first wikilink = true → lineWithout wikilink first = [] → EmptiesApart wikilink lines →
      KeptLines wikilink (first :: lines) ([] :: dropRepeatedEmpty (some []) (lines.map (lineWithout wikilink))) := by
  induction lines with
  | nil =>
    refine ⟨fun before _ _ => .nil, fun _ => .nil, fun first hlink hleft _ => ?_⟩
    rw [← hleft]
    exact .edit hlink .nil
  | cons line lines ih =>
    obtain ⟨ihFresh, ihKept, ihEdited⟩ := ih fun l hl => hstrip l (List.mem_cons_of_mem _ hl)
    by_cases hleft : lineWithout wikilink line = []
    · have hskip : dropRepeatedEmpty (some []) ((line :: lines).map (lineWithout wikilink)) =
          dropRepeatedEmpty (some []) (lines.map (lineWithout wikilink)) := by
        rw [List.map_cons, hleft, dropRepeatedEmpty, if_pos ⟨rfl, rfl⟩]
      have hfresh : ∀ before, before ≠ some [] → dropRepeatedEmpty before ((line :: lines).map (lineWithout wikilink)) =
          [] :: dropRepeatedEmpty (some []) (lines.map (lineWithout wikilink)) := by
        intro before hbefore
        rw [List.map_cons, hleft, dropRepeatedEmpty, if_neg fun h => hbefore h.2]
      rw [hskip]
      cases hlink : includes line wikilink with
      | true =>
        refine ⟨fun before hbefore hapart => ?_, fun hapart => ?_, fun first hfirst _ hapart => ?_⟩
        · rw [hfresh before hbefore]
          exact ihEdited line hlink hleft hapart.tail
        · exact .drop hlink (ihKept (hapart.skip hleft))
        · exact .drop hfirst (ihEdited line hlink hleft hapart.tail)
      | false =>
        have hempty : line = [] := (hstrip line (List.mem_cons_self ..) hlink).symm.trans hleft
        rw [hempty] at hlink ⊢
        refine ⟨fun before hbefore hapart => ?_, fun hapart => ?_, fun first hfirst _ hapart => ?_⟩
        · rw [← hempty, hfresh before hbefore]
          rw [hempty]
          exact .keep hlink (ihKept hapart)
        · obtain ⟨other, hother, -⟩ := hapart [] [] lines rfl
          cases hother
        · exact .drop hfirst (.keep hlink (ihKept hapart))
    · have hstep : ∀ before, dropRepeatedEmpty before ((line :: lines).map (lineWithout wikilink)) =
          lineWithout wikilink line :: dropRepeatedEmpty (some (lineWithout wikilink line)) (lines.map (lineWithout wikilink)) := by
        intro before
        rw [List.map_cons, dropRepeatedEmpty, if_neg fun h => hleft h.1]
      have hkept : EmptiesApart wikilink lines → KeptLines wikilink (line :: lines)
          (lineWithout wikilink line :: dropRepeatedEmpty (some (lineWithout wikilink line)) (lines.map (lineWithout wikilink))) := by
        intro hapart
        have hrest := ihFresh (some (lineWithout wikilink line)) (fun h => hleft (Option.some.inj h)) hapart
        cases hlink : includes line wikilink with
        | true => exact .edit hlink hrest
        | false =>
          have hsame := hstrip line (List.mem_cons_self ..) hlink
          rw [hsame] at hrest ⊢
          exact .keep hlink hrest
      refine ⟨fun before _ hapart => ?_, fun hapart => ?_, fun first hfirst hfirstLeft hapart => ?_⟩
      · rw [hstep before]
        exact hkept hapart.tail
      · rw [hstep]
        exact hkept hapart.tail.tail
      · rw [hstep, ← hfirstLeft]
        exact .edit hfirst (hkept hapart.tail)

theorem KeptLines.exists_append {a b out : List JsString} (h : KeptLines wikilink (a ++ b) out) :
    ∃ outA outB, out = outA ++ outB ∧ KeptLines wikilink a outA ∧ KeptLines wikilink b outB := by
  induction a generalizing out with
  | nil => exact ⟨[], out, rfl, .nil, h⟩
  | cons line a ih =>
    cases h with
    | keep hfree h =>
      obtain ⟨outA, outB, rfl, hA, hB⟩ := ih h
      exact ⟨line :: outA, outB, rfl, .keep hfree hA, hB⟩
    | edit hlink h =>
      obtain ⟨outA, outB, rfl, hA, hB⟩ := ih h
      exact ⟨lineWithout wikilink line :: outA, outB, rfl, .edit hlink hA, hB⟩
    | drop hlink h =>
      obtain ⟨outA, outB, rfl, hA, hB⟩ := ih h
      exact ⟨outA, outB, rfl, .drop hlink hA, hB⟩

theorem KeptLines.mem {lines out : List JsString} (h : KeptLines wikilink lines out) {line : JsString} (hline : line ∈ lines)
    (hfree : includes line wikilink = false) : line ∈ out := by
  induction h with
  | nil => cases hline
  | keep _ _ ih =>
    rcases List.mem_cons.mp hline with rfl | hmem
    · exact List.mem_cons_self ..
    · exact List.mem_cons_of_mem _ (ih hmem)
  | edit hlink _ ih =>
    rcases List.mem_cons.mp hline with rfl | hmem
    · rw [hfree] at hlink
      cases hlink
    · exact List.mem_cons_of_mem _ (ih hmem)
  | drop hlink _ ih =>
    rcases List.mem_cons.mp hline with rfl | hmem
    · rw [hfree] at hlink
      cases hlink
    · exact ih hmem

end kept

section lines

theorem notMem_wikilinkOf {dstSlug : JsString} (h : unit '\n' ∉ dstSlug) : unit '\n' ∉ wikilinkOf dstSlug := by
  simp only [wikilinkOf, List.mem_append, not_or]
  exact ⟨⟨by decide, h⟩, by decide⟩

theorem stripBlanks_append (a b : JsString) {c : UInt16} (hc : isBlankUnit c = false) :
    stripBlanks (a ++ [c] ++ b) = a ++ [c] ++ stripBlanks b := by
  unfold stripBlanks
  induction b using List.reverseRecOn with
  | nil => simp [hc]
  | append_singleton b d ih =>
    rw [← List.append_assoc]
    by_cases hd : isBlankUnit d = true
    · rw [List.rdropWhile_concat_pos isBlankUnit _ d hd, List.rdropWhile_concat_pos isBlankUnit _ d hd, ih]
    · rw [List.rdropWhile_concat_neg isBlankUnit _ d hd, List.rdropWhile_concat_neg isBlankUnit _ d hd]
      simp

/-- The blanks at the end of a line are no part of a link. -/
theorem includes_stripBlanks (line dstSlug : JsString) :
    includes (stripBlanks line) (wikilinkOf dstSlug) = includes line (wikilinkOf dstSlug) := by
  have hlink : wikilinkOf dstSlug = str "[[" ++ dstSlug ++ str "]" ++ [unit ']'] := by simp [wikilinkOf, str, unit]
  rw [Bool.eq_iff_iff, includes_iff, includes_iff]
  constructor
  · exact fun h => h.trans (List.rdropWhile_prefix _ line).isInfix
  · rintro ⟨a, b, rfl⟩
    have hstrip := @stripBlanks_append (a ++ (str "[[" ++ dstSlug ++ str "]")) b (unit ']') (by decide)
    rw [hlink, ← List.append_assoc, hstrip]
    exact ⟨a, stripBlanks b, by simp⟩

theorem mem_of_mem_lineWithout {wikilink line : JsString} {c : UInt16} (h : c ∈ lineWithout wikilink line) : c ∈ line := by
  have hmem := (List.rdropWhile_prefix _ _).subset h
  unfold replaceFirst at hmem
  cases hindex : indexOf wikilink line with
  | none =>
    rw [hindex] at hmem
    exact hmem
  | some i =>
    rw [hindex] at hmem
    simp only [List.append_nil, List.mem_append] at hmem
    rcases hmem with hleft | hright
    · exact List.mem_of_mem_take hleft
    · exact List.mem_of_mem_drop hright

theorem lineWithout_of_free {wikilink line : JsString} (h : includes line wikilink = false) :
    lineWithout wikilink line = stripBlanks line := by
  unfold includes at h
  rw [Option.isSome_eq_false_iff, Option.isNone_iff_eq_none] at h
  unfold lineWithout replaceFirst
  rw [h]

theorem stripBlanks_lineWithout (wikilink line : JsString) : stripBlanks (lineWithout wikilink line) = lineWithout wikilink line :=
  List.rdropWhile_idempotent _ _

/-- A link on one line is in a text where it is in one of its lines. -/
theorem includes_append_line {wikilink : JsString} (hlink : unit '\n' ∉ wikilink) (hne : wikilink ≠ []) (a b : JsString) :
    includes (a ++ unit '\n' :: b) wikilink = true ↔ includes a wikilink = true ∨ includes b wikilink = true := by
  have hstart : ∀ t : JsString, t ≠ [] → (∀ c ∈ t, c ∈ wikilink) → ¬ t <+: unit '\n' :: b := by
    rintro t ht hsub ⟨rest, hrest⟩
    cases t with
    | nil => exact ht rfl
    | cons c t => exact hlink (hsub _ ((List.cons.inj hrest).1 ▸ List.mem_cons_self ..))
  rw [includes_iff, includes_iff, includes_iff, List.infix_append_iff_ne_nil, List.infix_cons_iff]
  constructor
  · rintro (h | (h | h) | ⟨s, t, -, ht, rfl, -, hprefix⟩)
    · exact .inl h
    · exact absurd h (hstart wikilink hne fun c hc => hc)
    · exact .inr h
    · exact absurd hprefix (hstart t ht fun c hc => List.mem_append_right _ hc)
  · rintro (h | h)
    · exact .inl h
    · exact .inr (.inl (.inr h))

theorem includes_join {wikilink : JsString} (hlink : unit '\n' ∉ wikilink) (hne : wikilink ≠ []) {lines : List JsString} (hlines : lines ≠ []) :
    includes (join (str "\n") lines) wikilink = true ↔ ∃ line ∈ lines, includes line wikilink = true := by
  induction lines with
  | nil => exact absurd rfl hlines
  | cons line lines ih =>
    cases lines with
    | nil =>
      rw [join_singleton]
      simp
    | cons line' lines =>
      rw [join_cons_cons]
      change includes (line ++ unit '\n' :: join (str "\n") (line' :: lines)) wikilink = true ↔ _
      rw [includes_append_line hlink hne, ih (by simp)]
      simp

theorem split_line {line : JsString} (h : unit '\n' ∉ line) : split (unit '\n') line = [line] := List.splitOn_eq_singleton h

end lines

section fences

/-- The first line is a fence, and a later one is that is not the last. -/
def FencedLines (lines : List JsString) : Prop :=
  ∃ between last rest, lines = FM_FENCE :: (between ++ FM_FENCE :: last :: rest)

private theorem split_fenced (lines : List JsString) (body : JsString) : split (unit '\n') (fenced lines body) =
    FM_FENCE :: (split (unit '\n') (join (str "\n") lines) ++ FM_FENCE :: split (unit '\n') body) := by
  have htext : fenced lines body = FM_FENCE ++ unit '\n' :: (join (str "\n") lines ++ unit '\n' :: (FM_FENCE ++ unit '\n' :: body)) := by
    simp [fenced, closeFence, str, unit]
  rw [htext, split_append_sep, split_append_sep, split_append_sep, @split_line FM_FENCE (by decide)]
  rfl

private theorem split_emptyFence (body : JsString) :
    split (unit '\n') (str "---\n---\n" ++ body) = FM_FENCE :: FM_FENCE :: split (unit '\n') body := by
  change split (unit '\n') (FM_FENCE ++ unit '\n' :: (FM_FENCE ++ unit '\n' :: body)) = _
  rw [split_append_sep, split_append_sep, @split_line FM_FENCE (by decide)]
  rfl

private theorem join_fencedLines {between : List JsString} (hne : between ≠ []) {rest : List JsString} (hrest : rest ≠ []) :
    join (str "\n") (FM_FENCE :: (between ++ FM_FENCE :: rest)) = fenced between (join (str "\n") rest) := by
  rw [← List.singleton_append, joinLines_append (by simp) (by simp), joinLines_append hne (by simp),
    ← @List.singleton_append _ FM_FENCE rest, joinLines_append (by simp) hrest]
  simp [fenced, closeFence, str, unit]

/-- A text is a note without a block where its lines are not fenced. -/
theorem parseNote_eq_self_iff (content : JsString) :
    parseNote content = ⟨.empty, content⟩ ↔ ¬ FencedLines (split (unit '\n') content) := by
  have hshorter : ∀ (frame body : JsString) (fm : Map JsString JsString), frame ≠ [] → content = frame ++ body →
      parseNote content = ⟨fm, body⟩ → parseNote content ≠ ⟨.empty, content⟩ := by
    intro frame body fm hframe hcontent hparse hself
    have hbody : body = content := congrArg ParsedNote.body (hparse.symm.trans hself)
    have hlength := congrArg List.length hcontent
    rw [List.length_append, hbody] at hlength
    exact hframe (List.length_eq_zero_iff.mp (by omega))
  cases framing content with
  | unfenced h hopen hempty =>
    refine ⟨fun _ => ?_, fun _ => h⟩
    rintro ⟨between, last, rest, hlines⟩
    have hcontent : join (str "\n") (split (unit '\n') content) = content := join_split (unit '\n') content
    rw [hlines] at hcontent
    by_cases hne : between = []
    · refine hempty (join (str "\n") (last :: rest)) ?_
      rw [← hcontent, hne, List.nil_append, join_cons_cons, join_cons_cons]
      simp [str, FM_FENCE]
    · exact hopen between (join (str "\n") (last :: rest)) (hcontent.symm.trans (join_fencedLines hne (by simp)))
  | empty body h =>
    refine iff_of_false (hshorter _ body _ (by decide) h (h ▸ parseNote_emptyFence body)) (not_not.mpr ?_)
    obtain ⟨last, rest, hlines⟩ := List.exists_cons_of_ne_nil (split_ne_nil (unit '\n') body)
    exact ⟨[], last, rest, by rw [h, split_emptyFence, hlines]; rfl⟩
  | block lines body hne hl h =>
    have htext : content = (FM_FENCE ++ str "\n" ++ (join (str "\n") lines ++ closeFence)) ++ body := by simp [h, fenced]
    refine iff_of_false (hshorter _ body _ (by simp [FM_FENCE, str]) htext (h ▸ parseNote_fenced hne hl body)) (not_not.mpr ?_)
    obtain ⟨last, rest, hlines⟩ := List.exists_cons_of_ne_nil (split_ne_nil (unit '\n') body)
    exact ⟨_, last, rest, by rw [h, split_fenced, hlines]⟩

/-- The body of a note with a block has fewer lines than the note. -/
theorem parseNote_self_or_shorter (content : JsString) : parseNote content = ⟨.empty, content⟩ ∨
    (split (unit '\n') (parseNote content).body).length < (split (unit '\n') content).length := by
  cases framing content with
  | unfenced h _ _ => exact .inl h
  | empty body h =>
    right
    rw [h, parseNote_emptyFence, split_emptyFence]
    simp only [List.length_cons]
    omega
  | block lines body hne hl h =>
    right
    rw [h, parseNote_fenced hne hl, split_fenced]
    simp only [List.length_cons, List.length_append]
    omega

/-- A line after a note without a block ends a block, where the note's last line is the fence of one, or
    belongs to the note. -/
theorem parseNote_append_line {content : JsString} (hself : parseNote content = ⟨.empty, content⟩) {line : JsString}
    (hline : unit '\n' ∉ line) :
    parseNote (content ++ unit '\n' :: line) = ⟨.empty, content ++ unit '\n' :: line⟩ ∨
      (∃ fm, ∀ body, parseNote (content ++ unit '\n' :: body) = ⟨fm, body⟩) ∧ content.getLast? = some (unit '-') := by
  rw [parseNote_eq_self_iff] at hself
  rw [parseNote_eq_self_iff, split_append_sep, split_line hline]
  by_cases hfenced : FencedLines (split (unit '\n') content ++ [line])
  · refine .inr ?_
    obtain ⟨between, last, rest, hlines⟩ := hfenced
    have hcontent : join (str "\n") (split (unit '\n') content) = content := join_split (unit '\n') content
    have hrest : rest = [] := by
      by_contra hne
      refine hself ⟨between, last, rest.dropLast, ?_⟩
      have hdrop := congrArg List.dropLast hlines
      rw [List.dropLast_concat] at hdrop
      rw [hdrop, List.dropLast_cons_of_ne_nil (by simp), List.dropLast_append_of_ne_nil (by simp),
        List.dropLast_cons_of_ne_nil (by simp), List.dropLast_cons_of_ne_nil hne]
    have hsplit : split (unit '\n') content = FM_FENCE :: (between ++ [FM_FENCE]) := by
      have hdrop := congrArg List.dropLast hlines
      rw [List.dropLast_concat, hrest] at hdrop
      rw [hdrop, List.dropLast_cons_of_ne_nil (by simp), List.dropLast_append_of_ne_nil (by simp)]
      rfl
    rw [hsplit] at hcontent
    have hlast : content.getLast? = some (unit '-') := by
      rw [← hcontent, ← List.cons_append, joinLines_append (by simp) (by simp), join_singleton]
      simp [FM_FENCE, str, unit]
    refine ⟨?_, hlast⟩
    by_cases hne : between = []
    · refine ⟨.empty, fun body => ?_⟩
      have htext : content ++ unit '\n' :: body = str "---\n---\n" ++ body := by
        rw [← hcontent, hne]
        simp [join, str, unit, FM_FENCE]
      rw [htext, parseNote_emptyFence]
    · refine ⟨parseLines between, fun body => ?_⟩
      have hblock : ∀ l ∈ between, IsBlockLine l := by
        intro l hl
        refine ⟨not_mem_of_mem_split (hsplit ▸ List.mem_cons_of_mem _ (List.mem_append_left _ hl)), ?_⟩
        rintro rfl
        obtain ⟨before, after, hbetween⟩ := List.append_of_mem hl
        obtain ⟨next, more, hmore⟩ := List.exists_cons_of_ne_nil (List.append_ne_nil_of_right_ne_nil after (List.cons_ne_nil FM_FENCE []))
        refine hself ⟨before, next, more, ?_⟩
        rw [hsplit, hbetween, ← hmore]
        simp
      have htext : content ++ unit '\n' :: body = fenced between body := by
        rw [← hcontent, ← List.singleton_append, joinLines_append (by simp) (by simp), joinLines_append hne (by simp), join_singleton]
        simp [fenced, closeFence, str, unit]
      rw [htext, parseNote_fenced hne hblock]
  · exact .inl hfenced

end fences

section laws

def LinkMutation.withOp (link : LinkMutation) (op : LinkOp) : LinkMutation := { link with op := op }

/-- What adding and removing a link promise of a note. -/
structure LinkLaws (content : JsString) (link : LinkMutation) : Prop where
  added : includes (parseNote (applyLink content (link.withOp .add))).body (wikilinkOf link.dstSlug) = true
  addedAgain : applyLink (applyLink content (link.withOp .add)) (link.withOp .add) = applyLink content (link.withOp .add)
  removed : includes (parseNote (applyLink content (link.withOp .remove))).body (wikilinkOf link.dstSlug) = false
  removedAgain : applyLink (applyLink content (link.withOp .remove)) (link.withOp .remove) = applyLink content (link.withOp .remove)
  kept : KeptLines (wikilinkOf link.dstSlug) (split (unit '\n') (parseNote content).body)
    (split (unit '\n') (parseNote (applyLink content (link.withOp .remove))).body)
  frontmatter : (parseNote (applyLink content (link.withOp .remove))).frontmatter = (parseNote content).frontmatter
  inverse : includes content (wikilinkOf link.dstSlug) = false →
    (applyLink (applyLink content (link.withOp .add)) (link.withOp .remove)).rdropWhile (· == unit '\n') = content.rdropWhile (· == unit '\n')

/-- The notes for which removing a link is exact. -/
structure TidyFor (wikilink content : JsString) : Prop where
  /-- No line has the link once it is taken out of it once. -/
  once : ∀ line ∈ split (unit '\n') (parseNote content).body, includes (replaceFirst line wikilink []) wikilink = false
  /-- No line without the link ends with blanks. -/
  stripped : ∀ line ∈ split (unit '\n') (parseNote content).body, includes line wikilink = false → stripBlanks line = line
  apart : EmptiesApart wikilink (split (unit '\n') (parseNote content).body)
  /-- The lines of a note without a block do not become one. -/
  unfenced : (parseNote content).frontmatter.size = 0 →
    ¬ FencedLines ((split (unit '\n') (parseNote content).body).map (lineWithout wikilink))
  /-- The note does not end with the closing fence of a block that would be written in another form. -/
  ended : includes content wikilink = false → NormalForm (content ++ str "\n")

theorem applyLink_add (content : JsString) (link : LinkMutation) : applyLink content (link.withOp .add) =
    if includes (parseNote content).body (wikilinkOf link.dstSlug) then content
    else composeNote (parseNote content).frontmatter
      (if (parseNote content).body.length = 0 then wikilinkOf link.dstSlug
        else (parseNote content).body ++ str "\n" ++ wikilinkOf link.dstSlug) := rfl

theorem applyLink_remove (content : JsString) (link : LinkMutation) : applyLink content (link.withOp .remove) =
    composeNote (parseNote content).frontmatter
      (join (str "\n") (linesWithout (wikilinkOf link.dstSlug) (split (unit '\n') (parseNote content).body))) := rfl

section lines

variable {wikilink : JsString} {lines : List JsString}

theorem linesWithout_ne_nil (hne : lines ≠ []) : linesWithout wikilink lines ≠ [] := by
  cases lines with
  | nil => exact absurd rfl hne
  | cons line lines =>
    unfold linesWithout
    rw [List.map_cons, dropRepeatedEmpty, if_neg fun h => nomatch h.2]
    exact List.cons_ne_nil _ _

theorem exists_of_mem_linesWithout {out : JsString} (h : out ∈ linesWithout wikilink lines) : ∃ line ∈ lines, lineWithout wikilink line = out :=
  List.mem_map.mp ((dropRepeatedEmpty_sublist _ _).subset h)

theorem length_linesWithout_le (wikilink : JsString) (lines : List JsString) : (linesWithout wikilink lines).length ≤ lines.length := by
  have hle := (dropRepeatedEmpty_sublist none (lines.map (lineWithout wikilink))).length_le
  rwa [List.length_map] at hle

theorem mem_dropRepeatedEmpty {before : Option JsString} {line : JsString} (hne : line ≠ []) (h : line ∈ lines) :
    line ∈ dropRepeatedEmpty before lines := by
  induction lines generalizing before with
  | nil => cases h
  | cons first lines ih =>
    rw [dropRepeatedEmpty]
    split
    · next hfirst =>
      rcases List.mem_cons.mp h with rfl | hmem
      · exact absurd hfirst.1 hne
      · exact ih hmem
    · rcases List.mem_cons.mp h with rfl | hmem
      · exact List.mem_cons_self ..
      · exact List.mem_cons_of_mem _ (ih hmem)

theorem split_join_linesWithout (hne : lines ≠ []) (hlines : ∀ line ∈ lines, unit '\n' ∉ line) :
    split (unit '\n') (join (str "\n") (linesWithout wikilink lines)) = linesWithout wikilink lines := by
  refine split_join (unit '\n') (linesWithout_ne_nil hne) fun out hout hmem => ?_
  obtain ⟨line, hline, rfl⟩ := exists_of_mem_linesWithout hout
  exact hlines line hline (mem_of_mem_lineWithout hmem)

/-- Lines without the link, without blanks at their end and without two empty ones in a row are left as they are. -/
theorem linesWithout_eq_self (hfree : ∀ line ∈ lines, includes line wikilink = false) (hstrip : ∀ line ∈ lines, stripBlanks line = line)
    (hapart : lines.IsChain NotBothEmpty) : linesWithout wikilink lines = lines := by
  have hmap : lines.map (lineWithout wikilink) = lines := by
    conv_rhs => rw [← List.map_id lines]
    refine List.map_congr_left fun line hline => ?_
    rw [lineWithout_of_free (hfree line hline), hstrip line hline]
    rfl
  unfold linesWithout
  rw [hmap]
  exact dropRepeatedEmpty_eq_self (by simpa using hapart)

theorem linesWithout_isChain : (linesWithout wikilink lines).IsChain NotBothEmpty := by
  simpa [linesWithout] using dropRepeatedEmpty_isChain none (lines.map (lineWithout wikilink))

/-- Lines from which the link is gone are left as they are. -/
theorem linesWithout_linesWithout (hfree : ∀ out ∈ linesWithout wikilink lines, includes out wikilink = false) :
    linesWithout wikilink (linesWithout wikilink lines) = linesWithout wikilink lines := by
  refine linesWithout_eq_self hfree (fun out hout => ?_) linesWithout_isChain
  obtain ⟨line, -, rfl⟩ := exists_of_mem_linesWithout hout
  exact stripBlanks_lineWithout wikilink line

/-- Lines are fenced with their repeated empty lines where they are without them. -/
theorem fencedLines_linesWithout : FencedLines (linesWithout wikilink lines) ↔ FencedLines (lines.map (lineWithout wikilink)) := by
  unfold linesWithout
  generalize lines.map (lineWithout wikilink) = outs
  constructor
  · rintro ⟨between, last, rest, h⟩
    cases outs with
    | nil => cases h
    | cons first outs =>
      rw [dropRepeatedEmpty, if_neg fun hno => nomatch hno.2] at h
      obtain ⟨rfl, htail⟩ := List.cons.inj h
      have hsub := dropRepeatedEmpty_sublist (some FM_FENCE) outs
      rw [htail] at hsub
      obtain ⟨left, right, rfl, -, hright⟩ := List.append_sublist_iff.mp hsub
      obtain ⟨front, back, rfl, hmem, hback⟩ := List.cons_sublist_iff.mp hright
      obtain ⟨before, after, rfl⟩ := List.append_of_mem hmem
      have hne : after ++ back ≠ [] := by
        intro hnil
        rw [(List.append_eq_nil_iff.mp hnil).2] at hback
        cases hback
      obtain ⟨next, more, hmore⟩ := List.exists_cons_of_ne_nil hne
      refine ⟨left ++ before, next, more, ?_⟩
      rw [← hmore]
      simp
  · rintro ⟨between, last, rest, rfl⟩
    refine ⟨dropRepeatedEmpty (some FM_FENCE) between, last, dropRepeatedEmpty (some last) rest, ?_⟩
    have hfence : ∀ before : Option JsString, ¬ (FM_FENCE = [] ∧ before = some []) := fun _ hno => absurd hno.1 (by decide)
    have hlast : ¬ (last = [] ∧ some FM_FENCE = some []) := fun hno => absurd hno.2 (by decide)
    rw [dropRepeatedEmpty, if_neg (hfence none), dropRepeatedEmpty_append, dropRepeatedEmpty, if_neg (hfence _), dropRepeatedEmpty,
      if_neg hlast]

end lines

variable {content : JsString} {link : LinkMutation}

/-- A note in normal form has a block that is read back with any body, or is a text without a block. -/
theorem NormalForm.frame (hnormal : NormalForm content) :
    ((parseNote content).frontmatter.size ≠ 0 ∧
      ∀ body, parseNote (composeNote (parseNote content).frontmatter body) = ⟨(parseNote content).frontmatter, body⟩) ∨
    parseNote content = ⟨.empty, content⟩ := by
  by_cases hsize : (parseNote content).frontmatter.size = 0
  · right
    have hcontent : composeNote (parseNote content).frontmatter (parseNote content).body = content := hnormal
    rw [composeNote_eq, frontmatterBlock, if_pos hsize, List.nil_append] at hcontent
    have hempty : (parseNote content).frontmatter = .empty := Map.ext (List.length_eq_zero_iff.mp hsize)
    calc parseNote content = ⟨(parseNote content).frontmatter, (parseNote content).body⟩ := rfl
      _ = ⟨.empty, content⟩ := by rw [hempty, hcontent]
  · exact .inl ⟨hsize, fun body => parseNote_composeNote hsize isEntry_of_mem_parseNote body⟩

theorem composeNote_empty (body : JsString) : composeNote .empty body = body := rfl

theorem parseNote_line {line : JsString} (h : unit '\n' ∉ line) : parseNote line = ⟨.empty, line⟩ := by
  rw [parseNote_eq_self_iff, split_line h]
  rintro ⟨between, last, rest, hlines⟩
  simp at hlines

/-- The note to which the link is added has it in its body. -/
theorem includes_added (hnormal : NormalForm content) (hslug : unit '\n' ∉ link.dstSlug) :
    includes (parseNote (applyLink content (link.withOp .add))).body (wikilinkOf link.dstSlug) = true := by
  have hlink := notMem_wikilinkOf hslug
  have hends : ∀ front, includes (front ++ wikilinkOf link.dstSlug) (wikilinkOf link.dstSlug) = true := fun front =>
    includes_iff.mpr (List.suffix_append front _).isInfix
  rw [applyLink_add]
  by_cases hhas : includes (parseNote content).body (wikilinkOf link.dstSlug) = true
  · rw [if_pos hhas]
    exact hhas
  · rw [if_neg hhas]
    rcases hnormal.frame with ⟨-, hframe⟩ | hcontent
    · rw [hframe]
      split
      · exact hends []
      · exact hends _
    · rw [hcontent, composeNote_empty]
      split
      · rw [parseNote_line hlink]
        exact hends []
      · rw [List.append_assoc]
        change includes (parseNote (content ++ unit '\n' :: wikilinkOf link.dstSlug)).body _ = true
        rcases parseNote_append_line hcontent hlink with h | ⟨⟨fm, h⟩, -⟩
        · rw [h]
          exact includes_iff.mpr ((List.suffix_cons _ _).trans (List.suffix_append content _)).isInfix
        · rw [h]
          exact hends []

theorem applyLink_add_again (hnormal : NormalForm content) (hslug : unit '\n' ∉ link.dstSlug) :
    applyLink (applyLink content (link.withOp .add)) (link.withOp .add) = applyLink content (link.withOp .add) := by
  rw [applyLink_add (applyLink content (link.withOp .add)), if_pos (includes_added hnormal hslug)]

theorem wikilinkOf_ne_nil (dstSlug : JsString) : wikilinkOf dstSlug ≠ [] := by simp [wikilinkOf, str]

/-- The note without the link is read back as it was put together. -/
theorem parseNote_removed_iff (hnormal : NormalForm content) : parseNote (applyLink content (link.withOp .remove)) =
      ⟨(parseNote content).frontmatter,
        join (str "\n") (linesWithout (wikilinkOf link.dstSlug) (split (unit '\n') (parseNote content).body))⟩ ↔
    ((parseNote content).frontmatter.size = 0 →
      ¬ FencedLines ((split (unit '\n') (parseNote content).body).map (lineWithout (wikilinkOf link.dstSlug)))) := by
  rw [applyLink_remove]
  rcases hnormal.frame with ⟨hsize, hframe⟩ | hcontent
  · exact iff_of_true (hframe _) fun h => absurd h hsize
  · rw [hcontent, composeNote_empty, parseNote_eq_self_iff,
      split_join_linesWithout (split_ne_nil _ _) fun line hline => not_mem_of_mem_split hline, fencedLines_linesWithout]
    exact ⟨fun h _ => h, fun h => h rfl⟩

/-- A note whose lines become a block without the link loses them when the link is removed again. -/
theorem unfenced_of_removed (hnormal : NormalForm content)
    (hagain : applyLink (applyLink content (link.withOp .remove)) (link.withOp .remove) = applyLink content (link.withOp .remove))
    (hfm : (parseNote (applyLink content (link.withOp .remove))).frontmatter = (parseNote content).frontmatter) :
    parseNote (applyLink content (link.withOp .remove)) =
      ⟨(parseNote content).frontmatter,
        join (str "\n") (linesWithout (wikilinkOf link.dstSlug) (split (unit '\n') (parseNote content).body))⟩ := by
  rcases hnormal.frame with ⟨-, hframe⟩ | hcontent
  · exact hframe _
  · rw [hcontent] at hfm
    have hself : parseNote (applyLink content (link.withOp .remove)) = ⟨.empty, applyLink content (link.withOp .remove)⟩ := by
      rcases parseNote_self_or_shorter (applyLink content (link.withOp .remove)) with hself | hshorter
      · exact hself
      · rw [applyLink_remove (applyLink content (link.withOp .remove)), hfm, composeNote_empty] at hagain
        have hlines := @split_join_linesWithout (wikilinkOf link.dstSlug) _
          (split_ne_nil (unit '\n') (parseNote (applyLink content (link.withOp .remove))).body)
          fun line hline => not_mem_of_mem_split hline
        rw [hagain] at hlines
        rw [hlines] at hshorter
        exact absurd (length_linesWithout_le _ _) (Nat.not_le.mpr hshorter)
    rw [hself, applyLink_remove, hcontent, composeNote_empty]

/-- Where the lines of a note are tidy, removing the link is exact. -/
theorem TidyFor.parseNote_removed (htidy : TidyFor (wikilinkOf link.dstSlug) content) (hnormal : NormalForm content) :
    parseNote (applyLink content (link.withOp .remove)) =
      ⟨(parseNote content).frontmatter,
        join (str "\n") (linesWithout (wikilinkOf link.dstSlug) (split (unit '\n') (parseNote content).body))⟩ :=
  (parseNote_removed_iff hnormal).mpr htidy.unfenced

theorem TidyFor.free (htidy : TidyFor (wikilinkOf link.dstSlug) content) :
    ∀ out ∈ linesWithout (wikilinkOf link.dstSlug) (split (unit '\n') (parseNote content).body),
      includes out (wikilinkOf link.dstSlug) = false := by
  intro out hout
  obtain ⟨line, hline, rfl⟩ := exists_of_mem_linesWithout hout
  rw [lineWithout, includes_stripBlanks]
  exact htidy.once line hline

/-- Two empty lines that follow each other are not apart. -/
theorem EmptiesApart.isChain {wikilink : JsString} {lines : List JsString} (h : EmptiesApart wikilink lines) :
    lines.IsChain NotBothEmpty := by
  induction lines with
  | nil => exact .nil
  | cons line lines ih =>
    cases lines with
    | nil => exact .singleton line
    | cons next lines =>
      refine .cons_cons ?_ (ih h.tail)
      rintro ⟨rfl, rfl⟩
      obtain ⟨other, hother, -⟩ := h [] [] lines rfl
      cases hother

theorem lineWithout_self (dstSlug : JsString) : lineWithout (wikilinkOf dstSlug) (wikilinkOf dstSlug) = [] := by
  have hindex : indexOf (wikilinkOf dstSlug) (wikilinkOf dstSlug) = some 0 := by simp [indexOf_eq_some_iff]
  rw [lineWithout, replaceFirst, hindex]
  simp [stripBlanks]

/-- A link that stands on a line after the others is removed with its line, or leaves it empty. -/
theorem linesWithout_append_link {lines : List JsString} {dstSlug : JsString}
    (hfree : ∀ line ∈ lines, includes line (wikilinkOf dstSlug) = false) (hstrip : ∀ line ∈ lines, stripBlanks line = line)
    (hapart : EmptiesApart (wikilinkOf dstSlug) lines) :
    linesWithout (wikilinkOf dstSlug) (lines ++ [wikilinkOf dstSlug]) = lines ∨
      linesWithout (wikilinkOf dstSlug) (lines ++ [wikilinkOf dstSlug]) = lines ++ [[]] := by
  have hself := linesWithout_eq_self hfree hstrip hapart.isChain
  unfold linesWithout at hself ⊢
  rw [List.map_append, dropRepeatedEmpty_append, hself, List.map_singleton, lineWithout_self]
  cases (lines.map (lineWithout (wikilinkOf dstSlug))).getLast?.or none with
  | none => exact .inr rfl
  | some last =>
    by_cases hlast : last = []
    · left
      rw [hlast, dropRepeatedEmpty, if_pos ⟨rfl, rfl⟩]
      simp [dropRepeatedEmpty]
    · right
      rw [dropRepeatedEmpty, if_neg fun h => hlast (Option.some.inj h.2)]
      rfl

theorem rdropWhile_append_break (s : JsString) : (s ++ str "\n").rdropWhile (· == unit '\n') = s.rdropWhile (· == unit '\n') :=
  List.rdropWhile_concat_pos _ s (unit '\n') rfl

/-- The note with the link is read back as it was put together. -/
def ReadsAdded (content : JsString) (link : LinkMutation) : Prop :=
  parseNote (applyLink content (link.withOp .add)) = ⟨(parseNote content).frontmatter,
    if (parseNote content).body.length = 0 then wikilinkOf link.dstSlug else (parseNote content).body ++ str "\n" ++ wikilinkOf link.dstSlug⟩

/-- A note with tidy lines is there again when the link that it did not have is added and removed. -/
theorem removed_added (hnormal : NormalForm content) (hslug : unit '\n' ∉ link.dstSlug)
    (hfree : ∀ line ∈ split (unit '\n') (parseNote content).body, includes line (wikilinkOf link.dstSlug) = false)
    (hstrip : ∀ line ∈ split (unit '\n') (parseNote content).body, stripBlanks line = line)
    (hapart : EmptiesApart (wikilinkOf link.dstSlug) (split (unit '\n') (parseNote content).body)) (hread : ReadsAdded content link) :
    (applyLink (applyLink content (link.withOp .add)) (link.withOp .remove)).rdropWhile (· == unit '\n') =
      content.rdropWhile (· == unit '\n') := by
  have hcontent : composeNote (parseNote content).frontmatter (parseNote content).body = content := hnormal
  have hbreak : composeNote (parseNote content).frontmatter ((parseNote content).body ++ str "\n") = content ++ str "\n" := by
    rw [composeNote_eq, ← List.append_assoc, ← composeNote_eq, hcontent]
  rw [applyLink_remove, hread]
  dsimp only
  by_cases hempty : (parseNote content).body.length = 0
  · rw [if_pos hempty, split_line (notMem_wikilinkOf hslug)]
    have hlines : linesWithout (wikilinkOf link.dstSlug) [wikilinkOf link.dstSlug] = [(parseNote content).body] := by
      rw [linesWithout, List.map_singleton, lineWithout_self, List.length_eq_zero_iff.mp hempty]
      rfl
    rw [hlines, join_singleton, hcontent]
  · rw [if_neg hempty, List.append_assoc]
    change ((composeNote (parseNote content).frontmatter (join (str "\n") (linesWithout _
      (split (unit '\n') ((parseNote content).body ++ unit '\n' :: wikilinkOf link.dstSlug))))).rdropWhile _) = _
    rw [split_append_sep, split_line (notMem_wikilinkOf hslug)]
    have hbody : join (str "\n") (split (unit '\n') (parseNote content).body) = (parseNote content).body := join_split _ _
    rcases linesWithout_append_link hfree hstrip hapart with h | h
    · rw [h, hbody, hcontent]
    · rw [h, joinLines_append (split_ne_nil _ _) (List.cons_ne_nil _ _), hbody, join_singleton]
      change ((composeNote (parseNote content).frontmatter ((parseNote content).body ++ str "\n")).rdropWhile _) = _
      rw [hbreak, rdropWhile_append_break]

theorem normalForm_of_parseNote_self {text : JsString} (h : parseNote text = ⟨.empty, text⟩) : NormalForm text := by
  unfold NormalForm
  rw [h, composeNote_empty]

/-- The note with a new link is read back as it was put together, but where the note ends with the closing fence of a block. -/
theorem readsAdded_or_closes (hnormal : NormalForm content) (hslug : unit '\n' ∉ link.dstSlug)
    (hnew : includes (parseNote content).body (wikilinkOf link.dstSlug) = false) :
    (ReadsAdded content link ∧ NormalForm (content ++ str "\n")) ∨
      ∃ fm, (∀ body, parseNote (content ++ unit '\n' :: body) = ⟨fm, body⟩) ∧ content.getLast? = some (unit '-') ∧
        parseNote content = ⟨.empty, content⟩ := by
  unfold ReadsAdded
  rw [applyLink_add, if_neg (by rw [hnew]; decide)]
  rcases hnormal.frame with ⟨-, hframe⟩ | hself
  · refine .inl ⟨hframe _, ?_⟩
    have hcontent : composeNote (parseNote content).frontmatter (parseNote content).body = content := hnormal
    have hbreak : composeNote (parseNote content).frontmatter ((parseNote content).body ++ str "\n") = content ++ str "\n" := by
      rw [composeNote_eq, ← List.append_assoc, ← composeNote_eq, hcontent]
    unfold NormalForm
    rw [← hbreak, hframe]
  · have hlink := notMem_wikilinkOf hslug
    rw [hself, composeNote_empty]
    by_cases hempty : content.length = 0
    · rw [if_pos hempty, List.length_eq_zero_iff.mp hempty]
      refine .inl ⟨parseNote_line hlink, normalForm_of_parseNote_self ?_⟩
      rw [parseNote_eq_self_iff]
      rintro ⟨between, last, rest, h⟩
      exact absurd (List.cons.inj h).1 (by decide)
    · rw [if_neg hempty, List.append_assoc]
      rcases parseNote_append_line hself hlink with h | ⟨⟨fm, h⟩, hlast⟩
      · refine .inl ⟨h, ?_⟩
        rcases parseNote_append_line hself (List.not_mem_nil : unit '\n' ∉ []) with h' | ⟨⟨fm, h'⟩, -⟩
        · exact normalForm_of_parseNote_self h'
        · have hlength := congrArg (fun note => note.body.length) (h.symm.trans (h' _))
          simp only [List.length_append, List.length_cons] at hlength
          omega
      · exact .inr ⟨fm, h, hlast, rfl⟩

theorem frontmatterBlock_dash (fm : Map JsString JsString) :
    frontmatterBlock fm = [] ∨ ∃ s, frontmatterBlock fm = s ++ [unit '-'] ++ str "\n" := by
  unfold frontmatterBlock
  split
  · exact .inl rfl
  · refine .inr ⟨FM_FENCE ++ str "\n" ++ (join (str "\n") (fm.entries.map entryLine) ++ str "\n--"), ?_⟩
    simp [closeFence, FM_FENCE, str, unit]

/-- Removing after adding gives a tidy note back if and only if the note with a line break at its end is in normal form. -/
theorem removed_added_iff (hnormal : NormalForm content) (hslug : unit '\n' ∉ link.dstSlug)
    (hfree : ∀ line ∈ split (unit '\n') (parseNote content).body, includes line (wikilinkOf link.dstSlug) = false)
    (hstrip : ∀ line ∈ split (unit '\n') (parseNote content).body, stripBlanks line = line)
    (hapart : EmptiesApart (wikilinkOf link.dstSlug) (split (unit '\n') (parseNote content).body)) :
    (applyLink (applyLink content (link.withOp .add)) (link.withOp .remove)).rdropWhile (· == unit '\n') =
      content.rdropWhile (· == unit '\n') ↔ NormalForm (content ++ str "\n") := by
  have hnew : includes (parseNote content).body (wikilinkOf link.dstSlug) = false := by
    rw [Bool.eq_false_iff]
    intro hhas
    rw [← join_split (unit '\n') (parseNote content).body] at hhas
    obtain ⟨line, hline, hmem⟩ := (includes_join (notMem_wikilinkOf hslug) (wikilinkOf_ne_nil _) (split_ne_nil _ _)).mp hhas
    rw [hfree line hline] at hmem
    cases hmem
  rcases readsAdded_or_closes hnormal hslug hnew with ⟨hread, hbreak⟩ | ⟨fm, hblock, hlast, hself⟩
  · exact iff_of_true (removed_added hnormal hslug hfree hstrip hapart hread) hbreak
  · -- the fence is closed, and the link is the whole body below it
    have hne : content ≠ [] := by
      rintro rfl
      cases hlast
    have hadded : applyLink content (link.withOp .add) = content ++ unit '\n' :: wikilinkOf link.dstSlug := by
      rw [applyLink_add, if_neg (by rw [hnew]; decide), hself, if_neg (by simpa using hne), composeNote_empty, List.append_assoc]
      rfl
    have hremoved : applyLink (content ++ unit '\n' :: wikilinkOf link.dstSlug) (link.withOp .remove) = frontmatterBlock fm := by
      rw [applyLink_remove, hblock, split_line (notMem_wikilinkOf hslug), linesWithout, List.map_singleton, lineWithout_self, composeNote_eq]
      simp [dropRepeatedEmpty]
    have hnormal' : NormalForm (content ++ str "\n") ↔ frontmatterBlock fm = content ++ str "\n" := by
      unfold NormalForm
      have hbreak : parseNote (content ++ str "\n") = ⟨fm, []⟩ := hblock []
      rw [hbreak, composeNote_eq, List.append_nil]
    have hends : content.rdropWhile (· == unit '\n') = content := by
      rw [List.rdropWhile_eq_self_iff]
      intro hne'
      rw [List.getLast?_eq_some_getLast hne'] at hlast
      rw [Option.some.inj hlast]
      decide
    rw [hadded, hremoved, hnormal', hends]
    constructor
    · intro hsame
      rcases frontmatterBlock_dash fm with hnil | ⟨front, hfront⟩
      · rw [hnil] at hsame
        exact absurd hsame.symm hne
      · have hdrop : (front ++ [unit '-']).rdropWhile (· == unit '\n') = front ++ [unit '-'] :=
          List.rdropWhile_concat_neg _ front (unit '-') (by decide)
        rw [hfront, rdropWhile_append_break, hdrop] at hsame
        rw [hfront, hsame]
    · intro hsame
      rw [hsame, rdropWhile_append_break, hends]

theorem KeptLines.eq_nil_of_left {wikilink : JsString} {lines out : List JsString} (h : KeptLines wikilink lines out)
    (hstrip : ∀ line ∈ lines, includes line wikilink = false → stripBlanks line = line)
    (hleft : ∀ line ∈ lines, lineWithout wikilink line = []) : ∀ line ∈ out, line = [] := by
  induction h with
  | nil => simp
  | @keep line lines out hfree _ ih =>
    have hline : line = [] := by
      rw [← hstrip line (List.mem_cons_self ..) hfree, ← lineWithout_of_free hfree]
      exact hleft line (List.mem_cons_self ..)
    have hrest := ih (fun l hl => hstrip l (List.mem_cons_of_mem _ hl)) fun l hl => hleft l (List.mem_cons_of_mem _ hl)
    exact List.forall_mem_cons.mpr ⟨hline, hrest⟩
  | @edit line lines out _ _ ih =>
    have hrest := ih (fun l hl => hstrip l (List.mem_cons_of_mem _ hl)) fun l hl => hleft l (List.mem_cons_of_mem _ hl)
    exact List.forall_mem_cons.mpr ⟨hleft line (List.mem_cons_self ..), hrest⟩
  | drop _ _ ih => exact ih (fun l hl => hstrip l (List.mem_cons_of_mem _ hl)) fun l hl => hleft l (List.mem_cons_of_mem _ hl)

theorem KeptLines.cons_nil {wikilink : JsString} (hempty : includes [] wikilink = false) {lines out : List JsString}
    (h : KeptLines wikilink ([] :: lines) out) : ∃ rest, out = [] :: rest ∧ KeptLines wikilink lines rest := by
  cases h with
  | keep _ h => exact ⟨_, rfl, h⟩
  | edit hlink _ =>
    rw [hempty] at hlink
    cases hlink
  | drop hlink _ =>
    rw [hempty] at hlink
    cases hlink

/-- Where the lines are kept and no two empty ones follow each other, empty lines were apart. -/
theorem KeptLines.emptiesApart {wikilink : JsString} (hempty : includes [] wikilink = false) {lines out : List JsString}
    (h : KeptLines wikilink lines out) (hchain : out.IsChain NotBothEmpty)
    (hstrip : ∀ line ∈ lines, includes line wikilink = false → stripBlanks line = line) : EmptiesApart wikilink lines := by
  rintro before between after rfl
  by_contra hnone
  have hleft : ∀ line ∈ between, lineWithout wikilink line = [] := by
    intro line hline
    by_contra hne
    exact hnone ⟨line, hline, hne⟩
  obtain ⟨outBefore, outRest, rfl, -, hrest⟩ := h.exists_append
  obtain ⟨rest, rfl, hbelow⟩ := hrest.cons_nil hempty
  obtain ⟨outBetween, outAfter, rfl, hbetween, hafter⟩ := hbelow.exists_append
  obtain ⟨after', rfl, -⟩ := hafter.cons_nil hempty
  have hall := hbetween.eq_nil_of_left (fun line hline => hstrip line (by simp [hline])) hleft
  have hpair : ∃ more, outBetween ++ [] :: after' = [] :: more := by
    cases outBetween with
    | nil => exact ⟨after', rfl⟩
    | cons first outBetween => exact ⟨outBetween ++ [] :: after', by rw [hall first (List.mem_cons_self ..)]; rfl⟩
  obtain ⟨more, hmore⟩ := hpair
  have hsuffix := hchain.right_of_append
  rw [hmore] at hsuffix
  exact (List.isChain_cons_cons.mp hsuffix).1 ⟨rfl, rfl⟩

/-- The lines of the body of a note without the link. -/
theorem free_of_notIncludes (hnormal : NormalForm content) (hslug : unit '\n' ∉ link.dstSlug)
    (hfree : includes content (wikilinkOf link.dstSlug) = false) :
    ∀ line ∈ split (unit '\n') (parseNote content).body, includes line (wikilinkOf link.dstSlug) = false := by
  intro line hline
  rw [Bool.eq_false_iff]
  intro hhas
  have hbody : includes (parseNote content).body (wikilinkOf link.dstSlug) = true := by
    rw [← join_split (unit '\n') (parseNote content).body]
    exact (includes_join (notMem_wikilinkOf hslug) (wikilinkOf_ne_nil _) (split_ne_nil _ _)).mpr ⟨line, hline, hhas⟩
  have hcontent : composeNote (parseNote content).frontmatter (parseNote content).body = content := hnormal
  rw [includes_iff] at hbody
  rw [← hcontent, composeNote_eq, ← Bool.not_eq_true, includes_iff] at hfree
  exact hfree (hbody.trans (List.suffix_append _ _).isInfix)

theorem tidyFor_of_laws (hnormal : NormalForm content) (hslug : unit '\n' ∉ link.dstSlug) (h : LinkLaws content link) :
    TidyFor (wikilinkOf link.dstSlug) content := by
  have hread := unfenced_of_removed hnormal h.removedAgain h.frontmatter
  have hlines : ∀ line ∈ split (unit '\n') (parseNote content).body, unit '\n' ∉ line := fun line hline => not_mem_of_mem_split hline
  have hkept := h.kept
  have hremoved := h.removed
  rw [hread] at hkept hremoved
  rw [split_join_linesWithout (split_ne_nil _ _) hlines] at hkept
  have hstripped : ∀ line ∈ split (unit '\n') (parseNote content).body, includes line (wikilinkOf link.dstSlug) = false →
      stripBlanks line = line := by
    intro line hline hfree
    obtain ⟨other, -, hother⟩ := exists_of_mem_linesWithout (hkept.mem hline hfree)
    rw [← hother, stripBlanks_lineWithout]
  have hapart : EmptiesApart (wikilinkOf link.dstSlug) (split (unit '\n') (parseNote content).body) :=
    hkept.emptiesApart rfl linesWithout_isChain hstripped
  refine ⟨fun line hline => ?_, hstripped, hapart, (parseNote_removed_iff hnormal).mp hread, fun hfree => ?_⟩
  · rw [← includes_stripBlanks]
    change includes (lineWithout _ line) _ = false
    by_cases hempty : lineWithout (wikilinkOf link.dstSlug) line = []
    · rw [hempty]
      rfl
    · rw [Bool.eq_false_iff]
      intro hhas
      rw [Bool.eq_false_iff] at hremoved
      refine hremoved ((includes_join (notMem_wikilinkOf hslug) (wikilinkOf_ne_nil _) (linesWithout_ne_nil (split_ne_nil _ _))).mpr
        ⟨_, mem_dropRepeatedEmpty hempty (List.mem_map_of_mem hline), hhas⟩)
  · have hnone := free_of_notIncludes hnormal hslug hfree
    exact (removed_added_iff hnormal hslug hnone (fun line hline => hstripped line hline (hnone line hline)) hapart).mp (h.inverse hfree)

/-- Adding and removing a link are exact and inverse if and only if the note is tidy for the link. -/
theorem linkLaws_iff (hnormal : NormalForm content) (hslug : unit '\n' ∉ link.dstSlug) :
    LinkLaws content link ↔ TidyFor (wikilinkOf link.dstSlug) content := by
  refine ⟨tidyFor_of_laws hnormal hslug, fun htidy => ?_⟩
  have hread := htidy.parseNote_removed hnormal
  have hlines : ∀ line ∈ split (unit '\n') (parseNote content).body, unit '\n' ∉ line := fun line hline => not_mem_of_mem_split hline
  refine ⟨includes_added hnormal hslug, applyLink_add_again hnormal hslug, ?_, ?_, ?_, ?_, fun hfree => ?_⟩
  · rw [hread, Bool.eq_false_iff]
    intro hhas
    obtain ⟨out, hout, hmem⟩ :=
      (includes_join (notMem_wikilinkOf hslug) (wikilinkOf_ne_nil _) (linesWithout_ne_nil (split_ne_nil _ _))).mp hhas
    rw [htidy.free out hout] at hmem
    cases hmem
  · rw [applyLink_remove (applyLink content (link.withOp .remove)), hread, split_join_linesWithout (split_ne_nil _ _) hlines,
      linesWithout_linesWithout htidy.free, applyLink_remove]
  · rw [hread, split_join_linesWithout (split_ne_nil _ _) hlines]
    refine (keptLines_run fun line hline hfree => ?_).1 none (by simp) htidy.apart
    rw [lineWithout_of_free hfree, htidy.stripped line hline hfree]
  · rw [hread]
  · have hnone := free_of_notIncludes hnormal hslug hfree
    exact (removed_added_iff hnormal hslug hnone (fun line hline => htidy.stripped line hline (hnone line hline)) htidy.apart).mpr
      (htidy.ended hfree)

theorem dailyPath_ne_nil : str "daily.md" ≠ [] := by decide

theorem standupSlug_ne_nil : str "Standup" ≠ [] := by decide

def standupLink : LinkMutation := ⟨.remove, str "daily.md", str "Standup", dailyPath_ne_nil, standupSlug_ne_nil⟩

/-- A line that has the link twice keeps one of them. -/
theorem twiceLinked_kept : ¬ ∀ (content : JsString) (link : LinkMutation), NormalForm content →
    (∀ c ∈ link.dstSlug, c ∉ str "[]\n\r") → LinkLaws content link := by
  intro h
  have hlaws := h (str "[[Standup]] [[Standup]]") standupLink (by unfold NormalForm; rfl) (by decide)
  exact absurd hlaws.removed (by decide)

theorem tidyNote_laws : LinkLaws (str "---\ntype: daily\n---\n# Today\n- [[Standup]]\n\nNotes") standupLink ↔
    TidyFor (wikilinkOf standupLink.dstSlug) (str "---\ntype: daily\n---\n# Today\n- [[Standup]]\n\nNotes") :=
  linkLaws_iff (by unfold NormalForm; rfl) (by decide)

end laws

end sow.knowledge_writer
