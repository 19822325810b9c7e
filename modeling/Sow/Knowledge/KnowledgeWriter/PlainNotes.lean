import Sow.Knowledge.KnowledgeWriter.FrontmatterReading
import Sow.Knowledge.KnowledgeWriter.MemoryPorts

open sow.js sow.markdown_vault

namespace sow.knowledge_writer

section serialized

/-- What a value is read back as. -/
def fieldText : Option Json → JsString
  | some (.str s) => s
  | value => serializeScalar value

variable {value : Option Json}

private theorem trimmed_of_forall {s : JsString} (h : ∀ c ∈ s, isSpace c = false) : Trimmed s :=
  ⟨fun c hc => h c (List.mem_of_mem_head? hc), fun c hc => h c (List.mem_of_mem_getLast? hc)⟩

private theorem trimmed_of_ends {c d : UInt16} (hc : isSpace c = false) (hd : isSpace d = false) (s : JsString) :
    Trimmed ([c] ++ s ++ [d]) := by
  refine ⟨fun u hu => ?_, fun u hu => ?_⟩
  · obtain rfl := Option.some.inj hu
    exact hc
  · rw [List.getLast?_concat] at hu
    obtain rfl := Option.some.inj hu
    exact hd

/-- The unit of a number is no space and no quote. -/
private theorem isNumberUnit_mark {c : UInt16} (h : isNumberUnit c = true) : isSpace c = false ∧ c ≠ unit '"' := by
  rw [isNumberUnit, Bool.or_eq_true] at h
  obtain h | h := h
  · simp only [Json.isDigit, Bool.and_eq_true, decide_eq_true_eq] at h
    refine ⟨?_, ?_⟩
    · unfold isSpace
      grind
    · rintro rfl
      exact absurd h (by decide)
  · have hmarks : ∀ d ∈ str "+-.eE", isSpace d = false ∧ d ≠ unit '"' := by decide
    exact hmarks c (List.contains_iff_mem.mp h)

/-- Every value is written without space around it. -/
theorem trimmed_serialized (hnum : Numeric value) : Trimmed (serializeScalar value) := by
  cases value with
  | none => exact (by decide : Trimmed (str "undefined"))
  | some v =>
    cases v with
    | null => exact (by decide : Trimmed (str "null"))
    | bool b =>
      cases b with
      | true => exact (by decide : Trimmed (str "true"))
      | false => exact (by decide : Trimmed (str "false"))
    | num text => exact trimmed_of_forall fun c hc => (isNumberUnit_mark (hnum _ rfl text (List.mem_singleton_self _) c hc)).1
    | str s => exact trimmed_serializeScalar s
    | arr items => exact trimmed_of_ends (by decide) (by decide) (Json.stringifyItems items)
    | obj fields => exact trimmed_of_ends (by decide) (by decide) (Json.stringifyFields fields)

/-- A text that opens with no quote is read as it stands. -/
private theorem deserializeScalar_unquoted {s : JsString} (h : s.head? ≠ some (unit '"')) : deserializeScalar s = s :=
  if_pos (.inr (.inl h))

/-- A value is read back as its text. -/
theorem deserializeScalar_serialized (hnum : Numeric value) : deserializeScalar (serializeScalar value) = fieldText value := by
  cases value with
  | none => exact deserializeScalar_unquoted (by decide)
  | some v =>
    cases v with
    | null => exact deserializeScalar_unquoted (by decide)
    | bool b =>
      cases b with
      | true => exact deserializeScalar_unquoted (by decide)
      | false => exact deserializeScalar_unquoted (by decide)
    | num text =>
      apply deserializeScalar_unquoted
      intro hquote
      exact (isNumberUnit_mark (hnum _ rfl text (List.mem_singleton_self _) _ (List.mem_of_mem_head? hquote))).2 rfl
    | str s => exact deserializeScalar_serializeScalar s
    | arr items => exact deserializeScalar_unquoted fun h => (by decide : unit '[' ≠ unit '"') (Option.some.inj h)
    | obj fields => exact deserializeScalar_unquoted fun h => (by decide : unit '{' ≠ unit '"') (Option.some.inj h)

theorem isEntry_serialized {key : JsString} (hkey : IsKey key) (hnum : Numeric value) : IsEntry (key, serializeScalar value) where
  key_line := fun h => (hkey.line _ h).1 rfl
  key_colon := hkey.colon
  key_trimmed := hkey.trimmed
  value_line := fun h => (inLine_serialized hnum h).1 rfl
  value_trimmed := trimmed_serialized hnum

end serialized

/-- A note that its reader takes as it stands: with line feeds only, no byte order mark, and a last line that ends. -/
structure IsPlain (content : JsString) : Prop where
  returns : unit '\r' ∉ content
  bom : content.head? ≠ some 0xFEFF
  terminated : content ≠ [] → endsWith content (str "\n") = true

section notes

variable {content : JsString} {patch : FrontmatterPatch}

private theorem returnFree_join {lines : List JsString} (h : ∀ l ∈ lines, unit '\r' ∉ l) : unit '\r' ∉ join (str "\n") lines := by
  induction lines with
  | nil => exact List.not_mem_nil
  | cons l lines ih =>
    have hl := h l (List.mem_cons_self ..)
    cases lines with
    | nil => rwa [join_singleton]
    | cons l' lines =>
      rw [join_cons_cons, List.mem_append, List.mem_append, not_or, not_or]
      exact ⟨hl, by decide, ih fun m hm => h m (List.mem_cons_of_mem _ hm)⟩

/-- The body of a note is its end. -/
theorem body_isSuffix (content : JsString) : (parseNote content).body <:+ content := by
  cases framing content with
  | unfenced h _ _ => rw [h]
  | empty body h =>
    rw [h, parseNote_emptyFence]
    exact List.suffix_append _ _
  | block lines body hne hl h =>
    rw [h, parseNote_fenced hne hl]
    exact ⟨FM_FENCE ++ str "\n" ++ (join (str "\n") lines ++ closeFence), by simp [fenced]⟩

/-- A rewrite sets one entry of a note, and keeps its body. -/
theorem parseNote_applyFrontmatter (hkey : IsKey patch.key) (hnum : Numeric patch.value) : parseNote (applyFrontmatter content patch) =
    ⟨(parseNote content).frontmatter.set patch.key (serializeScalar patch.value), (parseNote content).body⟩ := by
  apply parseNote_composeNote (size_set_ne_zero _ _ _)
  exact isEntry_of_mem_set isEntry_of_mem_parseNote (isEntry_serialized hkey hnum)

end notes

namespace IsPlain

variable {content : JsString} {patch : FrontmatterPatch}

theorem agreeAt (h : IsPlain content) {key key' : JsString} (hne : key' ≠ key) : AgreeAt content key key' := by
  by_cases hempty : content = []
  · subst hempty
    rfl
  · exact agreeAt_of_plain h.returns h.bom (h.terminated hempty) hne

/-- The reader finds the entries of the writer. -/
theorem read (h : IsPlain content) (key : JsString) :
    readFrontmatterField content key = ((parseNote content).frontmatter.get key).map deserializeScalar := by
  by_cases hempty : content = []
  · subst hempty
    rfl
  · rw [readFrontmatterField, normalizeNote, if_neg h.bom, foldCrLf_of_notMem h.returns, foldCr_of_notMem h.returns,
      if_pos (h.terminated hempty)]

/-- The lines of its entries have no carriage return. -/
private theorem returnFree_entryLine (h : IsPlain content) {e : JsString × JsString} (he : e ∈ (parseNote content).frontmatter.entries) :
    unit '\r' ∉ entryLine e := by
  have hentry := isEntry_of_mem_parseNote e he
  have hkey : ∀ c ∈ e.1, InLine c := fun c hc =>
    ⟨fun heq => hentry.key_line (heq ▸ hc), fun heq => h.returns (heq ▸ mem_of_parseNote (.inl ⟨e, he, .inl hc⟩))⟩
  have hvalue : ∀ c ∈ e.2, InLine c := fun c hc =>
    ⟨fun heq => hentry.value_line (heq ▸ hc), fun heq => h.returns (heq ▸ mem_of_parseNote (.inl ⟨e, he, .inr hc⟩))⟩
  exact fun hc => (inLine_of_mem_entryLine hkey hvalue hc).2 rfl

/-- A block before the end of a plain note makes a plain note. -/
private theorem fenced_plain (h : IsPlain content) {lines : List JsString} (hlines : ∀ l ∈ lines, unit '\r' ∉ l) {body : JsString}
    (hbody : body <:+ content) : IsPlain (fenced lines body) where
  returns := by
    have hopen : unit '\r' ∉ FM_FENCE ++ str "\n" := by decide
    have hclose : unit '\r' ∉ closeFence := by decide
    unfold fenced
    apply List.not_mem_append hopen
    apply List.not_mem_append (returnFree_join hlines)
    exact List.not_mem_append hclose fun hc => h.returns (hbody.mem hc)
  bom := by
    intro hhead
    exact (by decide : unit '-' ≠ 0xFEFF) (Option.some.inj hhead)
  terminated := by
    intro _
    rw [endsWith_iff]
    by_cases hempty : body = []
    · subst hempty
      exact ⟨FM_FENCE ++ str "\n" ++ (join (str "\n") lines ++ (str "\n" ++ FM_FENCE)), by simp [fenced, closeFence]⟩
    · obtain ⟨t, ht⟩ := hbody
      obtain ⟨u, hu⟩ := endsWith_iff.mp (h.terminated (by simp [← ht, hempty]))
      obtain ⟨v, c, rfl⟩ := List.eq_nil_or_concat' body |>.resolve_left hempty
      have hlast : c = unit '\n' := by
        have hget := congrArg List.getLast? (ht.trans hu)
        rw [← List.append_assoc, List.getLast?_concat] at hget
        exact Option.some.inj (hget.trans List.getLast?_concat)
      subst hlast
      exact ⟨FM_FENCE ++ str "\n" ++ (join (str "\n") lines ++ (closeFence ++ v)), by simp [fenced, show str "\n" = [unit '\n'] from rfl]⟩

/-- A rewritten note is plain. -/
theorem applyFrontmatter (h : IsPlain content) (hkey : IsKey patch.key) (hnum : Numeric patch.value) :
    IsPlain (applyFrontmatter content patch) := by
  rw [knowledge_writer.applyFrontmatter, composeNote_fenced (size_set_ne_zero _ _ _)]
  refine h.fenced_plain ?_ (body_isSuffix content)
  intro l hl
  obtain ⟨e, he, rfl⟩ := List.mem_map.mp hl
  have hget := Map.get_eq_some_iff.mpr he
  rw [Map.get_set] at hget
  split at hget
  · next hown =>
    obtain ⟨key, value⟩ := e
    obtain rfl : patch.key = key := hown
    obtain rfl := Option.some.inj hget
    exact fun hc => (inLine_of_mem_entryLine hkey.line (fun _ => inLine_serialized hnum) hc).2 rfl
  · exact h.returnFree_entryLine (Map.get_eq_some_iff.mp hget)

/-- A rewritten note is read with the value under its key, and as before under every other. -/
theorem read_applyFrontmatter (h : IsPlain content) (hkey : IsKey patch.key) (hnum : Numeric patch.value) (key : JsString) :
    readFrontmatterField (knowledge_writer.applyFrontmatter content patch) key =
      if key = patch.key then some (fieldText patch.value) else readFrontmatterField content key := by
  split
  · next hown =>
    rw [(h.applyFrontmatter hkey hnum).read, parseNote_applyFrontmatter hkey hnum, hown, Map.get_set_self, Option.map_some,
      deserializeScalar_serialized hnum]
  · next hother => exact (keepsOthers_iff hnum hkey).mpr (fun key' hne => h.agreeAt hne) key hother

end IsPlain

section updates

/-- The last of some updates that sets a field. -/
def lastUpdate (updates : List FrontmatterPatch) (key : JsString) : Option FrontmatterPatch :=
  (updates.filter (·.key = key)).getLast?

/-- What is read under a key after updates. -/
def fieldAfter (content : JsString) (updates : List FrontmatterPatch) (key : JsString) : Option JsString :=
  (lastUpdate updates key).elim (readFrontmatterField content key) fun patch => some (fieldText patch.value)

/-- Updates whose entries are read back. -/
def Readable (updates : List FrontmatterPatch) : Prop := ∀ patch ∈ updates, IsKey patch.key ∧ Numeric patch.value

/-- A later note with the fields of an earlier one, but for updates. -/
structure UpdatedNote (before after : JsString) (updates : List FrontmatterPatch) : Prop where
  plain : IsPlain after
  body : (parseNote after).body = (parseNote before).body
  fields : ∀ key, readFrontmatterField after key = fieldAfter before updates key

variable {content : JsString} {updates : List FrontmatterPatch}

/-- The first update is read where no other one sets its field. -/
theorem fieldAfter_cons (h : IsPlain content) {patch : FrontmatterPatch} (hkey : IsKey patch.key) (hnum : Numeric patch.value)
    (key : JsString) : fieldAfter (applyFrontmatter content patch) updates key = fieldAfter content (patch :: updates) key := by
  unfold fieldAfter lastUpdate
  rw [h.read_applyFrontmatter hkey hnum]
  by_cases hown : patch.key = key
  · rw [List.filter_cons_of_pos (by simpa using hown), List.getLast?_cons, if_pos hown.symm]
    cases (updates.filter (·.key = key)).getLast? with
    | none => rfl
    | some last => rfl
  · rw [List.filter_cons_of_neg (by simpa using hown), if_neg (Ne.symm hown)]

/-- Updates made in turn set the fields of a plain note. -/
theorem foldl_updatedNote (h : IsPlain content) (hread : Readable updates) :
    UpdatedNote content (updates.foldl applyFrontmatter content) updates := by
  induction updates generalizing content with
  | nil => exact ⟨h, rfl, fun key => rfl⟩
  | cons patch updates ih =>
    obtain ⟨hkey, hnum⟩ := hread patch (List.mem_cons_self ..)
    have hrest := ih (h.applyFrontmatter hkey hnum) fun p hp => hread p (List.mem_cons_of_mem _ hp)
    refine ⟨hrest.plain, ?_, fun key => ?_⟩
    · exact hrest.body.trans (by rw [parseNote_applyFrontmatter hkey hnum])
    · exact (hrest.fields key).trans (fieldAfter_cons h hkey hnum key)

private theorem foldl_getD (content : Option JsString) :
    (updates.foldl (fun content patch => some (applyFrontmatter (content.getD []) patch)) content).getD [] =
      updates.foldl applyFrontmatter (content.getD []) := by
  induction updates generalizing content with
  | nil => rfl
  | cons patch updates ih => exact ih _

end updates

/-- A plan touches a note by updates of its frontmatter alone. -/
structure UpdatesOnly (plan : KnowledgeMutationPlan) (path : Path) : Prop where
  notCreated : path ∉ plan.creates.map (·.path)
  notPatched : path ∉ plan.patches.map (·.path)
  notLinked : path ∉ plan.linkMutations.map (·.srcPath)

/-- The frontmatter updates of a plan set the fields of a plain note, the last one of a field for all, and
    keep every other field and the body; a note that is not there counts as an empty one. -/
theorem projectPlan_sets_fields (snapshot : VaultSnapshot) (plan : KnowledgeMutationPlan) (path : Path) (honly : UpdatesOnly plan path)
    (hplain : IsPlain ((snapshot.get path).getD [])) (hread : Readable (plan.frontmatterUpdates.filter (·.path = path))) :
    UpdatedNote ((snapshot.get path).getD []) (((projectPlan snapshot plan).get path).getD [])
      (plan.frontmatterUpdates.filter (·.path = path)) := by
  rw [projectPlan_get_updated snapshot plan honly.notCreated honly.notPatched honly.notLinked, foldl_getD]
  exact foldl_updatedNote hplain hread

/-- A vault of one note. -/
def nativeVault : VaultSnapshot := .ofList [(ownerPatch.path, nativeNote)]

theorem projectPlan_sets_owner :
    let after := ((projectPlan nativeVault (planOf [] [] [] [ownerPatch])).get ownerPatch.path).getD []
    readFrontmatterField after ownerPatch.key = some (str "me") ∧ readFrontmatterField after (str "status") = some (str "open") := by
  have hplain : IsPlain ((nativeVault.get ownerPatch.path).getD []) := by
    refine ⟨?_, ?_, fun _ => ?_⟩
    all_goals decide +kernel
  have hread : Readable ((planOf [] [] [] [ownerPatch]).frontmatterUpdates.filter (·.path = ownerPatch.path)) := by
    intro patch hpatch
    rw [List.mem_singleton.mp (List.mem_of_mem_filter hpatch)]
    exact ⟨ownerPatch_isKey, ownerPatch_numeric⟩
  have hupdated := projectPlan_sets_fields nativeVault (planOf [] [] [] [ownerPatch]) ownerPatch.path
    ⟨List.not_mem_nil, List.not_mem_nil, List.not_mem_nil⟩ hplain hread
  refine ⟨(hupdated.fields _).trans ?_, (hupdated.fields _).trans ?_⟩
  all_goals decide +kernel

end sow.knowledge_writer
