import Sow.Knowledge.KnowledgeWriter.Frontmatter
import Sow.Knowledge.KnowledgeWriter.Plan
import Sow.Knowledge.KnowledgeWriter.Revision
import Sow.Knowledge.MarkdownVault.Sections

open sow.js sow.markdown_vault

namespace sow.knowledge_writer

def createFrontmatter (create : NoteCreate) : Map JsString JsString :=
  let fm := ((create.frontmatter.getD .empty).entries).foldl
    (fun (fm : Map JsString JsString) e => fm.set e.1 (serializeScalar e.2)) .empty
  match create.title with
  | none => fm
  | some title => fm.set (str "title") (serializeScalar (some (.str title)))

def renderCreate (create : NoteCreate) : JsString :=
  composeNote (createFrontmatter create) (neutralizeNoteBody create.body)

def applyFrontmatter (content : JsString) (patch : FrontmatterPatch) : JsString :=
  let note := parseNote content
  composeNote (note.frontmatter.set patch.key (serializeScalar patch.value)) note.body

def applyRegionPatch (content : JsString) (patch : NotePatch) : JsString :=
  let note := parseNote content
  let body := note.body
  let opening := str "<!-- kw:region:" ++ patch.regionId ++ str " -->"
  let closing := str "<!-- /kw:region:" ++ patch.regionId ++ str " -->"
  let region := opening ++ str "\n" ++ neutralizeRegionMarkers patch.newBody ++ str "\n" ++ closing
  let appended := if body.length = 0 then region else body ++ str "\n\n" ++ region
  let nextBody := match indexOf opening body, indexOf closing body with
    | some start, some stop =>
      if stop > start then slice body 0 start ++ region ++ body.drop (stop + closing.length) else appended
    | _, _ => appended
  composeNote note.frontmatter nextBody

/-- `lines.filter((line, idx, arr) => !(line === "" && arr[idx - 1] === ""))`, with the line before. -/
def dropRepeatedEmpty (before : Option JsString) : List JsString → List JsString
  | [] => []
  | line :: rest =>
    if line = [] ∧ before = some [] then dropRepeatedEmpty (some line) rest
    else line :: dropRepeatedEmpty (some line) rest

def applyLink (content : JsString) (link : LinkMutation) : JsString :=
  let note := parseNote content
  let body := note.body
  let wikilink := str "[[" ++ link.dstSlug ++ str "]]"
  match link.op with
  | .add =>
    if includes body wikilink then content
    else
      let nextBody := if body.length = 0 then wikilink else body ++ str "\n" ++ wikilink
      composeNote note.frontmatter nextBody
  | .remove =>
    let lines := (split (unit '\n') body).map fun line =>
      (replaceFirst line wikilink []).rdropWhile fun c => c == unit ' ' || c == unit '\t'
    composeNote note.frontmatter (join (str "\n") (dropRepeatedEmpty none lines))

/-- `next.set(path, edit(next.get(path) ?? ""))`. -/
def editFile (next : VaultSnapshot) (path : Path) (edit : JsString → JsString) : VaultSnapshot :=
  next.set path (edit ((next.get path).getD []))

/-- The post-apply vault of a plan. -/
def projectPlan (snapshot : VaultSnapshot) (plan : KnowledgeMutationPlan) : VaultSnapshot :=
  let next := plan.creates.foldl (fun (next : VaultSnapshot) create => next.set create.path (renderCreate create)) snapshot
  let next := plan.frontmatterUpdates.foldl
    (fun next patch => editFile next patch.path (applyFrontmatter · patch)) next
  let next := plan.patches.foldl (fun next patch => editFile next patch.path (applyRegionPatch · patch)) next
  plan.linkMutations.foldl (fun next link => editFile next link.srcPath (applyLink · link)) next

/-- The files whose bytes the projection changes. -/
def diffChanges (snapshot projected : VaultSnapshot) : List FileChange :=
  projected.entries.filterMap fun e => if snapshot.get e.1 ≠ some e.2 then some ⟨e.1, e.2⟩ else none

/-- The paths that a plan names. -/
def plannedPaths (plan : KnowledgeMutationPlan) : List Path :=
  plan.creates.map (·.path) ++ plan.frontmatterUpdates.map (·.path) ++ plan.patches.map (·.path) ++
    plan.linkMutations.map (·.srcPath)

def planDeclaresMutations (plan : KnowledgeMutationPlan) : Bool :=
  plan.creates.length + plan.patches.length + plan.linkMutations.length + plan.frontmatterUpdates.length > 0

section

variable {snapshot projected : VaultSnapshot}

theorem mem_diffChanges {c : FileChange} :
    c ∈ diffChanges snapshot projected ↔ projected.get c.path = some c.content ∧ snapshot.get c.path ≠ some c.content := by
  obtain ⟨path, content⟩ := c
  rw [diffChanges, List.mem_filterMap, Map.get_eq_some_iff]
  constructor
  · rintro ⟨⟨p, v⟩, hmem, h⟩
    split at h
    · next hne =>
      cases h
      exact ⟨hmem, hne⟩
    · cases h
  · rintro ⟨hmem, hne⟩
    exact ⟨(path, content), hmem, if_pos hne⟩

theorem diffChanges_paths_nodup (snapshot projected : VaultSnapshot) :
    ((diffChanges snapshot projected).map (·.path)).Nodup := by
  have hsub : ((diffChanges snapshot projected).map (·.path)).Sublist projected.keys := by
    rw [diffChanges, Map.keys]
    induction projected.entries with
    | nil => exact .slnil
    | cons e es ih =>
      rw [List.filterMap_cons, List.map_cons]
      split
      · exact ih.cons _
      · next c hc =>
        have hpath : c.path = e.1 := by
          split at hc
          · cases hc
            rfl
          · cases hc
        rw [List.map_cons, hpath]
        exact ih.cons_cons _
  exact projected.nodup.sublist hsub

end

section

variable (snapshot : VaultSnapshot) (plan : KnowledgeMutationPlan) {p : Path}

private theorem foldl_set_get_of_notMem {α : Type} (path : α → Path) (content : VaultSnapshot → α → JsString)
    (items : List α) (next : VaultSnapshot) (hp : p ∉ items.map path) :
    (items.foldl (fun next a => next.set (path a) (content next a)) next).get p = next.get p := by
  induction items generalizing next with
  | nil => rfl
  | cons a items ih =>
    rw [List.map_cons, List.mem_cons, not_or] at hp
    rw [List.foldl_cons, ih _ hp.2, Map.get_set_of_ne _ _ (Ne.symm hp.1)]

/-- A path that the plan does not name keeps its bytes. -/
theorem projectPlan_get_of_notMem (hp : p ∉ plannedPaths plan) : (projectPlan snapshot plan).get p = snapshot.get p := by
  simp only [plannedPaths, List.mem_append, not_or] at hp
  obtain ⟨⟨⟨hc, hf⟩, hr⟩, hl⟩ := hp
  rw [projectPlan]
  simp only [editFile]
  refine (foldl_set_get_of_notMem _ _ _ _ hl).trans ?_
  refine (foldl_set_get_of_notMem _ _ _ _ hr).trans ?_
  refine (foldl_set_get_of_notMem _ _ _ _ hf).trans ?_
  exact foldl_set_get_of_notMem _ (fun _ create => renderCreate create) _ _ hc

/-- The plan's one mutation of a path is the creation of a note there. -/
structure CreatesOnly (create : NoteCreate) : Prop where
  mem : create ∈ plan.creates
  sole : ∀ c ∈ plan.creates, c.path = create.path → c = create
  notUpdated : create.path ∉ plan.frontmatterUpdates.map (·.path)
  notPatched : create.path ∉ plan.patches.map (·.path)
  notLinked : create.path ∉ plan.linkMutations.map (·.srcPath)

/-- A created note is projected as it is rendered. -/
theorem projectPlan_get_create {create : NoteCreate} (h : CreatesOnly plan create) :
    (projectPlan snapshot plan).get create.path = some (renderCreate create) := by
  have hcreates : ∀ (creates : List NoteCreate) (next : VaultSnapshot), create ∈ creates →
      (∀ c ∈ creates, c.path = create.path → c = create) →
      (creates.foldl (fun (next : VaultSnapshot) c => next.set c.path (renderCreate c)) next).get create.path =
        some (renderCreate create) := by
    intro creates
    induction creates with
    | nil => exact fun next hmem => absurd hmem List.not_mem_nil
    | cons c creates ih =>
      intro next hmem hsole
      rw [List.foldl_cons]
      by_cases hrest : create ∈ creates
      · exact ih _ hrest fun c' hc' => hsole c' (List.mem_cons_of_mem _ hc')
      · obtain rfl : create = c := (List.mem_cons.mp hmem).resolve_right hrest
        have hlast : create.path ∉ creates.map (·.path) := by
          intro hin
          obtain ⟨c', hc', hpath⟩ := List.mem_map.mp hin
          exact hrest (hsole c' (List.mem_cons_of_mem _ hc') hpath ▸ hc')
        exact (foldl_set_get_of_notMem _ (fun _ c => renderCreate c) _ _ hlast).trans (Map.get_set_self ..)
  rw [projectPlan]
  simp only [editFile]
  refine (foldl_set_get_of_notMem _ _ _ _ h.notLinked).trans ?_
  refine (foldl_set_get_of_notMem _ _ _ _ h.notPatched).trans ?_
  refine (foldl_set_get_of_notMem _ _ _ _ h.notUpdated).trans ?_
  exact hcreates _ _ h.mem h.sole

/-- Edits of files edit each file once after the other. -/
private theorem foldl_editFile_get {α : Type} (path : α → Path) (edit : α → JsString → JsString) (items : List α) (next : VaultSnapshot) :
    (items.foldl (fun next a => editFile next (path a) (edit a)) next).get p =
      (items.filter (path · = p)).foldl (fun content a => some (edit a (content.getD []))) (next.get p) := by
  induction items generalizing next with
  | nil => rfl
  | cons a items ih =>
    rw [List.foldl_cons, ih, editFile]
    by_cases hpath : path a = p
    · rw [List.filter_cons_of_pos (by simpa using hpath), List.foldl_cons, hpath, Map.get_set_self]
    · rw [List.filter_cons_of_neg (by simpa using hpath), Map.get_set_of_ne _ _ hpath]

/-- A path that a plan only patches is patched once after the other. -/
theorem projectPlan_get_patched (hcreates : p ∉ plan.creates.map (·.path)) (hupdates : p ∉ plan.frontmatterUpdates.map (·.path))
    (hlinks : p ∉ plan.linkMutations.map (·.srcPath)) : (projectPlan snapshot plan).get p =
      (plan.patches.filter (·.path = p)).foldl (fun content patch => some (applyRegionPatch (content.getD []) patch)) (snapshot.get p) := by
  rw [projectPlan]
  refine (foldl_set_get_of_notMem _ _ _ _ hlinks).trans ?_
  refine (foldl_editFile_get _ (fun patch content => applyRegionPatch content patch) _ _).trans ?_
  congr 1
  refine (foldl_set_get_of_notMem _ _ _ _ hupdates).trans ?_
  exact foldl_set_get_of_notMem _ (fun _ create => renderCreate create) _ _ hcreates

/-- So is one whose frontmatter alone a plan updates. -/
theorem projectPlan_get_updated (hcreates : p ∉ plan.creates.map (·.path)) (hpatches : p ∉ plan.patches.map (·.path))
    (hlinks : p ∉ plan.linkMutations.map (·.srcPath)) : (projectPlan snapshot plan).get p =
      (plan.frontmatterUpdates.filter (·.path = p)).foldl (fun content patch => some (applyFrontmatter (content.getD []) patch))
        (snapshot.get p) := by
  rw [projectPlan]
  refine (foldl_set_get_of_notMem _ _ _ _ hlinks).trans ?_
  refine (foldl_set_get_of_notMem _ _ _ _ hpatches).trans ?_
  refine (foldl_editFile_get _ (fun patch content => applyFrontmatter content patch) _ _).trans ?_
  congr 1
  exact foldl_set_get_of_notMem _ (fun _ create => renderCreate create) _ _ hcreates

/-- The plan's one mutation is the patch of a region. -/
structure PatchesOnly (patch : NotePatch) : Prop where
  creates : plan.creates = []
  patches : plan.patches = [patch]
  linkMutations : plan.linkMutations = []
  frontmatterUpdates : plan.frontmatterUpdates = []

theorem projectPlan_patch {patch : NotePatch} (h : PatchesOnly plan patch) :
    projectPlan snapshot plan = editFile snapshot patch.path (applyRegionPatch · patch) := by
  rw [projectPlan, h.creates, h.patches, h.linkMutations, h.frontmatterUpdates]
  rfl

private theorem foldl_set_keys {α : Type} (path : α → Path) (content : VaultSnapshot → α → JsString)
    (items : List α) (next : VaultSnapshot) (hp : p ∈ next.keys) :
    p ∈ (items.foldl (fun next a => next.set (path a) (content next a)) next).keys := by
  induction items generalizing next with
  | nil => exact hp
  | cons a items ih => exact ih _ (Map.mem_keys_set.mpr (.inr hp))

/-- A projection removes no file. -/
theorem mem_keys_projectPlan (hp : p ∈ snapshot.keys) : p ∈ (projectPlan snapshot plan).keys := by
  rw [projectPlan]
  simp only [editFile]
  exact foldl_set_keys _ _ _ _ (foldl_set_keys _ _ _ _ (foldl_set_keys _ _ _ _ (foldl_set_keys _ _ _ _ hp)))

private theorem foldl_set_mem {α : Type} (path : α → Path) (content : VaultSnapshot → α → JsString)
    (items : List α) (next : VaultSnapshot) (hp : p ∈ items.map path) :
    p ∈ (items.foldl (fun next a => next.set (path a) (content next a)) next).keys := by
  induction items generalizing next with
  | nil => cases hp
  | cons a items ih =>
    rw [List.map_cons, List.mem_cons] at hp
    rw [List.foldl_cons]
    rcases hp with rfl | hp
    · exact foldl_set_keys _ _ _ _ (Map.mem_keys_set.mpr (.inl rfl))
    · exact ih _ hp

/-- Every path that the plan names has a file in the projection. -/
theorem mem_keys_projectPlan_of_planned (hp : p ∈ plannedPaths plan) : p ∈ (projectPlan snapshot plan).keys := by
  simp only [plannedPaths, List.mem_append] at hp
  rw [projectPlan]
  simp only [editFile]
  rcases hp with ((hc | hf) | hr) | hl
  · refine foldl_set_keys _ _ _ _ (foldl_set_keys _ _ _ _ (foldl_set_keys _ _ _ _ ?_))
    exact foldl_set_mem _ (fun _ create => renderCreate create) _ _ hc
  · exact foldl_set_keys _ _ _ _ (foldl_set_keys _ _ _ _ (foldl_set_mem _ _ _ _ hf))
  · exact foldl_set_keys _ _ _ _ (foldl_set_mem _ _ _ _ hr)
  · exact foldl_set_mem _ _ _ _ hl

end

end sow.knowledge_writer
