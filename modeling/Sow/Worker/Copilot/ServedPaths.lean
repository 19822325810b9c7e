import Sow.Contracts.Models
import Sow.Knowledge.KnowledgeWriter.WorkspacePathGuard
import Sow.Policy.CopilotTools

open sow.js sow.markdown_vault sow.contracts
open sow.knowledge_writer (KnowledgeMutationPlan WorkspacePathCheck isWorkspaceSlug hasNoTraversalSegments isStructuralSurface
  makeEnforceWorkspacePathScope workspacePathScope_ok_iff)

namespace sow.copilot

structure CopilotWorkspace where
  id : JsString
  type : WorkspaceType
  deriving DecidableEq

/-- Each workspace is told apart by its own id; an id that is no slug throws. -/
def buildInterimCopilotScopeRegistry (workspaces : List CopilotWorkspace) : Option (List WorkspaceScopeDescriptor) :=
  if workspaces.all fun ws => isWorkspaceSlug ws.id then some (workspaces.map fun ws => ⟨ws.id, [ws.id], none⟩) else none

/-- The slug of a note: its path without the extension. -/
def slugOf (tables : CaseTables) (p : Path) : JsString :=
  if endsWith (tables.toLowerCase p) (str ".md") then p.take (p.length - 3) else p

/-- No backslash and no control character, and no segment with a blank at its edge. -/
structure CleanPath (p : Path) : Prop where
  backslash : unit '\\' ∉ p
  control : p.any isControl = false
  edges : ∀ seg ∈ split (unit '/') p, seg = trim seg

/-- The last segment of a slug is a name that the slug rules leave alone. -/
def PlainStem (slug : JsString) : Prop :=
  slug ≠ [] ∧ ∀ stem ∈ (split (unit '/') slug).getLast?, stem = trim stem ∧ stem ≠ str "." ∧ stem ≠ str ".."

/-- The workspace that a slug with this first segment is served to. -/
def servedTo (ids : List JsString) (exempt first : JsString) : JsString := if first ∈ ids then first else exempt

section slug

variable {p slug : JsString}

theorem slugOf_append (tables : CaseTables) (slug : JsString) :
    slugOf tables (slug ++ str ".md") = slug := by
  have hlower : ∀ before s : JsString, ∃ u, tables.lowerFrom before (s ++ str ".md") = u ++ str ".md" := by
    intro before s
    induction s generalizing before with
    | nil => exact ⟨[], tables.lowerFrom_ascii (by decide)⟩
    | cons c s ih =>
      obtain ⟨u, hu⟩ := ih (before ++ [c])
      rw [List.cons_append, CaseTables.lowerFrom, hu, ← List.append_assoc]
      exact ⟨_, rfl⟩
  obtain ⟨u, hu⟩ := hlower [] slug
  have hends : endsWith (tables.toLowerCase (slug ++ str ".md")) (str ".md") = true := endsWith_iff.mpr ⟨u, hu⟩
  unfold slugOf
  rw [if_pos hends, List.length_append]
  exact List.take_left

/-- A text whose first segment is a nonempty trimmed one, and whose last segment is trimmed, is trimmed. -/
theorem trimmed_of_segments {init : List JsString} {stem : JsString} (hsplit : split (unit '/') slug = init ++ [stem])
    (hinit : ∀ seg ∈ init, Trimmed seg ∧ seg ≠ []) (hstem : Trimmed stem) : Trimmed slug := by
  cases init with
  | nil =>
    have hslug : slug = stem := by
      rw [← join_split (unit '/') slug, hsplit]
      exact join_singleton _ _
    rw [hslug]
    exact hstem
  | cons first init =>
    obtain ⟨hfirst, hne⟩ := hinit first List.mem_cons_self
    have hslug : slug = join [unit '/'] (first :: init) ++ unit '/' :: stem := by
      rw [← join_split (unit '/') slug, hsplit, join_append (List.cons_ne_nil _ _) (List.cons_ne_nil _ _), join_singleton]
    constructor
    · obtain ⟨rest, hrest⟩ : ∃ rest, slug = first ++ rest := by
        rcases split_eq_cons hsplit with ⟨h, -⟩ | ⟨r, h, -⟩
        · exact ⟨[], by rw [h, List.append_nil]⟩
        · exact ⟨_, h⟩
      intro c hc
      rw [hrest, List.head?_append_of_ne_nil _ hne] at hc
      exact hfirst.1 c hc
    · intro c hc
      rw [hslug, List.getLast?_append_cons] at hc
      cases hlast : stem.getLast? with
      | none =>
        rw [List.getLast?_eq_none_iff.mp hlast, List.getLast?_singleton, Option.mem_some_iff] at hc
        rw [← hc]
        rfl
      | some d =>
        have hne : stem ≠ [] := by
          rintro rfl
          cases hlast
        rw [List.getLast?_cons, hlast, Option.getD_some, Option.mem_some_iff] at hc
        rw [← hc]
        exact hstem.2 d hlast

/-- Where the path of a slug is clean and has no traversal, the slug has a fault unless its stem is plain. -/
theorem slugFault_eq_none_iff (hclean : CleanPath (slug ++ str ".md")) (hsegments : hasNoTraversalSegments (slug ++ str ".md") = true) :
    slugFault slug = none ↔ PlainStem slug := by
  obtain ⟨init, stem, hsplit⟩ : ∃ init stem, split (unit '/') slug = init ++ [stem] := by
    obtain ⟨init, stem, h⟩ := (List.eq_nil_or_concat (split (unit '/') slug)).resolve_left (split_ne_nil _ _)
    exact ⟨init, stem, h.trans List.concat_eq_append⟩
  have hpath := split_append hsplit (by decide : unit '/' ∉ str ".md")
  have hinit : ∀ seg ∈ init, seg = trim seg ∧ seg ≠ str ".." ∧ seg ≠ str "." ∧ seg ≠ [] := by
    intro seg hseg
    have hmem : seg ∈ split (unit '/') (slug ++ str ".md") := by
      rw [hpath]
      exact List.mem_append_left _ hseg
    have hplain := List.all_eq_true.mp hsegments seg hmem
    simp only [Bool.and_eq_true, decide_eq_true_eq] at hplain
    exact ⟨hclean.edges seg hmem, hplain.1.1, hplain.1.2, hplain.2⟩
  have hstem : PlainStem slug ↔ slug ≠ [] ∧ stem = trim stem ∧ stem ≠ str "." ∧ stem ≠ str ".." := by
    unfold PlainStem
    rw [hsplit, List.getLast?_concat]
    simp
  rw [hstem]
  constructor
  · intro hnone
    unfold slugFault at hnone
    split at hnone
    · cases hnone
    · next hblank =>
      split at hnone
      · cases hnone
      · split at hnone
        · cases hnone
        · split at hnone
          · cases hnone
          · next hbad =>
            refine ⟨fun hnil => hblank (by rw [hnil]; rfl), ?_⟩
            have hlast := (List.any_eq_false.mp (Bool.eq_false_iff.mpr hbad)) stem (by rw [hsplit]; simp)
            simpa [and_comm, and_assoc, and_left_comm] using hlast
  · rintro ⟨hne, htrim, hdot, hdots⟩
    have htrimmed : Trimmed slug := by
      refine trimmed_of_segments hsplit (fun seg hseg => ?_) (trimmed_of_eq htrim)
      obtain ⟨hseg, -, -, hnonempty⟩ := hinit seg hseg
      exact ⟨trimmed_of_eq hseg, hnonempty⟩
    have hself : trim slug = slug := trim_eq_self htrimmed
    have hstart : startsWith slug (str "/") = false := by
      rw [Bool.eq_false_iff]
      intro hslash
      obtain ⟨r, rfl⟩ := startsWith_iff.mp hslash
      have hempty : split (unit '/') (str "/" ++ r) = [[]] ++ split (unit '/') r := split_append_sep (unit '/') [] r
      rw [hempty] at hsplit
      cases init with
      | nil => exact split_ne_nil _ _ (List.cons.inj hsplit).2
      | cons first init => exact (hinit first List.mem_cons_self).2.2.2 (List.cons.inj hsplit).1.symm
    have hdouble : includes slug (str "//") = false := by
      rw [Bool.eq_false_iff]
      intro hslashes
      obtain ⟨before, after, hparts, hafter⟩ := split_of_includes hslashes
      obtain ⟨rest, last, hlast⟩ := (List.eq_nil_or_concat after).resolve_left hafter
      rw [hlast, List.concat_eq_append, ← List.cons_append, ← List.append_assoc] at hparts
      have hinner := (List.append_inj' (hparts.symm.trans hsplit) rfl).1
      exact (hinit [] (by rw [← hinner]; simp)).2.2.2 rfl
    have hbackslash : includes slug (str "\\") = false := by
      have hindex : indexOf [unit '\\'] slug = none :=
        indexOf_unit_none.mpr fun hmem => hclean.backslash (List.mem_append_left _ hmem)
      change (indexOf [unit '\\'] slug).isSome = false
      rw [hindex]
      rfl
    have hcontrol : slug.any isControl = false := by
      have hall := hclean.control
      rw [List.any_append, Bool.or_eq_false_iff] at hall
      exact hall.1
    have hgood : ((split (unit '/') slug).any fun seg => seg = str "." || seg = str ".." || seg ≠ trim seg) = false := by
      rw [List.any_eq_false]
      intro seg hseg
      rw [hsplit, List.mem_append, List.mem_singleton] at hseg
      rcases hseg with hseg | rfl
      · obtain ⟨htrim, hdots, hdot, -⟩ := hinit seg hseg
        simp [hdots, hdot, ← htrim]
      · simp [hdots, hdot, ← htrim]
    unfold slugFault
    rw [hself, if_neg hne, hstart, hdouble, hbackslash, hcontrol, hgood]
    simp

end slug

section attribution

variable {workspaces : List CopilotWorkspace} {registry : List WorkspaceScopeDescriptor} {slug first : JsString} {rest : List JsString}

/-- In the interim registry a workspace matches the slugs whose first segment is its id. -/
theorem longestMatch_interim {id : JsString} (hid : isWorkspaceSlug id = true) :
    longestMatch (first :: rest) ⟨id, [id], none⟩ = if id = first then 1 else 0 := by
  have hsegments : segmentsOf id = [id] := by
    have hslash : unit '/' ∉ id := by
      intro hmem
      unfold isWorkspaceSlug at hid
      simp only [Bool.and_eq_true] at hid
      have hunit := List.all_eq_true.mp hid.2 _ hmem
      revert hunit
      decide
    have hne : id ≠ [] := by
      rintro rfl
      revert hid
      decide
    unfold segmentsOf
    rw [split_of_not_mem hslash, List.filter_cons_of_pos (by simpa using List.length_pos_iff.mpr hne), List.filter_nil]
  unfold longestMatch prefixMatchLen
  rw [List.foldl_cons, hsegments, List.foldl_nil]
  by_cases heq : id = first
  · simp [heq]
  · simp [heq]

/-- So a slug without a fault is attributed to the workspace of its first segment, if there is one. -/
theorem foldl_interim (hslugs : ∀ ws ∈ workspaces, isWorkspaceSlug ws.id = true) {best : BestMatch}
    (hbest : best = ⟨0, none, false⟩ ∨ best = ⟨1, some first, false⟩) :
    (workspaces.map fun ws => (⟨ws.id, [ws.id], none⟩ : WorkspaceScopeDescriptor)).foldl (BestMatch.next (first :: rest)) best =
      if first ∈ workspaces.map (·.id) then ⟨1, some first, false⟩ else best := by
  induction workspaces generalizing best with
  | nil => rfl
  | cons ws workspaces ih =>
    have hnext : BestMatch.next (first :: rest) best ⟨ws.id, [ws.id], none⟩ =
        if ws.id = first then ⟨1, some first, false⟩ else best := by
      unfold BestMatch.next
      rw [longestMatch_interim (hslugs ws List.mem_cons_self)]
      by_cases heq : ws.id = first
      · rcases hbest with rfl | rfl
        · simp [heq]
        · simp [heq]
      · simp [heq]
    have hslugs := fun other hother => hslugs other (List.mem_cons_of_mem ws hother)
    rw [List.map_cons, List.foldl_cons, hnext, List.map_cons]
    by_cases heq : ws.id = first
    · rw [if_pos heq, ih hslugs (.inr rfl), if_pos (List.mem_cons.mpr (.inl heq.symm))]
      exact ite_self _
    · rw [if_neg heq, ih hslugs hbest]
      have hmem : first ∈ ws.id :: workspaces.map (·.id) ↔ first ∈ workspaces.map (·.id) := by
        rw [List.mem_cons, or_iff_right fun h => heq h.symm]
      simp only [hmem]

/-- A slug without a fault is served to the workspace of its first segment, and where no workspace
    has that id to the one that holds the legacy content. -/
theorem keep_iff_servedTo (hregistry : buildInterimCopilotScopeRegistry workspaces = some registry)
    (hfault : slugFault slug = none) (hsplit : split (unit '/') slug = first :: rest) {served exempt : JsString} :
    decideHitScope ⟨slug, none⟩ served registry (.assign exempt) = .keep ↔
      served = servedTo (workspaces.map (·.id)) exempt first := by
  unfold buildInterimCopilotScopeRegistry at hregistry
  split at hregistry
  · next hslugs =>
    obtain rfl := Option.some.inj hregistry
    have hslugs := List.all_eq_true.mp hslugs
    have hfirst : first ≠ [] := by
      rintro rfl
      unfold slugFault at hfault
      split at hfault
      · cases hfault
      · next hblank =>
        split at hfault
        · cases hfault
        · next hshape =>
          rcases split_eq_cons hsplit with ⟨rfl, -⟩ | ⟨r, rfl, -⟩
          · exact hblank rfl
          · refine hshape ?_
            have hstart : startsWith ([] ++ unit '/' :: r) (str "/") = true := startsWith_iff.mpr ⟨r, rfl⟩
            simp only [hstart, Bool.or_true, Bool.true_or]
    have hsegments : segmentsOf slug = first :: rest.filter (0 < ·.length) := by
      unfold segmentsOf
      rw [hsplit, List.filter_cons_of_pos (by simpa using List.length_pos_iff.mpr hfirst)]
    have hattribution : attributeHit ⟨slug, none⟩ (workspaces.map fun ws => ⟨ws.id, [ws.id], none⟩) =
        if first ∈ workspaces.map (·.id) then .workspace first .slugPrefix else .legacy := by
      change attributeSlug slug _ = _
      unfold attributeSlug
      rw [hfault]
      dsimp only
      rw [hsegments, foldl_interim hslugs (.inl rfl)]
      by_cases hmem : first ∈ workspaces.map (·.id)
      · rw [if_pos hmem, if_pos hmem]
        rfl
      · rw [if_neg hmem, if_neg hmem]
    unfold decideHitScope servedTo
    rw [hattribution]
    by_cases hmem : first ∈ workspaces.map (·.id)
    · rw [if_pos hmem, if_pos hmem]
      by_cases heq : first = served
      · simp [heq]
      · simpa [heq] using fun h : served = first => heq h.symm
    · rw [if_neg hmem, if_neg hmem]
      by_cases heq : exempt = served
      · simp [heq]
      · simpa [heq] using fun h : served = exempt => heq h.symm
  · cases hregistry

end attribution

/-- A committed path is served to its own workspace alone. -/
def ServedApart (workspaces : List CopilotWorkspace) (exempt owner slug : JsString) : Prop :=
  PlainStem slug ∧ ∀ first ∈ (split (unit '/') slug).head?,
    first = owner ∨ owner = exempt ∧ first ∉ workspaces.map (·.id)

/-- What the write guard admits is served to its own workspace and to no other exactly where its stem
    is plain and its first segment is the workspace, or the exempt workspace has put it where no
    workspace has its notes. -/
theorem decideHitScope_servesOwner_iff {tables : CaseTables} {workspaces : List CopilotWorkspace}
    {registry : List WorkspaceScopeDescriptor} (hregistry : buildInterimCopilotScopeRegistry workspaces = some registry)
    {exempt : JsString} {check : WorkspacePathCheck} (hcheck : makeEnforceWorkspacePathScope tables exempt = some check)
    (plan : KnowledgeMutationPlan) (hplan : plan.workspaceId ∈ workspaces.map (·.id)) {p : Path} (hmd : endsWith p (str ".md") = true) (hclean : CleanPath p)
    (hadmitted : check p plan = .ok ()) :
    (∀ served, decideHitScope ⟨slugOf tables p, none⟩ served registry (.assign exempt) = .keep ↔ served = plan.workspaceId) ↔
      ServedApart workspaces exempt plan.workspaceId (slugOf tables p) := by
  obtain ⟨slug, rfl⟩ := endsWith_iff.mp hmd
  rw [slugOf_append]
  have hsegments := ((workspacePathScope_ok_iff hcheck).mp hadmitted).1
  have hfault := slugFault_eq_none_iff hclean hsegments
  obtain ⟨first, rest, hsplit⟩ := List.exists_cons_of_ne_nil (split_ne_nil (unit '/') slug)
  unfold ServedApart
  rw [hsplit, List.head?_cons, ← hfault]
  simp only [Option.mem_some_iff, forall_eq']
  constructor
  · intro hserves
    have hkept := (hserves plan.workspaceId).mpr rfl
    have hnone : slugFault slug = none := by
      cases hslug : slugFault slug with
      | none => rfl
      | some cause =>
        unfold decideHitScope attributeHit attributeSlug at hkept
        simp [hslug] at hkept
    refine ⟨hnone, ?_⟩
    have howner := (keep_iff_servedTo hregistry hnone hsplit).mp hkept
    unfold servedTo at howner
    split at howner
    · exact .inl howner.symm
    · next hfirst => exact .inr ⟨howner, hfirst⟩
  · rintro ⟨hnone, hhome⟩ served
    rw [keep_iff_servedTo hregistry hnone hsplit]
    unfold servedTo
    rcases hhome with rfl | ⟨rfl, hfirst⟩
    · rw [if_pos hplan]
    · rw [if_neg hfirst]

section threeScopes

def copilotWorkspaces : List CopilotWorkspace :=
  [⟨str "employer-work", .employer_work⟩, ⟨str "personal-business", .personal_business⟩, ⟨str "personal-life", .personal_life⟩]

def copilotRegistry : List WorkspaceScopeDescriptor := copilotWorkspaces.map fun ws => ⟨ws.id, [ws.id], none⟩

/-- A plan of the workspace `employer-work`. -/
def employerPlan : KnowledgeMutationPlan where
  planId := str "plan-1"
  workspaceId := str "employer-work"
  sourceRefs := [⟨str "file:employer-work:report.txt", none⟩]
  creates := []
  patches := []
  linkMutations := []
  frontmatterUpdates := []
  data := .null
  planId_ne_blank := by decide
  workspaceId_slug := by decide
  sourceRefs_ne_nil := by simp

/-- The guard of the three scopes, where `personal-business` is exempt. -/
def scopeGuard : WorkspacePathCheck := (makeEnforceWorkspacePathScope asciiTables (str "personal-business")).get (by decide)

theorem scopeGuard_eq : makeEnforceWorkspacePathScope asciiTables (str "personal-business") = some scopeGuard :=
  (Option.some_get _).symm

theorem decideHitScope_servesOwner_iff_report :
    (∀ served, decideHitScope ⟨slugOf asciiTables (str "employer-work/report.md"), none⟩ served copilotRegistry
        (.assign (str "personal-business")) = .keep ↔ served = str "employer-work") ↔
      ServedApart copilotWorkspaces (str "personal-business") (str "employer-work")
        (slugOf asciiTables (str "employer-work/report.md")) :=
  decideHitScope_servesOwner_iff (by decide) scopeGuard_eq employerPlan (by decide) (by decide)
    ⟨by decide, by decide, by decide⟩ (by decide)

/-- The note of an ingested source is admitted for `employer-work`, and served to `personal-business`. -/
theorem decideHitScope_serves_foreign :
    scopeGuard (str "sources/employer-work/9f86d081884c7d659a2feaa0c55ad015.md") employerPlan = .ok () ∧
      decideHitScope ⟨slugOf asciiTables (str "sources/employer-work/9f86d081884c7d659a2feaa0c55ad015.md"), none⟩
        (str "personal-business") copilotRegistry (.assign (str "personal-business")) = .keep ∧
      decideHitScope ⟨slugOf asciiTables (str "sources/employer-work/9f86d081884c7d659a2feaa0c55ad015.md"), none⟩
        (str "employer-work") copilotRegistry (.assign (str "personal-business")) = .drop .LEGACY_NOT_SERVED := by
  decide +kernel

end threeScopes

end sow.copilot
