import Sow.Knowledge.KnowledgeWriter.Revision
import Sow.Knowledge.KnowledgeWriter.WorkspacePathGuard
import Sow.Worker.Copilot.ServedPaths
import Sow.Workflows.Activities.Projections.MeetingOutputs

open sow.js sow.markdown_vault
open sow.copilot (employerPlan scopeGuard scopeGuard_eq)
open sow.knowledge_writer (Sha256 isHexDigit KnowledgeMutationPlan WorkspacePathCheck isWorkspaceSlug SOURCE_NOTE_SUBTREE STRUCTURAL_INDEX_PATH
  STRUCTURAL_LOG_POINTER_PATH STRUCTURAL_LOGS_DIR hasNoTraversalSegments isStructuralSurface makeEnforceWorkspacePathScope
  workspacePathScope_ok_iff)

namespace sow.workflows

/-- What of a source its note is named after. -/
structure SourceNoteIdentity where
  sourceId : JsString
  contentHash : JsString

/-- A letter or digit of ASCII, a hyphen or an underscore. -/
def isSegmentUnit (c : UInt16) : Bool :=
  Json.isDigit c || (65 ≤ c.toNat && c.toNat ≤ 90) || (97 ≤ c.toNat && c.toNat ≤ 122) || c == unit '-' || c == unit '_'

def HASH_LEN : Nat := 32

def sourceIdentityDigest (sha256 : Sha256) (identity : SourceNoteIdentity) : JsString :=
  (sha256.text (identity.sourceId ++ [0] ++ identity.contentHash)).take HASH_LEN

def deriveSourceNotePath (sha256 : Sha256) (ws : JsString) (identity : SourceNoteIdentity) : Option Path :=
  if 0 < ws.length && ws.all isSegmentUnit then
    some (SOURCE_NOTE_SUBTREE ++ str "/" ++ ws ++ str "/" ++ sourceIdentityDigest sha256 identity ++ str ".md")
  else none

/-- The builders of note paths. -/
inductive PathAuthority where
  | meeting
  | project
  | research
  | source
  deriving DecidableEq

namespace PathAuthority

/-- What an authority names a note after. -/
abbrev Raw : PathAuthority → Type
  | .source => SourceNoteIdentity
  | _ => JsString

def notePath (tables : SlugTables) (sha256 : Sha256) : (authority : PathAuthority) → JsString → authority.Raw → Option Path
  | .meeting, workspaceId, rawTitle => meetingNotePath tables workspaceId rawTitle
  | .project, workspaceId, projectId => projectNotePath tables workspaceId projectId
  | .research, workspaceId, topic => researchNotePath tables workspaceId topic
  | .source, workspaceId, identity => deriveSourceNotePath sha256 workspaceId identity

/-- The folder that an authority keeps the folders of the workspaces in. -/
def home : PathAuthority → JsString
  | .meeting => str "meetings"
  | .project => str "projects"
  | .research => str "Research/Web"
  | .source => SOURCE_NOTE_SUBTREE

/-- The note of a name in the folder of a workspace. -/
def under (authority : PathAuthority) (workspaceId leaf : JsString) : Path :=
  authority.home ++ str "/" ++ workspaceId ++ str "/" ++ leaf ++ str ".md"

end PathAuthority

/-- A path authority and the write guard agree on a path of a workspace. -/
structure PathsAgree (tables : SlugTables) (sha256 : Sha256) (check : WorkspacePathCheck) (authority : PathAuthority)
    (plan : KnowledgeMutationPlan) (p : Path) : Prop where
  segments : hasNoTraversalSegments p = true
  workspace : plan.workspaceId ∈ (split (unit '/') p).dropLast
  admitted : check p plan = .ok ()
  apart : ∀ workspaceId raw, authority.notePath tables sha256 workspaceId raw = some p → workspaceId = plan.workspaceId
  probed : ∀ fields noteExists mutation, projectMeetingNote tables fields plan.workspaceId noteExists = .ok mutation →
    probedNotePath tables fields plan.workspaceId = some mutation.path

section slug

variable {tables : SlugTables}

/-- A slug is one segment of a path. -/
theorem slash_not_mem_safeNoteSlug (raw : JsString) : unit '/' ∉ safeNoteSlug tables raw := by
  intro h
  unfold safeNoteSlug at h
  have htake := List.mem_of_mem_take ((List.rdropWhile_prefix _ _).subset h)
  exact slash_not_mem_hyphenate _ ((List.dropWhile_sublist _).subset ((List.rdropWhile_prefix _ _).subset htake))

end slug

section agreement

variable {tables : SlugTables} {sha256 : Sha256} {authority : PathAuthority} {workspaceId : JsString} {raw : authority.Raw} {p : Path}

theorem slash_not_mem_of_isSafeSegment (h : isSafeSegment workspaceId = true) : unit '/' ∉ workspaceId := by
  unfold isSafeSegment includes at h
  simp only [Bool.not_eq_true', Bool.or_eq_false_iff, Option.isSome_eq_false_iff, Option.isNone_iff_eq_none] at h
  exact indexOf_unit_none.mp h.1.1.2

/-- A path is the home of its authority, the workspace and a name. -/
theorem PathAuthority.notePath_eq (hhex : ∀ bytes, ∀ c ∈ sha256 bytes, isHexDigit c = true)
    (h : authority.notePath tables sha256 workspaceId raw = some p) :
    unit '/' ∉ workspaceId ∧ ∃ leaf, unit '/' ∉ leaf ∧ p = authority.under workspaceId leaf := by
  have hnamed : ∀ {folder name : JsString}, workspaceNotePath tables folder workspaceId name = some p →
      unit '/' ∉ workspaceId ∧ ∃ leaf, unit '/' ∉ leaf ∧ p = folder ++ str "/" ++ workspaceId ++ str "/" ++ leaf ++ str ".md" := by
    intro folder name hpath
    unfold workspaceNotePath at hpath
    split at hpath
    · next hsafe =>
      dsimp only at hpath
      split at hpath
      · cases hpath
      · exact ⟨slash_not_mem_of_isSafeSegment hsafe, _, slash_not_mem_safeNoteSlug _, (Option.some.inj hpath).symm⟩
    · cases hpath
  cases authority with
  | meeting => exact hnamed h
  | project => exact hnamed h
  | research => exact hnamed h
  | source =>
    change deriveSourceNotePath sha256 workspaceId raw = some p at h
    unfold deriveSourceNotePath at h
    split at h
    · next hsafe =>
      refine ⟨fun hslash => ?_, _, fun hslash => ?_, (Option.some.inj h).symm⟩
      · rw [Bool.and_eq_true] at hsafe
        have hunit := List.all_eq_true.mp hsafe.2 _ hslash
        revert hunit
        decide
      · have hunit := hhex _ _ (List.mem_of_mem_take hslash)
        revert hunit
        decide
    · cases h

/-- The segments of such a path. -/
theorem PathAuthority.split_under {leaf : JsString} (hws : unit '/' ∉ workspaceId) (hleaf : unit '/' ∉ leaf) :
    split (unit '/') (authority.under workspaceId leaf) = split (unit '/') authority.home ++ [workspaceId, leaf ++ str ".md"] := by
  have hname : unit '/' ∉ leaf ++ str ".md" := by
    rw [List.mem_append, not_or]
    exact ⟨hleaf, by decide⟩
  have hshape : authority.under workspaceId leaf =
      authority.home ++ unit '/' :: (workspaceId ++ unit '/' :: (leaf ++ str ".md")) := by
    simp [PathAuthority.under, str, unit]
  rw [hshape, split_append_sep, split_append_sep, split_of_not_mem hws, split_of_not_mem hname]
  rfl

/-- No home is a surface of the writer. -/
theorem PathAuthority.isStructuralSurface_under (caseTables : CaseTables) (authority : PathAuthority) (workspaceId leaf : JsString) :
    isStructuralSurface caseTables (authority.under workspaceId leaf) = false := by
  have hascii : ∀ c ∈ authority.home, c.toNat < 128 := by
    cases authority <;> decide
  obtain ⟨r, hr⟩ : ∃ r, caseTables.toLowerCase (authority.under workspaceId leaf) = authority.home.map lowerAscii ++ r := by
    unfold PathAuthority.under
    simp only [List.append_assoc]
    exact ⟨_, CaseTables.lowerFrom_append caseTables hascii⟩
  have hother : ∀ s t : JsString, s ≠ [] → (authority.home.map lowerAscii).head? ≠ s.head? →
      authority.home.map lowerAscii ++ r ≠ s ++ t := by
    intro s t hs hne heq
    have hhead := congrArg List.head? heq
    rw [List.head?_append_of_ne_nil _ (by cases authority <;> decide), List.head?_append_of_ne_nil _ hs] at hhead
    exact hne hhead
  have hindex : caseTables.toLowerCase STRUCTURAL_INDEX_PATH = str "index.md" := CaseTables.lowerFrom_ascii _ (by decide)
  have hlog : caseTables.toLowerCase STRUCTURAL_LOG_POINTER_PATH = str "log.md" := CaseTables.lowerFrom_ascii _ (by decide)
  have hlogs : caseTables.toLowerCase STRUCTURAL_LOGS_DIR = (str "Logs").map lowerAscii := CaseTables.lowerFrom_ascii _ (by decide)
  unfold isStructuralSurface
  dsimp only
  rw [hr, hindex, hlog, hlogs, if_neg, if_neg, Bool.eq_false_iff]
  · intro hstart
    obtain ⟨t, ht⟩ := startsWith_iff.mp hstart
    exact hother _ t (by decide) (by cases authority <;> decide) ht
  · intro h
    exact hother (str "log.md") [] (by decide) (by cases authority <;> decide) (by rw [h, List.append_nil])
  · intro h
    exact hother (str "index.md") [] (by decide) (by cases authority <;> decide) (by rw [h, List.append_nil])

end agreement

section guard

variable {caseTables : CaseTables} {exempt : JsString} {check : WorkspacePathCheck} {plan : KnowledgeMutationPlan} {leaf : JsString}

theorem PathAuthority.hasNoTraversalSegments_under (authority : PathAuthority) (hws : unit '/' ∉ plan.workspaceId) (hleaf : unit '/' ∉ leaf) :
    hasNoTraversalSegments (authority.under plan.workspaceId leaf) = true := by
  have hslug : ∀ seg : JsString, isWorkspaceSlug seg = false → plan.workspaceId ≠ seg := by
    rintro seg hseg rfl
    rw [plan.workspaceId_slug] at hseg
    cases hseg
  have hname : ∀ seg : JsString, seg.length < 3 → leaf ++ str ".md" ≠ seg := by
    rintro seg hseg rfl
    rw [List.length_append] at hseg
    have hmd : (str ".md").length = 3 := rfl
    omega
  have hparts : ∀ seg ∈ [plan.workspaceId, leaf ++ str ".md"], seg ≠ str ".." ∧ seg ≠ str "." ∧ seg ≠ [] := by
    intro seg hseg
    rw [List.mem_cons, List.mem_singleton] at hseg
    rcases hseg with rfl | rfl
    · exact ⟨hslug _ (by decide), hslug _ (by decide), hslug _ (by decide)⟩
    · exact ⟨hname _ (by decide), hname _ (by decide), hname _ (by decide)⟩
  unfold hasNoTraversalSegments
  rw [PathAuthority.split_under hws hleaf, List.all_append, Bool.and_eq_true]
  refine ⟨by cases authority <;> decide, List.all_eq_true.mpr fun seg hseg => ?_⟩
  simp [hparts seg hseg]

/-- The paths of an authority that the guard admits. -/
theorem PathAuthority.workspacePathScope_under (authority : PathAuthority) (hcheck : makeEnforceWorkspacePathScope caseTables exempt = some check)
    (hws : unit '/' ∉ plan.workspaceId) (hleaf : unit '/' ∉ leaf) :
    check (authority.under plan.workspaceId leaf) plan = .ok () ↔
      authority = .source ∨ plan.workspaceId = exempt ∨ (split (unit '/') authority.home).head? = some plan.workspaceId := by
  have hfirst : (split (unit '/') authority.home ++ [plan.workspaceId, leaf ++ str ".md"])[0]? = (split (unit '/') authority.home).head? := by
    cases authority <;> rfl
  have hsource : (split (unit '/') authority.home).head? = some SOURCE_NOTE_SUBTREE ↔ authority = .source := by
    cases authority <;> decide
  rw [workspacePathScope_ok_iff hcheck, authority.hasNoTraversalSegments_under hws hleaf,
    PathAuthority.isStructuralSurface_under, PathAuthority.split_under hws hleaf, hfirst, hsource]
  constructor
  · rintro ⟨-, h | h | h | h⟩
    · cases h
    · exact .inr (.inl h)
    · exact .inr (.inr h)
    · exact .inl h.1
  · rintro (rfl | h | h)
    · exact ⟨rfl, .inr (.inr (.inr ⟨rfl, rfl⟩))⟩
    · exact ⟨rfl, .inr (.inl h)⟩
    · exact ⟨rfl, .inr (.inr (.inl h))⟩

end guard

/-- A path authority and the write guard agree exactly on the notes of sources, the notes of the exempt
    workspace, and those of a workspace that is named as the authority's own folder. -/
theorem pathsAgree_iff {tables : SlugTables} {caseTables : CaseTables} {sha256 : Sha256}
    (hhex : ∀ bytes, ∀ c ∈ sha256 bytes, isHexDigit c = true) {exempt : JsString} {check : WorkspacePathCheck}
    (hcheck : makeEnforceWorkspacePathScope caseTables exempt = some check) (plan : KnowledgeMutationPlan)
    {authority : PathAuthority} {raw : authority.Raw} {p : Path}
    (hp : authority.notePath tables sha256 plan.workspaceId raw = some p) :
    PathsAgree tables sha256 check authority plan p ↔
      authority = .source ∨ plan.workspaceId = exempt ∨ (split (unit '/') authority.home).head? = some plan.workspaceId := by
  obtain ⟨hws, leaf, hleaf, rfl⟩ := PathAuthority.notePath_eq hhex hp
  have hadmitted := authority.workspacePathScope_under hcheck hws hleaf
  constructor
  · exact fun hagree => hadmitted.mp hagree.admitted
  · intro hcond
    refine ⟨authority.hasNoTraversalSegments_under hws hleaf, ?_, hadmitted.mpr hcond, ?_,
      fun fields noteExists mutation h => probedNotePath_of_ok h⟩
    · rw [PathAuthority.split_under hws hleaf, List.dropLast_append_of_ne_nil (List.cons_ne_nil _ _)]
      simp
    · intro workspaceId raw' hother
      obtain ⟨hws', leaf', hleaf', heq⟩ := PathAuthority.notePath_eq hhex hother
      have hsame := congrArg (split (unit '/')) heq
      rw [PathAuthority.split_under hws hleaf, PathAuthority.split_under hws' hleaf'] at hsame
      exact (List.cons.inj (List.append_cancel_left hsame)).1.symm

section standup

/-- The digest of the identity of the report. -/
def reportDigest : Sha256 := fun _ => str "26089c05ed643e6781668544063e1bf6a26bccf1d6f5f8634a4e5580cd536537"

def reportIdentity : SourceNoteIdentity := ⟨str "file:employer-work:report.txt", str "9f86d081884c7d659a2feaa0c55ad015"⟩

theorem reportNotePath : PathAuthority.notePath asciiSlugs reportDigest .source employerPlan.workspaceId reportIdentity =
    some (str "sources/employer-work/26089c05ed643e6781668544063e1bf6.md") := by
  decide +kernel

theorem pathsAgree_iff_report :
    PathsAgree asciiSlugs reportDigest scopeGuard .source employerPlan
        (str "sources/employer-work/26089c05ed643e6781668544063e1bf6.md") ↔
      PathAuthority.source = .source ∨ employerPlan.workspaceId = str "personal-business" ∨
        (split (unit '/') (PathAuthority.home .source)).head? = some employerPlan.workspaceId :=
  pathsAgree_iff (fun _ => (by decide : ∀ c ∈ reportDigest [], isHexDigit c = true)) scopeGuard_eq employerPlan reportNotePath

/-- The note of a meeting of `employer-work`, which the guard refuses. -/
theorem pathsAgree_not_standup :
    PathAuthority.notePath asciiSlugs reportDigest .meeting employerPlan.workspaceId (str "Standup") =
        some (str "meetings/employer-work/Standup.md") ∧
      ¬ PathsAgree asciiSlugs reportDigest scopeGuard .meeting employerPlan (str "meetings/employer-work/Standup.md") := by
  refine ⟨by decide +kernel, fun h => ?_⟩
  have hadmitted := h.admitted
  revert hadmitted
  decide +kernel

end standup

end sow.workflows
