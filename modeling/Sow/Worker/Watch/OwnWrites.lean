import Sow.Worker.Composition.SourceNotePath
import Sow.Worker.Watch.WatchLoop

open sow.js sow.effect sow.integrations sow.markdown_vault
open sow.knowledge_writer (Sha256 isHexDigit SOURCE_NOTE_SUBTREE STRUCTURAL_INDEX_PATH STRUCTURAL_LOG_POINTER_PATH STRUCTURAL_LOGS_DIR)
open sow.workflows (PathAuthority SlugTables meetingNotePath asciiSlugs)

namespace sow.worker

/-- Of the notes of the path authorities, those of sources are not watched. -/
theorem watched_under (authority : PathAuthority) (workspaceId leaf : JsString) :
    watched (authority.under workspaceId leaf) = true ↔ authority ≠ .source := by
  have hmarkdown : isMarkdown (authority.under workspaceId leaf) = true := endsWith_iff.mpr ⟨_, rfl⟩
  unfold watched
  rw [hmarkdown, Bool.true_and, Bool.not_eq_true']
  have hsubtree : isUnderOutputSubtree (authority.under workspaceId leaf) = true ↔ authority = .source := by
    cases authority with
    | source =>
      refine iff_of_true ?_ rfl
      unfold isUnderOutputSubtree
      rw [Bool.or_eq_true]
      refine .inr (startsWith_iff.mpr ⟨workspaceId ++ str "/" ++ leaf ++ str ".md", ?_⟩)
      simp [PathAuthority.under, PathAuthority.home]
    | meeting => exact iff_of_false Bool.false_ne_true PathAuthority.noConfusion
    | project => exact iff_of_false Bool.false_ne_true PathAuthority.noConfusion
    | research => exact iff_of_false Bool.false_ne_true PathAuthority.noConfusion
  rw [← Bool.not_eq_true, hsubtree]

theorem watched_notePath {tables : SlugTables} {sha256 : Sha256} (hhex : ∀ bytes, ∀ c ∈ sha256 bytes, isHexDigit c = true) {authority : PathAuthority}
    {workspaceId : JsString} {raw : authority.Raw} {p : Path} (h : authority.notePath tables sha256 workspaceId raw = some p) :
    watched p = true ↔ authority ≠ .source := by
  obtain ⟨-, leaf, -, rfl⟩ := PathAuthority.notePath_eq hhex h
  exact watched_under authority workspaceId leaf

/-- The surfaces of the writer are watched. -/
theorem watched_structural (date : JsString) :
    watched STRUCTURAL_INDEX_PATH = true ∧ watched STRUCTURAL_LOG_POINTER_PATH = true ∧
      watched (STRUCTURAL_LOGS_DIR ++ str "/" ++ date ++ str ".md") = true := by
  refine ⟨by decide, by decide, ?_⟩
  have hmarkdown : isMarkdown (STRUCTURAL_LOGS_DIR ++ str "/" ++ date ++ str ".md") = true := endsWith_iff.mpr ⟨_, rfl⟩
  unfold watched
  rw [hmarkdown]
  rfl

/-- The captures of a vault whose writer commits notes of sources only. -/
theorem neverFeeds_sources {ι : Type} [DecidableEq ι] {tables : SlugTables} {sha256 digest : Sha256} (hhex : ∀ bytes, ∀ c ∈ digest bytes, isHexDigit c = true)
    {binding : VaultWatchBinding} {deps : DispatchDeps} {root : RealRoot} (calls : ι → VaultCall)
    (hsources : ∀ i p text, calls i = .commit p text → ∃ workspaceId raw, PathAuthority.notePath tables digest .source workspaceId raw = some p.text)
    (schedule : List (ι × Fault Thrown)) : NeverFeeds sha256 binding deps root calls schedule := by
  refine neverFeeds_of_unwatched calls (fun i p text hcommit => ?_) schedule
  obtain ⟨workspaceId, raw, hpath⟩ := hsources i p text hcommit
  rw [← Bool.not_eq_true, watched_notePath hhex hpath]
  exact fun h => h rfl

section standup

/-- The note of a meeting. -/
def standupNote : VaultPath := ⟨str "meetings/employer-work/Standup.md", by decide⟩

theorem standupNote_path : meetingNotePath asciiSlugs (str "employer-work") (str "Standup") = some standupNote.text := by
  decide +kernel

/-- The commit of the note, and the capture of its path. -/
theorem standupNote_feeds : ¬ NeverFeeds (fun _ => []) watchBinding connectedDeps vaultRootDir (feedingCalls standupNote) (feedingSchedule ++ [(1, .none)]) :=
  feedingCalls_feed _ (by decide)

end standup

end sow.worker
