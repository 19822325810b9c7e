import Sow.Js.Json
import Sow.Worker.Composition.SourceNotePath
import Sow.Workflows.Activities.CommittedOutputs

open sow.js sow.effect sow.contracts sow.domain sow.markdown_vault
open sow.knowledge_writer (KwM KwOp Proceeds Sha256 KnowledgeMutationPlan kwPorts KnownDigests tabulated digits_of_all memoryListing memoryDeps faultFree)

namespace sow.workflows

/-- The notes of a workspace are Markdown files. -/
theorem md_of_workspaceNotePath {slugs : SlugTables} {folder workspaceId raw : JsString} {path : Path}
    (h : workspaceNotePath slugs folder workspaceId raw = some path) : endsWith path (str ".md") = true := by
  unfold workspaceNotePath at h
  split at h
  · dsimp only at h
    split at h
    · cases h
    · rw [← Option.some.inj h]
      exact endsWith_iff.mpr ⟨_, rfl⟩
  · cases h

section meeting

variable (listing : Listing) (slugs : SlugTables) (tables : CaseTables) (sha256 : Sha256) (deps : BuildOutputsActivityDeps)
  (workspaceId : JsString)

/-- The plan of a close-out in a vault: its note is created, or its region is patched where the note is there. -/
def meetingDerived (closeOut : MeetingCloseOut) (files : Files) : Option PlanDraft :=
  let present := (probedNotePath slugs closeOut.fields workspaceId).any fun path => (files.get path).isSome
  match projectMeetingNote slugs closeOut.fields workspaceId present with
  | .ok mutation => some (meetingPlan tables sha256 deps workspaceId closeOut mutation)
  | .error _ => none

variable {listing slugs tables sha256 deps workspaceId}

theorem md_of_projectMeetingNote {fields : ExtractionFields} {present : Bool} {mutation : ProjectNoteMutation}
    (h : projectMeetingNote slugs fields workspaceId present = .ok mutation) : endsWith mutation.path (str ".md") = true := by
  have hprobed := probedNotePath_of_ok h
  unfold probedNotePath at hprobed
  split at hprobed
  · exact md_of_workspaceNotePath hprobed
  · cases hprobed

theorem wp_buildOutputs (closeOut : MeetingCloseOut) (w : sow.knowledge_writer.World) :
    wp (kwPorts listing) Proceeds (buildOutputs slugs tables sha256 deps workspaceId closeOut)
      (fun r w' => w' = w ∧ ∃ built, r = .ok built ∧
        built.toOption.map MeetingBuiltOutputs.plan = meetingDerived slugs tables sha256 deps workspaceId closeOut w.files) w := by
  unfold buildOutputs meetingDerived
  cases probedNotePath slugs closeOut.fields workspaceId with
  | none =>
    simp only [Option.any_none, wp_bind, wp_pure]
    cases projectMeetingNote slugs closeOut.fields workspaceId false with
    | error refusal => exact ⟨rfl, _, rfl, rfl⟩
    | ok mutation => exact ⟨rfl, _, rfl, rfl⟩
  | some path =>
    simp only [wp_bind]
    refine (wp_noteExists path).mono ?_
    rintro r w' ⟨rfl, rfl⟩
    simp only [Option.any_some]
    cases projectMeetingNote slugs closeOut.fields workspaceId (w'.files.get path).isSome with
    | error refusal => exact ⟨rfl, _, rfl, rfl⟩
    | ok mutation => exact ⟨rfl, _, rfl, rfl⟩

variable (listing slugs tables sha256 deps workspaceId)

/-- The close-outs of the meetings of a workspace. -/
def meetingBuilder : PlanBuilder listing MeetingCloseOut where
  build closeOut := do
    let built ← buildOutputs slugs tables sha256 deps workspaceId closeOut
    return built.toOption.map MeetingBuiltOutputs.plan
  derive := meetingDerived slugs tables sha256 deps workspaceId
  planId := meetingPlanId tables sha256 deps workspaceId
  builds closeOut w := by
    rw [wp_bind]
    refine (wp_buildOutputs closeOut w).mono ?_
    rintro r w' ⟨rfl, built, rfl, hbuilt⟩
    exact ⟨rfl, congrArg Except.ok hbuilt⟩
  planned closeOut files draft h := by
    unfold meetingDerived at h
    simp only at h
    split at h
    · next mutation hproject =>
      rw [← Option.some.inj h]
      refine ⟨rfl, md_of_projectMeetingNote hproject, fun link hlink => ?_⟩
      obtain ⟨proposed, -, rfl⟩ := List.mem_map.mp hlink
      rfl
    · cases h

end meeting

section sync

variable (listing : Listing) (slugs : SlugTables) (tables : CaseTables) (sha256 : Sha256) (deps : BuildSyncOutputsActivityDeps)
  (workspaceId : JsString)

/-- The plan of a sync in a vault: its note is created, or its region is patched where the note is there. -/
def syncDerived (sync : ProjectSync) (files : Files) : Option PlanDraft := do
  let path ← projectNotePath slugs workspaceId sync.identity.projectId
  match projectSyncNote slugs deps workspaceId sync (files.get path).isSome with
  | .ok mutation => some (syncPlan tables sha256 deps workspaceId mutation)
  | .error _ => none

variable {listing slugs tables sha256 deps workspaceId}

theorem md_of_projectSyncNote {sync : ProjectSync} {present : Bool} {mutation : ProjectNoteMutation}
    (h : projectSyncNote slugs deps workspaceId sync present = .ok mutation) : endsWith mutation.path (str ".md") = true := by
  unfold projectSyncNote at h
  split at h
  · cases h
  · split at h
    · cases h
    · next path hpath =>
      have hmutation : mutation.path = path := by
        rw [← Except.ok.inj h]
        cases present <;> rfl
      rw [hmutation]
      exact md_of_workspaceNotePath hpath

theorem wp_buildSyncOutputs (sync : ProjectSync) (w : sow.knowledge_writer.World) :
    wp (kwPorts listing) Proceeds (buildSyncOutputs slugs tables sha256 deps workspaceId sync)
      (fun r w' => w' = w ∧ ∃ built, r = .ok built ∧
        built.toOption.map ProjectSyncOutputs.plan = syncDerived slugs tables sha256 deps workspaceId sync w.files) w := by
  unfold buildSyncOutputs syncDerived
  cases projectNotePath slugs workspaceId sync.identity.projectId with
  | none => exact ⟨rfl, _, rfl, rfl⟩
  | some path =>
    simp only [wp_bind]
    refine (wp_noteExists path).mono ?_
    rintro r w' ⟨rfl, rfl⟩
    simp only [Option.bind_eq_bind, Option.bind_some]
    cases projectSyncNote slugs deps workspaceId sync (w'.files.get path).isSome with
    | error refusal => exact ⟨rfl, _, rfl, rfl⟩
    | ok mutation => exact ⟨rfl, _, rfl, rfl⟩

variable (listing slugs tables sha256 deps workspaceId)

/-- The syncs of the projects of a workspace. -/
def syncBuilder : PlanBuilder listing ProjectSync where
  build sync := do
    let built ← buildSyncOutputs slugs tables sha256 deps workspaceId sync
    return built.toOption.map ProjectSyncOutputs.plan
  derive := syncDerived slugs tables sha256 deps workspaceId
  planId := syncPlanId tables sha256 deps workspaceId
  builds sync w := by
    rw [wp_bind]
    refine (wp_buildSyncOutputs sync w).mono ?_
    rintro r w' ⟨rfl, built, rfl, hbuilt⟩
    exact ⟨rfl, congrArg Except.ok hbuilt⟩
  planned sync files draft h := by
    unfold syncDerived at h
    rw [Option.bind_eq_bind, Option.bind_eq_some_iff] at h
    obtain ⟨path, -, h⟩ := h
    split at h
    · next mutation hproject =>
      rw [← Option.some.inj h]
      exact ⟨rfl, md_of_projectSyncNote hproject, fun link hlink => absurd hlink (List.not_mem_nil)⟩
    · cases h

end sync

section standup

/-- A close-out of the meeting `Standup`. -/
def standup (decisions : JsString) : MeetingCloseOut where
  fields := .ofList [(str "title", ⟨.str (str "Standup")⟩), (str "decisions", ⟨.str decisions⟩)]
  rewritten := none

def standupDeps : BuildOutputsActivityDeps := ⟨⟨str "s1", none⟩, [(str "meeting", str "m1")], none, none⟩

def standupPath : Path := str "meetings/personal-business/Standup.md"

def standupNote : NoteDraft where
  path := standupPath
  title := str "Standup"
  body := str "<!-- kw:region:meeting-outputs -->\n# Standup\n\n## Attendees\nTBD\n\n## Decisions\nship\n\n<!-- /kw:region:meeting-outputs -->\n"
  frontmatter := [(str "title", .str (str "Standup")), (str "attendees", .str (str "TBD")), (str "decisions", .str (str "ship")),
    (str "owner", .str (str "TBD")), (str "dueDate", .str (str "TBD"))]

def standupPlanId : JsString := str "idem_26297ffd3046b9404b5fb29107dd28afb0f5dc64ea8e7f7b4d850888c945259b"

/-- The plan of the first close-out. -/
def standupDraft : PlanDraft :=
  ⟨standupPlanId, str "personal-business", [⟨str "s1", none⟩], .create standupNote, [], [], str "1", str "meeting_close"⟩

def standupSource : sow.knowledge_writer.SourceRef := ⟨str "s1", none⟩

theorem standupPath_ne_nil : standupPath ≠ [] := by decide

theorem standupTitle_ne_nil : some standupNote.title ≠ some [] := by decide

theorem standupPlanId_ne_blank : trim standupPlanId ≠ [] := by decide +kernel

theorem standupWorkspace_slug : sow.knowledge_writer.isWorkspaceSlug (str "personal-business") = true := by decide

theorem standupSources_ne_nil : [standupSource] ≠ [] := List.cons_ne_nil _ _

def standupPlan : KnowledgeMutationPlan where
  planId := standupPlanId
  workspaceId := str "personal-business"
  sourceRefs := [standupSource]
  creates := [⟨standupPath, some standupNote.title, standupNote.body,
    some (.ofList (standupNote.frontmatter.map fun e => (e.1, some e.2))), standupPath_ne_nil, standupTitle_ne_nil⟩]
  patches := []
  linkMutations := []
  frontmatterUpdates := []
  data := standupDraft.toJson
  planId_ne_blank := standupPlanId_ne_blank
  workspaceId_slug := standupWorkspace_slug
  sourceRefs_ne_nil := standupSources_ne_nil

/-- The digests of the plan's identity, of its note, of the vault with and without the note, and of the plan. -/
def standupDigests : KnownDigests where
  entries :=
    [(utf8 (str "[\"sow.idem.v1\",\"meeting.close.plan\",[[\"meeting\",\"m1\"],[\"workspace\",\"personal-business\"]]]"),
        str "26297ffd3046b9404b5fb29107dd28afb0f5dc64ea8e7f7b4d850888c945259b"),
      (utf8 (str "---\ntitle: Standup\nattendees: TBD\ndecisions: ship\nowner: TBD\ndueDate: TBD\n---\n" ++ standupNote.body),
        str "d196cca0e8c83106e24c52e9dfa741d8714ada144869b73083b52f145a2893ce"),
      (utf8 [], str "e3b0c44298fc1c149afbf4c8996fb92427ae41e4649b934ca495991b7852b855"),
      (utf8 (standupPath ++ [0] ++ str "d196cca0e8c83106e24c52e9dfa741d8714ada144869b73083b52f145a2893ce"),
        str "9ebc4aa308cbf5183b401f3eb3e5f199af59da3021ec9cf0244f8be618dc0a93"),
      (utf8 standupDraft.toJson.stringify, str "bacfdff3566fb5760a5cfce2994bbec0ca02c873e5cde6872c5a7bad6076f07e")]
  distinct := by decide +kernel
  digits := digits_of_all (by decide +kernel)

/-- The gate that reads the plan of the first close-out, and nothing else. -/
def standupGate : sow.knowledge_writer.Gate where
  validate _ := .ok ()
  safeParse candidate := if candidate = standupDraft.toJson then .ok standupPlan else .error []
  kwSchemaRejectedSignal _ _ := ⟨[], [], [], [], [], []⟩

theorem standupGate_readsDrafts : ReadsDrafts standupGate := by
  intro draft plan h
  unfold standupGate at h
  simp only at h
  split at h
  · next hsame =>
    have hplan : standupPlan = plan := Except.ok.inj h
    subst hplan
    unfold PlanDraft.toJson at hsame
    simp only [Json.obj.injEq, List.cons.injEq, Prod.mk.injEq, Json.arr.injEq, true_and, and_true] at hsame
    obtain ⟨-, -, -, hcreates, hpatches, hlinks, -⟩ := hsame
    refine ⟨?_, ?_, ?_, rfl⟩
    · rw [hcreates]
      decide +kernel
    · rw [hpatches]
      rfl
    · rw [hlinks]
      rfl
  · cases h

def standupCommit : CommitActivityDeps where
  deps := { memoryDeps (tabulated standupDigests) standupPlan none with gate := standupGate }
  actor := str "KnowledgeWriter"
  sourceEventRef := str "evt-1"
  workflowRunRef := ⟨str "wf-1", str "meeting", str "running", str "wf-key", []⟩
  expectedBaseRevision := none

abbrev standups : PlanBuilder memoryListing MeetingCloseOut :=
  meetingBuilder memoryListing asciiSlugs asciiTables (tabulated standupDigests) standupDeps (str "personal-business")

/-- A close-out without faults. -/
def closeOutRun (decisions : JsString) : FaultFreeRun MeetingCloseOut :=
  ⟨standup decisions, faultFree (str "2026-01-01T00:00:00Z") (.ok []), fun _ _ => ⟨rfl, rfl⟩⟩

abbrev emptyWorld : sow.knowledge_writer.World := ⟨.empty, .empty, []⟩

def standupSync : BuildSyncOutputsActivityDeps := ⟨⟨str "s1", none⟩, [(str "project", str "p1")], none, fun _ => true⟩

/-- What a commit reports: whether its plan patches a note that is there, and whether it is a replay. -/
def reported (r : Except Cause (Option (PlanDraft × Except KnowledgeCommitFailure KnowledgeCommitSuccess))) : Option (Bool × Bool) := do
  let (draft, result) ← r.toOption.join
  let success ← result.toOption
  return (draft.mutation.creates.isEmpty, success.replayed)

theorem reported_eq_some {r : Except Cause (Option (PlanDraft × Except KnowledgeCommitFailure KnowledgeCommitSuccess))} {patches replayed : Bool}
    (h : reported r = some (patches, replayed)) : ∃ draft success, r = .ok (some (draft, .ok success)) ∧
      draft.mutation.creates.isEmpty = patches ∧ success.replayed = replayed := by
  match r, h with
  | .ok (some (draft, .ok success)), h =>
    obtain ⟨hpatches, hreplayed⟩ := Prod.mk.inj (Option.some.inj h)
    exact ⟨draft, success, rfl, hpatches, hreplayed⟩

theorem closeOutRuns_reported :
    reported (executed standups standupCommit emptyWorld (closeOutRun (str "ship"))).1 = some (false, false) ∧
      reported (executed standups standupCommit (worldAfter standups standupCommit emptyWorld [closeOutRun (str "ship")])
        (closeOutRun (str "do not ship"))).1 = some (true, true) := by
  unfold standups standupCommit tabulated
  simp only [standupDigests, standupDraft, standupNote, standupPlanId]
  repeat rw [str_ofList]
  decide +kernel

end standup

end sow.workflows
