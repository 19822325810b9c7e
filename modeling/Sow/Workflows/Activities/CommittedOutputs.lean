import Sow.Effect.Wp
import Sow.Knowledge.KnowledgeWriter.CommitRecord
import Sow.Workflows.Activities.BuildSyncOutputs

open sow.js sow.effect sow.contracts sow.domain sow.markdown_vault
open sow.knowledge_writer (KwM KwOp KwChoice World Proceeds Sha256 KnowledgeMutationPlan KnowledgeWriterDeps WriteFailure WriteSuccess Recorded Outcome
  Restores CommittedBytes VaultSnapshot kwPorts applyPlan projectPlan plannedPaths embedStamp liftVault liftVault_wp readVaultHeadRevision)

namespace sow.workflows

/-- An activity that derives plans of notes, all of them under one id. -/
structure PlanBuilder (listing : Listing) (ι : Type) where
  build : ι → KwM (Option PlanDraft)
  /-- What it derives from the files of the vault. -/
  derive : ι → Files → Option PlanDraft
  planId : JsString
  builds : ∀ input w, wp (kwPorts listing) Proceeds (build input) (fun r w' => w' = w ∧ r = .ok (derive input w.files)) w
  planned : ∀ input files draft, derive input files = some draft →
    draft.planId = planId ∧ endsWith draft.mutation.path (str ".md") = true ∧ ∀ link ∈ draft.linkMutations, link.srcPath = draft.mutation.path

/-- One execution of a family of activities without faults. -/
structure FaultFreeRun (ι : Type) where
  input : ι
  choose : Nat → KwOp → KwChoice
  proceeds : ∀ n op, Proceeds op (choose n op)

/-- A note holds what a plan makes of some vault: the note that it creates, or the patch of a region. -/
def HoldsPlan (draft : PlanDraft) (files : Files) : Prop :=
  ∃ plan snapshot content, draft.Realizes plan ∧ (projectPlan snapshot plan).get draft.mutation.path = some content ∧
    (files.get draft.mutation.path = some content ∨ ∃ stamp, files.get draft.mutation.path = some (embedStamp content stamp))

structure SameMutations (draft draft' : PlanDraft) : Prop where
  mutation : draft.mutation = draft'.mutation
  linkMutations : draft.linkMutations = draft'.linkMutations

section runs

variable {listing : Listing} {ι : Type} (builder : PlanBuilder listing ι) (deps : CommitActivityDeps)

/-- Derive a plan, and commit it. -/
def buildAndCommit (input : ι) : KwM (Option (PlanDraft × Except KnowledgeCommitFailure KnowledgeCommitSuccess)) := do
  match ← builder.build input with
  | none => return none
  | some draft => return some (draft, ← commit deps draft.planId draft.toJson)

/-- How an execution comes out in a world. -/
def executed (w : World) (run : FaultFreeRun ι) :
    Except Cause (Option (PlanDraft × Except KnowledgeCommitFailure KnowledgeCommitSuccess)) × World :=
  (kwPorts listing).run run.choose 0 (buildAndCommit builder deps run.input) w

/-- The world after executions one after the other. -/
def worldAfter (w : World) (runs : List (FaultFreeRun ι)) : World := runs.foldl (fun w run => (executed builder deps w run).2) w

/-- An execution commits the plan that it derives. -/
def CommitsPlan (w : World) (run : FaultFreeRun ι) (draft : PlanDraft) (success : KnowledgeCommitSuccess) : Prop :=
  (executed builder deps w run).1 = .ok (some (draft, .ok success))

/-- An execution of some executions from a world on writes the plan that it derives. -/
def WrittenIn (w : World) (runs : List (FaultFreeRun ι)) (draft : PlanDraft) : Prop :=
  ∃ es run es' success, runs = es ++ run :: es' ∧ CommitsPlan builder deps (worldAfter builder deps w es) run draft success ∧
    success.replayed = false

/-- No output that is reported as committed is swallowed as a replay. -/
def NoneSwallowed (w : World) (runs : List (FaultFreeRun ι)) : Prop :=
  ∀ es run es' draft success, runs = es ++ run :: es' → CommitsPlan builder deps (worldAfter builder deps w es) run draft success →
    HoldsPlan draft (worldAfter builder deps w (es ++ [run])).files ∧
      (success.replayed = true → ∃ draft', WrittenIn builder deps w es draft' ∧ SameMutations draft' draft)

/-- Whatever comes after an execution that has written its plan has the mutations of that plan. -/
def DerivesAlike (w : World) (runs : List (FaultFreeRun ι)) : Prop :=
  ∀ es run es' draft draft', runs = es ++ run :: es' → WrittenIn builder deps w es draft' →
    builder.derive run.input (worldAfter builder deps w es).files = some draft → SameMutations draft' draft

end runs

theorem HoldsPlan.congr {draft draft' : PlanDraft} {files : Files} (h : HoldsPlan draft files) (hsame : SameMutations draft draft') :
    HoldsPlan draft' files := by
  obtain ⟨plan, snapshot, content, hreal, hcontent, hfiles⟩ := h
  obtain ⟨hmutation, hlinks⟩ := hsame
  refine ⟨plan, snapshot, content, ⟨?_, ?_, ?_, hreal.frontmatterUpdates⟩, ?_, ?_⟩
  · rw [hreal.creates, hmutation]
  · rw [hreal.patches, hmutation]
  · rw [hreal.linkMutations, hlinks]
  · rwa [← hmutation]
  · rwa [← hmutation]

section commit

variable {listing : Listing} {deps : CommitActivityDeps} {w : World}

/-- What a commit of a draft comes to, by whether its key has a revision. -/
structure CommitSpec (draft : PlanDraft) (w : World) (r : Except Cause (Except KnowledgeCommitFailure KnowledgeCommitSuccess)) (w' : World) :
    Prop where
  replay : (w.revisions.get (deriveIdempotencyKey draft.planId)).isSome → w' = w ∧ ∃ id, r = .ok (.ok ⟨id, true⟩)
  fresh : w.revisions.get (deriveIdempotencyKey draft.planId) = none →
    ((∃ id, r = .ok (.ok ⟨id, false⟩)) ∧ HoldsPlan draft w'.files ∧ (w'.revisions.get (deriveIdempotencyKey draft.planId)).isSome) ∨
    (∃ e, r = .ok (.error e)) ∧ w'.revisions.get (deriveIdempotencyKey draft.planId) = none

/-- A call that reads the vault. -/
def isReading : VaultOp → Prop
  | .read _ => True
  | .list => True
  | _ => False

theorem readPaths_reads (snapshot : VaultSnapshot) (paths : List Path) :
    Program.Quiet (sow.knowledge_writer.readPaths snapshot paths) ∧ Program.Within isReading (sow.knowledge_writer.readPaths snapshot paths) := by
  induction paths generalizing snapshot with
  | nil => exact ⟨trivial, trivial⟩
  | cons path paths ih =>
    unfold sow.knowledge_writer.readPaths
    refine ⟨(Program.quiet_perform _).bind fun content => ?_, (Program.within_perform trivial).bind fun content => ?_⟩
    · cases content with
      | none => exact (ih snapshot).1
      | some content => exact (ih _).1
    · cases content with
      | none => exact (ih snapshot).2
      | some content => exact (ih _).2

theorem readSnapshot_reads : Program.Quiet sow.knowledge_writer.readSnapshot ∧ Program.Within isReading sow.knowledge_writer.readSnapshot := by
  unfold sow.knowledge_writer.readSnapshot
  exact ⟨(Program.quiet_perform _).bind fun paths => (readPaths_reads _ paths).1,
    (Program.within_perform trivial).bind fun paths => (readPaths_reads _ paths).2⟩

/-- A vault without faults. -/
def Answering (_ : VaultOp) (d : Choice) : Prop := d = .proceed

theorem wp_liftVault_proceeds {α : Type} {p : VaultM α} {Q : Except Cause α → World → Prop}
    (hp : wp (vaultFs listing) Answering p (fun r fs => Q r { w with files := fs }) w.files) :
    wp (kwPorts listing) Proceeds (liftVault p) Q w :=
  liftVault_wp (fun _ _ h => h.1) hp

/-- A reading program is answered without faults, and changes nothing. -/
theorem wp_liftVault_reading {α : Type} {p : VaultM α} (hquiet : p.Quiet) (hreads : p.Within isReading) :
    wp (kwPorts listing) Proceeds (liftVault p) (fun r w' => w' = w ∧ ∃ a, r = .ok a) w := by
  apply wp_liftVault_proceeds
  have hsame : wp (vaultFs listing) Answering p (fun _ fs => fs = w.files) w.files := by
    refine wp_of_within hreads rfl fun op fs d hop hd hfs => ?_
    obtain rfl : d = .proceed := hd
    cases op with
    | read path => exact hfs
    | list => exact hfs
    | _ => exact hop.elim
  have hanswers : wp (vaultFs listing) Answering p (fun r _ => ∃ a, r = .ok a) w.files := by
    refine wp_of_quiet hquiet hreads fun op fs d hop hd => ?_
    obtain rfl : d = .proceed := hd
    cases op with
    | read path => exact ⟨_, rfl⟩
    | list => exact ⟨_, rfl⟩
    | _ => exact hop.elim
  refine (hsame.and hanswers).mono ?_
  rintro r fs ⟨rfl, ha⟩
  exact ⟨rfl, ha⟩

/-- Without faults the head of the vault is read, and nothing changes. -/
theorem wp_readVaultHeadRevision (sha256 : Sha256) :
    wp (kwPorts listing) Proceeds (liftVault (readVaultHeadRevision sha256)) (fun r w' => w' = w ∧ ∃ base, r = .ok base) w := by
  unfold readVaultHeadRevision
  exact wp_liftVault_reading (readSnapshot_reads.1.bind fun _ => trivial) (readSnapshot_reads.2.bind fun _ => trivial)

/-- The probe of a note reads whether it is there. -/
theorem wp_noteExists (path : Path) :
    wp (kwPorts listing) Proceeds (noteExists path) (fun r w' => w' = w ∧ r = .ok (.ok (w.files.get path).isSome)) w := by
  unfold noteExists
  rw [wp_bind, wp_attempt]
  apply wp_liftVault_proceeds
  rw [VaultFs.read, wp_perform]
  intro d hd
  obtain rfl : d = .proceed := hd
  exact ⟨rfl, rfl⟩

/-- What passes the gate is what the schema of the plan returns. -/
theorem safeParse_of_runGate {gate : sow.knowledge_writer.Gate} {candidate : Json} {plan : KnowledgeMutationPlan}
    (h : sow.knowledge_writer.runGate gate candidate = .ok plan) : gate.safeParse candidate = .ok plan := by
  unfold sow.knowledge_writer.runGate at h
  cases hvalid : gate.validate candidate with
  | error e => simp [hvalid] at h
  | ok _ =>
    cases hparse : gate.safeParse candidate with
    | error issues => simp [hvalid, hparse] at h
    | ok parsed =>
      simp only [hvalid, hparse, sow.knowledge_writer.ruleScopedMutation_eq_ok] at h
      rw [Except.ok.inj h]

/-- A commit that writes leaves the note of its draft in place. -/
theorem holdsPlan_of_commits {draft : PlanDraft} {choose : Nat → KwOp → KwChoice} {command : sow.knowledge_writer.KnowledgeWriteCommand}
    {id : sow.knowledge_writer.RevisionId} {files : Files} (hgate : ReadsDrafts deps.deps.gate) (hplan : command.plan = draft.toJson)
    (hmd : endsWith draft.mutation.path (str ".md") = true) (hlinks : ∀ link ∈ draft.linkMutations, link.srcPath = draft.mutation.path)
    (h : sow.knowledge_writer.Commits listing choose command deps.deps w id files) : HoldsPlan draft files := by
  obtain ⟨plan, snapshot, committed, h⟩ := h
  have hreal : draft.Realizes plan := by
    apply hgate
    rw [← hplan]
    exact safeParse_of_runGate h.gated
  obtain ⟨content, hcontent⟩ := hreal.exists_projected snapshot
  obtain ⟨bytes, hbytes, hout⟩ := h.projected _ content hcontent
  -- Every file that the plan names is the note.
  have honly : ∀ p ∈ plannedPaths plan, p = draft.mutation.path := by
    intro p hp
    rcases hreal.mem_plannedPaths.mp hp with rfl | hlink
    · rfl
    · obtain ⟨link, hmem, rfl⟩ := List.mem_map.mp hlink
      exact hlinks link hmem
  have hplace : files.get draft.mutation.path = some bytes := by
    refine (h.inPlace fun p hp => ?_).holds _ _ hbytes
    rw [honly p hp]
    exact not_isStaging_of_md hmd
  refine ⟨plan, snapshot, content, hreal, hcontent, ?_⟩
  rcases hout.cases with rfl | ⟨-, stamp, rfl⟩
  · exact .inl hplace
  · exact .inr ⟨stamp, hplace⟩

/-- Without faults there is a base to commit on. -/
theorem wp_resolveBaseRevision :
    wp (kwPorts listing) Proceeds (resolveBaseRevision deps) (fun r w' => w' = w ∧ ∃ base, r = .ok (.ok base)) w := by
  unfold resolveBaseRevision
  cases deps.expectedBaseRevision with
  | some base => exact ⟨rfl, base, rfl⟩
  | none =>
    rw [wp_attempt]
    refine (wp_readVaultHeadRevision deps.deps.sha256).mono ?_
    rintro r w' ⟨hw', base, rfl⟩
    exact ⟨hw', base, rfl⟩

/-- A commit of a draft is a replay of its key, or it records its key if and only if it writes the draft. -/
theorem wp_commit {draft : PlanDraft} (hgate : ReadsDrafts deps.deps.gate) (hmd : endsWith draft.mutation.path (str ".md") = true)
    (hlinks : ∀ link ∈ draft.linkMutations, link.srcPath = draft.mutation.path) :
    wp (kwPorts listing) Proceeds (commit deps draft.planId draft.toJson) (CommitSpec draft w) w := by
  unfold commit
  rw [wp_bind]
  refine wp_resolveBaseRevision.mono ?_
  rintro r w' ⟨rfl, base, rfl⟩
  simp only [wp_bind, wp_attempt]
  cases hkey : w'.revisions.get (deriveIdempotencyKey draft.planId) with
  | some prior =>
    refine (sow.knowledge_writer.applyPlan_replayed (show w'.revisions.get (commitCommand deps draft.planId draft.toJson base).idempotencyKey = _ from hkey)).mono ?_
    rintro r w'' ⟨rfl, rfl⟩
    refine ⟨fun _ => ⟨rfl, _, rfl⟩, fun hnone => ?_⟩
    rw [hkey] at hnone
    cases hnone
  | none =>
    refine ((sow.knowledge_writer.applyPlan_recorded (show w'.revisions.get (commitCommand deps draft.planId draft.toJson base).idempotencyKey = _ from hkey)).and
      (sow.knowledge_writer.applyPlan_wp_outcome.mono_adm fun op d => Proceeds.restoring)).mono ?_
    rintro r w'' ⟨hrecorded, choose, -, hout⟩
    obtain ⟨s, revision, rfl, hwritten, -, hrevisions⟩ | ⟨hrevisions, hfails⟩ := hrecorded
    · unfold Outcome at hout
      simp only [hwritten, Bool.false_eq_true, if_false] at hout
      have hset : w''.revisions.get (deriveIdempotencyKey draft.planId) = some revision := by
        rw [hrevisions]
        exact Map.get_set_self _ _ _
      refine ⟨fun hsome => ?_, fun _ => .inl ⟨⟨s.revisionId, by rw [hwritten]⟩, holdsPlan_of_commits hgate rfl hmd hlinks hout, ?_⟩⟩
      · rw [hkey] at hsome
        cases hsome
      · rw [hset]
        rfl
    · have hsame : w''.revisions.get (deriveIdempotencyKey draft.planId) = none := by rw [hrevisions, hkey]
      have hrefuse : ∀ e, CommitSpec draft w' (.ok (.error e)) w'' := by
        intro e
        refine ⟨fun hsome => ?_, fun _ => .inr ⟨⟨e, rfl⟩, hsame⟩⟩
        rw [hkey] at hsome
        cases hsome
      cases r with
      | error cause => exact hrefuse _
      | ok result =>
        cases result with
        | error e => exact hrefuse _
        | ok s => exact absurd rfl (hfails s)

end commit

section runs

variable {listing : Listing} {ι : Type} {builder : PlanBuilder listing ι} {deps : CommitActivityDeps} {w : World}

/-- An execution derives no plan and changes nothing, or commits the plan that it derives. -/
def Stepped (builder : PlanBuilder listing ι) (input : ι) (w : World)
    (r : Except Cause (Option (PlanDraft × Except KnowledgeCommitFailure KnowledgeCommitSuccess))) (w' : World) : Prop :=
  (builder.derive input w.files = none ∧ w' = w ∧ r = .ok none) ∨
  ∃ draft result, builder.derive input w.files = some draft ∧ r = .ok (some (draft, result)) ∧ CommitSpec draft w (.ok result) w'

theorem executed_stepped (builder : PlanBuilder listing ι) (w : World) (hgate : ReadsDrafts deps.deps.gate) (run : FaultFreeRun ι) :
    Stepped builder run.input w (executed builder deps w run).1 (executed builder deps w run).2 := by
  have hstep : wp (kwPorts listing) Proceeds (buildAndCommit builder deps run.input) (Stepped builder run.input w) w := ?_
  · exact hstep.run run.proceeds 0
  unfold buildAndCommit
  rw [wp_bind]
  refine (builder.builds run.input w).mono ?_
  rintro r w' ⟨rfl, rfl⟩
  cases hderive : builder.derive run.input w'.files with
  | none => exact .inl ⟨hderive, rfl, rfl⟩
  | some draft =>
    obtain ⟨-, hmd, hlinks⟩ := builder.planned _ _ _ hderive
    simp only [wp_bind]
    refine (wp_commit hgate hmd hlinks).mono ?_
    intro r w'' hspec
    cases r with
    | ok result => exact .inr ⟨draft, result, hderive, rfl, hspec⟩
    | error cause =>
      -- A commit does not throw.
      cases hkey : w'.revisions.get (deriveIdempotencyKey draft.planId) with
      | some prior =>
        obtain ⟨-, id, hr⟩ := hspec.replay (by rw [hkey]; rfl)
        cases hr
      | none =>
        obtain ⟨⟨id, hr⟩, -⟩ | ⟨⟨e, hr⟩, -⟩ := hspec.fresh hkey
        · cases hr
        · cases hr

theorem worldAfter_snoc (w : World) (es : List (FaultFreeRun ι)) (run : FaultFreeRun ι) :
    worldAfter builder deps w (es ++ [run]) = (executed builder deps (worldAfter builder deps w es) run).2 := by
  unfold worldAfter
  rw [List.foldl_append]
  rfl

/-- A plan is written by the last execution, or before it. -/
theorem writtenIn_snoc {es : List (FaultFreeRun ι)} {run : FaultFreeRun ι} {draft : PlanDraft} :
    WrittenIn builder deps w (es ++ [run]) draft ↔ WrittenIn builder deps w es draft ∨
      ∃ success, CommitsPlan builder deps (worldAfter builder deps w es) run draft success ∧ success.replayed = false := by
  constructor
  · rintro ⟨es₁, run', es₂, success, heq, hcommits, hwritten⟩
    rcases List.eq_nil_or_concat es₂ with rfl | ⟨es₃, last, rfl⟩
    · obtain ⟨rfl, hrun⟩ := List.append_inj' heq rfl
      obtain rfl := List.head_eq_of_cons_eq hrun
      exact .inr ⟨success, hcommits, hwritten⟩
    · rw [List.concat_eq_append, ← List.cons_append, ← List.append_assoc] at heq
      exact .inl ⟨es₁, run', es₃, success, (List.append_inj' heq rfl).1, hcommits, hwritten⟩
  · rintro (⟨es₁, run', es₂, success, rfl, hcommits, hwritten⟩ | ⟨success, hcommits, hwritten⟩)
    · exact ⟨es₁, run', es₂ ++ [run], success, by simp, hcommits, hwritten⟩
    · exact ⟨es, run, [], success, rfl, hcommits, hwritten⟩

/-- What the executions so far have come to: nothing is on record under the plan's key, or the one plan that has
    been written is in place. -/
inductive History (builder : PlanBuilder listing ι) (deps : CommitActivityDeps) (w : World) (es : List (FaultFreeRun ι)) : Prop
  | unwritten (key : (worldAfter builder deps w es).revisions.get (deriveIdempotencyKey builder.planId) = none)
      (none : ∀ draft, ¬ WrittenIn builder deps w es draft)
  | written (key : ((worldAfter builder deps w es).revisions.get (deriveIdempotencyKey builder.planId)).isSome) (draft : PlanDraft)
      (written : WrittenIn builder deps w es draft) (holds : HoldsPlan draft (worldAfter builder deps w es).files)
      (unique : ∀ draft', WrittenIn builder deps w es draft' → draft' = draft)

section step

variable {input : ι} {r : Except Cause (Option (PlanDraft × Except KnowledgeCommitFailure KnowledgeCommitSuccess))} {w' : World}

/-- While the key is on record, what is derived is replayed. -/
theorem Stepped.replays (h : Stepped builder input w r w') (hkey : (w.revisions.get (deriveIdempotencyKey builder.planId)).isSome) :
    w' = w ∧ ((builder.derive input w.files = none ∧ r = .ok none) ∨
      ∃ draft id, builder.derive input w.files = some draft ∧ r = .ok (some (draft, .ok ⟨id, true⟩))) := by
  obtain ⟨hderive, rfl, rfl⟩ | ⟨draft, result, hderive, rfl, hspec⟩ := h
  · exact ⟨rfl, .inl ⟨hderive, rfl⟩⟩
  · rw [← (builder.planned _ _ _ hderive).1] at hkey
    obtain ⟨rfl, id, hresult⟩ := hspec.replay hkey
    obtain rfl := Except.ok.inj hresult
    exact ⟨rfl, .inr ⟨draft, id, hderive, rfl⟩⟩

/-- While nothing is on record under the key, the plan is written, or nothing is put on record. -/
theorem Stepped.writes (h : Stepped builder input w r w') (hkey : w.revisions.get (deriveIdempotencyKey builder.planId) = none) :
    (∃ draft id, r = .ok (some (draft, .ok ⟨id, false⟩)) ∧ HoldsPlan draft w'.files ∧
      (w'.revisions.get (deriveIdempotencyKey builder.planId)).isSome) ∨
    w'.revisions.get (deriveIdempotencyKey builder.planId) = none ∧ ∀ draft success, r ≠ .ok (some (draft, .ok success)) := by
  obtain ⟨-, rfl, rfl⟩ | ⟨draft, result, hderive, rfl, hspec⟩ := h
  · exact .inr ⟨hkey, fun _ _ => by simp⟩
  · rw [← (builder.planned _ _ _ hderive).1] at hkey ⊢
    obtain ⟨⟨id, hresult⟩, hholds, hsome⟩ | ⟨⟨e, hresult⟩, hnone⟩ := hspec.fresh hkey
    · obtain rfl := Except.ok.inj hresult
      exact .inl ⟨draft, id, rfl, hholds, hsome⟩
    · obtain rfl := Except.ok.inj hresult
      exact .inr ⟨hnone, fun _ _ => by simp⟩

end step

/-- By induction on the executions, the last one first. -/
theorem history (hgate : ReadsDrafts deps.deps.gate) (hkey : w.revisions.get (deriveIdempotencyKey builder.planId) = none)
    (es : List (FaultFreeRun ι)) : History builder deps w es := by
  induction es using List.reverseRecOn with
  | nil =>
    refine .unwritten hkey fun draft => ?_
    rintro ⟨es, run, es', success, heq, -⟩
    simp at heq
  | append_singleton es run ih =>
    have hstep := executed_stepped builder (worldAfter builder deps w es) hgate run
    cases ih with
    | unwritten hnone hnever =>
      obtain ⟨draft, id, hr, hholds, hsome⟩ | ⟨hstill, hfails⟩ := hstep.writes hnone
      · refine .written (by rwa [worldAfter_snoc]) draft (writtenIn_snoc.mpr (.inr ⟨⟨id, false⟩, hr, rfl⟩)) (by rwa [worldAfter_snoc]) ?_
        intro draft' hwritten
        rcases writtenIn_snoc.mp hwritten with hbefore | ⟨success, hcommits, -⟩
        · exact absurd hbefore (hnever draft')
        · unfold CommitsPlan at hcommits
          rw [hr] at hcommits
          simp only [Except.ok.injEq, Option.some.injEq, Prod.mk.injEq] at hcommits
          exact hcommits.1.symm
      · refine .unwritten (by rwa [worldAfter_snoc]) fun draft hwritten => ?_
        rcases writtenIn_snoc.mp hwritten with hbefore | ⟨success, hcommits, -⟩
        · exact hnever draft hbefore
        · exact hfails draft success hcommits
    | written hsome draft hwritten hholds hunique =>
      obtain ⟨hsame, hr⟩ := hstep.replays hsome
      refine .written (by rwa [worldAfter_snoc, hsame]) draft (writtenIn_snoc.mpr (.inl hwritten)) (by rwa [worldAfter_snoc, hsame]) ?_
      intro draft' hwritten'
      rcases writtenIn_snoc.mp hwritten' with hbefore | ⟨success, hcommits, hfresh⟩
      · exact hunique draft' hbefore
      · unfold CommitsPlan at hcommits
        rcases hr with ⟨-, hr⟩ | ⟨draft'', id, -, hr⟩
        · rw [hr] at hcommits
          simp at hcommits
        · rw [hr] at hcommits
          simp only [Except.ok.injEq, Option.some.injEq, Prod.mk.injEq] at hcommits
          rw [← hcommits.2] at hfresh
          cases hfresh

/-- No output is swallowed if and only if nothing else is derived once a plan has been written. -/
theorem noneSwallowed_iff (hgate : ReadsDrafts deps.deps.gate) (hkey : w.revisions.get (deriveIdempotencyKey builder.planId) = none)
    (runs : List (FaultFreeRun ι)) : NoneSwallowed builder deps w runs ↔ DerivesAlike builder deps w runs := by
  constructor
  · intro hnone es run es' draft draft' heq hwritten hderives
    cases history hgate hkey es with
    | unwritten _ hnever => exact absurd hwritten (hnever draft')
    | written hsome first _ _ hunique =>
      obtain ⟨-, hr⟩ := (executed_stepped builder _ hgate run).replays hsome
      obtain ⟨hderive, -⟩ | ⟨draft'', id, hderive, hr⟩ := hr
      · rw [hderives] at hderive
        cases hderive
      · rw [hderives] at hderive
        obtain rfl := Option.some.inj hderive
        obtain ⟨-, hreplayed⟩ := hnone es run es' draft _ heq hr
        obtain ⟨draft₁, hwritten₁, hsame⟩ := hreplayed rfl
        rw [hunique draft' hwritten, ← hunique draft₁ hwritten₁]
        exact hsame
  · intro halike es run es' draft success heq hcommits
    have hstep := executed_stepped builder (worldAfter builder deps w es) hgate run
    cases history hgate hkey es with
    | unwritten hnone _ =>
      obtain ⟨draft', id, hr, hholds, -⟩ | ⟨-, hfails⟩ := hstep.writes hnone
      · unfold CommitsPlan at hcommits
        rw [hr] at hcommits
        simp only [Except.ok.injEq, Option.some.injEq, Prod.mk.injEq] at hcommits
        obtain ⟨rfl, rfl⟩ := hcommits
        refine ⟨by rwa [worldAfter_snoc], fun hreplayed => ?_⟩
        cases hreplayed
      · exact absurd hcommits (hfails draft success)
    | written hsome first hwritten hholds _ =>
      obtain ⟨hworld, ⟨-, hr⟩ | ⟨draft', id, hderive, hr⟩⟩ := hstep.replays hsome
      · unfold CommitsPlan at hcommits
        rw [hr] at hcommits
        simp at hcommits
      have hdraft : draft' = draft := by
        unfold CommitsPlan at hcommits
        rw [hr] at hcommits
        simp only [Except.ok.injEq, Option.some.injEq, Prod.mk.injEq] at hcommits
        exact hcommits.1
      rw [hdraft] at hderive
      have hsame := halike es run es' draft first heq hwritten hderive
      refine ⟨?_, fun _ => ⟨first, hwritten, hsame⟩⟩
      rw [worldAfter_snoc, hworld]
      exact hholds.congr hsame

end runs

end sow.workflows
