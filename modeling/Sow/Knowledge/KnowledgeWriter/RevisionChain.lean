import Sow.Knowledge.KnowledgeWriter.WriterAtomicity

open sow.js sow.effect sow.markdown_vault

namespace sow.knowledge_writer

section head

variable (listing : Listing) (sha256 : Sha256)

/-- The files that a listing of the vault reads. -/
def listedFiles (files : Files) : VaultSnapshot where
  entries := files.entries.filter fun e => listing.listed e.1
  nodup := files.nodup.sublist (List.filter_sublist.map Prod.fst)

/-- The revision id of the vault as it stands. -/
def headRevision (files : Files) : RevisionId := computeRevisionId sha256 (listedFiles listing files)

variable {listing sha256} {files files' : Files}

theorem snapshots_listedFiles : Snapshots listing files (listedFiles listing files) := by
  intro p
  ext content
  rw [Map.get_eq_some_iff]
  unfold listedFiles
  simp only [List.mem_filter]
  split
  · next hlisted => rw [Map.get_eq_some_iff, and_iff_left hlisted]
  · next hlisted => simp [hlisted]

/-- Every snapshot that is read from the vault has its revision id. -/
theorem computeRevisionId_snapshot {snapshot : VaultSnapshot} (h : Snapshots listing files snapshot) :
    computeRevisionId sha256 snapshot = headRevision listing sha256 files :=
  computeRevisionId_congr fun p => (h p).trans (snapshots_listedFiles p).symm

/-- Where the head is read at all, it is read as it stands. -/
theorem readVaultHeadRevision_head {adm : VaultOp → Choice → Prop} :
    wp (vaultFs listing) adm (readVaultHeadRevision sha256)
      (fun r files' => files' = files ∧ ∀ id, r = .ok id → id = headRevision listing sha256 files) files := by
  rw [readVaultHeadRevision, wp_bind]
  refine readSnapshot_wp (fun snapshot hsnapshot => ⟨rfl, fun id hid => ?_⟩) fun cause => ⟨rfl, fun id hid => ?_⟩
  · rw [← Except.ok.inj hid]
    exact computeRevisionId_snapshot hsnapshot
  · exact absurd hid (by simp)

/-- The head does not depend on staging files. -/
theorem headRevision_of_sameLive (h : SameLive files files') : headRevision listing sha256 files' = headRevision listing sha256 files := by
  apply computeRevisionId_snapshot
  intro p
  rw [snapshots_listedFiles p]
  split
  · next hlisted => exact h p (listing.live_of_listed p hlisted)
  · rfl

end head

section path

/-- Writes, each with its base and its revision, that lead from one head to another. -/
def IsPath : RevisionId → List (RevisionId × RevisionId) → RevisionId → Prop
  | head, [], last => head = last
  | head, write :: writes, last => write.1 = head ∧ IsPath write.2 writes last

variable {head mid last : RevisionId} {writes writes' : List (RevisionId × RevisionId)}

theorem IsPath.append (h : IsPath head writes mid) (h' : IsPath mid writes' last) : IsPath head (writes ++ writes') last := by
  induction writes generalizing head with
  | nil =>
    unfold IsPath at h
    rwa [h]
  | cons write writes ih => exact ⟨h.1, ih h.2⟩

/-- The bases are the heads, but for the last one. -/
theorem IsPath.bases (h : IsPath head writes last) : writes.map Prod.fst ++ [last] = head :: writes.map Prod.snd := by
  induction writes generalizing head with
  | nil =>
    unfold IsPath at h
    rw [h]
    rfl
  | cons write writes ih =>
    rw [List.map_cons, List.map_cons, List.cons_append, ih h.2, h.1]

/-- While no write leads back to an earlier head, no two are made on one base. -/
theorem IsPath.nodup_bases (h : IsPath head writes last) (hnew : (head :: writes.map Prod.snd).Nodup) : (writes.map Prod.fst).Nodup := by
  rw [← h.bases] at hnew
  exact hnew.of_append_left

end path

section outcome

variable {listing : Listing} {choose : Nat → KwOp → KwChoice} {command : KnowledgeWriteCommand} {deps : KnowledgeWriterDeps} {w w' : World}
  {r : Except Cause (Except WriteFailure WriteSuccess)}

/-- A call commits, or reports no commit and leaves the live files as they are. -/
theorem Outcome.commits_or_same (h : Outcome listing choose command deps w r w') :
    (∃ id, Commits listing choose command deps w id w'.files ∧ ∀ id', durableRevision r = some id' → id' = id) ∨
      durableRevision r = none ∧ (Restores choose → SameLive w.files w'.files) := by
  cases hid : durableRevision r with
  | some id => exact .inl ⟨id, h.commits hid, fun id' hid' => (Option.some.inj hid').symm⟩
  | none =>
    cases r with
    | error cause =>
      -- A call that crashes may have committed.
      obtain hsame | ⟨id, hcommits⟩ := h
      · exact .inr ⟨rfl, hsame⟩
      · exact .inl ⟨id, hcommits, fun id' hid' => absurd hid'.symm (Option.some_ne_none id')⟩
    | ok result =>
      refine .inr ⟨rfl, ?_⟩
      cases result with
      | error e =>
        have hnone : e.durable = none := hid
        simp only [Outcome, hnone] at h
        exact h
      | ok success =>
        have hreplayed : success.replayed = true := by
          by_contra hfresh
          simp [durableRevision, hfresh] at hid
        simp only [Outcome, hreplayed, if_true] at h
        rw [h]
        exact fun _ => SameLive.refl _

end outcome

/-- A plan handed to the writer, with what its ports do meanwhile. -/
structure Submission where
  command : KnowledgeWriteCommand
  deps : KnowledgeWriterDeps
  choose : Nat → KwOp → KwChoice

namespace Submission

variable (listing : Listing) (sha256 : Sha256)

/-- One call of `applyPlan`. -/
def submit (s : Submission) (w : World) : Except Cause (Except WriteFailure WriteSuccess) × World :=
  (kwPorts listing).run s.choose 0 (applyPlan s.command s.deps) w

/-- The write that a call reports: its base and its revision. -/
def reported (s : Submission) (r : Except Cause (Except WriteFailure WriteSuccess)) : Option (RevisionId × RevisionId) :=
  (durableRevision r).map fun id => (s.command.expectedBaseRevision, id)

/-- Its digests are those of the vault, its restoring writes succeed, and the vault lists what its plan names. -/
structure Regular (s : Submission) : Prop where
  digests : s.deps.sha256 = sha256
  restores : Restores s.choose
  listed : ∀ plan, runGate s.deps.gate s.command.plan = .ok plan → ∀ p ∈ plannedPaths plan, listing.listed p = true

variable {listing sha256} {s : Submission} {w : World}

/-- A commit leads from the base that its command expects to its revision. -/
theorem isPath_of_commits {id : RevisionId} {files : Files} (hs : s.Regular listing sha256)
    (h : Commits listing s.choose s.command s.deps w id files) :
    IsPath (headRevision listing sha256 w.files) [(s.command.expectedBaseRevision, id)] (headRevision listing sha256 files) := by
  obtain ⟨plan, snapshot, committed, hcommit⟩ := h
  have hbase : headRevision listing sha256 w.files = s.command.expectedBaseRevision := by
    rw [← computeRevisionId_snapshot hcommit.base, ← hs.digests]
    exact hcommit.expected
  have hafter : headRevision listing sha256 files = id := by
    rw [← hs.digests]
    exact (hcommit.reread (hs.listed plan hcommit.gated) snapshots_listedFiles).2
  exact ⟨hbase.symm, hafter.symm⟩

/-- One call makes one write at most, on the head that it finds, and makes the one that it reports. -/
theorem exists_path_submit (hs : s.Regular listing sha256) : ∃ writes,
    IsPath (headRevision listing sha256 w.files) writes (headRevision listing sha256 (s.submit listing w).2.files) ∧
    (s.reported (s.submit listing w).1).toList.Sublist writes ∧
    (writes.map Prod.fst).Sublist [s.command.expectedBaseRevision] := by
  obtain ⟨id, hcommits, hreported⟩ | ⟨hnone, hsame⟩ := (applyPlan_outcome listing s.command s.deps s.choose w).commits_or_same
  · refine ⟨_, isPath_of_commits hs hcommits, ?_, List.Sublist.refl _⟩
    unfold reported
    cases hid : durableRevision (s.submit listing w).1 with
    | none => exact List.nil_sublist _
    | some id' =>
      obtain rfl := hreported id' hid
      exact List.Sublist.refl _
  · refine ⟨[], (headRevision_of_sameLive (hsame hs.restores)).symm, ?_, List.nil_sublist _⟩
    unfold reported
    rw [show durableRevision (s.submit listing w).1 = none from hnone]
    exact List.nil_sublist _

/-- Its plan names the path. -/
def Names (s : Submission) (p : Path) : Prop := ∃ plan, runGate s.deps.gate s.command.plan = .ok plan ∧ p ∈ plannedPaths plan

/-- One call removes no live file, and leaves those that its plan does not name. -/
theorem submit_keeps (hs : s.Regular listing sha256) {p : Path} (hlive : ¬ IsStaging p) :
    (p ∈ w.files.keys → p ∈ (s.submit listing w).2.files.keys) ∧
    (¬ s.Names p → (s.submit listing w).2.files.get p = w.files.get p) := by
  obtain ⟨id, ⟨plan, snapshot, committed, hcommit⟩, -⟩ | ⟨-, hsame⟩ := (applyPlan_outcome listing s.command s.deps s.choose w).commits_or_same
  · have hstaged : ∀ q ∈ plannedPaths plan, ¬ IsStaging q := fun q hq => listing.live_of_listed q (hs.listed plan hcommit.gated q hq)
    refine ⟨fun hp => ?_, fun hnames => ?_⟩
    · rw [Map.mem_keys_iff] at hp ⊢
      unfold submit
      cases hget : committed.get p with
      | some content => rw [(hcommit.inPlace hstaged).holds p content hget, Option.isSome_some]
      | none => rwa [(hcommit.inPlace hstaged).frame p hlive hget]
    · apply hcommit.get_of_notMem_plannedPaths hstaged hlive
      exact fun hp => hnames ⟨plan, hcommit.gated, hp⟩
  · have hget : (s.submit listing w).2.files.get p = w.files.get p := hsame hs.restores p hlive
    refine ⟨fun hp => ?_, fun _ => hget⟩
    rw [Map.mem_keys_iff] at hp ⊢
    rwa [hget]

end Submission

/-- Calls in turn: the writes that they report, and the vault that they leave. -/
def submitAll (listing : Listing) : World → List Submission → List (RevisionId × RevisionId) × World
  | w, [] => ([], w)
  | w, s :: rest =>
    let (r, w') := s.submit listing w
    let (writes, last) := submitAll listing w' rest
    ((s.reported r).toList ++ writes, last)

/-- What a run wrote: writes from head to head, each by a call on the base that it expects, with the
    reported ones among them in their order. -/
structure IsHistory (head last : RevisionId) (bases : List RevisionId) (reported writes : List (RevisionId × RevisionId)) : Prop where
  path : IsPath head writes last
  reported : reported.Sublist writes
  bases : (writes.map Prod.fst).Sublist bases

theorem IsHistory.append {head mid last : RevisionId} {bases bases' : List RevisionId}
    {reported reported' writes writes' : List (RevisionId × RevisionId)} (h : IsHistory head mid bases reported writes)
    (h' : IsHistory mid last bases' reported' writes') : IsHistory head last (bases ++ bases') (reported ++ reported') (writes ++ writes') where
  path := h.path.append h'.path
  reported := h.reported.append h'.reported
  bases := by
    rw [List.map_append]
    exact h.bases.append h'.bases

/-- The creation of one note, submitted without faults. -/
def createSubmission : Submission := ⟨createCommand notePlan, createDeps notePlan, createChoices⟩

theorem regular_createSubmission : createSubmission.Regular memoryListing (tabulated createDigests) where
  digests := rfl
  restores := faultFree_restoring _ _
  listed := by
    intro plan hgate
    obtain rfl : notePlan = plan := Except.ok.inj (Eq.trans rfl hgate)
    decide

/-- A note beside the one that is created. -/
def besideVault : World := ⟨.ofList [(str "b.md", str "x")], .empty, []⟩

section stale

/-- A vault that a note was written to since the plan for an empty one was made. -/
def writtenVault : World := ⟨.ofList [(str "a.md", str "hi")], .empty, []⟩

end stale

end sow.knowledge_writer
