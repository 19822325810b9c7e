import Sow.Knowledge.KnowledgeWriter.MemoryPorts
import Sow.Knowledge.KnowledgeWriter.WriterSpec

open sow.js sow.effect sow.markdown_vault

namespace sow.knowledge_writer

/-- The revision that is durable although the call returned a failure. -/
def WriteFailure.durable : WriteFailure → Option RevisionId
  | .audit_record_failed revisionId _ => some revisionId
  | .revision_record_failed revisionId _ => some revisionId
  | _ => none

section

variable (listing : Listing) (choose : Nat → KwOp → KwChoice) (command : KnowledgeWriteCommand)
  (deps : KnowledgeWriterDeps) (w : World)

/-- The bytes that the call committed for a file of its projection. -/
def CommittedBytes (plan : KnowledgeMutationPlan) (snapshot : VaultSnapshot) (p : Path) (content bytes : JsString) : Prop :=
  match deps.signing with
  | none => bytes = content
  | some signing => StampOutcome deps.sha256 snapshot plan signing
      ⟨command.sourceEventRef, command.expectedBaseRevision⟩ listing choose (applyPlan command deps) (w, 0) p content bytes

/-- The snapshot that the call commits: its projection, with the bytes of `CommittedBytes`. -/
structure IsProjection (plan : KnowledgeMutationPlan) (snapshot committed : VaultSnapshot) : Prop where
  projected : ∀ p content, (projectPlan snapshot plan).get p = some content →
    ∃ bytes, committed.get p = some bytes ∧ CommittedBytes listing choose command deps w plan snapshot p content bytes
  absent : ∀ p, (projectPlan snapshot plan).get p = none → committed.get p = none

/-- What one commit of `applyPlan`, called in the world `w`, made of its files. -/
structure IsCommit (plan : KnowledgeMutationPlan) (snapshot committed : VaultSnapshot) (revisionId : RevisionId)
    (fs' : Files) : Prop extends IsProjection listing choose command deps w plan snapshot committed where
  gated : runGate deps.gate command.plan = .ok plan
  base : Snapshots listing w.files snapshot
  expected : computeRevisionId deps.sha256 snapshot = command.expectedBaseRevision
  checked : checkChanges deps plan snapshot (diffChanges snapshot (projectPlan snapshot plan)) = .ok ()
  revision : computeRevisionId deps.sha256 committed = revisionId
  inPlace : (∀ p ∈ plannedPaths plan, ¬ IsStaging p) → InPlace committed w.files fs'

def Commits (revisionId : RevisionId) (fs' : Files) : Prop :=
  ∃ plan snapshot committed, IsCommit listing choose command deps w plan snapshot committed revisionId fs'

/-- How each way out of `applyPlan` leaves the world. A rejected promise falls on
    either side of the commit. -/
def Outcome (r : Except Cause (Except WriteFailure WriteSuccess)) (w' : World) : Prop :=
  match r with
  | .error _ => (Restores choose → SameLive w.files w'.files) ∨ ∃ id, Commits listing choose command deps w id w'.files
  | .ok (.error e) =>
    match e.durable with
    | some id => Commits listing choose command deps w id w'.files
    | none => Restores choose → SameLive w.files w'.files
  | .ok (.ok s) => if s.replayed = true then w' = w else Commits listing choose command deps w s.revisionId w'.files

end

section

variable {listing : Listing} {choose : Nat → KwOp → KwChoice} {command : KnowledgeWriteCommand}
  {deps : KnowledgeWriterDeps} {plan : KnowledgeMutationPlan}

private theorem durable_of_forM {α ε : Type} {f : ε → WriteFailure} (hf : ∀ x, (f x).durable = none)
    {check : α → Except ε Unit} {items : List α} {e : WriteFailure}
    (h : (items.forM fun a => (check a).mapError f) = .error e) : e.durable = none := by
  induction items with
  | nil => cases h
  | cons a items ih =>
    change ((check a).mapError f >>= fun _ => items.forM fun a => (check a).mapError f) = _ at h
    cases hc : check a with
    | error x =>
      rw [hc] at h
      cases h
      exact hf x
    | ok u =>
      rw [hc] at h
      exact ih h

private theorem bind_eq_error {α β ε : Type} {x : Except ε α} {k : α → Except ε β} {e : ε}
    (h : (x >>= k) = .error e) : x = .error e ∨ ∃ a, k a = .error e := by
  cases x with
  | error e' => exact .inl (by cases h; rfl)
  | ok a => exact .inr ⟨a, h⟩

/-- The guards refuse with failures of their own. -/
theorem durable_of_checkChanges {snapshot : VaultSnapshot} {changes : List FileChange} {e : WriteFailure}
    (h : checkChanges deps plan snapshot changes = .error e) : e.durable = none := by
  rcases bind_eq_error h with h | ⟨_, h⟩
  · exact durable_of_forM (fun _ => rfl) h
  · rcases bind_eq_error h with h | ⟨_, h⟩
    · exact durable_of_forM (fun _ => rfl) h
    · exact durable_of_forM (fun _ => rfl) h

private theorem ok_of_forM {α ε : Type} {check : α → Except ε Unit} {items : List α} (h : items.forM check = .ok ()) :
    ∀ a ∈ items, check a = .ok () := by
  induction items with
  | nil => simp
  | cons a items ih =>
    change (check a >>= fun _ => items.forM check) = _ at h
    cases hc : check a with
    | error e =>
      rw [hc] at h
      cases h
    | ok u =>
      rw [hc] at h
      exact List.forall_mem_cons.mpr ⟨hc, ih h⟩

/-- The writer's own ownership check passes every change that the guards pass. -/
theorem owned_of_checkChanges {snapshot : VaultSnapshot} {changes : List FileChange} (hcheck : deps.ownershipCheck = none)
    (h : checkChanges deps plan snapshot changes = .ok ()) {c : FileChange} (hc : c ∈ changes) :
    checkOwnership ⟨c.path, snapshot.get c.path, c.content, plan⟩ = .ok () := by
  unfold checkChanges at h
  simp only [hcheck, Option.getD_none] at h
  cases hpaths : changes.forM fun change =>
      (deps.workspacePathCheck change.path plan).mapError WriteFailure.workspace_path_violation with
  | error e =>
    rw [hpaths] at h
    cases h
  | ok u =>
    rw [hpaths] at h
    cases howned : changes.forM fun change =>
        (enforceHumanOwnership ⟨change.path, snapshot.get change.path, change.content, plan⟩).mapError WriteFailure.ownership_violation with
    | error e =>
      change ((changes.forM fun change =>
        (enforceHumanOwnership ⟨change.path, snapshot.get change.path, change.content, plan⟩).mapError WriteFailure.ownership_violation)
          >>= _) = _ at h
      rw [howned] at h
      cases h
    | ok u =>
      have hone := ok_of_forM howned c hc
      change (checkOwnership ⟨c.path, snapshot.get c.path, c.content, plan⟩).mapError _ = _ at hone
      cases hown : checkOwnership ⟨c.path, snapshot.get c.path, c.content, plan⟩ with
      | error e =>
        rw [hown] at hone
        cases hone
      | ok u => rfl

/-- Only the vault's own operations touch its files. -/
theorem port_wp {op : KwOp} (hop : ∀ vop, op ≠ .vault vop) {Q : Except Cause op.Ret → World × Nat → Prop}
    {w : World × Nat} (hp : ∀ r w', w'.1.files = w.1.files → Q r w') :
    wp (scriptedPorts listing choose) (fun _ _ => True) (.perform op) Q w := by
  rw [wp_perform]
  intro _ _
  refine hp _ _ ?_
  cases op with
  | vault vop => exact absurd rfl (hop vop)
  | secrets sop => rfl
  | getByIdempotencyKey key => rfl
  | now => rfl
  | record revision =>
    simp only [Handler.scripted, kwPorts]
    split <;> rfl
  | append record =>
    simp only [Handler.scripted, kwPorts]
    split <;> rfl

/-- Recording leaves the files alone, and reports the revision that stands. -/
theorem recordCommit_wp {changes : List FileChange} {newRevision : RevisionId} {w : World × Nat}
    {Q : Except Cause (Except WriteFailure WriteSuccess) → World × Nat → Prop}
    (hthrow : ∀ cause w', w'.1.files = w.1.files → Q (.error cause) w')
    (herr : ∀ e w', w'.1.files = w.1.files → e.durable = some newRevision → Q (.ok (.error e)) w')
    (hok : ∀ s w', w'.1.files = w.1.files → s.revisionId = newRevision → s.replayed = false → Q (.ok (.ok s)) w') :
    wp (scriptedPorts listing choose) (fun _ _ => True) (recordCommit command deps plan changes newRevision) Q w := by
  rw [recordCommit, wp_bind]
  refine port_wp (by simp) fun r w₁ h₁ => ?_
  cases r with
  | error cause => exact hthrow cause w₁ h₁
  | ok occurredAt =>
    simp only [wp_bind, wp_attempt]
    refine port_wp (by simp) fun r w₂ h₂ => ?_
    cases r with
    | error cause => exact herr _ w₂ (h₂.trans h₁) rfl
    | ok _ =>
      simp only [wp_bind, wp_attempt]
      refine port_wp (by simp) fun r w₃ h₃ => ?_
      cases r with
      | error cause => exact herr _ w₃ (h₃.trans (h₂.trans h₁)) rfl
      | ok _ => exact hok _ w₃ (h₃.trans (h₂.trans h₁)) rfl rfl

/-- Looking a key up answers with the revision recorded under it. -/
theorem getByIdempotencyKey_wp {key : JsString} {Q : Except Cause (Option CommittedRevision) → World × Nat → Prop}
    {w : World × Nat} (hok : ∀ n, Q (.ok (w.1.revisions.get key)) (w.1, n)) (herr : ∀ cause n, Q (.error cause) (w.1, n)) :
    wp (scriptedPorts listing choose) (fun _ _ => True)
      (callPort (.getByIdempotencyKey key)) Q w := by
  rw [wp_perform]
  intro _ _
  simp only [Handler.scripted, kwPorts]
  cases (choose w.2 (.getByIdempotencyKey key)).outcome with
  | proceed => exact hok _
  | fault cause residue => exact herr cause _

variable {snapshot : VaultSnapshot} {w : World} {n : Nat}

/-- A file that the projection leaves as it was keeps its bytes. -/
theorem CommittedBytes.eq_of_unchanged {p : Path} {content bytes : JsString}
    (h : CommittedBytes listing choose command deps w plan snapshot p content bytes)
    (hsame : snapshot.get p = some content) : bytes = content := by
  rw [CommittedBytes] at h
  split at h
  · exact h
  · have hnone : pageToStamp deps.sha256 snapshot p content = none := by rw [pageToStamp, if_pos hsame]
    rwa [StampOutcome, hnone] at h

/-- A projected file is committed as it is, or stamped. -/
theorem CommittedBytes.cases {p : Path} {content bytes : JsString}
    (h : CommittedBytes listing choose command deps w plan snapshot p content bytes) :
    bytes = content ∨ deps.signing.isSome ∧ ∃ stamp, bytes = embedStamp content stamp := by
  unfold CommittedBytes at h
  split at h
  · exact .inl h
  · next signing hsigning =>
    unfold StampOutcome at h
    split at h
    · exact .inl h
    · obtain ⟨w', -, rfl⟩ := h
      generalize (scriptedPorts listing choose).eval (mintStamp plan p _ signing _) w' = out
      match out.1 with
      | .ok (.ok stamp) => exact .inr ⟨by rw [hsigning]; rfl, stamp, rfl⟩
      | .ok (.error e) => exact .inl rfl
      | .error cause => exact .inl rfl

/-- Only paths that the plan names change. -/
theorem IsProjection.get_of_notMem {committed : VaultSnapshot}
    (h : IsProjection listing choose command deps w plan snapshot committed) {p : Path} (hp : p ∉ plannedPaths plan) :
    committed.get p = snapshot.get p := by
  have hkeep := projectPlan_get_of_notMem snapshot plan hp
  cases hget : snapshot.get p with
  | none => exact h.absent p (hkeep.trans hget)
  | some content =>
    obtain ⟨bytes, hbytes, hout⟩ := h.projected p content (hkeep.trans hget)
    rw [hbytes, hout.eq_of_unchanged hget]

/-- Committing any snapshot that the projection may have become. -/
theorem commitSnapshot_wp {committed : VaultSnapshot} {changes : List FileChange}
    (hproj : IsProjection listing choose command deps w plan snapshot committed)
    (hgate : runGate deps.gate command.plan = .ok plan) (hbase : Snapshots listing w.files snapshot)
    (hexpected : computeRevisionId deps.sha256 snapshot = command.expectedBaseRevision)
    (hchecked : checkChanges deps plan snapshot (diffChanges snapshot (projectPlan snapshot plan)) = .ok ()) :
    wp (scriptedPorts listing choose) (fun _ _ => True)
      (commitSnapshot command deps plan changes (diffChanges snapshot committed) committed)
      (fun r w' => Outcome listing choose command deps w r w'.1) (w, n) := by
  have hdone : ∀ fs', fs' = markdown_vault.committed (diffChanges snapshot committed)
      (tokenOf (computeRevisionId deps.sha256 committed)) w.files → Commits listing choose command deps w
        (computeRevisionId deps.sha256 committed) fs' := by
    rintro fs' rfl
    refine ⟨plan, snapshot, committed, hproj, hgate, hbase, hexpected, hchecked, rfl, fun hstaged => ?_⟩
    refine inPlace_committed (fun c hc => hstaged c.path ?_) hbase
    by_contra hp
    obtain ⟨hget, hne⟩ := mem_diffChanges.mp hc
    exact hne ((hproj.get_of_notMem hp).symm.trans hget)
  rw [commitSnapshot, wp_bind]
  refine vault_wp (atomicCommit_spec _ (fun n => ?_) (fun e fs' hsame n => ?_) fun cause fs' hsame n => ?_)
  · refine recordCommit_wp (fun cause w' hw' => ?_) (fun e w' hw' he => ?_) fun s w' hw' hid hs => ?_
    · exact Or.inr ⟨_, hdone _ hw'⟩
    · simp only [Outcome, he]
      exact hdone _ hw'
    · simp only [Outcome, hs, hid]
      exact hdone _ hw'
  · cases e <;> exact hsame
  · exact Or.inl hsame

theorem commitProjection_wp (hgate : runGate deps.gate command.plan = .ok plan) (hbase : Snapshots listing w.files snapshot)
    (hexpected : computeRevisionId deps.sha256 snapshot = command.expectedBaseRevision)
    (hchecked : checkChanges deps plan snapshot (diffChanges snapshot (projectPlan snapshot plan)) = .ok ())
    (hpass : Passes (scriptedPorts listing choose) (applyPlan command deps) (w, 0)
      (commitProjection command deps plan snapshot (projectPlan snapshot plan)) (w, n)) :
    wp (scriptedPorts listing choose) (fun _ _ => True)
      (commitProjection command deps plan snapshot (projectPlan snapshot plan))
      (fun r w' => Outcome listing choose command deps w r w'.1) (w, n) := by
  rw [commitProjection] at hpass ⊢
  cases hsigning : deps.signing with
  | none =>
    refine commitSnapshot_wp ⟨fun p content hp => ⟨content, hp, ?_⟩, fun _ hp => hp⟩ hgate hbase hexpected hchecked
    rw [CommittedBytes, hsigning]
  | some signing =>
    simp only [hsigning] at hpass
    simp only [wp_bind]
    refine embedLoop_wp (projectPlan snapshot plan).nodup (fun e he => Map.get_eq_some_iff.mpr he) ?_
    intro committed n hstamped hother
    refine commitSnapshot_wp ⟨fun p content hp => ?_, fun p hp => ?_⟩ hgate hbase hexpected hchecked
    · obtain ⟨bytes, hbytes, hout⟩ := hstamped (p, content) (Map.get_eq_some_iff.mp hp)
      refine ⟨bytes, hbytes, ?_⟩
      rw [CommittedBytes, hsigning]
      exact hout.imp fun mint w' hmint => (hmint.bind _).after hpass
    · rw [hother p (Map.get_eq_none_iff.mp hp), hp]

theorem applyPlan_wp :
    wp (scriptedPorts listing choose) (fun _ _ => True) (applyPlan command deps)
      (fun r w' => Outcome listing choose command deps w r w'.1) (w, 0) := by
  rw [applyPlan]
  refine wp_bind_passes (getByIdempotencyKey_wp (fun n => ?_) fun cause n => Or.inl fun _ => SameLive.refl _)
  cases w.revisions.get command.idempotencyKey with
  | some prior => exact fun _ => rfl
  | none =>
    cases hgate : runGate deps.gate command.plan with
    | error rejection => exact fun _ _ => SameLive.refl _
    | ok plan =>
      intro hstart
      refine wp_bind_passes (vault_wp (readSnapshot_wp (fun snapshot hbase n => ?_) fun cause n =>
        Or.inl fun _ => SameLive.refl _))
      intro hread
      simp only at hread ⊢
      split
      · exact fun _ => SameLive.refl _
      · next hrev =>
        rw [if_neg hrev] at hread
        cases hchecked : checkChanges deps plan snapshot (diffChanges snapshot (projectPlan snapshot plan)) with
        | error e =>
          have he := durable_of_checkChanges hchecked
          simp [Outcome, he, SameLive.refl]
        | ok u =>
          rw [hchecked] at hread
          refine commitProjection_wp hgate hbase (by simpa [compareRevision] using hrev) hchecked ?_
          rw [applyPlan, hgate]
          exact hstart.trans hread

end

namespace IsCommit

variable {listing : Listing} {choose : Nat → KwOp → KwChoice} {command : KnowledgeWriteCommand}
  {deps : KnowledgeWriterDeps} {w : World} {plan : KnowledgeMutationPlan} {snapshot committed : VaultSnapshot}
  {revisionId : RevisionId} {fs' : Files}

/-- Without a signing key the projection is committed as it is. -/
theorem committed_eq_projected (h : IsCommit listing choose command deps w plan snapshot committed revisionId fs')
    (hsigning : deps.signing = none) (p : Path) : committed.get p = (projectPlan snapshot plan).get p := by
  cases hp : (projectPlan snapshot plan).get p with
  | none => exact h.absent p hp
  | some content =>
    obtain ⟨bytes, hbytes, hout⟩ := h.projected p content hp
    rw [CommittedBytes, hsigning] at hout
    rw [hbytes, hout]

/-- Every live path that the plan does not name is byte-identical. -/
theorem get_of_notMem_plannedPaths
    (h : IsCommit listing choose command deps w plan snapshot committed revisionId fs')
    (hstaged : ∀ p ∈ plannedPaths plan, ¬ IsStaging p) {p : Path} (hlive : ¬ IsStaging p) (hp : p ∉ plannedPaths plan) :
    fs'.get p = w.files.get p := by
  have hkeep := h.get_of_notMem hp
  cases hget : snapshot.get p with
  | none => exact (h.inPlace hstaged).frame p hlive (hkeep.trans hget)
  | some content =>
    have hfs := (h.base p).symm.trans hget
    split at hfs
    · rw [hfs]
      exact (h.inPlace hstaged).holds p content (hkeep.trans hget)
    · cases hfs

/-- Where the vault lists the paths that the plan names, it reads back as the
    committed snapshot, under the revision that the call returned. -/
theorem reread (h : IsCommit listing choose command deps w plan snapshot committed revisionId fs')
    (hlisted : ∀ p ∈ plannedPaths plan, listing.listed p = true) {snapshot' : VaultSnapshot}
    (hreread : Snapshots listing fs' snapshot') :
    (∀ p, snapshot'.get p = committed.get p) ∧ computeRevisionId deps.sha256 snapshot' = revisionId := by
  have hplace := h.inPlace fun p hp => listing.live_of_listed p (hlisted p hp)
  have hsame : ∀ p, snapshot'.get p = committed.get p := by
    intro p
    rw [hreread p]
    split
    · next hl =>
      cases hget : committed.get p with
      | some content => exact hplace.holds p content hget
      | none =>
        rw [hplace.frame p (listing.live_of_listed p hl) hget]
        have hnone : snapshot.get p = none := by
          rw [Map.get_eq_none_iff]
          intro hmem
          obtain ⟨content, hcontent⟩ :=
            Option.isSome_iff_exists.mp (Map.mem_keys_iff.mp (mem_keys_projectPlan snapshot plan hmem))
          obtain ⟨bytes, hbytes, -⟩ := h.projected p content hcontent
          rw [hget] at hbytes
          cases hbytes
        rw [h.base p, if_pos hl] at hnone
        exact hnone
    · next hl =>
      have hbase : snapshot.get p = none := by rw [h.base p, if_neg hl]
      rw [h.get_of_notMem fun hp => hl (hlisted p hp), hbase]
  exact ⟨hsame, (computeRevisionId_congr hsame).trans h.revision⟩

end IsCommit

/-- How a run of `applyPlan` alone on a vault comes out. -/
theorem applyPlan_outcome (listing : Listing) (command : KnowledgeWriteCommand) (deps : KnowledgeWriterDeps)
    (choose : Nat → KwOp → KwChoice) (w : World) :
    Outcome listing choose command deps w ((kwPorts listing).run choose 0 (applyPlan command deps) w).1
      ((kwPorts listing).run choose 0 (applyPlan command deps) w).2 := by
  obtain ⟨hr, hw⟩ := @eval_scripted _ _ _ _ _ _ (kwPorts listing) choose (applyPlan command deps) w 0
  have hwp := wp_eval_iff.mp (@applyPlan_wp listing choose command deps w)
  rwa [hr, hw] at hwp

/-- The revision that a call reports as durable: that of a success which is no
    replay, or of a failure to record one. -/
def durableRevision : Except Cause (Except WriteFailure WriteSuccess) → Option RevisionId
  | .ok (.ok s) => if s.replayed then none else some s.revisionId
  | .ok (.error e) => e.durable
  | .error _ => none

theorem Outcome.commits {listing : Listing} {choose : Nat → KwOp → KwChoice} {command : KnowledgeWriteCommand}
    {deps : KnowledgeWriterDeps} {w w' : World} {r : Except Cause (Except WriteFailure WriteSuccess)} {id : RevisionId}
    (h : Outcome listing choose command deps w r w') (hid : durableRevision r = some id) :
    Commits listing choose command deps w id w'.files := by
  match r with
  | .ok (.ok s) =>
    rw [durableRevision] at hid
    split at hid
    · cases hid
    · next hs =>
      cases hid
      simpa [Outcome, hs] using h
  | .ok (.error e) =>
    rw [durableRevision] at hid
    simpa [Outcome, hid] using h

/-- A plan that creates one file. -/
def createPlan (path : Path) (h : path ≠ []) : KnowledgeMutationPlan :=
  planOf [⟨path, none, str "hi", none, h, by decide⟩] [] [] []

theorem notePath_ne_nil : str "a.md" ≠ [] := by decide

def notePlan : KnowledgeMutationPlan := createPlan (str "a.md") notePath_ne_nil
def textPlan : KnowledgeMutationPlan := createPlan (str "a.txt") (by decide)

/-- The digests that creating either file in an empty vault computes. -/
def createDigests : KnownDigests where
  entries :=
    [(utf8 [], str "e3b0c44298fc1c149afbf4c8996fb92427ae41e4649b934ca495991b7852b855"),
      (utf8 (str "hi"), str "8f434346648f6b96df89dda901c5176b10a6d83961dd3c1ac88b59b2dc327aa4"),
      (utf8 (str "a.md" ++ [0] ++ str "8f434346648f6b96df89dda901c5176b10a6d83961dd3c1ac88b59b2dc327aa4"),
        str "d2b1dea3610966aa40c405466ac9a29350db82115262c6bb375b42a9b479781a"),
      (utf8 (str "a.txt" ++ [0] ++ str "8f434346648f6b96df89dda901c5176b10a6d83961dd3c1ac88b59b2dc327aa4"),
        str "89f50b815616c5f8ca3e992480a7bff0b605691550a1efa5d042d6f9399d9789"),
      (utf8 notePlan.data.stringify, str "db50a578618cb29218e1366fa4252dadd4598bc906895b9d771e3c380a368f12"),
      (utf8 textPlan.data.stringify, str "b8a192ef0df4847b9ca40124a6c758806b3bc1d455572746d04b748603642b01")]
  distinct := by decide +kernel
  digits := digits_of_all (by decide +kernel)

abbrev createCommand (plan : KnowledgeMutationPlan) : KnowledgeWriteCommand :=
  commandOf (tabulated createDigests) .empty plan (str "k1")

abbrev createDeps (plan : KnowledgeMutationPlan) : KnowledgeWriterDeps := memoryDeps (tabulated createDigests) plan none

abbrev createChoices : Nat → KwOp → KwChoice := faultFree (str "2026-01-01T00:00:00Z") (.ok [])

/-- The fault-free run of a plan on an empty vault. -/
def createRun (plan : KnowledgeMutationPlan) : Except Cause (Except WriteFailure WriteSuccess) × World :=
  (kwPorts memoryListing).run createChoices 0 (applyPlan (createCommand plan) (createDeps plan)) ⟨.empty, .empty, []⟩

end sow.knowledge_writer
