import Sow.Knowledge.KnowledgeWriter.WriterAtomicity

open sow.js sow.effect sow.markdown_vault

namespace sow.knowledge_writer

/-- No port fails, and what is recorded lands. -/
def Proceeds (_ : KwOp) (d : KwChoice) : Prop := d.outcome = .proceed ∧ d.landed = true

theorem Proceeds.restoring {op : KwOp} {d : KwChoice} (h : Proceeds op d) : KwRestoring op d := by
  cases op with
  | vault op =>
    cases op with
    | write path content => exact fun _ => h.1
    | remove path => exact fun _ => h.1
    | _ => trivial
  | _ => trivial

/-- A call that records no revision. -/
def KwOp.isApart (op : KwOp) : Prop := ∀ revision, op ≠ .record revision

section within

variable {α : Type}

theorem liftVault_apart (p : VaultM α) : Program.Within KwOp.isApart (liftVault p) := by
  refine (Program.within_lift KwOp.vault _ p).mono ?_
  rintro op ⟨vop, rfl⟩ revision
  exact KwOp.noConfusion

theorem liftSecrets_apart (p : SecretsM α) : Program.Within KwOp.isApart (liftSecrets p) := by
  refine (Program.within_lift KwOp.secrets _ p).mono ?_
  rintro op ⟨sop, rfl⟩ revision
  exact KwOp.noConfusion

theorem mintStamp_apart (plan : KnowledgeMutationPlan) (path : Path) (page : gbrain.PageProvenance) (signing : StamperDeps) (m : StampMeta) :
    Program.Within KwOp.isApart (mintStamp plan path page signing m) := by
  unfold mintStamp
  exact (Program.within_perform fun _ => KwOp.noConfusion).bind fun _ => liftSecrets_apart _

theorem within_attempt {A : KwOp → Prop} {p : KwM α} (hp : p.Within A) : Program.Within A p.attempt := by
  induction p with
  | pure a => trivial
  | throw e => trivial
  | call op k ih => exact ⟨hp.1, fun r => ih r (hp.2 r)⟩

theorem embedLoop_apart (sha256 : Sha256) (snapshot : VaultSnapshot) (plan : KnowledgeMutationPlan) (signing : StamperDeps) (m : StampMeta)
    (stamped : VaultSnapshot) (entries : List (Path × JsString)) :
    Program.Within KwOp.isApart (embedLoop sha256 snapshot plan signing m stamped entries) := by
  induction entries generalizing stamped with
  | nil => trivial
  | cons e rest ih =>
    obtain ⟨path, content⟩ := e
    unfold embedLoop
    cases pageToStamp sha256 snapshot path content with
    | none => exact ih stamped
    | some page =>
      refine (within_attempt (mintStamp_apart plan path page signing m)).bind fun r => ?_
      cases r with
      | error cause => exact ih _
      | ok minted =>
        cases minted with
        | error e => exact ih _
        | ok stamp => exact ih _

end within

section rules

variable {listing : Listing} {command : KnowledgeWriteCommand} {deps : KnowledgeWriterDeps} {w : World}

/-- Calls that record nothing leave the revisions alone. -/
theorem wp_apart {α : Type} {adm : KwOp → KwChoice → Prop} {p : KwM α} (hp : p.Within KwOp.isApart) :
    wp (kwPorts listing) adm p (fun _ w' => w'.revisions = w.revisions) w := by
  refine wp_of_within hp rfl fun op w' d hop _ hw' => ?_
  cases op with
  | record revision => exact absurd rfl (hop revision)
  | append record =>
    simp only [kwPorts]
    split
    · exact hw'
    · exact hw'
  | _ => exact hw'

/-- A call ends with a revision on record that it reports, or it leaves the revisions alone and reports none. -/
def Recorded (command : KnowledgeWriteCommand) (w : World) (r : Except Cause (Except WriteFailure WriteSuccess)) (w' : World) : Prop :=
  (∃ s revision, r = .ok (.ok s) ∧ s.replayed = false ∧ revision.revisionId = s.revisionId ∧
    w'.revisions = w.revisions.set command.idempotencyKey revision) ∨
  w'.revisions = w.revisions ∧ ∀ s, r ≠ .ok (.ok s)

theorem recordCommit_recorded {plan : KnowledgeMutationPlan} {changes : List FileChange} {newRevision : RevisionId} {w₁ : World}
    (hw₁ : w₁.revisions = w.revisions) :
    wp (kwPorts listing) Proceeds (recordCommit command deps plan changes newRevision) (Recorded command w) w₁ := by
  unfold recordCommit
  refine wp_call fun d hd => ⟨d.clock, w₁, by simp only [kwPorts, answer, hd.1], ?_⟩
  rw [wp_bind, wp_attempt, wp_perform]
  intro d hd
  simp only [kwPorts, answer, hd.1, hd.2, if_true]
  rw [wp_bind, wp_attempt, wp_perform]
  intro d hd
  simp only [hd.1, hd.2, if_true, hw₁]
  exact .inl ⟨_, _, rfl, rfl, rfl, rfl⟩

theorem commitSnapshot_recorded {plan : KnowledgeMutationPlan} {changes committedChanges : List FileChange} {committed : VaultSnapshot}
    {w₁ : World} (hw₁ : w₁.revisions = w.revisions) :
    wp (kwPorts listing) Proceeds (commitSnapshot command deps plan changes committedChanges committed) (Recorded command w) w₁ := by
  unfold commitSnapshot
  rw [wp_bind]
  refine (wp_apart (liftVault_apart _)).mono fun r w₂ hw₂ => ?_
  have hsame := hw₂.trans hw₁
  match r with
  | .error cause => exact .inr ⟨hsame, fun _ => by simp⟩
  | .ok (.error e) => exact .inr ⟨hsame, fun _ => by simp⟩
  | .ok (.ok ()) => exact recordCommit_recorded hsame

theorem commitProjection_recorded {plan : KnowledgeMutationPlan} {snapshot projected : VaultSnapshot} {w₁ : World}
    (hw₁ : w₁.revisions = w.revisions) :
    wp (kwPorts listing) Proceeds (commitProjection command deps plan snapshot projected) (Recorded command w) w₁ := by
  unfold commitProjection
  cases deps.signing with
  | none => exact commitSnapshot_recorded hw₁
  | some signing =>
    simp only
    rw [wp_bind]
    refine (wp_apart (embedLoop_apart ..)).mono fun r w₂ hw₂ => ?_
    cases r with
    | error cause => exact .inr ⟨hw₂.trans hw₁, fun _ => by simp⟩
    | ok committed => exact commitSnapshot_recorded (hw₂.trans hw₁)

/-- A plan under a key that has no revision is recorded if and only if the call succeeds. -/
theorem applyPlan_recorded (hnone : w.revisions.get command.idempotencyKey = none) :
    wp (kwPorts listing) Proceeds (applyPlan command deps) (Recorded command w) w := by
  have hfail : ∀ {w' : World} {r : Except Cause (Except WriteFailure WriteSuccess)}, w'.revisions = w.revisions →
      (∀ s, r ≠ .ok (.ok s)) → Recorded command w r w' := fun hw' hr => .inr ⟨hw', hr⟩
  unfold applyPlan
  refine wp_call fun d hd => ⟨none, w, by simp only [kwPorts, answer, hd.1, hnone], ?_⟩
  simp only
  cases runGate deps.gate command.plan with
  | error rejection => exact hfail rfl fun _ => by simp
  | ok plan =>
    simp only
    rw [wp_bind]
    refine (wp_apart (liftVault_apart _)).mono fun r w₁ hw₁ => ?_
    cases r with
    | error cause => exact hfail hw₁ fun _ => by simp
    | ok snapshot =>
      simp only
      split_ifs
      · exact hfail hw₁ fun _ => by simp
      · cases checkChanges deps plan snapshot (diffChanges snapshot (projectPlan snapshot plan)) with
        | error failure => exact hfail hw₁ fun _ => by simp
        | ok _ => exact commitProjection_recorded hw₁

/-- A key that has a revision is answered without a look at the plan. -/
theorem applyPlan_replayed {prior : CommittedRevision} (hprior : w.revisions.get command.idempotencyKey = some prior) :
    wp (kwPorts listing) Proceeds (applyPlan command deps)
      (fun r w' => w' = w ∧ r = .ok (.ok ⟨prior.revisionId, prior.auditRecord, true⟩)) w := by
  unfold applyPlan
  refine wp_call fun d hd => ⟨some prior, w, by simp only [kwPorts, answer, hd.1, hprior], ?_⟩
  exact ⟨rfl, rfl⟩

/-- How a call comes out, under any script of choices. -/
theorem applyPlan_wp_outcome :
    wp (kwPorts listing) KwRestoring (applyPlan command deps) (fun r w' => ∃ choose, Restores choose ∧ Outcome listing choose command deps w r w') w := by
  refine wp_of_run (fun op => ⟨faultFree [] (.ok []) 0 op, faultFree_restoring [] (.ok []) 0 op⟩) fun choose hadm => ?_
  exact ⟨choose, hadm, applyPlan_outcome listing command deps choose w⟩

end rules

end sow.knowledge_writer
