import Sow.Integrations.Tools.CreatedOnce
import Sow.Worker.Lifecycle.Recovery

open sow.js sow.effect sow.contracts sow.tools sow.workflows

namespace sow.worker

variable {Time Payload : Type}

/-- A recovery pass: what is recovered, and what the environment decides at its calls. -/
structure RecoveryPass (Time Payload : Type) where
  input : RecoverInput Time Payload
  choose : Nat → RecoverOp Time Payload → RecoverChoice Time Payload

section spec

variable [LinearOrder Time] (epoch : Time)

/-- The outcome of a pass, and the world after it with the drives made in it. -/
def RecoveryPass.run (w : ToolWorld Time Payload) (pass : RecoveryPass Time Payload) :
    Except Cause (Except RecoverError (RecoverOutcome Time)) × RecoverWorld Time Payload :=
  (recoveryHandler epoch).run pass.choose 0 (recoverRun pass.input) ⟨w, []⟩

/-- Passes one after the other. -/
def runRecoveries (w : ToolWorld Time Payload) (passes : List (RecoveryPass Time Payload)) : ToolWorld Time Payload :=
  passes.foldl (fun w pass => (pass.run epoch w).2.tools) w

def Drive.succeeded (drive : Drive Time Payload) : Prop := ∃ success, drive.answer = .ok (.ok success)

/-- What a pass must keep to; a step is known by its id, as in the ledger. -/
structure HonestPass (w : ToolWorld Time Payload) (pass : RecoveryPass Time Payload) : Prop where
  committed : ∀ step ∈ pass.input.resume.steps, committedStep (ledgerByStep pass.input.resume.ledger) step = true →
    ∀ drive ∈ (pass.run epoch w).2.drives, drive.write.stepId ≠ step.stepId
  ordered : ∃ order, StableSorted (fun step => REDRIVE_PRIORITY step.kind) pass.input.resume.uncommitted order ∧
    ((pass.run epoch w).2.drives.map fun drive => drive.write.stepId).Sublist (order.map ResumeStep.stepId)
  recovered : ∀ outcome, (pass.run epoch w).1 = .ok (.ok outcome) → outcome.recovered = true →
    ∀ step ∈ pass.input.resume.uncommitted, ∃ drive ∈ (pass.run epoch w).2.drives, drive.write.stepId = step.stepId ∧ drive.succeeded

/-- Honest and free of duplicates, through any number of passes. -/
structure HonestRecovery (w : ToolWorld Time Payload) (passes : List (RecoveryPass Time Payload)) : Prop where
  pass : ∀ before pass after, passes = before ++ pass :: after → HonestPass epoch (runRecoveries epoch w before) pass
  once : ∀ before after, passes = before ++ after → CreatesOnce w (runRecoveries epoch w before)

/-- The recovery has a write to drive for the step. -/
def Driveable (input : RecoverInput Time Payload) (step : ResumeStep) : Prop :=
  step.kind = .external_write ∧ ((writeByStep input.writes).get step.stepId).isSome

instance (input : RecoverInput Time Payload) : DecidablePred (Driveable input) := fun step =>
  inferInstanceAs (Decidable (step.kind = .external_write ∧ ((writeByStep input.writes).get step.stepId).isSome))

/-- The plan is refused, or every uncommitted step has a write to drive. -/
def AllDriveable (input : RecoverInput Time Payload) : Prop :=
  input.resume.Refused ∨
    ∀ step ∈ input.resume.uncommitted, ∃ step' ∈ input.resume.uncommitted, step'.stepId = step.stepId ∧ Driveable input step'

/-- The existence checks of the drives of a pass see what the vendor holds. -/
def RecoveryPass.Sighted (pass : RecoveryPass Time Payload) : Prop :=
  ∀ n op m op', sow.tools.Sighted op' ((pass.choose n op).driver m op')

end spec

section drives

variable {input : RecoverInput Time Payload} {planned : PlannedResumeStep} {rest : List PlannedResumeStep}

/-- The write of a step id is one of that id. -/
theorem stepId_of_writeByStep {writes : List (RecoverableWrite Time Payload)} {stepId : JsString} {write : RecoverableWrite Time Payload}
    (h : (writeByStep writes).get stepId = some write) : write.stepId = stepId := by
  have hfold : ∀ (m : Map JsString (RecoverableWrite Time Payload)),
      (∀ id w, m.get id = some w → w.stepId = id) →
        ∀ id w, (writes.foldl (fun m w => m.set w.stepId w) m).get id = some w → w.stepId = id := by
    clear h
    induction writes with
    | nil => exact fun m hm => hm
    | cons first writes ih =>
      intro m hm
      refine ih _ fun id w hget => ?_
      rw [Map.get_set] at hget
      split_ifs at hget with hid
      · obtain rfl := Option.some.inj hget
        exact hid
      · exact hm id w hget
  exact hfold .empty nofun stepId write h

/-- The ids of the steps that a plan has driven. -/
def drivenIds (input : RecoverInput Time Payload) (plan : List PlannedResumeStep) : List JsString :=
  ((redrives plan).filter fun step => Driveable input step).map ResumeStep.stepId

theorem drivenIds_of_not (h : ¬ (planned.disposition = .redrive ∧ Driveable input planned.step)) :
    drivenIds input (planned :: rest) = drivenIds input rest := by
  unfold drivenIds redrives
  rw [List.filter_cons]
  split_ifs with hredrive
  · have hnot : ¬ Driveable input planned.step := fun hdriveable => h ⟨by simpa using hredrive, hdriveable⟩
    rw [List.map_cons, List.filter_cons_of_neg (by simpa using hnot)]
  · rfl

theorem drivenIds_of_driveable (hredrive : planned.disposition = .redrive) (hdriveable : Driveable input planned.step) :
    drivenIds input (planned :: rest) = planned.step.stepId :: drivenIds input rest := by
  unfold drivenIds redrives
  rw [List.filter_cons_of_pos (by simpa using hredrive), List.map_cons, List.filter_cons_of_pos (by simpa using hdriveable), List.map_cons]

theorem firstFailure_add {tally : DriveTally} {runId stepId : JsString} {res : Except EnvelopeReuseError (EnvelopeReuseSuccess Time)} :
    (tally.add runId stepId res).firstFailure = none ↔ tally.firstFailure = none ∧ ∃ success, res = .ok success := by
  unfold DriveTally.add
  cases res with
  | error e => simp
  | ok success =>
    dsimp only
    split_ifs <;> simp

/-- What driving a plan leaves behind. -/
structure DrivesMade (input : RecoverInput Time Payload) (plan : List PlannedResumeStep) (tally : DriveTally)
    (drives made : List (Drive Time Payload)) (r : Except Cause DriveTally) (w' : RecoverWorld Time Payload) : Prop where
  drives : w'.drives = drives ++ made
  order : (made.map fun drive => drive.write.stepId) <+: drivenIds input plan
  all : ∀ tally', r = .ok tally' → (made.map fun drive => drive.write.stepId) = drivenIds input plan ∧
    (tally'.firstFailure = none ↔ tally.firstFailure = none ∧ ∀ drive ∈ made, drive.succeeded)
  thrown : ∀ e, r = .error e → ∃ drive ∈ made, ¬ drive.succeeded

variable [LinearOrder Time] {epoch : Time}

theorem wp_driveSteps (plan : List PlannedResumeStep) (tally : DriveTally) (w : RecoverWorld Time Payload) :
    wp (recoveryHandler epoch) (fun _ _ => True) (driveSteps input plan tally)
      (fun r w' => ∃ made, DrivesMade input plan tally w.drives made r w') w := by
  induction plan generalizing tally w with
  | nil =>
    refine ⟨[], by simp, List.nil_prefix, fun tally' h => ?_, nofun⟩
    obtain rfl := Except.ok.inj h
    exact ⟨rfl, by simp⟩
  | cons planned rest ih =>
    have hidle : drivenIds input (planned :: rest) = drivenIds input rest →
        wp (recoveryHandler epoch) (fun _ _ => True) (driveSteps input rest tally)
          (fun r w' => ∃ made, DrivesMade input (planned :: rest) tally w.drives made r w') w := by
      intro hids
      refine (ih tally w).mono fun r w' hmade => ?_
      obtain ⟨made, hdrives, horder, hall, hthrown⟩ := hmade
      exact ⟨made, hdrives, hids ▸ horder, hids ▸ hall, hthrown⟩
    unfold driveSteps
    split_ifs with hskip hkind
    · exact hidle (drivenIds_of_not fun h => by rw [hskip] at h; cases h.1)
    · exact hidle (drivenIds_of_not fun h => hkind h.2.1)
    · cases hwrite : (writeByStep input.writes).get planned.step.stepId with
      | none => exact hidle (drivenIds_of_not fun h => by rw [Driveable, hwrite] at h; cases h.2.2)
      | some write =>
        have hredrive : planned.disposition = .redrive := by
          cases hdisposition : planned.disposition with
          | skip => exact absurd hdisposition hskip
          | redrive => rfl
        have hdriveable : Driveable input planned.step := ⟨not_not.mp hkind, by rw [hwrite]; rfl⟩
        have hids : drivenIds input (planned :: rest) = planned.step.stepId :: drivenIds input rest := drivenIds_of_driveable hredrive hdriveable
        have hid : write.stepId = planned.step.stepId := stepId_of_writeByStep hwrite
        dsimp only
        rw [wp_bind, wp_perform]
        intro d _
        have hlogged : ((recoveryHandler epoch).exec w (RecoverOp.drive input.envelopeReuse write) d).2.drives =
            w.drives ++ [⟨write, ((recoveryHandler epoch).exec w (RecoverOp.drive input.envelopeReuse write) d).1⟩] := rfl
        generalize (recoveryHandler epoch).exec w (RecoverOp.drive input.envelopeReuse write) d = answer at hlogged ⊢
        obtain ⟨r, w₁⟩ := answer
        dsimp only at hlogged ⊢
        cases r with
        | error e =>
          have hfailed : ¬ (⟨write, .error e⟩ : Drive Time Payload).succeeded := by
            rintro ⟨success, hsuccess⟩
            cases hsuccess
          refine ⟨[⟨write, .error e⟩], hlogged, ?_, nofun, fun _ _ => ⟨_, List.mem_singleton_self _, hfailed⟩⟩
          rw [hids, List.map_singleton, hid]
          exact List.prefix_append [planned.step.stepId] _
        | ok res =>
          refine (ih (tally.add input.runId planned.step.stepId res) w₁).mono fun r w' hmade => ?_
          obtain ⟨made, hdrives, horder, hall, hthrown⟩ := hmade
          have hsucceeded : (⟨write, .ok res⟩ : Drive Time Payload).succeeded ↔ ∃ success, res = .ok success := by
            simp [Drive.succeeded]
          refine ⟨⟨write, .ok res⟩ :: made, ?_, ?_, fun tally' h => ?_, fun e h => ?_⟩
          · rw [hdrives, hlogged, List.append_assoc, List.singleton_append]
          · rw [hids, List.map_cons, hid]
            exact List.cons_prefix_cons.mpr ⟨rfl, horder⟩
          · obtain ⟨hall', hnone⟩ := hall tally' h
            refine ⟨by rw [hids, List.map_cons, hid, hall'], ?_⟩
            rw [hnone, firstFailure_add, List.forall_mem_cons, hsucceeded, and_assoc]
          · obtain ⟨drive, hdrive, hfailed⟩ := hthrown e h
            exact ⟨drive, List.mem_cons_of_mem _ hdrive, hfailed⟩

/-- A recovery that is reported as failed makes no drive. -/
theorem wp_surfaceUnrecovered (message : JsString) (created reused : Nat) (w : RecoverWorld Time Payload) :
    wp (recoveryHandler epoch) (fun _ _ => True) (surfaceUnrecovered input message created reused)
      (fun r w' => w'.drives = w.drives ∧ ∀ outcome, r = .ok (.ok outcome) → outcome.recovered = false) w := by
  unfold surfaceUnrecovered
  rw [wp_bind, wp_perform]
  intro d _
  simp only [recoveryHandler]
  rw [wp_bind, wp_perform]
  intro d' _
  simp only
  cases d'.recorded with
  | error e => exact ⟨trivial, nofun⟩
  | ok recorded =>
    cases recorded with
    | error e => exact ⟨rfl, nofun⟩
    | ok item =>
      refine ⟨rfl, fun outcome h => ?_⟩
      obtain rfl := Except.ok.inj (Except.ok.inj h)
      rfl

/-- The outcome of a pass says that the run is recovered. -/
def SaysRecovered (r : Except Cause (Except RecoverError (RecoverOutcome Time))) : Prop :=
  ∃ outcome, r = .ok (.ok outcome) ∧ outcome.recovered = true

/-- What a pass over a plan makes of it. -/
structure PlanDriven (input : RecoverInput Time Payload) (plan : List PlannedResumeStep)
    (r : Except Cause (Except RecoverError (RecoverOutcome Time))) (w' : RecoverWorld Time Payload) : Prop where
  order : (w'.drives.map fun drive => drive.write.stepId) <+: drivenIds input plan
  all : SaysRecovered r → (w'.drives.map fun drive => drive.write.stepId) = drivenIds input plan
  recovered : SaysRecovered r ↔ ∀ drive ∈ w'.drives, drive.succeeded

theorem wp_recoverPlan (plan : List PlannedResumeStep) (w : ToolWorld Time Payload) :
    wp (recoveryHandler epoch) (fun _ _ => True) (recoverPlan input plan) (PlanDriven input plan) ⟨w, []⟩ := by
  unfold recoverPlan
  rw [wp_bind]
  refine (wp_driveSteps plan ⟨0, 0, none⟩ ⟨w, []⟩).mono fun r w' hmade => ?_
  obtain ⟨made, hdrives, horder, hall, hthrown⟩ := hmade
  rw [List.nil_append] at hdrives
  subst hdrives
  cases r with
  | error e =>
    have hsilent : ¬ SaysRecovered (.error e : Except Cause (Except RecoverError (RecoverOutcome Time))) := by
      rintro ⟨outcome, houtcome, -⟩
      cases houtcome
    obtain ⟨drive, hdrive, hfailed⟩ := hthrown e rfl
    exact ⟨horder, fun h => absurd h hsilent, fun h => absurd h hsilent, fun h => absurd (h drive hdrive) hfailed⟩
  | ok tally =>
    obtain ⟨hids, hnone⟩ := hall tally rfl
    dsimp only
    cases hfailure : tally.firstFailure with
    | none =>
      have hsucceeded := (hnone.mp hfailure).2
      exact ⟨horder, fun _ => hids, fun _ => hsucceeded, fun _ => ⟨_, rfl, rfl⟩⟩
    | some message =>
      refine (wp_surfaceUnrecovered message tally.created tally.reused w').mono fun r w'' hsurfaced => ?_
      obtain ⟨hsame, hunrecovered⟩ := hsurfaced
      have hsilent : ¬ SaysRecovered r := by
        rintro ⟨outcome, houtcome, hrecovered⟩
        rw [hunrecovered outcome houtcome] at hrecovered
        cases hrecovered
      rw [← hsame] at horder hnone hids
      refine ⟨horder, fun h => absurd h hsilent, fun h => absurd h hsilent, fun h => ?_⟩
      have hclean := hnone.mpr ⟨rfl, h⟩
      rw [hfailure] at hclean
      cases hclean

end drives

section passes

variable {input : RecoverInput Time Payload}

theorem mem_drivenIds {id : JsString} : id ∈ drivenIds input input.resume.plan ↔
    ∃ step ∈ input.resume.uncommitted, step.stepId = id ∧ Driveable input step := by
  unfold drivenIds ResumeInput.plan ResumeInput.uncommitted
  simp only [List.mem_map, List.mem_filter, redrives_stable.perm.mem_iff, decide_eq_true_iff]
  constructor
  · rintro ⟨step, ⟨hstep, hdriveable⟩, hid⟩
    exact ⟨step, hstep, hid, hdriveable⟩
  · rintro ⟨step, hstep, hid, hdriveable⟩
    exact ⟨step, ⟨hstep, hdriveable⟩, hid⟩

/-- What a pass comes to: it is refused, or its plan is driven. -/
def PassMade (input : RecoverInput Time Payload) (r : Except Cause (Except RecoverError (RecoverOutcome Time)))
    (w' : RecoverWorld Time Payload) : Prop :=
  (input.resume.Refused ∧ w'.drives = [] ∧ ¬ SaysRecovered r) ∨ (¬ input.resume.Refused ∧ PlanDriven input input.resume.plan r w')

variable [LinearOrder Time] {epoch : Time}

theorem wp_recoverRun (w : ToolWorld Time Payload) :
    wp (recoveryHandler epoch) (fun _ _ => True) (recoverRun input) (PassMade input) ⟨w, []⟩ := by
  unfold recoverRun
  rw [wp_bind, wp_perform]
  intro d _
  simp only [recoveryHandler]
  rcases planResume_cases input.resume d.time with ⟨health, tornStepId, hplan, hrefused⟩ | ⟨hplan, hmade⟩
  · rw [hplan]
    refine (wp_surfaceUnrecovered _ 0 0 ⟨w, []⟩).mono fun r w' hsurfaced => .inl ⟨hrefused, hsurfaced.1, ?_⟩
    rintro ⟨outcome, houtcome, hrecovered⟩
    rw [hsurfaced.2 outcome houtcome] at hrecovered
    cases hrecovered
  · rw [hplan]
    exact (wp_recoverPlan _ w).mono fun r w' hdriven => .inr ⟨hmade, hdriven⟩

theorem passMade (w : ToolWorld Time Payload) (pass : RecoveryPass Time Payload) :
    PassMade pass.input (pass.run epoch w).1 (pass.run epoch w).2 :=
  (wp_recoverRun w).run (fun _ _ => trivial) 0

omit [LinearOrder Time] in
/-- A drive of a pass is of an uncommitted step. -/
theorem PassMade.driven {r : Except Cause (Except RecoverError (RecoverOutcome Time))} {w' : RecoverWorld Time Payload}
    (h : PassMade input r w') : (w'.drives.map fun drive => drive.write.stepId) <+: drivenIds input input.resume.plan := by
  rcases h with ⟨-, hnone, -⟩ | ⟨-, hdriven⟩
  · rw [hnone]
    exact List.nil_prefix
  · exact hdriven.order

theorem committedStep_congr {ledger : Map JsString ResumeReceipt} {step step' : ResumeStep} (h : step.stepId = step'.stepId) :
    committedStep ledger step = committedStep ledger step' := by
  unfold committedStep
  rw [h]

/-- A pass is honest if and only if it can drive every uncommitted step, or a drive has failed. -/
theorem honestPass_iff (w : ToolWorld Time Payload) (pass : RecoveryPass Time Payload) :
    HonestPass epoch w pass ↔ AllDriveable pass.input ∨ ∃ drive ∈ (pass.run epoch w).2.drives, ¬ drive.succeeded := by
  have hmade : PassMade pass.input (pass.run epoch w).1 (pass.run epoch w).2 := passMade w pass
  constructor
  · intro h
    by_contra hnot
    rw [not_or] at hnot
    obtain ⟨hundriveable, hclean⟩ := hnot
    rcases hmade with ⟨hrefused, -, -⟩ | ⟨-, hdriven⟩
    · exact hundriveable (.inl hrefused)
    · have hsays : SaysRecovered (pass.run epoch w).1 := by
        refine hdriven.recovered.mpr fun drive hdrive => ?_
        by_contra hfailed
        exact hclean ⟨drive, hdrive, hfailed⟩
      obtain ⟨outcome, houtcome, hrecovered⟩ := id hsays
      refine hundriveable (.inr fun step hstep => ?_)
      obtain ⟨drive, hdrive, hid, -⟩ := h.recovered outcome houtcome hrecovered step hstep
      have hmem : drive.write.stepId ∈ drivenIds pass.input pass.input.resume.plan := by
        rw [← hdriven.all hsays]
        exact List.mem_map_of_mem hdrive
      obtain ⟨step', hstep', hid', hdriveable⟩ := mem_drivenIds.mp hmem
      exact ⟨step', hstep', hid'.trans hid, hdriveable⟩
  · intro h
    constructor
    case committed =>
      intro step hstep hcommitted drive hdrive hid
      obtain ⟨step', hstep', hid', -⟩ := mem_drivenIds.mp (hmade.driven.subset (List.mem_map_of_mem hdrive))
      have huncommitted := (List.mem_filter.mp hstep').2
      rw [committedStep_congr (hid'.trans hid), hcommitted] at huncommitted
      cases huncommitted
    case ordered =>
      refine ⟨redrives pass.input.resume.plan, redrives_stable, hmade.driven.sublist.trans ?_⟩
      exact List.filter_sublist.map _
    case recovered =>
      intro outcome houtcome hrecovered step hstep
      have hsays : SaysRecovered (pass.run epoch w).1 := ⟨outcome, houtcome, hrecovered⟩
      rcases hmade with ⟨-, -, hsilent⟩ | ⟨haccepted, hdriven⟩
      · exact absurd hsays hsilent
      · have hsucceeded := hdriven.recovered.mp hsays
        rcases h with (hrefused | hall) | ⟨drive, hdrive, hfailed⟩
        · exact absurd hrefused haccepted
        · obtain ⟨step', hstep', hid, hdriveable⟩ := hall step hstep
          have hmem : step.stepId ∈ (pass.run epoch w).2.drives.map fun drive => drive.write.stepId := by
            rw [hdriven.all hsays]
            exact mem_drivenIds.mpr ⟨step', hstep', hid, hdriveable⟩
          obtain ⟨drive, hdrive, hid'⟩ := List.mem_map.mp hmem
          exact ⟨drive, hdrive, hid', hsucceeded drive hdrive⟩
        · exact absurd (hsucceeded drive hdrive) hfailed

/-- A drive creates an envelope only if the vendor does not hold its object. -/
theorem drive_createsOnce {w : RecoverWorld Time Payload} {op : RecoverOp Time Payload} {d : RecoverChoice Time Payload}
    (hsighted : ∀ m op', Sighted op' (d.driver m op')) : CreatesOnce w.tools ((recoveryHandler epoch).exec w op d).2.tools := by
  cases op with
  | now => exact fun _ hone => hone
  | record failure => exact fun _ hone => hone
  | drive deps write =>
    have hreuse : wp (toolHandler epoch) Sighted (reuseExternalWriteOnResume write.envelope write.action deps write.intentCreatedAt)
        (fun _ w' => CreatesOnce w.tools w') w.tools := by
      unfold reuseExternalWriteOnResume
      rw [wp_bind]
      refine (wp_dispatchExternalWrite_once deps.gatewayDeps write.envelope write.action _).mono fun r w' honce => ?_
      cases r with
      | error e => exact honce
      | ok outcome => exact honce
    exact hreuse.run hsighted 0

theorem recoverRun_createsOnce (w : ToolWorld Time Payload) (pass : RecoveryPass Time Payload) (hsighted : pass.Sighted) :
    CreatesOnce w (pass.run epoch w).2.tools := by
  have hany : ∀ {α : Type} (p : RecoverM Time Payload α), p.Within fun _ => True := by
    intro α p
    induction p with
    | pure a => trivial
    | throw e => trivial
    | call op k ih => exact ⟨trivial, ih⟩
  have hwp : wp (recoveryHandler epoch) (fun _ d => ∀ m op', Sighted op' (d.driver m op')) (recoverRun pass.input)
      (fun _ w' => CreatesOnce w w'.tools) ⟨w, []⟩ := by
    refine wp_of_within (hany _) (fun _ hone => hone) fun op w' d _ hd honce env hone => ?_
    exact drive_createsOnce hd env (honce env hone)
  exact hwp.run hsighted 0

theorem runRecoveries_createsOnce (w : ToolWorld Time Payload) (passes : List (RecoveryPass Time Payload))
    (hsighted : ∀ pass ∈ passes, pass.Sighted) : CreatesOnce w (runRecoveries epoch w passes) := by
  induction passes generalizing w with
  | nil => exact fun _ hone => hone
  | cons pass passes ih =>
    intro env hone
    have hfirst := @recoverRun_createsOnce _ _ _ epoch w pass (hsighted pass (List.mem_cons_self ..)) env hone
    exact ih _ (fun pass' hpass' => hsighted pass' (List.mem_cons_of_mem _ hpass')) env hfirst

end passes

/-- Recovery is honest in exactly the runs in which each pass can drive every uncommitted step, or has a drive that
    fails, if the existence checks see what the vendor holds. -/
theorem recoverRun_honest_iff {Time Payload : Type} [LinearOrder Time] (epoch : Time) (w : ToolWorld Time Payload)
    (passes : List (RecoveryPass Time Payload)) (hsighted : ∀ pass ∈ passes, pass.Sighted) :
    HonestRecovery epoch w passes ↔ ∀ before pass after, passes = before ++ pass :: after →
      AllDriveable pass.input ∨ ∃ drive ∈ (pass.run epoch (runRecoveries epoch w before)).2.drives, ¬ drive.succeeded := by
  constructor
  · intro h before pass after hpasses
    exact (honestPass_iff _ pass).mp (h.pass before pass after hpasses)
  · intro h
    constructor
    case pass => exact fun before pass after hpasses => (honestPass_iff _ pass).mpr (h before pass after hpasses)
    case once =>
      rintro before after rfl
      exact runRecoveries_createsOnce w before fun pass hpass => hsighted pass (List.mem_append_left _ hpass)

section knowledge

/-- The vendor takes what it is sent, and sees what it holds. -/
def takenChoice (_ : Nat) (_ : RecoverOp Nat Unit) : RecoverChoice Nat Unit where
  time := 0
  driver _ _ := vendorAnswers true
  recorded := .error (str "unavailable")

/-- A run whose one step is uncommitted, with a write for it or without. -/
def onePass (kind : ResumeStepKind) (written : Bool) : RecoveryPass Nat Unit where
  input := {
    runId := str "r1"
    resume := ⟨[⟨str "s1", kind, none, some (str "k1")⟩], []⟩
    writes := if written then [⟨str "s1", (taskCalls false).env, (taskCalls false).action, none⟩] else []
    envelopeReuse := ⟨(taskCalls false).deps, some (str "w1")⟩ }
  choose := takenChoice

theorem onePass_sighted (kind : ResumeStepKind) (written : Bool) : (onePass kind written).Sighted := by
  intro n op m op' env ctx _ hprobe
  cases hprobe

/-- A knowledge write that is never driven is reported as recovered. -/
theorem knowledgePass_not_honest : ¬ HonestRecovery 0 noTasks [onePass .knowledge_write false] := by
  intro h
  obtain ⟨drive, hdrive, -⟩ := (h.pass [] _ [] rfl).recovered ⟨true, 0, 0, none⟩ rfl rfl ⟨str "s1", .knowledge_write, none, some (str "k1")⟩
    (List.mem_singleton_self _)
  cases hdrive

theorem onePass_allDriveable : AllDriveable (onePass .external_write true).input := by
  right
  intro step hstep
  have hsteps : (onePass .external_write true).input.resume.uncommitted = [⟨str "s1", .external_write, none, some (str "k1")⟩] := by
    decide
  refine ⟨step, hstep, rfl, ?_⟩
  rw [hsteps, List.mem_singleton] at hstep
  rw [hstep]
  decide

/-- An external write with its payload is driven, and driven again by a second pass. -/
theorem recoverRun_honest_iff_external : HonestRecovery 0 noTasks [onePass .external_write true, onePass .external_write true] := by
  have hpass : ∀ pass ∈ [onePass .external_write true, onePass .external_write true], pass = onePass .external_write true := by
    intro pass hmem
    simpa only [List.mem_cons, List.not_mem_nil, or_false, or_self] using hmem
  refine (recoverRun_honest_iff 0 noTasks _ fun pass hmem => ?_).mpr fun before pass after hpasses => .inl ?_
  · rw [hpass pass hmem]
    exact onePass_sighted _ _
  · rw [hpass pass (hpasses ▸ List.mem_append_right before (List.mem_cons_self ..))]
    exact onePass_allDriveable

end knowledge

end sow.worker
