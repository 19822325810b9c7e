import Sow.Contracts.Models
import Sow.Js.Map
import Sow.Js.Sort

open sow.js sow.contracts

namespace sow.workflows

inductive ResumeStepKind where
  | knowledge_write
  | gbrain_index
  | external_write
  deriving DecidableEq

def ResumeStepKind.text : ResumeStepKind → JsString
  | .knowledge_write => str "knowledge_write"
  | .gbrain_index => str "gbrain_index"
  | .external_write => str "external_write"

/-- One step of a run's durable plan. -/
structure ResumeStep where
  stepId : JsString
  kind : ResumeStepKind
  revisionId : Option JsString
  idempotencyKey : Option JsString
  deriving DecidableEq

/-- `missing` is a torn commit. -/
inductive ResumeReceipt where
  | committed (ref : JsString)
  | missing
  deriving DecidableEq

structure ResumeLedgerEntry where
  stepId : JsString
  receipt : ResumeReceipt

structure ResumeInput where
  steps : List ResumeStep
  ledger : List ResumeLedgerEntry

inductive ResumeDisposition where
  | skip
  | redrive
  deriving DecidableEq

structure PlannedResumeStep where
  step : ResumeStep
  disposition : ResumeDisposition

inductive ResumeOutcome (Time : Type) where
  | resume (plan : List PlannedResumeStep)
  | unrecoverable (health : HealthItem Time) (tornStepId : JsString)

def REDRIVE_PRIORITY : ResumeStepKind → Nat
  | .knowledge_write => 0
  | .gbrain_index => 1
  | .external_write => 2

/-- `new Map(entries)`: the last entry of a key counts. -/
def ledgerByStep (ledger : List ResumeLedgerEntry) : Map JsString ResumeReceipt :=
  ledger.foldl (fun m e => m.set e.stepId e.receipt) .empty

/-- Is the step recorded as committed, with a receipt? -/
def committedStep (ledger : Map JsString ResumeReceipt) (step : ResumeStep) : Bool :=
  match ledger.get step.stepId with
  | some (.committed _) => true
  | some .missing => false
  | none => false

/-- Is it recorded as committed, without a receipt? -/
def tornStep (ledger : Map JsString ResumeReceipt) (step : ResumeStep) : Bool := ledger.get step.stepId = some .missing

/-- A step that must be re-driven, and whose dedup key is missing. -/
def keylessStep (ledger : Map JsString ResumeReceipt) (step : ResumeStep) : Bool :=
  !committedStep ledger step && (step.kind = .knowledge_write || step.kind = .external_write) && step.idempotencyKey = none

def unrecoverable {Time : Type} (stepId message : JsString) (now : Time) : ResumeOutcome Time :=
  .unrecoverable {
    id := str "health:resume:" ++ stepId
    failureClass := .write_through_failed
    severity := str "error"
    message := message
    auditRef := str "audit:resume:" ++ stepId
    openedAt := now
    state := .open
    resolvedAt := none
    parityReportRef := none
    factIdentity := none } stepId

structure NumberedStep where
  step : ResumeStep
  disposition : ResumeDisposition
  index : Nat

/-- The steps, each with what is done about it and its place. -/
def numbered (ledger : Map JsString ResumeReceipt) (steps : List ResumeStep) : List NumberedStep :=
  steps.zipIdx.map fun s => ⟨s.1, if committedStep ledger s.1 then .skip else .redrive, s.2⟩

/-- The steps in the order of their kinds, then of their places. -/
def planSteps (ledger : Map JsString ResumeReceipt) (steps : List ResumeStep) : List PlannedResumeStep :=
  (sortNumbered (fun s => REDRIVE_PRIORITY s.step.kind) NumberedStep.index (numbered ledger steps)).map fun s => ⟨s.step, s.disposition⟩

/-- `now` is what the injected clock says, which an unrecoverable outcome alone asks. -/
def planResume {Time : Type} (input : ResumeInput) (now : Time) : ResumeOutcome Time :=
  let ledger := ledgerByStep input.ledger
  match input.steps.find? (tornStep ledger) with
  | some step =>
    unrecoverable step.stepId
      (str "resume aborted: step " ++ step.stepId ++ str " recorded as committed but its write receipt is missing (torn commit)") now
  | none =>
    match input.steps.find? (keylessStep ledger) with
    | some step =>
      unrecoverable step.stepId
        (str "resume aborted: " ++ step.kind.text ++ str " step " ++ step.stepId ++
          str " must be re-driven but carries no idempotencyKey — re-driving without its dedup key would re-commit the side effect") now
    | none => .resume (planSteps ledger input.steps)

/-- The steps that are not recorded as committed. -/
def ResumeInput.uncommitted (input : ResumeInput) : List ResumeStep :=
  input.steps.filter fun step => !committedStep (ledgerByStep input.ledger) step

/-- The steps that a plan re-drives, in its order. -/
def redrives (plan : List PlannedResumeStep) : List ResumeStep := (plan.filter fun p => p.disposition = .redrive).map PlannedResumeStep.step

/-- A step of the run has a torn commit, or is to be re-driven without its dedup key. -/
def ResumeInput.Refused (input : ResumeInput) : Prop :=
  ∃ step ∈ input.steps, tornStep (ledgerByStep input.ledger) step = true ∨ keylessStep (ledgerByStep input.ledger) step = true

/-- The plan that is made of a run, unless it is refused. -/
def ResumeInput.plan (input : ResumeInput) : List PlannedResumeStep := planSteps (ledgerByStep input.ledger) input.steps

/-- A run is refused, or its plan is made. -/
theorem planResume_cases {Time : Type} (input : ResumeInput) (now : Time) :
    (∃ health tornStepId, planResume input now = .unrecoverable health tornStepId ∧ input.Refused) ∨
      planResume input now = .resume input.plan ∧ ¬ input.Refused := by
  unfold planResume
  dsimp only
  cases htorn : input.steps.find? (tornStep (ledgerByStep input.ledger)) with
  | some step => exact .inl ⟨_, _, rfl, step, List.mem_of_find?_eq_some htorn, .inl (List.find?_some htorn)⟩
  | none =>
    cases hkeyless : input.steps.find? (keylessStep (ledgerByStep input.ledger)) with
    | some step => exact .inl ⟨_, _, rfl, step, List.mem_of_find?_eq_some hkeyless, .inr (List.find?_some hkeyless)⟩
    | none =>
      refine .inr ⟨rfl, ?_⟩
      rintro ⟨step, hstep, htorn' | hkeyless'⟩
      · exact List.find?_eq_none.mp htorn step hstep htorn'
      · exact List.find?_eq_none.mp hkeyless step hstep hkeyless'

section order

variable {ledger : Map JsString ResumeReceipt} {steps : List ResumeStep}

theorem numbered_pairwise : (numbered ledger steps).Pairwise fun a b => a.index < b.index := by
  unfold numbered
  rw [List.pairwise_map]
  have hrange : (steps.zipIdx.map Prod.snd).Pairwise fun i j => i < j := by
    rw [List.zipIdx_map_snd]
    exact List.pairwise_lt_range'
  rwa [List.pairwise_map] at hrange

theorem mem_numbered {s : NumberedStep} (h : s ∈ numbered ledger steps) :
    s.disposition = if committedStep ledger s.step then .skip else .redrive := by
  unfold numbered at h
  obtain ⟨e, -, rfl⟩ := List.mem_map.mp h
  rfl

/-- A plan skips the committed steps, and no other. -/
theorem mem_planSteps {p : PlannedResumeStep} (h : p ∈ planSteps ledger steps) :
    p.disposition = if committedStep ledger p.step then .skip else .redrive := by
  unfold planSteps sortNumbered at h
  obtain ⟨s, hs, rfl⟩ := List.mem_map.mp h
  exact mem_numbered ((List.mem_insertionSort _).mp hs)

theorem redrive_iff {p : PlannedResumeStep} (h : p ∈ planSteps ledger steps) :
    p.disposition = .redrive ↔ committedStep ledger p.step = false := by
  rw [mem_planSteps h]
  cases committedStep ledger p.step <;> simp

/-- The plan re-drives the uncommitted steps in the order of their kinds, with the steps of a kind in their order. -/
theorem redrives_stable : StableSorted (fun step => REDRIVE_PRIORITY step.kind) (steps.filter fun step => !committedStep ledger step)
    (redrives (planSteps ledger steps)) := by
  have hsorted : StableSorted (fun s : NumberedStep => REDRIVE_PRIORITY s.step.kind) (numbered ledger steps)
      (sortNumbered (fun s => REDRIVE_PRIORITY s.step.kind) NumberedStep.index (numbered ledger steps)) :=
    sortNumbered_stable numbered_pairwise
  have hplan : StableSorted (fun p : PlannedResumeStep => REDRIVE_PRIORITY p.step.kind)
      ((numbered ledger steps).map fun s => ⟨s.step, s.disposition⟩) (planSteps ledger steps) := hsorted.map fun _ => rfl
  have hredrives : StableSorted (fun step : ResumeStep => REDRIVE_PRIORITY step.kind)
      (redrives ((numbered ledger steps).map fun s => ⟨s.step, s.disposition⟩)) (redrives (planSteps ledger steps)) :=
    (hplan.filter _).map fun _ => rfl
  have hsteps : redrives ((numbered ledger steps).map fun s => ⟨s.step, s.disposition⟩) =
      steps.filter fun step => !committedStep ledger step := by
    have hfst : steps = steps.zipIdx.map Prod.fst := (List.zipIdx_map_fst 0 steps).symm
    conv_rhs => rw [hfst, List.filter_map]
    unfold redrives numbered
    rw [List.map_map, List.filter_map, List.map_map]
    congr 1
    refine List.filter_congr fun e _ => ?_
    cases hcommitted : committedStep ledger e.1 <;> simp [hcommitted]
  rwa [hsteps] at hredrives

end order

end sow.workflows
