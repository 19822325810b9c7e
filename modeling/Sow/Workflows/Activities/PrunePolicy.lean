import Mathlib.Data.Rat.Defs
import Sow.Js.Number
import Sow.Knowledge.KnowledgeWriter.Plan

open sow.js
open sow.knowledge_writer (KnowledgeMutationPlan)

namespace sow.workflows

/-- A JavaScript number. -/
inductive JsNumber where
  | finite (q : ℚ)
  | infinite (negative : Bool)
  | nan
  deriving DecidableEq

/-- `n >= x` of an integer; nothing is at least `NaN`. -/
def atLeast (n : Int) : JsNumber → Bool
  | .finite q => decide (q ≤ n)
  | .infinite negative => negative
  | .nan => false

structure RetentionPolicy where
  rawAudioRequiresAuditedSynthesis : Bool
  rawRetentionDays : JsNumber
  deriving DecidableEq

def DEFAULT_RETENTION_POLICY : RetentionPolicy := ⟨true, .finite 30⟩

inductive PrunableDispositionState where
  | queued_for_review
  | dispositioned
  deriving DecidableEq

/-- A record that the retention sweep considers. -/
structure PrunableRecord where
  recordId : JsString
  workspaceId : JsString
  contentClass : JsString
  assistantHeld : Bool
  externallyAuthoritative : Bool
  humanOwned : Bool
  capturedAt : Option JsString
  auditedSynthesisExists : Option Bool
  dispositionState : Option PrunableDispositionState
  alreadyPruned : Option Bool
  markdownRemoval : Option KnowledgeMutationPlan

structure PruneSelectionRequest where
  workspaceId : JsString
  retention : RetentionPolicy
  now : JsString
  deriving DecidableEq

inductive PruneSkipReason where
  | not_assistant_held
  | externally_authoritative
  | human_owned
  | derived_note
  | undispositioned_parked
  | already_pruned
  | inside_window
  | unknown_class
  deriving DecidableEq

structure PruneSkip where
  recordId : JsString
  reason : PruneSkipReason
  deriving DecidableEq

structure PruneSelection where
  due : List PrunableRecord
  skipped : List PruneSkip

def DAY_MS : Int := 86400000

variable (dates : IsoDates)

/-- The age in whole days; an absent, malformed or future time has age zero. -/
def ageDays (capturedAt : Option JsString) (now : JsString) : Int :=
  match capturedAt.bind dates.parse, dates.parse now with
  | some captured, some current => if current ≤ captured then 0 else (current - captured) / DAY_MS
  | _, _ => 0

def windowReason (r : PrunableRecord) (request : PruneSelectionRequest) : Option PruneSkipReason :=
  if atLeast (ageDays dates r.capturedAt request.now) request.retention.rawRetentionDays then none else some .inside_window

/-- Why a candidate is retained; the exclusions come before the window. -/
def skipReason (request : PruneSelectionRequest) (r : PrunableRecord) : Option PruneSkipReason :=
  if r.externallyAuthoritative then some .externally_authoritative
  else if r.humanOwned then some .human_owned
  else if r.contentClass = str "derived" then some .derived_note
  else if !r.assistantHeld then some .not_assistant_held
  else if r.dispositionState = some .queued_for_review then some .undispositioned_parked
  else if r.alreadyPruned = some true then some .already_pruned
  else if r.contentClass = str "raw_audio" then
    if request.retention.rawAudioRequiresAuditedSynthesis then
      if r.auditedSynthesisExists = some true then none else some .inside_window
    else windowReason dates r request
  else if r.contentClass = str "raw" then windowReason dates r request
  else some .unknown_class

/-- The candidates that are due, and the others with their reasons. -/
def select (request : PruneSelectionRequest) (candidates : List PrunableRecord) : PruneSelection where
  due := candidates.filter fun r => skipReason dates request r = none
  skipped := candidates.filterMap fun r => (skipReason dates request r).map fun reason => ⟨r.recordId, reason⟩

/-- What retention may delete: raw content that the assistant holds, once its condition is met. A
    window is met by a readable capture time that lies before now by that many whole days. -/
structure Prunable (request : PruneSelectionRequest) (r : PrunableRecord) : Prop where
  assistantHeld : r.assistantHeld = true
  notExternal : r.externallyAuthoritative = false
  notHuman : r.humanOwned = false
  triaged : r.dispositionState ≠ some .queued_for_review
  condition : (r.contentClass = str "raw_audio" ∧ request.retention.rawAudioRequiresAuditedSynthesis = true ∧
      r.auditedSynthesisExists = some true) ∨
    ((r.contentClass = str "raw" ∨
        r.contentClass = str "raw_audio" ∧ request.retention.rawAudioRequiresAuditedSynthesis = false) ∧
      ∃ captured current, r.capturedAt.bind dates.parse = some captured ∧ dates.parse request.now = some current ∧
        captured < current ∧ atLeast ((current - captured) / DAY_MS) request.retention.rawRetentionDays = true)

section spec

variable {dates} {request : PruneSelectionRequest} {r : PrunableRecord}

/-- With a window that no age of zero reaches, a window is met by a readable earlier time only. -/
theorem windowReason_eq_none (hwindow : atLeast 0 request.retention.rawRetentionDays = false)
    (h : windowReason dates r request = none) :
    ∃ captured current, r.capturedAt.bind dates.parse = some captured ∧ dates.parse request.now = some current ∧
      captured < current ∧ atLeast ((current - captured) / DAY_MS) request.retention.rawRetentionDays = true := by
  unfold windowReason at h
  have hage : atLeast (ageDays dates r.capturedAt request.now) request.retention.rawRetentionDays = true := by
    by_contra hnot
    rw [if_neg hnot] at h
    cases h
  unfold ageDays at hage
  cases hcaptured : r.capturedAt.bind dates.parse with
  | none =>
    rw [hcaptured] at hage
    rw [hwindow] at hage
    cases hage
  | some captured =>
    cases hcurrent : dates.parse request.now with
    | none =>
      rw [hcaptured, hcurrent] at hage
      rw [hwindow] at hage
      cases hage
    | some current =>
      rw [hcaptured, hcurrent] at hage
      dsimp only at hage
      by_cases hlate : current ≤ captured
      · rw [if_pos hlate, hwindow] at hage
        cases hage
      · rw [if_neg hlate] at hage
        exact ⟨captured, current, rfl, rfl, not_le.mp hlate, hage⟩

/-- A candidate that is due is prunable. -/
theorem skipReason_eq_none (hwindow : atLeast 0 request.retention.rawRetentionDays = false)
    (h : skipReason dates request r = none) : Prunable dates request r := by
  unfold skipReason at h
  split at h
  · cases h
  · next hexternal =>
    split at h
    · cases h
    · next hhuman =>
      split at h
      · cases h
      · split at h
        · cases h
        · next hheld =>
          split at h
          · cases h
          · next htriage =>
            split at h
            · cases h
            · refine ⟨by simpa using hheld, by simpa using hexternal, by simpa using hhuman, htriage, ?_⟩
              split at h
              · next haudio =>
                split at h
                · next hrequires =>
                  refine .inl ⟨haudio, hrequires, ?_⟩
                  by_contra hnone
                  rw [if_neg hnone] at h
                  cases h
                · next hrequires =>
                  exact .inr ⟨.inr ⟨haudio, by simpa using hrequires⟩, windowReason_eq_none hwindow h⟩
              · split at h
                · next hraw => exact .inr ⟨.inl hraw, windowReason_eq_none hwindow h⟩
                · cases h

end spec

end sow.workflows
