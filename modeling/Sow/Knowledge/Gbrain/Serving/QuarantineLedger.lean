import Sow.Contracts.SemanticFact
import Sow.Js.Map

open sow.js sow.contracts

namespace sow.gbrain

inductive RemediationState where
  | pending
  | materializing
  | materialized
  | purged
  | dismissed
  deriving DecidableEq

/-- What the ledger keys a record by, and what it blocks by. -/
structure QuarantineRecord where
  factIdentity : JsString
  workspaceId : JsString
  remediationState : RemediationState
  workspaceId_valid : isWorkspaceId workspaceId = true

/-- The states that keep a fact from being served. -/
def SERVING_BLOCKED_STATES : List RemediationState := [.pending, .materializing, .purged]

def KEY_SEP : UInt16 := 0

def keyOf (workspaceId factIdentity : JsString) : JsString := workspaceId ++ KEY_SEP :: factIdentity

abbrev QuarantineLedger : Type := Map JsString QuarantineRecord

namespace QuarantineLedger

variable (ledger : QuarantineLedger)

/-- Another record of the same identity is replaced. -/
def quarantine (record : QuarantineRecord) : QuarantineLedger :=
  ledger.set (keyOf record.workspaceId record.factIdentity) record

def isQuarantined (workspaceId factIdentity : JsString) : Bool :=
  match Map.get ledger (keyOf workspaceId factIdentity) with
  | none => false
  | some record => record.remediationState ∈ SERVING_BLOCKED_STATES

end QuarantineLedger

def createQuarantineLedger (seed : List QuarantineRecord) : QuarantineLedger :=
  seed.foldl QuarantineLedger.quarantine Map.empty

/-- The last record of an identity in a workspace is an active quarantine. -/
def ActivelyQuarantined (records : List QuarantineRecord) (workspaceId factIdentity : JsString) : Prop :=
  ∃ earlier record later, records = earlier ++ record :: later ∧ record.workspaceId = workspaceId ∧
    record.factIdentity = factIdentity ∧ record.remediationState ∈ SERVING_BLOCKED_STATES ∧
    ∀ r ∈ later, ¬ (r.workspaceId = workspaceId ∧ r.factIdentity = factIdentity)

/-- The separator stands in no workspace id. -/
theorem sep_notMem {workspaceId : JsString} (h : isWorkspaceId workspaceId = true) : KEY_SEP ∉ workspaceId := by
  unfold isWorkspaceId at h
  intro hmem
  simp only [Bool.and_eq_true] at h
  have hchar := List.all_eq_true.mp h.2 KEY_SEP hmem
  revert hchar
  decide

theorem keyOf_inj {workspaceId workspaceId' factIdentity factIdentity' : JsString} (h : isWorkspaceId workspaceId = true)
    (h' : isWorkspaceId workspaceId' = true) (hkey : keyOf workspaceId factIdentity = keyOf workspaceId' factIdentity') :
    workspaceId = workspaceId' ∧ factIdentity = factIdentity' :=
  field_inj (sep_notMem h) (sep_notMem h') hkey

private theorem get_quarantine_of_ne {ledger : QuarantineLedger} {record : QuarantineRecord} {workspaceId factIdentity : JsString}
    (h : isWorkspaceId workspaceId = true) (hne : ¬ (record.workspaceId = workspaceId ∧ record.factIdentity = factIdentity)) :
    (ledger.quarantine record).isQuarantined workspaceId factIdentity = ledger.isQuarantined workspaceId factIdentity := by
  have hkey : keyOf record.workspaceId record.factIdentity ≠ keyOf workspaceId factIdentity := fun hkey =>
    hne (keyOf_inj record.workspaceId_valid h hkey)
  unfold QuarantineLedger.isQuarantined QuarantineLedger.quarantine
  rw [Map.get_set_of_ne _ _ hkey]

private theorem isQuarantined_quarantine {ledger : QuarantineLedger} {record : QuarantineRecord} :
    (ledger.quarantine record).isQuarantined record.workspaceId record.factIdentity =
      decide (record.remediationState ∈ SERVING_BLOCKED_STATES) := by
  unfold QuarantineLedger.isQuarantined QuarantineLedger.quarantine
  rw [Map.get_set_self]

/-- A ledger blocks what the last record of the identity blocks. -/
theorem isQuarantined_iff {records : List QuarantineRecord} {workspaceId factIdentity : JsString}
    (h : isWorkspaceId workspaceId = true) :
    (createQuarantineLedger records).isQuarantined workspaceId factIdentity = true ↔
      ActivelyQuarantined records workspaceId factIdentity := by
  unfold createQuarantineLedger
  induction records using List.reverseRecOn with
  | nil =>
    constructor
    · intro hblocked
      cases hblocked
    · rintro ⟨earlier, record, later, hsplit, -⟩
      simp at hsplit
  | append_singleton records record ih =>
    rw [List.foldl_concat]
    by_cases hsame : record.workspaceId = workspaceId ∧ record.factIdentity = factIdentity
    · obtain ⟨rfl, rfl⟩ := hsame
      rw [isQuarantined_quarantine, decide_eq_true_eq]
      constructor
      · intro hblocked
        exact ⟨records, record, [], rfl, rfl, rfl, hblocked, by simp⟩
      · rintro ⟨earlier, last, later, hsplit, hws, hid, hblocked, hlater⟩
        rcases List.eq_nil_or_concat later with rfl | ⟨later, final, rfl⟩
        · rw [← List.concat_eq_append, ← List.concat_eq_append] at hsplit
          rw [(List.concat_inj.mp hsplit).2]
          exact hblocked
        · rw [List.concat_eq_append, ← List.cons_append, ← List.append_assoc] at hsplit
          have hfinal := (List.append_inj' hsplit rfl).2
          refine absurd ⟨rfl, rfl⟩ (hlater record ?_)
          rw [(List.cons.inj hfinal).1]
          simp
    · rw [get_quarantine_of_ne h hsame, ih]
      constructor
      · rintro ⟨earlier, last, later, rfl, hws, hid, hblocked, hlater⟩
        refine ⟨earlier, last, later ++ [record], by simp, hws, hid, hblocked, ?_⟩
        intro r hr
        rcases List.mem_append.mp hr with hr | hr
        · exact hlater r hr
        · rw [List.mem_singleton.mp hr]
          exact hsame
      · rintro ⟨earlier, last, later, hsplit, hws, hid, hblocked, hlater⟩
        rcases List.eq_nil_or_concat later with rfl | ⟨later, final, rfl⟩
        · rw [← List.concat_eq_append, ← List.concat_eq_append] at hsplit
          rw [(List.concat_inj.mp hsplit).2] at hsame
          exact absurd ⟨hws, hid⟩ hsame
        · rw [List.concat_eq_append, ← List.cons_append, ← List.append_assoc] at hsplit
          have hrecords := (List.append_inj' hsplit rfl).1
          exact ⟨earlier, last, later, hrecords, hws, hid, hblocked, fun r hr => hlater r (by simp [hr])⟩

end sow.gbrain
