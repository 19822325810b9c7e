import Mathlib.Data.Prod.Lex
import Sow.Db.Errors
import Sow.Js.Map
import Sow.Sql.Keyset

open sow.js sow.sql

namespace sow.db

/-- A row as the driver knows it: the status and the revision are plain text. -/
structure GbrainSyncOutboxRow (Stamp : Type) where
  outboxId : JsString
  workspaceId : JsString
  revisionId : JsString
  planId : JsString
  status : JsString
  attempts : Nat
  auditRef : JsString
  sourceEventRef : Option JsString
  enqueuedAt : Stamp
  lastAttemptAt : Option Stamp
  lastError : Option JsString
  deriving DecidableEq

def INDEXED_TERMINAL : JsString := str "indexed"

/-- The table, by its primary key. -/
@[ext] structure GbrainSyncOutbox (Stamp : Type) where
  rows : Map JsString (GbrainSyncOutboxRow Stamp)
  keyed : ∀ k row, rows.get k = some row → row.outboxId = k

namespace GbrainSyncOutbox

variable {Stamp : Type} (table : GbrainSyncOutbox Stamp)

def empty : GbrainSyncOutbox Stamp := ⟨.empty, fun _ _ h => by cases h⟩

def get (outboxId : JsString) : Option (GbrainSyncOutboxRow Stamp) := table.rows.get outboxId

def all : List (GbrainSyncOutboxRow Stamp) := table.rows.entries.map Prod.snd

/-- `insert().onConflictDoUpdate({ target: outboxId })` -/
def upsert (row : GbrainSyncOutboxRow Stamp) : GbrainSyncOutbox Stamp where
  rows := table.rows.set row.outboxId row
  keyed := by
    intro k row' h
    rw [Map.get_set] at h
    split at h
    · next heq => rw [← Option.some.inj h, heq]
    · exact table.keyed k row' h

/-- `order by enqueuedAt, outboxId` -/
def rowOrder (row : GbrainSyncOutboxRow Stamp) : Stamp ×ₗ List Nat := toLex (row.enqueuedAt, row.outboxId.map UInt16.toNat)

def getByKey (workspaceId revisionId : JsString) : Option (GbrainSyncOutboxRow Stamp) :=
  table.all.find? fun row => row.workspaceId = workspaceId && row.revisionId = revisionId

def isDue (row : GbrainSyncOutboxRow Stamp) : Bool := row.status ≠ INDEXED_TERMINAL

section reading

variable {table}

theorem get_upsert (row : GbrainSyncOutboxRow Stamp) (outboxId : JsString) :
    (table.upsert row).get outboxId = if row.outboxId = outboxId then some row else table.get outboxId :=
  Map.get_set ..

theorem mem_all_iff {row : GbrainSyncOutboxRow Stamp} : row ∈ table.all ↔ table.get row.outboxId = some row := by
  unfold all get
  rw [Map.get_eq_some_iff, List.mem_map]
  constructor
  · rintro ⟨⟨k, row'⟩, hmem, rfl⟩
    obtain rfl := table.keyed k row' (Map.get_eq_some_iff.mpr hmem)
    exact hmem
  · exact fun hmem => ⟨(row.outboxId, row), hmem, rfl⟩

theorem rowOrder_outboxId {row row' : GbrainSyncOutboxRow Stamp} (h : rowOrder row = rowOrder row') :
    row.outboxId = row'.outboxId := by
  have hunits := congrArg (fun k => (ofLex k).2) h
  exact List.map_injective_iff.mpr (fun _ _ => UInt16.toNat.inj) hunits

/-- No two rows have the same place in the order. -/
theorem all_distinct : table.all.Pairwise fun a b => rowOrder a ≠ rowOrder b := by
  have hkeys := table.rows.nodup
  unfold all
  rw [List.Nodup, List.pairwise_map] at hkeys
  rw [List.pairwise_map]
  refine hkeys.imp_of_mem fun {a b} ha hb hne heq => hne ?_
  have hid := rowOrder_outboxId heq
  rw [table.keyed a.1 a.2 (Map.get_eq_some_iff.mpr ha), table.keyed b.1 b.2 (Map.get_eq_some_iff.mpr hb)] at hid
  exact hid

end reading

variable [LinearOrder Stamp]

/-- Every row that is not `indexed`, the oldest first. -/
def due : List (GbrainSyncOutboxRow Stamp) := orderBy rowOrder (table.all.filter isDue)

/-- The clock is not looked at. -/
def listDue (_now : Stamp) (limit : Nat) : List (GbrainSyncOutboxRow Stamp) := table.due.take limit

/-- `order by desc(enqueuedAt), desc(outboxId) limit 1` -/
def indexedHighWater (workspaceId : JsString) : Option (GbrainSyncOutboxRow Stamp) :=
  (orderByDesc rowOrder (table.all.filter fun row => row.workspaceId = workspaceId && row.status = INDEXED_TERMINAL)).head?

section ordered

variable {table}

theorem mem_due_iff {row : GbrainSyncOutboxRow Stamp} :
    row ∈ table.due ↔ table.get row.outboxId = some row ∧ row.status ≠ INDEXED_TERMINAL := by
  rw [due, mem_orderBy, List.mem_filter, mem_all_iff, isDue, decide_eq_true_eq]

theorem due_strict : table.due.Pairwise fun a b => rowOrder a < rowOrder b :=
  orderBy_strict rowOrder (all_distinct.filter _)

/-- The high water is the indexed row of the workspace that comes last. -/
theorem indexedHighWater_eq_some_iff {workspaceId : JsString} {row : GbrainSyncOutboxRow Stamp} :
    table.indexedHighWater workspaceId = some row ↔
      (table.get row.outboxId = some row ∧ row.workspaceId = workspaceId ∧ row.status = INDEXED_TERMINAL) ∧
        ∀ other, table.get other.outboxId = some other → other.workspaceId = workspaceId → other.status = INDEXED_TERMINAL →
          rowOrder other ≤ rowOrder row := by
  rw [indexedHighWater, head_orderByDesc_iff rowOrder (all_distinct.filter _)]
  simp [mem_all_iff]

/-- Neither a row that stays due, nor one that is indexed behind the high water of
    its workspace, moves a high water. -/
theorem indexedHighWater_upsert {row : GbrainSyncOutboxRow Stamp}
    (hdue : ∀ old, table.get row.outboxId = some old → old.status ≠ INDEXED_TERMINAL)
    (hbehind : row.status = INDEXED_TERMINAL →
      ∃ hw, table.indexedHighWater row.workspaceId = some hw ∧ rowOrder row < rowOrder hw) (workspaceId : JsString) :
    (table.upsert row).indexedHighWater workspaceId = table.indexedHighWater workspaceId := by
  have hkept : ∀ other, table.get other.outboxId = some other → other.status = INDEXED_TERMINAL →
      (table.upsert row).get other.outboxId = some other := by
    intro other hget hindexed
    rw [get_upsert, if_neg, hget]
    intro hid
    exact hdue other (hid ▸ hget) hindexed
  have hold : ∀ other, (table.upsert row).get other.outboxId = some other → other ≠ row → table.get other.outboxId = some other := by
    intro other hget hne
    rw [get_upsert] at hget
    split at hget
    · exact absurd (Option.some.inj hget).symm hne
    · exact hget
  ext found
  rw [indexedHighWater_eq_some_iff, indexedHighWater_eq_some_iff]
  constructor
  · rintro ⟨⟨hget, hws, hindexed⟩, hgreatest⟩
    have hne : found ≠ row := by
      rintro rfl
      obtain ⟨hw, hhw, hlt⟩ := hbehind hindexed
      obtain ⟨⟨hwget, hwws, hwindexed⟩, -⟩ := indexedHighWater_eq_some_iff.mp hhw
      exact absurd (hgreatest hw (hkept hw hwget hwindexed) (hwws.trans hws) hwindexed) (not_le.mpr hlt)
    refine ⟨⟨hold found hget hne, hws, hindexed⟩, fun other hother hows hoindexed => ?_⟩
    exact hgreatest other (hkept other hother hoindexed) hows hoindexed
  · rintro ⟨⟨hget, hws, hindexed⟩, hgreatest⟩
    refine ⟨⟨hkept found hget hindexed, hws, hindexed⟩, fun other hother hows hoindexed => ?_⟩
    by_cases hne : other = row
    · subst hne
      obtain ⟨hw, hhw, hlt⟩ := hbehind hoindexed
      obtain ⟨⟨hwget, hwws, hwindexed⟩, -⟩ := indexedHighWater_eq_some_iff.mp hhw
      exact hlt.le.trans (hgreatest hw hwget (hwws.trans hows) hwindexed)
    · exact hgreatest other (hold other hother hne) hows hoindexed

end ordered

end GbrainSyncOutbox

end sow.db
