import Sow.Effect.Wp
import Sow.Integrations.Tools.ToolModel

open sow.js sow.effect sow.contracts sow.db

namespace sow.tools

variable {Time Payload : Type}

/-- A fault of a store is not reported as a missing row. -/
def Choice.Truthful (d : Choice Time) : Prop := ∀ e, d.fault = some e → e.code ≠ .not_found

def ToolOp.isLookup : ToolOp Time Payload → Prop
  | .getApplication _ => True
  | .getByIdempotencyKey _ => True
  | .getByCanonicalObjectKey _ => True
  | _ => False

/-- Anything may fail, and lookups do so truthfully. -/
def Truthfully (op : ToolOp Time Payload) (d : Choice Time) : Prop := op.isLookup → d.Truthful

/-- A write takes effect, whatever is reported. -/
def Choice.Effective (d : Choice Time) : Prop := d.fault = none ∨ d.landed = true

section stores

variable {α : Type} {d : Choice Time} {w w' : ToolWorld Time Payload} {answer : DbResult α}

/-- A read answers, or fails without passing for a miss. -/
theorem stored_read (hd : d.Truthful) :
    ∃ r, stored d w w answer = (.ok r, w) ∧ (r = answer ∨ ∃ e : DbError, r = .error e ∧ e.code ≠ .not_found) := by
  unfold stored
  cases hfault : d.fault with
  | none => exact ⟨_, rfl, .inl rfl⟩
  | some e => exact ⟨_, by simp, .inr ⟨e, rfl, hd e hfault⟩⟩

theorem stored_write :
    ∃ r w₁, stored d w w' answer = (.ok r, w₁) ∧ (d.Effective ∧ w₁ = w' ∨ ¬ d.Effective ∧ w₁ = w) := by
  unfold stored Choice.Effective
  cases d.fault with
  | none => exact ⟨_, _, rfl, .inl ⟨.inl rfl, rfl⟩⟩
  | some e =>
    cases d.landed with
    | true => exact ⟨_, _, rfl, .inl ⟨.inr rfl, rfl⟩⟩
    | false => exact ⟨_, _, rfl, .inr ⟨by simp, rfl⟩⟩

end stores

/-- The ledger or a receipt row has the key. -/
def ToolWorld.Known (w : ToolWorld Time Payload) (k : JsString) : Prop :=
  w.applications.has k = true ∨ ∃ object row, w.receipts.get object = some row ∧ row.idempotencyKey = some k

/-- The object has a row that does not let a dispatch write it: a reservation, or the
    receipt of a write that is not in the ledger. -/
def ToolWorld.Closed (w : ToolWorld Time Payload) (object : ObjectKey) : Prop :=
  ∃ row, w.receipts.get object = some row ∧ ∀ k, row.idempotencyKey = some k → w.applications.has k = false

/-- A row has a key if and only if it has a receipt. -/
def ToolWorld.WellFormed (w : ToolWorld Time Payload) : Prop :=
  ∀ object row, w.receipts.get object = some row → (row.idempotencyKey.isSome ↔ row.receipt.isSome)

section lookups

variable {w : ToolWorld Time Payload} {k : JsString} {object : ObjectKey}

theorem not_has_of_applicationLookup (h : applicationLookup (tables.getApplication w.applications k) = .miss) :
    w.applications.has k = false := by
  unfold tables.getApplication at h
  unfold Map.has
  cases hrow : w.applications.get k with
  | none => rfl
  | some row =>
    rw [hrow] at h
    cases h

theorem has_of_applicationLookup {record : ReceiptRecord Time}
    (h : applicationLookup (tables.getApplication w.applications k) = .hit record) : w.applications.has k = true := by
  unfold tables.getApplication at h
  unfold Map.has
  cases hrow : w.applications.get k with
  | none =>
    rw [hrow] at h
    simp [applicationLookup, notFound] at h
  | some row => rfl

/-- A key that no lookup finds is on no row. -/
theorem no_row_of_checkedLookup (hw : w.WellFormed) (h : checkedLookup (tables.getByIdempotencyKey w.receipts k) = .miss) :
    ¬ ∃ object row, w.receipts.get object = some row ∧ row.idempotencyKey = some k := by
  rintro ⟨object, row, hrow, hkey⟩
  unfold tables.getByIdempotencyKey at h
  cases hfind : w.receipts.entries.find? fun e => e.2.idempotencyKey = some k with
  | none =>
    rw [List.find?_eq_none] at hfind
    exact hfind (object, row) (Map.get_eq_some_iff.mp hrow) (by simpa using hkey)
  | some found =>
    rw [hfind] at h
    have hfoundKey : found.2.idempotencyKey = some k := by simpa using List.find?_some hfind
    have hreceipt := (hw found.1 found.2 (Map.get_eq_some_iff.mpr (List.mem_of_find?_eq_some hfind))).mp (by simp [hfoundKey])
    obtain ⟨receipt, hreceipt⟩ := Option.isSome_iff_exists.mp hreceipt
    simp [tables.committedRow, checkedLookup, rowToReceiptRecord, hreceipt] at h

/-- The lookup of an object misses it only if it has no row or a reservation. -/
theorem no_receipt_of_checkedLookup (h : checkedLookup (tables.getByCanonicalObjectKey w.receipts object) = .miss) :
    ∀ row, w.receipts.get object = some row → row.receipt = none := by
  intro row hrow
  unfold tables.getByCanonicalObjectKey at h
  rw [hrow] at h
  cases hreceipt : row.receipt with
  | none => rfl
  | some receipt => simp [tables.committedRow, checkedLookup, rowToReceiptRecord, hreceipt] at h

theorem row_of_checkedLookup {record : ReceiptRecord Time}
    (h : checkedLookup (tables.getByCanonicalObjectKey w.receipts object) = .hit record) :
    ∃ row, w.receipts.get object = some row ∧ rowToReceiptRecord row = some record := by
  unfold tables.getByCanonicalObjectKey at h
  cases hrow : w.receipts.get object with
  | none => simp [hrow, tables.committedRow, checkedLookup, notFound] at h
  | some row =>
    rw [hrow] at h
    refine ⟨row, rfl, ?_⟩
    cases hreceipt : row.receipt with
    | none => simp [tables.committedRow, checkedLookup, notFound, hreceipt] at h
    | some receipt => simpa [tables.committedRow, checkedLookup, rowToReceiptRecord, hreceipt] using h

/-- The row of a committed record. -/
theorem row_of_rowToReceiptRecord {row : WriteReceiptRow Time} {record : ReceiptRecord Time}
    (h : rowToReceiptRecord row = some record) :
    row.receipt = some record.receipt ∧ record.idempotencyKey = row.idempotencyKey.getD [] ∧
      record.payloadHash = row.payloadHash ∧ record.recordedAt = row.recordedAt := by
  unfold rowToReceiptRecord at h
  obtain ⟨receipt, hreceipt, rfl⟩ := Option.map_eq_some_iff.mp h
  exact ⟨hreceipt, rfl, rfl, rfl⟩

end lookups

section reads

variable [LinearOrder Time] {epoch : Time} {w : ToolWorld Time Payload} {d : Choice Time}

theorem exec_getApplication (k : JsString) (hd : d.Truthful) :
    ∃ r, (toolHandler epoch).exec w (ToolOp.getApplication k) d = (.ok r, w) ∧
      (applicationLookup r = .miss → w.applications.has k = false) ∧
      ∀ record, applicationLookup r = .hit record → w.applications.has k = true := by
  obtain ⟨r, hrun, rfl | ⟨e, rfl, he⟩⟩ := stored_read (w := w) hd
  · exact ⟨_, hrun, not_has_of_applicationLookup, fun _ => has_of_applicationLookup⟩
  · refine ⟨_, hrun, fun h => ?_, fun _ h => ?_⟩
    · simp [applicationLookup, he] at h
    · simp [applicationLookup, he] at h

theorem exec_getByIdempotencyKey (hw : w.WellFormed) (k : JsString) (hd : d.Truthful) :
    ∃ r, (toolHandler epoch).exec w (ToolOp.getByIdempotencyKey k) d = (.ok r, w) ∧
      (checkedLookup r = .miss → ¬ ∃ object row, w.receipts.get object = some row ∧ row.idempotencyKey = some k) := by
  obtain ⟨r, hrun, rfl | ⟨e, rfl, he⟩⟩ := stored_read (w := w) hd
  · exact ⟨_, hrun, no_row_of_checkedLookup hw⟩
  · refine ⟨_, hrun, fun h => ?_⟩
    simp [checkedLookup, he] at h

theorem exec_getByCanonicalObjectKey (object : ObjectKey) (hd : d.Truthful) :
    ∃ r, (toolHandler epoch).exec w (ToolOp.getByCanonicalObjectKey object) d = (.ok r, w) ∧
      (checkedLookup r = .miss → ∀ row, w.receipts.get object = some row → row.receipt = none) ∧
      ∀ record, checkedLookup r = .hit record →
        ∃ row, w.receipts.get object = some row ∧ rowToReceiptRecord row = some record := by
  obtain ⟨r, hrun, rfl | ⟨e, rfl, he⟩⟩ := stored_read (w := w) hd
  · exact ⟨_, hrun, no_receipt_of_checkedLookup, fun _ => row_of_checkedLookup⟩
  · refine ⟨_, hrun, fun h => ?_, fun _ h => ?_⟩
    · simp [checkedLookup, he] at h
    · simp [checkedLookup, he] at h

/-- A world with a log of the calls made on it. -/
abbrev LoggedWorld (Time Payload : Type) := ToolWorld Time Payload × List (ToolOp Time Payload × Choice Time)

/-- What the existence check tells of the stores. -/
def Resolved (env : ExternalWriteEnvelope) (w : ToolWorld Time Payload) : ExistenceOutcome Time → Prop
  | .replay _ => True
  | .error _ => True
  | .stored record => ¬ w.Known env.idempotencyKey ∧
      ∃ row, w.receipts.get (env.targetSystem, env.canonicalObjectKey) = some row ∧ rowToReceiptRecord row = some record
  | _ => ¬ w.Known env.idempotencyKey ∧
      ∀ row, w.receipts.get (env.targetSystem, env.canonicalObjectKey) = some row → row.receipt = none

/-- The existence check leaves the world alone and does not throw. -/
def Resolves (env : ExternalWriteEnvelope) (w : ToolWorld Time Payload) (r : Except Cause (ExistenceOutcome Time))
    (w' : LoggedWorld Time Payload) : Prop :=
  w'.1 = w ∧ ∃ outcome, r = .ok outcome ∧ Resolved env w outcome

theorem wp_resolveExisting (env : ExternalWriteEnvelope) (ctx : AdapterCallContext) (hw : w.WellFormed)
    (l : List (ToolOp Time Payload × Choice Time)) :
    wp (toolHandler epoch).logged Truthfully (resolveExisting env ctx) (Resolves env w) (w, l) := by
  unfold resolveExisting ReceiptStore.getApplication ReceiptStore.getByIdempotencyKeyChecked
    ReceiptStore.getByCanonicalObjectKeyChecked
  simp only [bind_map_left]
  refine wp_logged fun d hd => ?_
  obtain ⟨r, hrun, hledger, -⟩ := exec_getApplication (w := w) env.idempotencyKey (hd trivial)
  refine ⟨r, w, hrun, ?_⟩
  cases happlication : applicationLookup r with
  | fault code => exact ⟨rfl, _, rfl, trivial⟩
  | hit record => exact ⟨rfl, _, rfl, trivial⟩
  | miss =>
    refine wp_logged fun d hd => ?_
    obtain ⟨r, hrun, hkeys⟩ := exec_getByIdempotencyKey hw env.idempotencyKey (hd trivial)
    refine ⟨r, w, hrun, ?_⟩
    cases hbyKey : checkedLookup r with
    | fault code => exact ⟨rfl, _, rfl, trivial⟩
    | hit record => exact ⟨rfl, _, rfl, trivial⟩
    | miss =>
      have hknown : ¬ w.Known env.idempotencyKey := by
        rintro (hhas | hrow)
        · rw [hledger happlication] at hhas
          cases hhas
        · exact hkeys hbyKey hrow
      refine wp_logged fun d hd => ?_
      obtain ⟨r, hrun, hmiss, hhit⟩ :=
        exec_getByCanonicalObjectKey (w := w) (env.targetSystem, env.canonicalObjectKey) (hd trivial)
      refine ⟨r, w, hrun, ?_⟩
      cases hbyObject : checkedLookup r with
      | fault code => exact ⟨rfl, _, rfl, trivial⟩
      | hit record => exact ⟨rfl, _, rfl, hknown, hhit record hbyObject⟩
      | miss =>
        refine wp_logged fun d hd => ⟨_, w, rfl, ?_⟩
        cases d.probe.report w (env.targetSystem, env.canonicalObjectKey) with
        | error e => exact ⟨rfl, _, rfl, trivial⟩
        | ok seen =>
          cases seen with
          | none => exact ⟨rfl, _, rfl, hknown, hmiss hbyObject⟩
          | some object => exact ⟨rfl, _, rfl, hknown, hmiss hbyObject⟩

end reads

/-- Of the two records of a write, the ledger entry or the receipt row takes effect. -/
def RecordsKept (trace : List (ToolOp Time Payload × Choice Time)) : Prop :=
  (∀ row d, (ToolOp.recordApplication row, d) ∈ trace → d.Effective) ∨ (∀ row d, (ToolOp.put row, d) ∈ trace → d.Effective)

theorem RecordsKept.of_append {l l' : List (ToolOp Time Payload × Choice Time)} (h : RecordsKept (l ++ l')) : RecordsKept l := by
  cases h with
  | inl h => exact .inl fun row d hmem => h row d (List.mem_append_left _ hmem)
  | inr h => exact .inr fun row d hmem => h row d (List.mem_append_left _ hmem)

/-- What a dispatch may do to the stores and the vendor. -/
structure DispatchEffect (env : ExternalWriteEnvelope) (kept : Prop) (w w' : ToolWorld Time Payload) : Prop where
  others : ∀ object, object ≠ (env.targetSystem, env.canonicalObjectKey) → w'.receipts.get object = w.receipts.get object
  /-- The row stays, or an object without a receipt gets a closed row, or an open object is written. -/
  row : w'.receipts.get (env.targetSystem, env.canonicalObjectKey) = w.receipts.get (env.targetSystem, env.canonicalObjectKey) ∨
    (∀ row, w.receipts.get (env.targetSystem, env.canonicalObjectKey) = some row → row.idempotencyKey = none) ∧
      w'.Closed (env.targetSystem, env.canonicalObjectKey) ∨
    ¬ w.Known env.idempotencyKey ∧ ¬ w.Closed (env.targetSystem, env.canonicalObjectKey)
  ledger : ∀ k, w'.applications.has k = true → w.applications.has k = true ∨
    k = env.idempotencyKey ∧ ¬ w.Known env.idempotencyKey ∧ ¬ w.Closed (env.targetSystem, env.canonicalObjectKey)
  ledgerKept : ∀ k, w.applications.has k = true → w'.applications.has k = true
  keys : ∀ k, w'.Known k → w.Known k ∨ k = env.idempotencyKey
  calls : w'.calls = w.calls ∨ ∃ c : VendorCall Payload, w'.calls = w.calls ++ [c] ∧ c.env = env ∧
    ¬ w.Known env.idempotencyKey ∧ ¬ w.Closed (env.targetSystem, env.canonicalObjectKey) ∧
    (c.ok = true → (kept → w'.Known env.idempotencyKey) ∧
      (w.receipts.get (env.targetSystem, env.canonicalObjectKey) = none → w'.Known env.idempotencyKey ∨ w'.Closed (env.targetSystem, env.canonicalObjectKey)))
  wellFormed : w'.WellFormed

namespace DispatchEffect

variable {env : ExternalWriteEnvelope} {kept : Prop} {w w' : ToolWorld Time Payload}

theorem refl (hw : w.WellFormed) : DispatchEffect env kept w w :=
  ⟨fun _ _ => rfl, .inl rfl, fun _ => .inl, fun _ => id, fun _ => .inl, .inl rfl, hw⟩

/-- A key that is known stays known. -/
theorem known (h : DispatchEffect env kept w w') {k : JsString} (hk : w.Known k) : w'.Known k := by
  rcases hk with hhas | ⟨object, row, hrow, hkey⟩
  · exact .inl (h.ledgerKept k hhas)
  · by_cases hobject : object = (env.targetSystem, env.canonicalObjectKey)
    · subst hobject
      rcases h.row with hsame | ⟨hkeyless, -⟩ | ⟨-, hopen⟩
      · exact .inr ⟨_, row, hsame.trans hrow, hkey⟩
      · rw [hkeyless row hrow] at hkey
        cases hkey
      · -- The row of an open object is in the ledger.
        left
        apply h.ledgerKept
        by_contra hnot
        refine hopen ⟨row, hrow, fun k' hk' => ?_⟩
        obtain rfl := Option.some.inj (hkey.symm.trans hk')
        simpa using hnot
    · exact .inr ⟨object, row, (h.others object hobject).trans hrow, hkey⟩

/-- An object that is closed stays closed. -/
theorem closed (h : DispatchEffect env kept w w') {object : ObjectKey} (hclosed : w.Closed object) : w'.Closed object := by
  have hledger : ∀ row, w.receipts.get object = some row →
      (∀ k, row.idempotencyKey = some k → w.applications.has k = false) →
      ∀ k, row.idempotencyKey = some k → w'.applications.has k = false := by
    intro row hrow hkeys k hk
    by_contra hhas
    rw [Bool.not_eq_false] at hhas
    rcases h.ledger k hhas with hhas | ⟨rfl, hunknown, -⟩
    · rw [hkeys k hk] at hhas
      cases hhas
    · exact hunknown (.inr ⟨object, row, hrow, hk⟩)
  obtain ⟨row, hrow, hkeys⟩ := hclosed
  by_cases hobject : object = (env.targetSystem, env.canonicalObjectKey)
  · rcases h.row with hsame | ⟨-, hclosed'⟩ | ⟨-, hopen⟩
    · subst hobject
      exact ⟨row, hsame.trans hrow, hledger row hrow hkeys⟩
    · exact hobject ▸ hclosed'
    · exact absurd ⟨row, hobject ▸ hrow, hkeys⟩ hopen
  · exact ⟨row, (h.others object hobject).trans hrow, hledger row hrow hkeys⟩

end DispatchEffect

section rows

variable {w w' : ToolWorld Time Payload} {object : ObjectKey}

/-- Only the row of one object needs a look. -/
theorem ToolWorld.WellFormed.of_others (hw : w.WellFormed)
    (hothers : ∀ o, o ≠ object → w'.receipts.get o = w.receipts.get o)
    (hrow : ∀ row, w'.receipts.get object = some row → (row.idempotencyKey.isSome ↔ row.receipt.isSome)) : w'.WellFormed := by
  intro o row ho
  by_cases hobject : o = object
  · exact hrow row (hobject ▸ ho)
  · exact hw o row ((hothers o hobject).symm.trans ho)

theorem not_closed_of_none (h : w.receipts.get object = none) : ¬ w.Closed object := by
  rintro ⟨row, hrow, -⟩
  rw [h] at hrow
  cases hrow

theorem has_recordApplication (rows : Map JsString (WriteApplicationRow Time)) (row : WriteApplicationRow Time) (k : JsString) :
    (tables.recordApplication rows row).has k = true ↔ rows.has k = true ∨ k = row.idempotencyKey := by
  unfold tables.recordApplication
  split_ifs with hhas
  · constructor
    · exact .inl
    · rintro (h | rfl)
      · exact h
      · exact hhas
  · unfold Map.has
    rw [Map.get_set]
    split_ifs with hk
    · simp [hk]
    · simp [Ne.symm hk]

/-- A release may delete the row of its object, and leaves the others. -/
theorem release_others (rows : Map ObjectKey (WriteReceiptRow Time)) (object : ObjectKey) :
    (∀ o, o ≠ object → (tables.release rows object).get o = rows.get o) ∧
      ∀ row, (tables.release rows object).get object = some row → rows.get object = some row := by
  unfold tables.release
  cases hrow : rows.get object with
  | none => exact ⟨fun _ _ => rfl, fun row h => by rw [hrow] at h; exact h⟩
  | some row =>
    dsimp only
    split_ifs
    · refine ⟨fun o ho => Map.get_delete_of_ne _ (Ne.symm ho), fun other h => ?_⟩
      rw [Map.get_delete_self] at h
      cases h
    · exact ⟨fun _ _ => rfl, fun other h => by rw [hrow] at h; exact h⟩

/-- A new key is on no other row, so its row is written. -/
theorem put_of_unknown {rows : Map ObjectKey (WriteReceiptRow Time)} {row : WriteReceiptRow Time}
    (h : ¬ ∃ object other, rows.get object = some other ∧ other.idempotencyKey = row.idempotencyKey) :
    (tables.put rows row).2 = rows.set row.object row := by
  unfold tables.put
  rw [if_neg]
  intro hany
  obtain ⟨e, he, hkey⟩ := List.any_eq_true.mp hany
  simp only [Bool.and_eq_true, decide_eq_true_eq] at hkey
  exact h ⟨e.1, e.2, Map.get_eq_some_iff.mpr he, hkey.2⟩

end rows

/-- The stores and the vendor are as before. -/
structure SameStores (w w' : ToolWorld Time Payload) : Prop where
  receipts : w'.receipts = w.receipts
  applications : w'.applications = w.applications
  calls : w'.calls = w.calls

theorem DispatchEffect.same {env : ExternalWriteEnvelope} {kept : Prop} {w w₁ w₂ : ToolWorld Time Payload}
    (h : DispatchEffect env kept w w₁) (hsame : SameStores w₁ w₂) : DispatchEffect env kept w w₂ := by
  obtain ⟨hreceipts, happlications, hcalls⟩ := hsame
  obtain ⟨outbox₁, receipts, applications, preexisting₁, calls, now₁⟩ := w₁
  obtain ⟨outbox₂, receipts₂, applications₂, preexisting₂, calls₂, now₂⟩ := w₂
  dsimp only at hreceipts happlications hcalls
  subst hreceipts happlications hcalls
  exact ⟨h.others, h.row, h.ledger, h.ledgerKept, h.keys, h.calls, h.wellFormed⟩

/-- What the record of a committed write may do to the stores. -/
structure Recorded (env : ExternalWriteEnvelope) (kept : Prop) (w w' : ToolWorld Time Payload) : Prop where
  others : ∀ object, object ≠ (env.targetSystem, env.canonicalObjectKey) → w'.receipts.get object = w.receipts.get object
  row : w'.receipts.get (env.targetSystem, env.canonicalObjectKey) = w.receipts.get (env.targetSystem, env.canonicalObjectKey) ∨
    ∃ row, w'.receipts.get (env.targetSystem, env.canonicalObjectKey) = some row ∧
      row.idempotencyKey = some env.idempotencyKey ∧ row.receipt.isSome
  ledger : ∀ k, w'.applications.has k = true → w.applications.has k = true ∨ k = env.idempotencyKey
  ledgerKept : ∀ k, w.applications.has k = true → w'.applications.has k = true
  keys : ∀ k, w'.Known k → w.Known k ∨ k = env.idempotencyKey
  calls : w'.calls = w.calls
  kept : kept → w'.Known env.idempotencyKey

section records

variable [LinearOrder Time] {epoch : Time} {w : ToolWorld Time Payload} {l : List (ToolOp Time Payload × Choice Time)}

theorem wp_recordReceipt (env : ExternalWriteEnvelope) (receipt : WriteReceipt Time)
    (hkey : ¬ ∃ object row, w.receipts.get object = some row ∧ row.idempotencyKey = some env.idempotencyKey) :
    wp (toolHandler epoch).logged Truthfully (recordReceipt env receipt)
      (fun r w' => r = .ok () ∧ Recorded env (RecordsKept w'.2) w w'.1) (w, l) := by
  unfold recordReceipt
  refine wp_logged fun d hd => ⟨_, _, rfl, ?_⟩
  unfold ReceiptStore.recordApplication
  rw [bind_assoc]
  refine wp_logged fun dledger hd => ?_
  obtain ⟨r, w₁, hrun, hledger⟩ := stored_write
  refine ⟨r, w₁, hrun, ?_⟩
  unfold ReceiptStore.put
  refine wp_logged fun dput hd => ?_
  obtain ⟨r, w₂, hrun, hput⟩ := stored_write
  refine ⟨r, w₂, hrun, rfl, ?_⟩
  have happlications : ∀ k, w₁.applications.has k = true ↔
      w.applications.has k = true ∨ dledger.Effective ∧ k = env.idempotencyKey := by
    intro k
    rcases hledger with ⟨heffective, rfl⟩ | ⟨hlost, rfl⟩
    · simp [has_recordApplication, buildReceiptRecord, heffective]
    · simp [hlost]
  have hkept : w₁.receipts = w.receipts ∧ w₁.calls = w.calls := by
    rcases hledger with ⟨-, rfl⟩ | ⟨-, rfl⟩
    · exact ⟨rfl, rfl⟩
    · exact ⟨rfl, rfl⟩
  obtain ⟨hreceipts, hcalls⟩ := hkept
  have hreceipts₂ : (dput.Effective ∧ w₂.receipts = w.receipts.set (env.targetSystem, env.canonicalObjectKey)
      (receiptRecordToRow (buildReceiptRecord env receipt (max w.now d.time)))) ∨
      ¬ dput.Effective ∧ w₂.receipts = w.receipts := by
    rcases hput with ⟨heffective, rfl⟩ | ⟨hlost, rfl⟩
    · refine .inl ⟨heffective, ?_⟩
      dsimp only
      rw [hreceipts]
      exact put_of_unknown hkey
    · exact .inr ⟨hlost, hreceipts⟩
  have hrest : w₂.applications = w₁.applications ∧ w₂.calls = w₁.calls := by
    rcases hput with ⟨-, rfl⟩ | ⟨-, rfl⟩
    · exact ⟨rfl, rfl⟩
    · exact ⟨rfl, rfl⟩
  obtain ⟨happlications₂, hcalls₂⟩ := hrest
  have hrow : dput.Effective → ∃ row, w₂.receipts.get (env.targetSystem, env.canonicalObjectKey) = some row ∧
      row.idempotencyKey = some env.idempotencyKey ∧ row.receipt.isSome := by
    intro heffective
    rcases hreceipts₂ with ⟨-, hset⟩ | ⟨hlost, -⟩
    · exact ⟨_, by rw [hset]; exact Map.get_set_self .., rfl, rfl⟩
    · exact absurd heffective hlost
  constructor
  · intro object hobject
    rcases hreceipts₂ with ⟨-, hset⟩ | ⟨-, hsame⟩
    · rw [hset]
      exact Map.get_set_of_ne _ _ (Ne.symm hobject)
    · rw [hsame]
  · rcases hreceipts₂ with ⟨heffective, -⟩ | ⟨-, hsame⟩
    · exact .inr (hrow heffective)
    · exact .inl (by rw [hsame])
  · intro k hk
    rw [happlications₂, happlications] at hk
    exact hk.imp_right And.right
  · intro k hk
    rw [happlications₂, happlications]
    exact .inl hk
  · rintro k (hhas | ⟨object, row, hget, hkeyed⟩)
    · rw [happlications₂, happlications] at hhas
      exact hhas.imp .inl And.right
    · rcases hreceipts₂ with ⟨-, hset⟩ | ⟨-, hsame⟩
      · rw [hset, Map.get_set] at hget
        split_ifs at hget
        · obtain rfl := Option.some.inj hget
          exact .inr (Option.some.inj hkeyed).symm
        · exact .inl (.inr ⟨object, row, hget, hkeyed⟩)
      · exact .inl (.inr ⟨object, row, hsame ▸ hget, hkeyed⟩)
  · rw [hcalls₂, hcalls]
  · rintro (hkept | hkept)
    · left
      rw [happlications₂, happlications]
      have heffective := hkept _ dledger (List.mem_append_left _ (List.mem_append_right _ (List.mem_singleton_self _)))
      exact .inr ⟨heffective, rfl⟩
    · obtain ⟨row, hget, hkeyed, -⟩ := hrow (hkept _ dput (List.mem_append_right _ (List.mem_singleton_self _)))
      exact .inr ⟨_, row, hget, hkeyed⟩

theorem wp_emitCommitDiagnostics (env : ExternalWriteEnvelope) (receipt : WriteReceipt Time) :
    wp (toolHandler epoch).logged Truthfully (emitCommitDiagnostics env receipt : ToolM Time Payload Unit)
      (fun r w' => r = .ok () ∧ SameStores w w'.1 ∧ ∃ l', w'.2 = l ++ l') (w, l) := by
  unfold emitCommitDiagnostics
  refine wp_logged fun d₁ _ => ⟨_, _, rfl, ?_⟩
  refine wp_logged fun d₂ _ => ⟨_, _, rfl, ?_⟩
  intro d₃ _
  exact ⟨rfl, ⟨rfl, rfl, rfl⟩, _, (List.append_assoc _ _ _).trans (List.append_assoc _ _ _)⟩

/-- A reservation leaves the row of its object, or gives the object a row without a key. -/
theorem exec_reserve_row (object : ObjectKey) (d : Choice Time) :
    ∃ r w₁, (toolHandler epoch).exec w (ToolOp.reserve object) d = (.ok r, w₁) ∧
      w₁.applications = w.applications ∧ w₁.calls = w.calls ∧
      (w₁.receipts = w.receipts ∨
        w.receipts.get object = none ∧ w₁.receipts = w.receipts.set object ⟨object, none, [], none, epoch⟩) ∧
      (r = .ok .reserved → w.receipts.get object = none ∧
        w₁.receipts = w.receipts.set object ⟨object, none, [], none, epoch⟩) := by
  simp only [toolHandler, stored]
  cases hrow : w.receipts.get object with
  | none =>
    have hreserve : tables.reserve epoch w.receipts object =
        (.reserved, w.receipts.set object ⟨object, none, [], none, epoch⟩) := by
      unfold tables.reserve
      rw [hrow]
    rw [hreserve]
    cases d.fault with
    | none => exact ⟨_, _, rfl, rfl, rfl, .inr ⟨rfl, rfl⟩, fun _ => ⟨rfl, rfl⟩⟩
    | some e =>
      cases d.landed with
      | true => exact ⟨_, _, rfl, rfl, rfl, .inr ⟨rfl, rfl⟩, fun h => by cases h⟩
      | false => exact ⟨_, _, rfl, rfl, rfl, .inl rfl, fun h => by cases h⟩
  | some row =>
    have hreserve : tables.reserve epoch w.receipts object =
        (if row.receipt.isSome then .committed row else .in_progress, w.receipts) := by
      unfold tables.reserve
      rw [hrow]
    rw [hreserve]
    cases d.fault with
    | none =>
      refine ⟨_, _, rfl, rfl, rfl, .inl rfl, fun h => ?_⟩
      dsimp only at h
      split_ifs at h
      · cases h
      · cases h
    | some e =>
      cases d.landed with
      | true => exact ⟨_, _, rfl, rfl, rfl, .inl rfl, fun h => by cases h⟩
      | false => exact ⟨_, _, rfl, rfl, rfl, .inl rfl, fun h => by cases h⟩

end records

section effects

variable {env : ExternalWriteEnvelope} {kept : Prop} {w w₁ w₂ w₃ : ToolWorld Time Payload}

theorem DispatchEffect.mono {kept' : Prop} (h : DispatchEffect env kept w w₁) (hkept : kept' → kept) :
    DispatchEffect env kept' w w₁ := by
  refine ⟨h.others, h.row, h.ledger, h.ledgerKept, h.keys, ?_, h.wellFormed⟩
  rcases h.calls with hcalls | ⟨c, hcalls, henv, hknown, hopen, hok⟩
  · exact .inl hcalls
  · exact .inr ⟨c, hcalls, henv, hknown, hopen, fun h => ⟨fun hk => (hok h).1 (hkept hk), (hok h).2⟩⟩

/-- The row of the object is as before, or has no key. -/
def KeepsKeys (object : ObjectKey) (w w' : ToolWorld Time Payload) : Prop :=
  w'.receipts.get object = w.receipts.get object ∨ ∀ row, w'.receipts.get object = some row → row.idempotencyKey = none

theorem KeepsKeys.row {object : ObjectKey} (h : KeepsKeys object w w₁)
    (hothers : ∀ o, o ≠ object → w₁.receipts.get o = w.receipts.get o) {k : JsString}
    (hk : ∃ o row, w₁.receipts.get o = some row ∧ row.idempotencyKey = some k) :
    ∃ o row, w.receipts.get o = some row ∧ row.idempotencyKey = some k := by
  obtain ⟨o, row, hrow, hkey⟩ := hk
  by_cases hobject : o = object
  · rcases h with hsame | hkeyless
    · exact ⟨object, row, hsame.symm.trans (hobject ▸ hrow), hkey⟩
    · rw [hkeyless row (hobject ▸ hrow)] at hkey
      cases hkey
  · exact ⟨o, row, (hothers o hobject).symm.trans hrow, hkey⟩

theorem KeepsKeys.known {object : ObjectKey} (h : KeepsKeys object w w₁)
    (hothers : ∀ o, o ≠ object → w₁.receipts.get o = w.receipts.get o) (happlications : w₁.applications = w.applications)
    {k : JsString} (hk : w₁.Known k) : w.Known k := by
  rcases hk with hhas | hrow
  · exact .inl (happlications ▸ hhas)
  · exact .inr (h.row hothers hrow)

/-- A dispatch of an unknown key to an open object, which calls the vendor in vain or not at all. -/
theorem DispatchEffect.attempt (hknown : ¬ w.Known env.idempotencyKey)
    (hopen : ¬ w.Closed (env.targetSystem, env.canonicalObjectKey)) (hwell : w₁.WellFormed)
    (hothers : ∀ object, object ≠ (env.targetSystem, env.canonicalObjectKey) → w₁.receipts.get object = w.receipts.get object)
    (hkeyless : KeepsKeys (env.targetSystem, env.canonicalObjectKey) w w₁) (happlications : w₁.applications = w.applications)
    (hcalls : w₁.calls = w.calls ∨ ∃ c : VendorCall Payload, w₁.calls = w.calls ++ [c] ∧ c.env = env ∧ c.ok = false) :
    DispatchEffect env kept w w₁ := by
  refine ⟨hothers, .inr (.inr ⟨hknown, hopen⟩), ?_, ?_, ?_, ?_, hwell⟩
  · intro k hk
    exact .inl (happlications ▸ hk)
  · intro k hk
    exact happlications ▸ hk
  · exact fun k hk => .inl (hkeyless.known hothers happlications hk)
  · rcases hcalls with hcalls | ⟨c, hcalls, henv, hok⟩
    · exact .inl hcalls
    · refine .inr ⟨c, hcalls, henv, hknown, hopen, fun h => ?_⟩
      rw [hok] at h
      cases h

/-- A dispatch of an unknown key to an open object, whose call `c` of the vendor succeeded. -/
theorem Recorded.effect {c : VendorCall Payload} (h : Recorded env kept w₂ w₃) (hknown : ¬ w.Known env.idempotencyKey)
    (hopen : ¬ w.Closed (env.targetSystem, env.canonicalObjectKey)) (hwell : w₂.WellFormed)
    (hothers : ∀ object, object ≠ (env.targetSystem, env.canonicalObjectKey) → w₂.receipts.get object = w.receipts.get object)
    (hkeyless : KeepsKeys (env.targetSystem, env.canonicalObjectKey) w w₂)
    (happlications : w₂.applications = w.applications) (hcalls : w₂.calls = w.calls ++ [c]) (henv : c.env = env)
    (hcreates : w.receipts.get (env.targetSystem, env.canonicalObjectKey) = none →
      ∃ row, w₂.receipts.get (env.targetSystem, env.canonicalObjectKey) = some row ∧ row.idempotencyKey = none) :
    DispatchEffect env kept w w₃ := by
  constructor
  · exact fun object hobject => (h.others object hobject).trans (hothers object hobject)
  · exact .inr (.inr ⟨hknown, hopen⟩)
  · intro k hk
    rw [← happlications]
    exact (h.ledger k hk).imp_right fun hkey => ⟨hkey, hknown, hopen⟩
  · intro k hk
    exact h.ledgerKept k (happlications ▸ hk)
  · exact fun k hk => (h.keys k hk).imp_left fun hk => hkeyless.known hothers happlications hk
  · refine .inr ⟨c, h.calls.trans hcalls, henv, hknown, hopen, fun _ => ⟨h.kept, fun hc => ?_⟩⟩
    obtain ⟨row, hrow, hkeyless⟩ := hcreates hc
    rcases h.row with hsame | ⟨row', hrow', hkey, -⟩
    · refine .inr ⟨row, hsame.trans hrow, fun k hk => ?_⟩
      rw [hkeyless] at hk
      cases hk
    · exact .inl (.inr ⟨_, row', hrow', hkey⟩)
  · refine hwell.of_others h.others fun row hrow => ?_
    rcases h.row with hsame | ⟨row', hrow', hkey, hreceipt⟩
    · exact hwell _ row (hsame.symm.trans hrow)
    · obtain rfl := Option.some.inj (hrow.symm.trans hrow')
      simp [hkey, hreceipt]

/-- The row of an adopted object is closed, since its key is not in the ledger. -/
theorem DispatchEffect.adopt {row : WriteReceiptRow Time} (hw : w.WellFormed) (hknown : ¬ w.Known env.idempotencyKey)
    (hrow : ∀ row, w.receipts.get (env.targetSystem, env.canonicalObjectKey) = some row → row.receipt = none)
    (hkey : row.idempotencyKey = some env.idempotencyKey) (hreceipt : row.receipt.isSome)
    (hreceipts : w₁.receipts = w.receipts.set (env.targetSystem, env.canonicalObjectKey) row)
    (happlications : w₁.applications = w.applications) (hcalls : w₁.calls = w.calls) : DispatchEffect env kept w w₁ := by
  have hothers : ∀ object, object ≠ (env.targetSystem, env.canonicalObjectKey) →
      w₁.receipts.get object = w.receipts.get object := by
    intro object hobject
    rw [hreceipts]
    exact Map.get_set_of_ne _ _ (Ne.symm hobject)
  have hget : w₁.receipts.get (env.targetSystem, env.canonicalObjectKey) = some row := by
    rw [hreceipts]
    exact Map.get_set_self ..
  refine ⟨hothers, .inr (.inl ⟨?_, row, hget, ?_⟩), ?_, ?_, ?_, .inl hcalls, ?_⟩
  · intro old hold
    have hkeyless := hw _ old hold
    rw [hrow old hold] at hkeyless
    simpa using hkeyless
  · intro k hk
    obtain rfl := Option.some.inj (hkey.symm.trans hk)
    rw [happlications]
    by_contra hhas
    exact hknown (.inl (by simpa using hhas))
  · exact fun k hk => .inl (happlications ▸ hk)
  · exact fun k hk => happlications ▸ hk
  · rintro k (hhas | ⟨object, row', hrow', hkey'⟩)
    · exact .inl (.inl (happlications ▸ hhas))
    · by_cases hobject : object = (env.targetSystem, env.canonicalObjectKey)
      · obtain rfl := Option.some.inj (hget.symm.trans (hobject ▸ hrow'))
        exact .inr (Option.some.inj (hkey'.symm.trans hkey))
      · exact .inl (.inr ⟨object, row', (hothers object hobject).symm.trans hrow', hkey'⟩)
  · refine hw.of_others hothers fun row' hrow' => ?_
    obtain rfl := Option.some.inj (hget.symm.trans hrow')
    simp [hkey, hreceipt]

/-- A reservation alone writes nothing. -/
theorem reserve_wellFormed {object : ObjectKey} {epoch : Time} (hw : w.WellFormed)
    (hreceipts : w₁.receipts = w.receipts ∨
      w.receipts.get object = none ∧ w₁.receipts = w.receipts.set object ⟨object, none, [], none, epoch⟩) :
    w₁.WellFormed ∧ (∀ o, o ≠ object → w₁.receipts.get o = w.receipts.get o) ∧ KeepsKeys object w w₁ := by
  have hothers : ∀ o, o ≠ object → w₁.receipts.get o = w.receipts.get o := by
    intro o ho
    rcases hreceipts with hsame | ⟨-, hset⟩
    · rw [hsame]
    · rw [hset, Map.get_set_of_ne _ _ (Ne.symm ho)]
  refine ⟨hw.of_others hothers fun row hrow => ?_, hothers, ?_⟩
  · rcases hreceipts with hsame | ⟨-, hset⟩
    · exact hw object row (hsame ▸ hrow)
    · rw [hset, Map.get_set_self] at hrow
      obtain rfl := Option.some.inj hrow
      rfl
  · rcases hreceipts with hsame | ⟨-, hset⟩
    · exact .inl (by rw [hsame])
    · refine .inr fun row hrow => ?_
      rw [hset, Map.get_set_self] at hrow
      obtain rfl := Option.some.inj hrow
      rfl

end effects

section dispatch

variable [LinearOrder Time] {epoch : Time} {w : ToolWorld Time Payload} {l : List (ToolOp Time Payload × Choice Time)}

/-- A part of a dispatch, started at `w`, does no more than a dispatch may. -/
def Effects {α : Type} (env : ExternalWriteEnvelope) (w : ToolWorld Time Payload) (_ : Except Cause α)
    (w' : LoggedWorld Time Payload) : Prop := DispatchEffect env (RecordsKept w'.2) w w'.1

/-- The rule of what follows a successful call `c` of the vendor. -/
theorem wp_commit {env : ExternalWriteEnvelope} {receipt : WriteReceipt Time} {result : ExternalWriteResult Time}
    {c : VendorCall Payload} {w₂ : ToolWorld Time Payload} (hknown : ¬ w.Known env.idempotencyKey)
    (hopen : ¬ w.Closed (env.targetSystem, env.canonicalObjectKey)) (hwell : w₂.WellFormed)
    (hothers : ∀ object, object ≠ (env.targetSystem, env.canonicalObjectKey) → w₂.receipts.get object = w.receipts.get object)
    (hkeyless : KeepsKeys (env.targetSystem, env.canonicalObjectKey) w w₂)
    (happlications : w₂.applications = w.applications) (hcalls : w₂.calls = w.calls ++ [c]) (henv : c.env = env)
    (hcreates : w.receipts.get (env.targetSystem, env.canonicalObjectKey) = none →
      ∃ row, w₂.receipts.get (env.targetSystem, env.canonicalObjectKey) = some row ∧ row.idempotencyKey = none) :
    wp (toolHandler epoch).logged Truthfully
      (do
        recordReceipt env receipt
        emitCommitDiagnostics env receipt
        return result) (Effects env w) (w₂, l) := by
  have hkey : ¬ ∃ object row, w₂.receipts.get object = some row ∧ row.idempotencyKey = some env.idempotencyKey :=
    fun hrow => hknown (.inr (hkeyless.row hothers hrow))
  rw [wp_bind]
  refine wp.mono (wp_recordReceipt env receipt hkey) fun r w₃ hrecorded => ?_
  obtain ⟨rfl, hrecorded⟩ := hrecorded
  dsimp only
  rw [wp_bind]
  refine wp.mono (wp_emitCommitDiagnostics env receipt) fun r w₄ hemitted => ?_
  obtain ⟨rfl, hsame, l', hl'⟩ := hemitted
  have heffect := hrecorded.effect hknown hopen hwell hothers hkeyless happlications hcalls henv hcreates
  refine DispatchEffect.same (heffect.mono fun hkept => ?_) hsame
  rw [hl'] at hkept
  exact hkept.of_append

theorem wp_dispatchCreate (env : ExternalWriteEnvelope) (action : ProposedAction Payload) (ctx : AdapterCallContext)
    (hw : w.WellFormed) (hknown : ¬ w.Known env.idempotencyKey) :
    wp (toolHandler epoch).logged Truthfully (dispatchCreate env action ctx) (Effects env w) (w, l) := by
  unfold dispatchCreate ReceiptStore.reserve
  rw [bind_map_left]
  refine wp_logged fun d _ => ?_
  obtain ⟨r, w₁, hrun, happlications, hcalls, hreceipts, hreserved⟩ :=
    exec_reserve_row (w := w) (env.targetSystem, env.canonicalObjectKey) d
  refine ⟨r, w₁, hrun, ?_⟩
  obtain ⟨hwell, hothers, hkeyless⟩ := reserve_wellFormed hw hreceipts
  have hidle : ∀ kept, DispatchEffect env kept w w₁ := by
    intro kept
    rcases hreceipts with hsame | ⟨hnone, -⟩
    · exact (DispatchEffect.refl hw).same ⟨hsame, happlications, hcalls⟩
    · exact .attempt hknown (not_closed_of_none hnone) hwell hothers hkeyless happlications (.inl hcalls)
  cases r with
  | error e => exact hidle _
  | ok outcome =>
    cases outcome with
    | in_progress => exact hidle _
    | committed row =>
      dsimp only [reservationOf]
      cases rowToReceiptRecord row with
      | none => exact hidle _
      | some record => exact hidle _
    | reserved =>
      obtain ⟨hnone, hset⟩ := hreserved rfl
      have hopen := not_closed_of_none hnone
      have hplaceholder : w₁.receipts.get (env.targetSystem, env.canonicalObjectKey) =
          some ⟨(env.targetSystem, env.canonicalObjectKey), none, [], none, epoch⟩ := by
        rw [hset]
        exact Map.get_set_self ..
      refine wp_logged fun d' _ => ⟨_, _, rfl, ?_⟩
      cases hadapter : d'.adapter with
      | ok receipt =>
        exact wp_commit hknown hopen hwell hothers hkeyless happlications (congrArg (· ++ _) hcalls) rfl
          fun _ => ⟨_, hplaceholder, rfl⟩
      | error e =>
        unfold ReceiptStore.release
        dsimp only
        rw [bind_assoc]
        refine wp_logged fun d _ => ?_
        obtain ⟨r, w₂, hrun, hreleased⟩ := stored_write
        refine ⟨r, w₂, hrun, ?_⟩
        have hcall : (vendorCall d' w₁ true env action.payload).calls = w.calls ++ [_] := congrArg (· ++ _) hcalls
        have hok : (d'.adapter.isOk : Bool) = false := by rw [hadapter]; rfl
        rcases hreleased with ⟨-, rfl⟩ | ⟨-, rfl⟩
        · have hrelease := release_others w₁.receipts (env.targetSystem, env.canonicalObjectKey)
          refine .attempt hknown hopen ?_ ?_ (.inr fun row hrow => ?_) happlications (.inr ⟨_, hcall, rfl, hok⟩)
          · exact hwell.of_others hrelease.1 fun row hrow => hwell _ row (hrelease.2 row hrow)
          · exact fun object hobject => (hrelease.1 object hobject).trans (hothers object hobject)
          · obtain rfl := Option.some.inj (hplaceholder.symm.trans (hrelease.2 row hrow))
            rfl
        · exact .attempt hknown hopen hwell hothers hkeyless happlications (.inr ⟨_, hcall, rfl, hok⟩)

/-- An update goes to the vendor only if the ledger has the key of the object's row. -/
theorem wp_dispatchStored (env : ExternalWriteEnvelope) (action : ProposedAction Payload) (opts : DispatchOptions Time)
    (ctx : AdapterCallContext) {current : ReceiptRecord Time} (hw : w.WellFormed) (hknown : ¬ w.Known env.idempotencyKey)
    (hrow : ∃ row, w.receipts.get (env.targetSystem, env.canonicalObjectKey) = some row ∧
      rowToReceiptRecord row = some current) :
    wp (toolHandler epoch).logged Truthfully (dispatchStored env action opts ctx current)
      (Effects env w) (w, l) := by
  unfold dispatchStored isAuthoredByThisSystem ReceiptStore.getApplication
  split_ifs
  · exact .refl hw
  · exact .refl hw
  · rw [bind_map_left, bind_assoc]
    refine wp_logged fun d hd => ?_
    obtain ⟨r, hrun, -, hledger⟩ := exec_getApplication (w := w) current.idempotencyKey (hd trivial)
    refine ⟨r, w, hrun, ?_⟩
    cases happlication : applicationLookup r with
    | miss => exact .refl hw
    | fault code => exact .refl hw
    | hit record =>
      have hopen : ¬ w.Closed (env.targetSystem, env.canonicalObjectKey) := by
        rintro ⟨row', hrow', hkeys⟩
        obtain ⟨row, hrow, hcurrent⟩ := hrow
        obtain rfl := Option.some.inj (hrow.symm.trans hrow')
        obtain ⟨hreceipt, hkey, -⟩ := row_of_rowToReceiptRecord hcurrent
        obtain ⟨k, hk⟩ := Option.isSome_iff_exists.mp ((hw _ row hrow).mpr (by rw [hreceipt]; rfl))
        rw [hk, Option.getD_some] at hkey
        have hmissing := hkeys k hk
        rw [← hkey, hledger record happlication] at hmissing
        cases hmissing
      refine wp_logged fun d _ => ⟨_, _, rfl, ?_⟩
      cases hadapter : d.adapter with
      | ok receipt =>
        refine wp_commit hknown hopen hw (fun _ _ => rfl) (.inl rfl) rfl rfl rfl fun hc => ?_
        obtain ⟨row, hrow, -⟩ := hrow
        rw [hc] at hrow
        cases hrow
      | error e =>
        refine .attempt hknown hopen hw (fun _ _ => rfl) (.inl rfl) rfl (.inr ⟨_, rfl, rfl, ?_⟩)
        rw [hadapter]
        rfl

/-- An adopted object gets a row whose key is not in the ledger. -/
theorem wp_dispatchLive (env : ExternalWriteEnvelope) (object : ExistingObject) (hw : w.WellFormed)
    (hknown : ¬ w.Known env.idempotencyKey)
    (hrow : ∀ row, w.receipts.get (env.targetSystem, env.canonicalObjectKey) = some row → row.receipt = none) :
    wp (toolHandler epoch).logged Truthfully
      (dispatchLive env object : ToolM Time Payload (ExternalWriteResult Time)) (Effects env w) (w, l) := by
  unfold dispatchLive recordAdoptedObject ReceiptStore.put
  refine wp_logged fun d₁ _ => ⟨_, _, rfl, ?_⟩
  rw [bind_assoc]
  refine wp_logged fun d₂ _ => ⟨_, _, rfl, ?_⟩
  dsimp only
  rw [bind_assoc]
  refine wp_logged fun d _ => ?_
  obtain ⟨r, w₁, hrun, hput⟩ := stored_write
  refine ⟨r, w₁, hrun, ?_⟩
  rcases hput with ⟨-, rfl⟩ | ⟨-, rfl⟩
  · have hput := fun hkey => hknown (.inr hkey)
    exact .adopt hw hknown hrow rfl rfl (put_of_unknown hput) rfl rfl
  · exact (DispatchEffect.refl hw).same ⟨rfl, rfl, rfl⟩

theorem wp_dispatchWrite (env : ExternalWriteEnvelope) (action : ProposedAction Payload) (opts : DispatchOptions Time)
    (hw : w.WellFormed) :
    wp (toolHandler epoch).logged Truthfully (dispatchWrite env action opts) (Effects env w) (w, l) := by
  unfold dispatchWrite
  rw [wp_bind]
  refine wp.mono (wp_resolveExisting env _ hw l) fun r w' hresolved => ?_
  obtain ⟨w', l'⟩ := w'
  obtain ⟨rfl, outcome, rfl, hresolved⟩ := hresolved
  cases outcome with
  | replay receipt => exact .refl hw
  | error e => exact .refl hw
  | stored current => exact wp_dispatchStored env action opts _ hw hresolved.1 hresolved.2
  | live object => exact wp_dispatchLive env object hw hresolved.1 hresolved.2
  | none => exact wp_dispatchCreate env action _ hw hresolved.1

/-- The credential seam reads no store. -/
theorem wp_resolveWriteCredentialFault (targetSystem : TargetSystem) (workspaceId : Option JsString) :
    wp (toolHandler epoch).logged Truthfully
      (resolveWriteCredentialFault targetSystem workspaceId : ToolM Time Payload (Option WriteCredentialFault))
      (fun _ w' => w'.1 = w) (w, l) := by
  unfold resolveWriteCredentialFault
  cases workspaceId with
  | none => rfl
  | some workspaceId =>
    dsimp only
    split_ifs
    · rfl
    · unfold Hooks.getSecret
      rw [wp_tryCatch, wp_bind, wp_perform]
      intro d _
      simp only [Handler.logged, toolHandler]
      cases d.secret with
      | error cause => rfl
      | ok answer =>
        cases answer with
        | error reason => rfl
        | ok token =>
          dsimp only
          split_ifs
          · rfl
          · rfl

theorem wp_dispatchApproved (deps : ExternalWriteDeps Payload) (env : ExternalWriteEnvelope)
    (action : ProposedAction Payload) (opts : DispatchOptions Time) (hw : w.WellFormed) :
    wp (toolHandler epoch).logged Truthfully (dispatchApproved deps env action opts) (Effects env w) (w, l) := by
  unfold dispatchApproved
  split_ifs
  · rw [wp_bind]
    refine wp.mono (wp_resolveWriteCredentialFault env.targetSystem opts.workspaceId) fun r w' hsame => ?_
    obtain ⟨w', l'⟩ := w'
    dsimp only at hsame
    subst hsame
    cases r with
    | error e => exact .refl hw
    | ok fault =>
      cases fault with
      | some fault => exact .refl hw
      | none => exact wp_dispatchWrite env action opts hw
  · exact wp_dispatchWrite env action opts hw

theorem wp_dispatchExternalWrite (deps : ExternalWriteDeps Payload) (env : ExternalWriteEnvelope)
    (action : ProposedAction Payload) (opts : DispatchOptions Time) (hw : w.WellFormed) :
    wp (toolHandler epoch).logged Truthfully (dispatchExternalWrite deps env action opts)
      (Effects env w) (w, l) := by
  unfold dispatchExternalWrite
  cases admitExternalWriteEnvelope deps.schemaViolation env action with
  | some message => exact .refl hw
  | none =>
    dsimp only
    split_ifs
    · refine wp_logged fun d _ => ⟨_, _, rfl, ?_⟩
      cases d.approved with
      | true => exact wp_dispatchApproved deps env action opts hw
      | false => exact wp_logged fun d _ => ⟨_, _, rfl, .refl hw⟩
    · exact wp_dispatchApproved deps env action opts hw

end dispatch

end sow.tools
