import Sow.Integrations.Tools.AtMostOneObject
import Sow.Integrations.Tools.DispatchSpec

open sow.js sow.effect sow.contracts sow.db

namespace sow.tools

variable {Time Payload : Type}

section frame

/-! A dispatch does not touch the outbox. -/

/-- The calls of a dispatch. -/
def ToolOp.isOfDispatch : ToolOp Time Payload → Prop
  | .reserve _ => True
  | .create _ _ _ => True
  | .release _ => True
  | op => op.isApart

theorem ToolOp.isApart.isOfDispatch (op : ToolOp Time Payload) (h : op.isApart) : op.isOfDispatch := by
  cases op with
  | reserve object => trivial
  | create env payload ctx => trivial
  | release object => trivial
  | _ => exact h

theorem dispatchCreate_within (env : ExternalWriteEnvelope) (action : ProposedAction Payload) (ctx : AdapterCallContext) :
    Program.Within ToolOp.isOfDispatch (dispatchCreate env action ctx : ToolM Time Payload (ExternalWriteResult Time)) := by
  unfold dispatchCreate
  refine ((Program.within_perform trivial).map _).bind fun reservation => ?_
  cases reservation with
  | committed record => trivial
  | in_progress => trivial
  | reserved =>
    refine (Program.within_perform trivial).bind fun created => ?_
    cases created with
    | ok receipt =>
      refine ((recordReceipt_apart env receipt).mono ToolOp.isApart.isOfDispatch).bind fun _ => ?_
      exact ((emitCommitDiagnostics_apart env receipt).mono ToolOp.isApart.isOfDispatch).bind fun _ => trivial
    | error e =>
      refine Program.Within.bind ?_ fun _ => trivial
      exact (Program.within_perform trivial).bind fun _ => trivial

variable [LinearOrder Time]

theorem dispatchWrite_within (env : ExternalWriteEnvelope) (action : ProposedAction Payload) (opts : DispatchOptions Time) :
    Program.Within ToolOp.isOfDispatch (dispatchWrite env action opts) := by
  unfold dispatchWrite
  refine ((resolveExisting_apart env _).mono ToolOp.isApart.isOfDispatch).bind fun existing => ?_
  cases existing with
  | replay receipt => trivial
  | stored current => exact (dispatchStored_apart env action opts _ current).mono ToolOp.isApart.isOfDispatch
  | live object => exact (dispatchLive_apart env object).mono ToolOp.isApart.isOfDispatch
  | error e => trivial
  | none => exact dispatchCreate_within env action _

theorem dispatchApproved_within (deps : ExternalWriteDeps Payload) (env : ExternalWriteEnvelope)
    (action : ProposedAction Payload) (opts : DispatchOptions Time) :
    Program.Within ToolOp.isOfDispatch (dispatchApproved deps env action opts) := by
  unfold dispatchApproved
  split_ifs
  · have hcredential : Program.Within ToolOp.isApart
        (resolveWriteCredentialFault env.targetSystem opts.workspaceId : ToolM Time Payload (Option WriteCredentialFault)) :=
      resolveWriteCredentialFault_apart env.targetSystem opts.workspaceId
    refine (hcredential.mono ToolOp.isApart.isOfDispatch).bind fun fault => ?_
    cases fault with
    | some fault => trivial
    | none => exact dispatchWrite_within env action opts
  · exact dispatchWrite_within env action opts

theorem dispatchExternalWrite_within (deps : ExternalWriteDeps Payload) (env : ExternalWriteEnvelope)
    (action : ProposedAction Payload) (opts : DispatchOptions Time) :
    Program.Within ToolOp.isOfDispatch (dispatchExternalWrite deps env action opts) := by
  unfold dispatchExternalWrite
  cases admitExternalWriteEnvelope deps.schemaViolation env action with
  | some message => trivial
  | none =>
    dsimp only
    split_ifs
    · refine (Program.within_perform trivial).bind fun approved => ?_
      split_ifs
      · exact dispatchApproved_within deps env action opts
      · exact (Program.within_perform trivial).bind fun _ => trivial
    · exact dispatchApproved_within deps env action opts

/-- A call of a dispatch leaves the outbox alone, and the clock does not go back. -/
theorem exec_frame {epoch : Time} {w₀ w : ToolWorld Time Payload} {op : ToolOp Time Payload} (hop : op.isOfDispatch)
    (d : Choice Time) (hw : w.outbox = w₀.outbox ∧ w₀.now ≤ w.now) :
    ((toolHandler epoch).exec w op d).2.outbox = w₀.outbox ∧ w₀.now ≤ ((toolHandler epoch).exec w op d).2.now := by
  have hstored : ∀ {α : Type} {w' : ToolWorld Time Payload} (answer : DbResult α), w'.outbox = w.outbox → w'.now = w.now →
      (stored d w w' answer).2.outbox = w₀.outbox ∧ w₀.now ≤ (stored d w w' answer).2.now := by
    intro α w' answer houtbox hnow
    exact stored_snd (P := fun w => w.outbox = w₀.outbox ∧ w₀.now ≤ w.now) d answer hw
      ⟨houtbox.trans hw.1, hnow.symm ▸ hw.2⟩
  cases op with
  | reserve object => exact hstored _ rfl rfl
  | getByIdempotencyKey k => exact hstored _ rfl rfl
  | getByCanonicalObjectKey object => exact hstored _ rfl rfl
  | put row => exact hstored _ rfl rfl
  | recordApplication row => exact hstored _ rfl rfl
  | getApplication k => exact hstored _ rfl rfl
  | release object => exact hstored _ rfl rfl
  | existenceCheck env ctx => exact hw
  | create env payload ctx => exact hw
  | update env payload expectedPrecondition ctx => exact hw
  | isApproved env => exact hw
  | recordPendingApproval action env => exact hw
  | getSecret ref => exact hw
  | audit record => exact hw
  | clock => exact ⟨hw.1, hw.2.trans (le_max_left _ _)⟩
  | _ => exact hop.elim

end frame

/-- Nothing fails: the stores and the vendor answer as they should, credentials are
    there, and approvals are as given. -/
structure FaultFree (approvals : ExternalWriteEnvelope → Bool) (op : ToolOp Time Payload) (d : Choice Time) : Prop where
  stores : d.fault = none
  vendor : ∃ receipt, d.adapter = .ok receipt
  secret : ∃ token, d.secret = .ok (.ok token) ∧ trim token ≠ []
  approvals : ∀ env, op = .isApproved env → d.approved = approvals env

/-- The last call on the object that the vendor accepted. -/
def ToolWorld.lastAccepted (w : ToolWorld Time Payload) (object : ObjectKey) : Option (VendorCall Payload) :=
  (w.calls.filter fun c => c.ok && c.object = object).getLast?

/-- The object was written by this system, and `row` tells what it has. -/
structure Authored (w : ToolWorld Time Payload) (object : ObjectKey) (row : WriteReceiptRow Time) : Prop where
  stored : w.receipts.get object = some row
  receipt : row.receipt.isSome
  key : ∃ k, row.idempotencyKey = some k ∧ w.applications.has k = true
  accepted : ∃ c, w.lastAccepted object = some c ∧ c.env.payloadHash = row.payloadHash

section lookups

variable {w w' : ToolWorld Time Payload}

theorem stored_of_none {α : Type} {d : Choice Time} {answer : DbResult α} (h : d.fault = none) :
    stored d w w' answer = (.ok answer, w') := by
  unfold stored
  rw [h]

theorem applicationLookup_cases (applications : Map JsString (WriteApplicationRow Time)) (k : JsString) :
    (∃ record, applicationLookup (tables.getApplication applications k) = .hit record ∧ applications.has k = true) ∨
      applicationLookup (tables.getApplication applications k) = .miss ∧ applications.has k = false := by
  unfold tables.getApplication Map.has
  cases applications.get k with
  | some row => exact .inl ⟨_, rfl, rfl⟩
  | none => exact .inr ⟨rfl, rfl⟩

theorem checkedLookup_byKey (hw : w.WellFormed) (k : JsString) :
    (∃ record, checkedLookup (tables.getByIdempotencyKey w.receipts k) = .hit record ∧
      ∃ object row, w.receipts.get object = some row ∧ row.idempotencyKey = some k) ∨
      checkedLookup (tables.getByIdempotencyKey w.receipts k) = .miss ∧
        ¬ ∃ object row, w.receipts.get object = some row ∧ row.idempotencyKey = some k := by
  cases hlookup : checkedLookup (tables.getByIdempotencyKey w.receipts k) with
  | miss => exact .inr ⟨rfl, no_row_of_checkedLookup hw hlookup⟩
  | hit record =>
    refine .inl ⟨record, rfl, ?_⟩
    unfold tables.getByIdempotencyKey at hlookup
    cases hfind : w.receipts.entries.find? fun e => e.2.idempotencyKey = some k with
    | none => simp [hfind, tables.committedRow, checkedLookup, notFound] at hlookup
    | some found =>
      refine ⟨found.1, found.2, Map.get_eq_some_iff.mpr (List.mem_of_find?_eq_some hfind), ?_⟩
      simpa using List.find?_some hfind
  | fault code =>
    unfold tables.getByIdempotencyKey at hlookup
    cases hfind : (w.receipts.entries.find? fun e => e.2.idempotencyKey = some k).map Prod.snd with
    | none => simp [hfind, tables.committedRow, checkedLookup, notFound] at hlookup
    | some row =>
      rw [hfind] at hlookup
      cases hreceipt : row.receipt with
      | none => simp [tables.committedRow, checkedLookup, notFound, hreceipt] at hlookup
      | some receipt => simp [tables.committedRow, checkedLookup, rowToReceiptRecord, hreceipt] at hlookup

theorem lastAccepted_concat {c : VendorCall Payload} {object : ObjectKey} (hcalls : w'.calls = w.calls ++ [c])
    (hok : c.ok = true) (hobject : c.object = object) : w'.lastAccepted object = some c := by
  unfold ToolWorld.lastAccepted
  rw [hcalls, List.filter_append]
  simp [hok, hobject]

theorem SameStores.refl : SameStores w w := ⟨rfl, rfl, rfl⟩

end lookups

section intent

variable [LinearOrder Time] {epoch : Time} {w w' : ToolWorld Time Payload} {approvals : ExternalWriteEnvelope → Bool}
  {env : ExternalWriteEnvelope} {row : WriteReceiptRow Time}

/-- The gateway would write the payload of an intent: its key is new, its hash is not
    the current one, and it is not older than what was applied last. -/
def WouldWrite (w : ToolWorld Time Payload) (env : ExternalWriteEnvelope) (row : WriteReceiptRow Time) (createdAt : Time) : Prop :=
  ¬ w.Known env.idempotencyKey ∧ row.payloadHash ≠ env.payloadHash ∧ row.recordedAt ≤ createdAt

/-- The intent is now what the object has. -/
def Written (w w' : ToolWorld Time Payload) (env : ExternalWriteEnvelope) : Prop :=
  ∃ row', Authored w' (env.targetSystem, env.canonicalObjectKey) row' ∧ row'.payloadHash = env.payloadHash ∧ w.now ≤ row'.recordedAt

/-- The existence check without faults, for an object with a receipt. -/
theorem wp_resolveExisting_faultFree (ctx : AdapterCallContext) (hw : w.WellFormed)
    (hrow : Authored w (env.targetSystem, env.canonicalObjectKey) row) :
    wp (toolHandler epoch) (FaultFree approvals) (resolveExisting env ctx) (fun r w' => w' = w ∧
      ((w.Known env.idempotencyKey ∧ ∃ receipt, r = .ok (.replay receipt)) ∨
        ¬ w.Known env.idempotencyKey ∧ ∃ record, r = .ok (.stored record) ∧ rowToReceiptRecord row = some record)) w := by
  unfold resolveExisting ReceiptStore.getApplication ReceiptStore.getByIdempotencyKeyChecked
    ReceiptStore.getByCanonicalObjectKeyChecked
  simp only [bind_map_left]
  apply wp_answers (P := fun r w' => r = tables.getApplication w.applications env.idempotencyKey ∧ w' = w)
    fun d hd => ⟨_, _, stored_of_none hd.stores, rfl, rfl⟩
  rintro r w' ⟨rfl, rfl⟩
  rcases applicationLookup_cases w'.applications env.idempotencyKey with ⟨record, hhit, hhas⟩ | ⟨hmiss, hhas⟩
  · rw [hhit]
    exact ⟨rfl, .inl ⟨.inl hhas, _, rfl⟩⟩
  · rw [hmiss]
    apply wp_answers (P := fun r w => r = tables.getByIdempotencyKey w'.receipts env.idempotencyKey ∧ w = w')
      fun d hd => ⟨_, _, stored_of_none hd.stores, rfl, rfl⟩
    rintro r w ⟨rfl, rfl⟩
    rcases checkedLookup_byKey hw env.idempotencyKey with ⟨record, hhit, hkey⟩ | ⟨hmiss, hkey⟩
    · rw [hhit]
      exact ⟨rfl, .inl ⟨.inr hkey, _, rfl⟩⟩
    · rw [hmiss]
      apply wp_answers (P := fun r w' =>
        r = tables.getByCanonicalObjectKey w.receipts (env.targetSystem, env.canonicalObjectKey) ∧ w' = w)
        fun d hd => ⟨_, _, stored_of_none hd.stores, rfl, rfl⟩
      rintro r w' ⟨rfl, rfl⟩
      obtain ⟨receipt, hreceipt⟩ := Option.isSome_iff_exists.mp hrow.receipt
      have hhit : checkedLookup (tables.getByCanonicalObjectKey w'.receipts (env.targetSystem, env.canonicalObjectKey)) =
          .hit ⟨row.idempotencyKey.getD [], row.object, row.payloadHash, receipt, row.recordedAt⟩ := by
        unfold tables.getByCanonicalObjectKey
        rw [hrow.stored]
        simp [tables.committedRow, checkedLookup, rowToReceiptRecord, hreceipt]
      rw [hhit]
      refine ⟨rfl, .inr ⟨?_, _, rfl, by simp [rowToReceiptRecord, hreceipt]⟩⟩
      rintro (hknown | hknown)
      · rw [hhas] at hknown
        cases hknown
      · exact hkey hknown

/-- The record of an accepted call, without faults. -/
theorem wp_recordReceipt_faultFree (receipt : WriteReceipt Time)
    (hknown : ¬ w.Known env.idempotencyKey) :
    wp (toolHandler epoch) (FaultFree approvals) (recordReceipt env receipt) (fun r w' => r = .ok () ∧
      w'.applications.has env.idempotencyKey = true ∧ w'.calls = w.calls ∧ ∃ row',
        w'.receipts.get (env.targetSystem, env.canonicalObjectKey) = some row' ∧ row'.receipt.isSome ∧
        row'.idempotencyKey = some env.idempotencyKey ∧ row'.payloadHash = env.payloadHash ∧ w.now ≤ row'.recordedAt) w := by
  unfold recordReceipt ReceiptStore.recordApplication ReceiptStore.put
  simp only [bind_assoc, pure_bind]
  refine wp_call fun d _ => ⟨_, _, rfl, ?_⟩
  refine wp_call fun _ hd => ⟨_, _, stored_of_none hd.stores, ?_⟩
  refine wp_call fun _ hd => ⟨_, _, stored_of_none hd.stores, rfl, ?_, rfl, ?_⟩
  · exact (has_recordApplication _ _ _).mpr (.inr rfl)
  · have hput : (tables.put w.receipts (receiptRecordToRow (buildReceiptRecord env receipt (max w.now d.time)))).2 =
        w.receipts.set (env.targetSystem, env.canonicalObjectKey) _ := put_of_unknown fun hrow => hknown (.inr hrow)
    refine ⟨receiptRecordToRow (buildReceiptRecord env receipt (max w.now d.time)), ?_, rfl, rfl, rfl, le_max_left _ _⟩
    dsimp only
    rw [hput]
    exact Map.get_set_self ..

/-- What holds with faults holds without them. -/
theorem wp_faultFree {α : Type} {p : ToolM Time Payload α} {Q : Except Cause α → ToolWorld Time Payload → Prop}
    (hp : wp (toolHandler epoch).logged Truthfully p (fun r w' => Q r w'.1) (w, [])) :
    wp (toolHandler epoch) (FaultFree approvals) p Q w := by
  refine wp_of_logged (wp.mono_adm (fun op d hd _ e he => ?_) hp)
  rw [hd.stores] at he
  cases he

/-- A dispatch of an intent writes it if it should, and otherwise does nothing. -/
def WritesIf (p : Prop) (w : ToolWorld Time Payload) (env : ExternalWriteEnvelope) (w' : ToolWorld Time Payload) : Prop :=
  (p → Written w w' env) ∧ (¬ p → SameStores w w')

theorem WritesIf.idle {p : Prop} (hp : ¬ p) : WritesIf p w env w := ⟨fun h => absurd h hp, fun _ => .refl⟩

theorem wp_dispatchStored_faultFree (action : ProposedAction Payload) (opts : DispatchOptions Time) (ctx : AdapterCallContext)
    {createdAt : Time} (hopts : opts.intentCreatedAt = some createdAt) {record : ReceiptRecord Time}
    (hrow : Authored w (env.targetSystem, env.canonicalObjectKey) row) (hrecord : rowToReceiptRecord row = some record)
    (hknown : ¬ w.Known env.idempotencyKey) :
    wp (toolHandler epoch) (FaultFree approvals) (dispatchStored env action opts ctx record)
      (fun _ w' => WritesIf (WouldWrite w env row createdAt) w env w') w := by
  obtain ⟨-, hkey, hhash, hrecorded⟩ := row_of_rowToReceiptRecord hrecord
  unfold dispatchStored isAuthoredByThisSystem ReceiptStore.getApplication
  rw [hopts]
  split_ifs with hcurrent hstale
  · refine .idle fun hwrite => hwrite.2.1 ?_
    rw [← hhash, hcurrent]
  · refine .idle fun hwrite => ?_
    simp only [Option.any_some, decide_eq_true_eq, hrecorded] at hstale
    exact absurd hwrite.2.2 (not_le_of_gt hstale)
  · have hwrite : WouldWrite w env row createdAt := by
      simp only [Option.any_some, decide_eq_true_eq, hrecorded] at hstale
      exact ⟨hknown, fun h => hcurrent (hhash.trans h), le_of_not_gt hstale⟩
    obtain ⟨k, hk, hhas⟩ := hrow.key
    rw [hk, Option.getD_some] at hkey
    rw [bind_map_left, bind_assoc]
    refine wp_call fun d hd => ⟨_, _, stored_of_none hd.stores, ?_⟩
    rcases applicationLookup_cases w.applications record.idempotencyKey with ⟨ledger, hhit, -⟩ | ⟨-, hmiss⟩
    · rw [hhit]
      refine wp_call fun d hd => ⟨_, _, rfl, ?_⟩
      obtain ⟨receipt, hreceipt⟩ := hd.vendor
      rw [hreceipt]
      dsimp only
      rw [wp_bind]
      refine wp.mono (wp_recordReceipt_faultFree receipt hknown) fun r w₁ hrecorded => ?_
      obtain ⟨rfl, hledger, hcalls, row', hget, hreceipt', hkey', hhash', hclock⟩ := hrecorded
      dsimp only
      rw [wp_bind]
      have hemit : wp (toolHandler epoch) (FaultFree approvals) (emitCommitDiagnostics env receipt)
          (fun r w₂ => r = .ok () ∧ SameStores w₁ w₂) w₁ := by
        refine wp_faultFree (wp.mono (wp_emitCommitDiagnostics env receipt) ?_)
        rintro r w₂ ⟨hr, hsame, -⟩
        exact ⟨hr, hsame⟩
      refine wp.mono hemit fun r w₂ hemitted => ?_
      obtain ⟨rfl, hreceipts, happlications, hcalls₂⟩ := hemitted
      refine ⟨fun _ => ⟨row', ⟨?_, hreceipt', ⟨_, hkey', ?_⟩, ?_⟩, hhash', hclock⟩, fun h => absurd hwrite h⟩
      · rw [hreceipts, hget]
      · rw [happlications, hledger]
      · refine ⟨_, lastAccepted_concat (hcalls₂.trans hcalls) ?_ rfl, hhash'.symm⟩
        rw [hreceipt]
        rfl
    · rw [hkey, hhas] at hmiss
      cases hmiss

theorem wp_dispatchWrite_faultFree (action : ProposedAction Payload) (opts : DispatchOptions Time) {createdAt : Time}
    (hopts : opts.intentCreatedAt = some createdAt) (hw : w.WellFormed)
    (hrow : Authored w (env.targetSystem, env.canonicalObjectKey) row) :
    wp (toolHandler epoch) (FaultFree approvals) (dispatchWrite env action opts)
      (fun _ w' => WritesIf (WouldWrite w env row createdAt) w env w') w := by
  unfold dispatchWrite
  rw [wp_bind]
  refine wp.mono (wp_resolveExisting_faultFree _ hw hrow) ?_
  rintro r w' ⟨hsame, hresolved⟩
  subst hsame
  rcases hresolved with ⟨hknown, receipt, rfl⟩ | ⟨hknown, record, rfl, hrecord⟩
  · exact .idle fun hwrite => hwrite.1 hknown
  · exact wp_dispatchStored_faultFree action opts _ hopts hrow hrecord hknown

/-- With a working accessor, only a blank workspace is without a credential. -/
theorem wp_resolveWriteCredentialFault_faultFree (targetSystem : TargetSystem) (workspaceId : JsString) :
    wp (toolHandler epoch) (FaultFree approvals)
      (resolveWriteCredentialFault targetSystem (some workspaceId) : ToolM Time Payload (Option WriteCredentialFault))
      (fun r w' => w' = w ∧ ∃ fault, r = .ok fault ∧ (fault = none ↔ trim workspaceId ≠ [])) w := by
  unfold resolveWriteCredentialFault
  dsimp only
  split_ifs with hblank
  · exact ⟨rfl, _, rfl, by simp [hblank]⟩
  · rw [wp_tryCatch]
    refine wp_call fun d hd => ?_
    obtain ⟨token, hsecret, htoken⟩ := hd.secret
    refine ⟨_, _, congrArg (·, w) hsecret, ?_⟩
    dsimp only
    rw [if_neg htoken]
    exact ⟨rfl, _, rfl, by simp [hblank]⟩

/-- The gate of the gateway: admission, approval and credentials. -/
structure Passes (deps : ExternalWriteDeps Payload) (approvals : ExternalWriteEnvelope → Bool) (env : ExternalWriteEnvelope)
    (action : ProposedAction Payload) (workspaceId : JsString) : Prop where
  admitted : admitExternalWriteEnvelope deps.schemaViolation env action = none
  approved : deps.requireApproval action = true → approvals env = true
  credential : deps.secrets = true → trim workspaceId ≠ []

theorem wp_dispatchApproved_faultFree (deps : ExternalWriteDeps Payload) (action : ProposedAction Payload) {createdAt : Time}
    {workspaceId : JsString} (hw : w.WellFormed) (hrow : Authored w (env.targetSystem, env.canonicalObjectKey) row) :
    wp (toolHandler epoch) (FaultFree approvals) (dispatchApproved deps env action ⟨some createdAt, some workspaceId⟩)
      (fun _ w' => WritesIf ((deps.secrets = true → trim workspaceId ≠ []) ∧ WouldWrite w env row createdAt) w env w') w := by
  have hwrite : (deps.secrets = true → trim workspaceId ≠ []) →
      wp (toolHandler epoch) (FaultFree approvals) (dispatchWrite env action ⟨some createdAt, some workspaceId⟩)
        (fun _ w' => WritesIf ((deps.secrets = true → trim workspaceId ≠ []) ∧ WouldWrite w env row createdAt) w env w') w := by
    intro hcredential
    refine wp.mono (wp_dispatchWrite_faultFree action ⟨some createdAt, some workspaceId⟩ rfl hw hrow) fun r w' hwrites => ?_
    exact ⟨fun h => hwrites.1 h.2, fun h => hwrites.2 fun hwould => h ⟨hcredential, hwould⟩⟩
  unfold dispatchApproved
  split_ifs with hsecrets
  · rw [wp_bind]
    refine wp.mono (wp_resolveWriteCredentialFault_faultFree env.targetSystem workspaceId) ?_
    rintro r w' ⟨hsame, fault, rfl, hfault⟩
    subst hsame
    cases fault with
    | none => exact hwrite fun _ => hfault.mp rfl
    | some fault =>
      refine .idle fun h => ?_
      have := hfault.mpr (h.1 hsecrets)
      cases this
  · exact hwrite fun h => absurd h hsecrets

/-- A dispatch of an intent, without faults. -/
theorem wp_dispatchExternalWrite_faultFree (deps : ExternalWriteDeps Payload) (action : ProposedAction Payload) {createdAt : Time}
    {workspaceId : JsString} (hw : w.WellFormed) (hrow : Authored w (env.targetSystem, env.canonicalObjectKey) row) :
    wp (toolHandler epoch) (FaultFree approvals) (dispatchExternalWrite deps env action ⟨some createdAt, some workspaceId⟩)
      (fun r w' => WritesIf (Passes deps approvals env action workspaceId ∧ WouldWrite w env row createdAt) w env w' ∧
        (admitExternalWriteEnvelope deps.schemaViolation env action = none →
          ¬ (deps.requireApproval action = true → approvals env = true) → r = .ok .approval_pending)) w := by
  have happroved : admitExternalWriteEnvelope deps.schemaViolation env action = none →
      (deps.requireApproval action = true → approvals env = true) →
      wp (toolHandler epoch) (FaultFree approvals) (dispatchApproved deps env action ⟨some createdAt, some workspaceId⟩)
        (fun r w' => WritesIf (Passes deps approvals env action workspaceId ∧ WouldWrite w env row createdAt) w env w' ∧
          (admitExternalWriteEnvelope deps.schemaViolation env action = none →
            ¬ (deps.requireApproval action = true → approvals env = true) → r = .ok .approval_pending)) w := by
    intro hadmitted hgranted
    refine wp.mono (wp_dispatchApproved_faultFree deps action hw hrow) fun r w' hwrites => ?_
    refine ⟨⟨fun h => hwrites.1 ⟨h.1.credential, h.2⟩, fun h => hwrites.2 fun hwould => ?_⟩, fun _ h => absurd hgranted h⟩
    exact h ⟨⟨hadmitted, hgranted, hwould.1⟩, hwould.2⟩
  unfold dispatchExternalWrite
  cases hadmitted : admitExternalWriteEnvelope deps.schemaViolation env action with
  | some message =>
    refine ⟨.idle fun h => ?_, fun h => by cases h⟩
    have := h.1.admitted
    rw [hadmitted] at this
    cases this
  | none =>
    rw [hadmitted] at happroved
    dsimp only
    split_ifs with hrequired
    · refine wp_call fun d hd => ⟨_, _, rfl, ?_⟩
      rw [hd.approvals env rfl]
      split_ifs with hgranted
      · exact happroved rfl fun _ => hgranted
      · refine wp_call fun _ _ => ⟨_, _, rfl, .idle fun h => ?_, fun _ _ => rfl⟩
        exact hgranted (h.1.approved hrequired)
    · exact happroved rfl fun h => absurd h hrequired

end intent

end sow.tools
