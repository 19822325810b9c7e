import Sow.Integrations.Tools.IntentSpec

open sow.js sow.effect sow.contracts sow.db sow.sql

namespace sow.tools

variable {Time Payload : Type}

/-- A run of `drainOutbox`, with the approvals given when it runs and what else the
    environment decides at its calls. -/
structure DrainStep (Time Payload : Type) where
  deps : DrainDeps Time Payload
  approvals : ExternalWriteEnvelope → Bool
  choose : Nat → ToolOp Time Payload → Choice Time

/-- The pass does not skip the entry. -/
def DrainStep.Drives (step : DrainStep Time Payload) (e : OutboxEntry Time Payload) : Prop :=
  e.workspaceId = step.deps.workspaceId ∧ (step.deps.shouldDrive.all fun shouldDrive => shouldDrive e) = true

def DrainStep.Admits (step : DrainStep Time Payload) (e : OutboxEntry Time Payload) : Prop :=
  admitExternalWriteEnvelope step.deps.gatewayDeps.schemaViolation (rebuildEnvelope e) (rebuildAction step.deps.empty e) = none

def DrainStep.Approves (step : DrainStep Time Payload) (e : OutboxEntry Time Payload) : Prop :=
  step.deps.gatewayDeps.requireApproval (rebuildAction step.deps.empty e) = true → step.approvals (rebuildEnvelope e) = true

def DrainStep.Passes (step : DrainStep Time Payload) (e : OutboxEntry Time Payload) : Prop :=
  tools.Passes step.deps.gatewayDeps step.approvals (rebuildEnvelope e) (rebuildAction step.deps.empty e) e.workspaceId

variable [LinearOrder Time]

/-- The turn of an intent comes as it should. The newest one is admitted and, once it is
    approved, written or in place already; the gateway writes no other. -/
structure RightTurn (newest : OutboxEntry Time Payload) (w : ToolWorld Time Payload) (row : WriteReceiptRow Time)
    (step : DrainStep Time Payload) (e : OutboxEntry Time Payload) : Prop where
  self : e.outboxId = newest.outboxId → step.Admits e ∧ (step.Approves e →
    step.Passes e ∧ (row.payloadHash = e.payloadHash ∨ WouldWrite w (rebuildEnvelope e) row e.enqueuedAt))
  others : e.outboxId ≠ newest.outboxId → step.Passes e → ¬ WouldWrite w (rebuildEnvelope e) row e.enqueuedAt

/-- So do the turns of all intents of the object that the pass drives, judged by the
    state before the pass. -/
def RightTurns (object : ObjectKey) (newest : OutboxEntry Time Payload) (w : ToolWorld Time Payload)
    (step : DrainStep Time Payload) : Prop :=
  ∀ e ∈ tables.listDue w.outbox step.deps.now step.deps.limit, e.object = object → step.Drives e →
    ∀ row, w.receipts.get object = some row → RightTurn newest w row step e

/-- What the passes keep; `row` is the receipt of the object. -/
structure Draining (object : ObjectKey) (newest : OutboxEntry Time Payload) (w : ToolWorld Time Payload)
    (row : WriteReceiptRow Time) : Prop where
  wellFormed : w.WellFormed
  authored : Authored w object row
  clock : ∀ e ∈ w.outbox, e.object = object → e.status ∉ OUTBOX_TERMINAL → e.enqueuedAt < w.now
  /-- The entry of the newest intent; once it is closed, its payload is in place. -/
  self : ∀ e ∈ w.outbox, e.outboxId = newest.outboxId → e.object = object ∧ e.idempotencyKey = newest.idempotencyKey ∧
    e.payloadHash = newest.payloadHash ∧ (e.status ∈ OUTBOX_TERMINAL → row.payloadHash = newest.payloadHash)
  others : ∀ e ∈ w.outbox, e.outboxId ≠ newest.outboxId → e.idempotencyKey ≠ newest.idempotencyKey
  present : ∃ e ∈ w.outbox, e.outboxId = newest.outboxId

/-- A pass that started at `w₀`, when the object had `row₀`, is at `w`: nothing has been
    written to the object, or the newest intent. -/
structure Passing (object : ObjectKey) (newest : OutboxEntry Time Payload) (w₀ : ToolWorld Time Payload)
    (row₀ : WriteReceiptRow Time) (w : ToolWorld Time Payload) (row : WriteReceiptRow Time) : Prop where
  draining : Draining object newest w row
  now : w₀.now ≤ w.now
  known : ∀ k, w₀.Known k → w.Known k
  progress : row = row₀ ∧ (w.Known newest.idempotencyKey → w₀.Known newest.idempotencyKey) ∨
    row.payloadHash = newest.payloadHash ∧ w₀.now ≤ row.recordedAt

section turn

variable {object : ObjectKey} {newest e : OutboxEntry Time Payload} {w₀ w : ToolWorld Time Payload}
  {row₀ row : WriteReceiptRow Time} {step : DrainStep Time Payload}

/-- A turn that is right before the pass is right when it comes. -/
theorem Passing.turn (h : Passing object newest w₀ row₀ w row) (h₀ : Draining object newest w₀ row₀) (he : e ∈ w₀.outbox)
    (hobject : e.object = object) (hopen : e.status ∉ OUTBOX_TERMINAL) (hturn : RightTurn newest w₀ row₀ step e) :
    RightTurn newest w row step e := by
  constructor
  · intro hid
    obtain ⟨hadmits, hwrites⟩ := hturn.self hid
    refine ⟨hadmits, fun happroves => ?_⟩
    obtain ⟨hpasses, hright⟩ := hwrites happroves
    obtain ⟨-, hkey, hhash, -⟩ := h₀.self e he hid
    refine ⟨hpasses, ?_⟩
    rcases h.progress with ⟨rfl, hknown⟩ | ⟨hnewest, -⟩
    · refine hright.imp_right fun hwrite => ⟨fun hk => hwrite.1 ?_, hwrite.2⟩
      change w.Known e.idempotencyKey at hk
      change w₀.Known e.idempotencyKey
      rw [hkey] at hk ⊢
      exact hknown hk
    · exact .inl (hnewest.trans hhash.symm)
  · intro hid hpasses hwrite
    rcases h.progress with ⟨rfl, -⟩ | ⟨-, hrecorded⟩
    · exact hturn.others hid hpasses ⟨fun hk => hwrite.1 (h.known _ hk), hwrite.2⟩
    · have hclock := h₀.clock e he hobject hopen
      exact absurd hwrite.2.2 (not_le_of_gt (hclock.trans_le hrecorded))

/-- What the outbox writes of a pass keep. -/
theorem Passing.of_outbox {w' : ToolWorld Time Payload} (h : Passing object newest w₀ row₀ w row) (hsame : SameStores w w')
    (hnow : w.now ≤ w'.now)
    (hclock : ∀ e ∈ w'.outbox, e.object = object → e.status ∉ OUTBOX_TERMINAL → e.enqueuedAt < w'.now)
    (hself : ∀ e ∈ w'.outbox, e.outboxId = newest.outboxId → e.object = object ∧ e.idempotencyKey = newest.idempotencyKey ∧
      e.payloadHash = newest.payloadHash ∧ (e.status ∈ OUTBOX_TERMINAL → row.payloadHash = newest.payloadHash))
    (hothers : ∀ e ∈ w'.outbox, e.outboxId ≠ newest.outboxId → e.idempotencyKey ≠ newest.idempotencyKey)
    (hpresent : ∃ e ∈ w'.outbox, e.outboxId = newest.outboxId) : Passing object newest w₀ row₀ w' row := by
  have hknown : ∀ k, w'.Known k ↔ w.Known k := by
    intro k
    unfold ToolWorld.Known
    rw [hsame.applications, hsame.receipts]
  refine ⟨⟨?_, ?_, hclock, hself, hothers, hpresent⟩, h.now.trans hnow, ?_, ?_⟩
  · unfold ToolWorld.WellFormed
    rw [hsame.receipts]
    exact h.draining.wellFormed
  · obtain ⟨hstored, hreceipt, hkey, haccepted⟩ := h.draining.authored
    refine ⟨by rw [hsame.receipts, hstored], hreceipt, ?_, ?_⟩
    · rwa [hsame.applications]
    · unfold ToolWorld.lastAccepted at haccepted ⊢
      rwa [hsame.calls]
  · exact fun k hk => (hknown k).mpr (h.known k hk)
  · rw [hknown]
    exact h.progress

/-- The same, if the outbox is as it was. -/
theorem Passing.same {w' : ToolWorld Time Payload} (h : Passing object newest w₀ row₀ w row) (hsame : SameStores w w')
    (houtbox : w'.outbox = w.outbox) (hnow : w.now ≤ w'.now) : Passing object newest w₀ row₀ w' row := by
  refine h.of_outbox hsame hnow ?_ ?_ ?_ ?_
  · rw [houtbox]
    exact fun e he hobject hopen => (h.draining.clock e he hobject hopen).trans_le hnow
  · rw [houtbox]
    exact h.draining.self
  · rw [houtbox]
    exact h.draining.others
  · rw [houtbox]
    exact h.draining.present

omit [LinearOrder Time] in
theorem mem_update {rows : List (OutboxEntry Time Payload)} {entry r : OutboxEntry Time Payload}
    (h : r ∈ (tables.update rows entry).2) :
    r ∈ rows ∨ ∃ policy, r = { entry with approvalPolicy := policy } := by
  unfold tables.update at h
  cases hfind : rows.find? fun r => r.outboxId = entry.outboxId with
  | none =>
    rw [hfind] at h
    exact .inl h
  | some found =>
    rw [hfind] at h
    obtain ⟨old, hold, rfl⟩ := List.mem_map.mp h
    split_ifs
    · exact .inr ⟨_, rfl⟩
    · exact .inl hold

omit [LinearOrder Time] in
/-- An update of an entry removes no id. -/
theorem update_present {rows : List (OutboxEntry Time Payload)} (entry : OutboxEntry Time Payload) {k : JsString}
    (h : ∃ e ∈ rows, e.outboxId = k) : ∃ e ∈ (tables.update rows entry).2, e.outboxId = k := by
  obtain ⟨e, he, hid⟩ := h
  unfold tables.update
  cases rows.find? fun r => r.outboxId = entry.outboxId with
  | none => exact ⟨e, he, hid⟩
  | some found =>
    refine ⟨_, List.mem_map_of_mem he, ?_⟩
    split_ifs with hentry
    · exact hentry.symm.trans hid
    · exact hid

/-- A driven entry is written back with its identity; that of the newest intent is
    closed only when its payload is in place. -/
theorem Passing.update {w' : ToolWorld Time Payload} {entry : OutboxEntry Time Payload}
    (h : Passing object newest w₀ row₀ w row) (h₀ : Draining object newest w₀ row₀) (he : e ∈ w₀.outbox)
    (hopen : e.status ∉ OUTBOX_TERMINAL) (hid : entry.outboxId = e.outboxId) (hobject : entry.object = e.object)
    (hkey : entry.idempotencyKey = e.idempotencyKey) (hhash : entry.payloadHash = e.payloadHash)
    (henqueued : entry.enqueuedAt = e.enqueuedAt)
    (hclosed : e.outboxId = newest.outboxId → entry.status ∈ OUTBOX_TERMINAL → row.payloadHash = newest.payloadHash)
    (hsame : SameStores w w') (hnow : w.now ≤ w'.now) (houtbox : w'.outbox = (tables.update w.outbox entry).2) :
    Passing object newest w₀ row₀ w' row := by
  refine h.of_outbox hsame hnow ?_ ?_ ?_ ?_
  · rw [houtbox]
    intro r hr hrobject hropen
    rcases mem_update hr with hold | ⟨policy, rfl⟩
    · exact (h.draining.clock r hold hrobject hropen).trans_le hnow
    · change entry.enqueuedAt < w'.now
      rw [henqueued]
      exact (h₀.clock e he (hobject.symm.trans hrobject) hopen).trans_le (h.now.trans hnow)
  · rw [houtbox]
    intro r hr hrid
    rcases mem_update hr with hold | ⟨policy, rfl⟩
    · exact h.draining.self r hold hrid
    · obtain ⟨hobject₀, hkey₀, hhash₀, -⟩ := h₀.self e he (hid.symm.trans hrid)
      exact ⟨hobject.trans hobject₀, hkey.trans hkey₀, hhash.trans hhash₀, hclosed (hid.symm.trans hrid)⟩
  · rw [houtbox]
    intro r hr hrid
    rcases mem_update hr with hold | ⟨policy, rfl⟩
    · exact h.draining.others r hold hrid
    · change entry.idempotencyKey ≠ _
      rw [hkey]
      exact h₀.others e he fun heq => hrid (hid.trans heq)
  · rw [houtbox]
    exact update_present entry h.draining.present

end turn

section dispatch

variable {epoch : Time} {object : ObjectKey} {newest e : OutboxEntry Time Payload} {w₀ w : ToolWorld Time Payload}
  {row₀ row : WriteReceiptRow Time} {step : DrainStep Time Payload}

/-- What every dispatch does, and that it leaves the outbox alone. -/
theorem wp_dispatch_frame (epoch : Time) (deps : ExternalWriteDeps Payload) (approvals : ExternalWriteEnvelope → Bool)
    (env : ExternalWriteEnvelope) (action : ProposedAction Payload) (opts : DispatchOptions Time) (hw : w.WellFormed) :
    wp (toolHandler epoch) (FaultFree approvals) (dispatchExternalWrite deps env action opts)
      (fun _ w' => DispatchEffect env False w w' ∧ w'.outbox = w.outbox ∧ w.now ≤ w'.now) w := by
  apply wp.and
  · refine wp_faultFree (wp.mono (wp_dispatchExternalWrite deps env action opts hw) fun r w' heffect => ?_)
    exact heffect.mono False.elim
  · exact wp_of_within (I := fun w' : ToolWorld Time Payload => w'.outbox = w.outbox ∧ w.now ≤ w'.now)
      (dispatchExternalWrite_within deps env action opts) ⟨rfl, le_refl _⟩ fun op w' d hop _ hw' => exec_frame hop d hw'

/-- A dispatch for another object does not write the object of the intents. -/
theorem Passing.elsewhere {w' : ToolWorld Time Payload} {env : ExternalWriteEnvelope} {kept : Prop}
    (h : Passing object newest w₀ row₀ w row) (heffect : DispatchEffect env kept w w')
    (hobject : (env.targetSystem, env.canonicalObjectKey) ≠ object) (hkey : env.idempotencyKey ≠ newest.idempotencyKey)
    (houtbox : w'.outbox = w.outbox) (hnow : w.now ≤ w'.now) : Passing object newest w₀ row₀ w' row := by
  have haccepted : w'.lastAccepted object = w.lastAccepted object := by
    unfold ToolWorld.lastAccepted
    rcases heffect.calls with hcalls | ⟨c, hcalls, henv, -⟩
    · rw [hcalls]
    · have hc : c.object ≠ object := by
        unfold VendorCall.object
        rw [henv]
        exact hobject
      rw [hcalls, List.filter_append]
      simp [hc]
  refine ⟨⟨heffect.wellFormed, ?_, ?_, ?_, ?_, ?_⟩, h.now.trans hnow, fun k hk => heffect.known (h.known k hk), ?_⟩
  · obtain ⟨hstored, hreceipt, ⟨k, hk, hhas⟩, hlast⟩ := h.draining.authored
    refine ⟨(heffect.others object hobject.symm).trans hstored, hreceipt, ⟨k, hk, heffect.ledgerKept k hhas⟩, ?_⟩
    rwa [haccepted]
  · rw [houtbox]
    exact fun r hr hrobject hopen => (h.draining.clock r hr hrobject hopen).trans_le hnow
  · rw [houtbox]
    exact h.draining.self
  · rw [houtbox]
    exact h.draining.others
  · rw [houtbox]
    exact h.draining.present
  · refine h.progress.imp_left fun hprogress => ⟨hprogress.1, fun hk => hprogress.2 ?_⟩
    exact (heffect.keys _ hk).resolve_right hkey.symm

/-- The newest intent is written. -/
theorem Passing.written {w' : ToolWorld Time Payload} {env : ExternalWriteEnvelope} {kept : Prop}
    (h : Passing object newest w₀ row₀ w row) (heffect : DispatchEffect env kept w w') (hwritten : Written w w' env)
    (hobject : (env.targetSystem, env.canonicalObjectKey) = object) (hhash : env.payloadHash = newest.payloadHash)
    (houtbox : w'.outbox = w.outbox) (hnow : w.now ≤ w'.now) :
    ∃ row', Passing object newest w₀ row₀ w' row' ∧ row'.payloadHash = newest.payloadHash := by
  obtain ⟨row', hauthored, hrow', hrecorded⟩ := hwritten
  have hnewest := hrow'.trans hhash
  refine ⟨row', ⟨⟨heffect.wellFormed, hobject ▸ hauthored, ?_, ?_, ?_, ?_⟩, h.now.trans hnow,
    fun k hk => heffect.known (h.known k hk), .inr ⟨hnewest, h.now.trans hrecorded⟩⟩, hnewest⟩
  · rw [houtbox]
    exact fun r hr hrobject hopen => (h.draining.clock r hr hrobject hopen).trans_le hnow
  · rw [houtbox]
    intro r hr hid
    obtain ⟨hrobject, hrkey, hrhash, -⟩ := h.draining.self r hr hid
    exact ⟨hrobject, hrkey, hrhash, fun _ => hnewest⟩
  · rw [houtbox]
    exact h.draining.others
  · rw [houtbox]
    exact h.draining.present

/-- The dispatch of a due entry. -/
theorem wp_turn (h : Passing object newest w₀ row₀ w row) (h₀ : Draining object newest w₀ row₀) (he : e ∈ w₀.outbox)
    (hturn : e.object = object → RightTurn newest w row step e) :
    wp (toolHandler epoch) (FaultFree step.approvals)
      (dispatchExternalWrite step.deps.gatewayDeps (rebuildEnvelope e) (rebuildAction step.deps.empty e)
        ⟨some e.enqueuedAt, some e.workspaceId⟩)
      (fun r w' => ∃ row', Passing object newest w₀ row₀ w' row' ∧ ∀ outcome, r = .ok outcome →
        e.outboxId = newest.outboxId → ∀ now, (foldOutcome step.deps e now outcome).1.status ∈ OUTBOX_TERMINAL →
          row'.payloadHash = newest.payloadHash) w := by
  have hframe := wp_dispatch_frame epoch step.deps.gatewayDeps step.approvals (rebuildEnvelope e)
    (rebuildAction step.deps.empty e) ⟨some e.enqueuedAt, some e.workspaceId⟩ h.draining.wellFormed
  by_cases hobject : e.object = object
  · subst hobject
    have hright := hturn rfl
    have hauthored : Authored w ((rebuildEnvelope e).targetSystem, (rebuildEnvelope e).canonicalObjectKey) row :=
      h.draining.authored
    refine wp.mono (hframe.and (wp_dispatchExternalWrite_faultFree step.deps.gatewayDeps _ h.draining.wellFormed hauthored)) ?_
    rintro r w' ⟨⟨heffect, houtbox, hnow⟩, hwrites, hpending⟩
    by_cases hwrite : step.Passes e ∧ WouldWrite w (rebuildEnvelope e) row e.enqueuedAt
    · have hid : e.outboxId = newest.outboxId := by
        by_contra hid
        exact hright.others hid hwrite.1 hwrite.2
      obtain ⟨row', hpassing, hrow'⟩ :=
        h.written heffect (hwrites.1 hwrite) rfl (h₀.self e he hid).2.2.1 houtbox hnow
      exact ⟨row', hpassing, fun _ _ _ _ _ => hrow'⟩
    · refine ⟨row, h.same (hwrites.2 hwrite) houtbox hnow, fun outcome houtcome hid now hclosed => ?_⟩
      obtain ⟨hadmits, happroved⟩ := hright.self hid
      by_cases happroves : step.Approves e
      · obtain ⟨hpasses, hcurrent | hwould⟩ := happroved happroves
        · exact hcurrent.trans (h₀.self e he hid).2.2.1
        · exact absurd ⟨hpasses, hwould⟩ hwrite
      · obtain rfl := Except.ok.inj ((hpending hadmits happroves).symm.trans houtcome)
        have hproposed : str "proposed" ∉ OUTBOX_TERMINAL := by decide
        exact absurd hclosed hproposed
  · have hid : e.outboxId ≠ newest.outboxId := fun hid => hobject (h₀.self e he hid).1
    refine wp.mono hframe ?_
    rintro r w' ⟨heffect, houtbox, hnow⟩
    exact ⟨row, h.elsewhere heffect hobject (h₀.others e he hid) houtbox hnow, fun _ _ heq => absurd heq hid⟩

end dispatch

section drain

variable {epoch : Time} {object : ObjectKey} {newest e : OutboxEntry Time Payload} {w₀ w : ToolWorld Time Payload}
  {row₀ row : WriteReceiptRow Time} {step : DrainStep Time Payload}

omit [LinearOrder Time] in
/-- An outcome changes the state of an entry, not its identity. -/
theorem foldOutcome_identity (deps : DrainDeps Time Payload) (e : OutboxEntry Time Payload) (now : Time)
    (outcome : ExternalWriteResult Time) :
    (foldOutcome deps e now outcome).1.outboxId = e.outboxId ∧ (foldOutcome deps e now outcome).1.object = e.object ∧
      (foldOutcome deps e now outcome).1.idempotencyKey = e.idempotencyKey ∧
      (foldOutcome deps e now outcome).1.payloadHash = e.payloadHash ∧
      (foldOutcome deps e now outcome).1.enqueuedAt = e.enqueuedAt := by
  cases outcome with
  | _ => exact ⟨rfl, rfl, rfl, rfl, rfl⟩

theorem wp_applyOutcome (outcome : ExternalWriteResult Time) (h : Passing object newest w₀ row₀ w row)
    (h₀ : Draining object newest w₀ row₀) (he : e ∈ w₀.outbox) (hopen : e.status ∉ OUTBOX_TERMINAL)
    (hclosed : e.outboxId = newest.outboxId → ∀ now, (foldOutcome step.deps e now outcome).1.status ∈ OUTBOX_TERMINAL →
      row.payloadHash = newest.payloadHash) :
    wp (toolHandler epoch) (FaultFree step.approvals) (applyOutcome step.deps e outcome)
      (fun _ w' => Passing object newest w₀ row₀ w' row) w := by
  unfold applyOutcome
  refine wp_call fun d _ => ⟨_, _, rfl, ?_⟩
  refine wp_call fun d' hd => ⟨_, _, stored_of_none hd.stores, ?_⟩
  obtain ⟨hid, hobject, hkey, hhash, henqueued⟩ := foldOutcome_identity step.deps e (max w.now d.time) outcome
  exact h.update h₀ he hopen hid hobject hkey hhash henqueued (fun hnewest => hclosed hnewest _) ⟨rfl, rfl, rfl⟩
    (le_max_left _ _) rfl

theorem wp_redrive (hdispatch : step.deps.dispatch = none) (h : Passing object newest w₀ row₀ w row)
    (h₀ : Draining object newest w₀ row₀) (he : e ∈ w₀.outbox) (hopen : e.status ∉ OUTBOX_TERMINAL)
    (hturn : e.object = object → RightTurn newest w₀ row₀ step e) :
    wp (toolHandler epoch) (FaultFree step.approvals) (redrive step.deps e)
      (fun _ w' => ∃ row', Passing object newest w₀ row₀ w' row') w := by
  unfold redrive
  rw [hdispatch, Option.getD_none, wp_bind]
  refine wp.mono (wp_turn h h₀ he fun hobject => h.turn h₀ he hobject hopen (hturn hobject)) ?_
  rintro r w' ⟨row', hpassing, hclosed⟩
  cases r with
  | error cause => exact ⟨row', hpassing⟩
  | ok outcome =>
    refine wp.mono (wp_applyOutcome outcome hpassing h₀ he hopen (hclosed outcome rfl)) fun _ w₂ hpassing₂ => ?_
    exact ⟨row', hpassing₂⟩

theorem wp_pushBack (h : Passing object newest w₀ row₀ w row) (h₀ : Draining object newest w₀ row₀) (he : e ∈ w₀.outbox)
    (hopen : e.status ∉ OUTBOX_TERMINAL) :
    wp (toolHandler epoch) (FaultFree step.approvals) (pushBack step.deps e)
      (fun _ w' => Passing object newest w₀ row₀ w' row) w := by
  unfold pushBack
  refine wp_call fun d _ => ⟨_, _, rfl, ?_⟩
  refine wp_call fun d' hd => ⟨_, _, stored_of_none hd.stores, ?_⟩
  refine h.update h₀ he hopen ?_ ?_ ?_ ?_ ?_ ?_ ⟨rfl, rfl, rfl⟩ (le_max_left _ _) rfl
  · rfl
  · rfl
  · rfl
  · rfl
  · rfl
  · exact fun _ hclosed => absurd hclosed hopen

/-- The pass over its due entries, by induction on those that are left. -/
theorem wp_drainEntries (hdispatch : step.deps.dispatch = none) (h₀ : Draining object newest w₀ row₀)
    (entries : List (OutboxEntry Time Payload))
    (hentries : ∀ e ∈ entries, e ∈ w₀.outbox ∧ e.status ∉ OUTBOX_TERMINAL ∧
      (e.object = object → step.Drives e → RightTurn newest w₀ row₀ step e))
    (counts : DrainResult) (h : ∃ row, Passing object newest w₀ row₀ w row) :
    wp (toolHandler epoch) (FaultFree step.approvals) (drainEntries step.deps counts entries)
      (fun _ w' => ∃ row, Passing object newest w₀ row₀ w' row) w := by
  induction entries generalizing w counts with
  | nil => exact h
  | cons e rest ih =>
    obtain ⟨he, hopen, hturn⟩ := hentries e (List.mem_cons_self ..)
    have hrest := fun counts w h => @ih w (fun e he => hentries e (List.mem_cons_of_mem _ he)) counts h
    obtain ⟨row, h⟩ := h
    unfold drainEntries
    split_ifs with hforeign hdrives
    · exact hrest _ w ⟨row, h⟩
    · rw [wp_bind]
      have hdriven : step.Drives e := ⟨not_not.mp hforeign, hdrives⟩
      refine wp.mono (wp_redrive hdispatch h h₀ he hopen fun hobject => hturn hobject hdriven) fun r w' hpassing => ?_
      cases r with
      | error cause => exact hpassing
      | ok bucket => exact hrest _ w' hpassing
    · rw [wp_bind]
      refine wp.mono (wp_pushBack h h₀ he hopen) fun r w' hpassing => ?_
      cases r with
      | error cause => exact ⟨row, hpassing⟩
      | ok u => exact hrest _ w' ⟨row, hpassing⟩

/-- A depth report touches nothing and does not throw. -/
theorem wp_reportDepth (deps : DrainDeps Time Payload) (probe : OutboxHealthProbe) :
    wp (toolHandler epoch) (FaultFree step.approvals) (reportDepth deps probe : ToolM Time Payload Unit)
      (fun r w' => r = .ok () ∧ w' = w) w := by
  unfold reportDepth
  cases deps.health with
  | none => exact ⟨rfl, rfl⟩
  | some health =>
    dsimp only
    unfold Hooks.health
    rw [wp_tryCatch, wp_perform]
    intro d _
    simp only [toolHandler]
    cases d.sink with
    | error e => exact ⟨rfl, rfl⟩
    | ok u => exact ⟨trivial, trivial⟩

/-- A pass whose turns come as they should keeps the newest intent from being lost. -/
theorem wp_drainOutbox (redactString : JsString → JsString) (hdispatch : step.deps.dispatch = none)
    (h₀ : Draining object newest w₀ row₀) (hturns : RightTurns object newest w₀ step) :
    wp (toolHandler epoch) (FaultFree step.approvals) (drainOutbox redactString step.deps)
      (fun _ w' => ∃ row, Draining object newest w' row) w₀ := by
  unfold drainOutbox
  refine wp_call fun d hd => ⟨_, _, stored_of_none hd.stores, ?_⟩
  have hstart : Passing object newest w₀ row₀ w₀ row₀ := ⟨h₀, le_refl _, fun _ => id, .inl ⟨rfl, id⟩⟩
  have hentries : ∀ e ∈ tables.listDue w₀.outbox step.deps.now step.deps.limit, e ∈ w₀.outbox ∧ e.status ∉ OUTBOX_TERMINAL ∧
      (e.object = object → step.Drives e → RightTurn newest w₀ row₀ step e) := by
    intro e he
    have hdue := List.mem_of_mem_take he
    rw [mem_orderBy, List.mem_filter] at hdue
    refine ⟨hdue.1, ?_, fun hobject hdrives => hturns e he hobject hdrives row₀ h₀.authored.stored⟩
    have hopen := hdue.2
    unfold tables.isDue at hopen
    rw [Bool.and_eq_true, decide_eq_true_eq] at hopen
    exact hopen.1
  have hdrain : wp (toolHandler epoch) (FaultFree step.approvals)
      (drainEntries step.deps ⟨0, 0, 0, 0, 0⟩ (tables.listDue w₀.outbox step.deps.now step.deps.limit))
      (fun _ w' => ∃ row, Draining object newest w' row) w₀ := by
    refine wp.mono (wp_drainEntries hdispatch h₀ _ hentries _ ⟨row₀, hstart⟩) fun r w' hpassing => ?_
    obtain ⟨row, hpassing⟩ := hpassing
    exact ⟨row, hpassing.draining⟩
  dsimp only
  cases step.deps.health with
  | none => exact hdrain
  | some health =>
    dsimp only
    rw [wp_bind]
    refine wp.mono (wp_reportDepth step.deps _) ?_
    rintro r w' ⟨rfl, rfl⟩
    exact hdrain

end drain

/-- The state in which a claim about held intents starts: an object that this system
    wrote, and intents that are held for it, `newest` being the last. -/
structure HeldIntents (w : ToolWorld Time Payload) (object : ObjectKey) (newest : OutboxEntry Time Payload) : Prop where
  wellFormed : w.WellFormed
  authored : ∃ row, Authored w object row
  /-- The ids are a primary key, and a key that is held is never held again. -/
  ids : (w.outbox.map OutboxEntry.outboxId).Nodup
  keys : (w.outbox.map OutboxEntry.idempotencyKey).Nodup
  held : newest ∈ w.outbox ∧ newest.object = object ∧ newest.status ∉ OUTBOX_TERMINAL
  latest : ∀ e ∈ w.outbox, e.object = object → e.status ∉ OUTBOX_TERMINAL → e ≠ newest →
    e.enqueuedAt < newest.enqueuedAt ∧ e.payloadHash ≠ newest.payloadHash
  clock : ∀ e ∈ w.outbox, e.object = object → e.status ∉ OUTBOX_TERMINAL → e.enqueuedAt < w.now

section run

variable {object : ObjectKey} {newest : OutboxEntry Time Payload} {w : ToolWorld Time Payload}

def DrainStep.run (epoch : Time) (redactString : JsString → JsString) (w : ToolWorld Time Payload)
    (step : DrainStep Time Payload) : ToolWorld Time Payload :=
  ((toolHandler epoch).run step.choose 0 (drainOutbox redactString step.deps) w).2

/-- Passes one after the other. -/
def runDrains (epoch : Time) (redactString : JsString → JsString) (w : ToolWorld Time Payload)
    (steps : List (DrainStep Time Payload)) : ToolWorld Time Payload := steps.foldl (DrainStep.run epoch redactString) w

/-- A pass without faults over the bound dispatch. -/
structure DrainStep.FaultFree (step : DrainStep Time Payload) : Prop where
  dispatch : step.deps.dispatch = none
  calls : ∀ n op, tools.FaultFree step.approvals op (step.choose n op)

/-- No intent of the object is due any more. -/
def NoneDue (w : ToolWorld Time Payload) (object : ObjectKey) : Prop :=
  ∀ e ∈ w.outbox, e.object = object → ∀ now, tables.isDue now e = false

/-- The vendor accepted the payload of the newest intent last. -/
def NewestWins (w : ToolWorld Time Payload) (object : ObjectKey) (newest : OutboxEntry Time Payload) : Prop :=
  ∃ c, w.lastAccepted object = some c ∧ c.env.payloadHash = newest.payloadHash

/-- Before every pass the turns that it takes come as they should. -/
def TurnsCome (epoch : Time) (redactString : JsString → JsString) (object : ObjectKey) (newest : OutboxEntry Time Payload)
    (w : ToolWorld Time Payload) (steps : List (DrainStep Time Payload)) : Prop :=
  ∀ es step es', steps = es ++ step :: es' → RightTurns object newest (runDrains epoch redactString w es) step

theorem HeldIntents.draining (h : HeldIntents w object newest) : ∃ row, Draining object newest w row := by
  obtain ⟨row, hauthored⟩ := h.authored
  obtain ⟨hmem, hobject, hopen⟩ := h.held
  refine ⟨row, h.wellFormed, hauthored, h.clock, ?_, ?_, newest, hmem, rfl⟩
  · intro e he hid
    obtain rfl := List.inj_on_of_nodup_map h.ids he hmem hid
    exact ⟨hobject, rfl, rfl, fun hclosed => absurd hclosed hopen⟩
  · intro e he hid hkey
    obtain rfl := List.inj_on_of_nodup_map h.keys he hmem hkey
    exact hid rfl

/-- Over all the passes of a run. -/
theorem runDrains_draining (epoch : Time) (redactString : JsString → JsString) (steps : List (DrainStep Time Payload))
    (hfaultFree : ∀ step ∈ steps, step.FaultFree) (hturns : TurnsCome epoch redactString object newest w steps)
    (hw : ∃ row, Draining object newest w row) :
    ∃ row, Draining object newest (runDrains epoch redactString w steps) row := by
  induction steps generalizing w with
  | nil => exact hw
  | cons step rest ih =>
    obtain ⟨row, hdraining⟩ := hw
    have hstep := hfaultFree step (List.mem_cons_self ..)
    refine ih (fun s hs => hfaultFree s (List.mem_cons_of_mem _ hs)) (fun es s es' hes => ?_) ?_
    · exact hturns (step :: es) s es' (congrArg (step :: ·) hes)
    · exact (wp_drainOutbox redactString hstep.dispatch hdraining (hturns [] step rest rfl)).run hstep.calls 0

/-- An entry that is never due again is closed. -/
theorem closed_of_never_due {e : OutboxEntry Time Payload} (h : ∀ now, tables.isDue now e = false) :
    e.status ∈ OUTBOX_TERMINAL := by
  by_contra hopen
  have hdue := h (e.nextAttemptAt.getD e.enqueuedAt)
  unfold tables.isDue at hdue
  cases hnext : e.nextAttemptAt with
  | none => simp [hopen, hnext] at hdue
  | some t => simp [hopen, hnext] at hdue

end run

section reverted

/-- An intent for the task `t1`, held at a time. -/
def heldTask (outboxId k payloadHash : JsString) (enqueuedAt : Nat) : OutboxEntry Nat Unit where
  outboxId := outboxId
  actionRef := str "a1"
  workspaceId := str "w1"
  targetSystem := .todoist
  canonicalObjectKey := str "t1"
  idempotencyKey := k
  payloadHash := payloadHash
  approvalPolicy := none
  status := str "retry_queued"
  payload := some ()
  writeReceipt := none
  attempts := 0
  enqueuedAt := enqueuedAt
  nextAttemptAt := none
  updatedAt := enqueuedAt

def taskReceipt : WriteReceipt Nat := ⟨str "x1", none, 0, none⟩

/-- The task was created at time 0; the clock stands at 10. -/
def heldWorld (outbox : List (OutboxEntry Nat Unit)) : ToolWorld Nat Unit where
  outbox := outbox
  receipts := .ofList [((.todoist, str "t1"), ⟨(.todoist, str "t1"), some (str "k0"), str "h0", some taskReceipt, 0⟩)]
  applications := .ofList [(str "k0", ⟨str "k0", (.todoist, str "t1"), str "h0", taskReceipt, 0⟩)]
  preexisting := fun _ => none
  calls := [⟨true, ⟨str "a0", .todoist, str "t1", str "k0", [], str "h0"⟩, (), true, true⟩]
  now := 10

/-- A pass that drives everything. -/
def wholePass : DrainStep Nat Unit where
  deps := {
    gatewayDeps := ⟨fun _ => none, fun _ => false, false⟩
    workspaceId := str "w1"
    now := 10
    limit := 100
    backoffCfg := ⟨1, 1, 1⟩
    jitter := none
    shouldDrive := none
    dispatch := none
    health := none
    addMs := fun t ms => t + ms
    empty := () }
  approvals := fun _ => true
  choose := fun _ _ => {
    fault := none
    landed := false
    adapter := .ok taskReceipt
    probe := .exact ⟨str "x1", none, none⟩
    approved := true
    secret := .ok (.ok (str "token"))
    sink := .ok ()
    time := 10
    id := [] }

theorem wholePass_faultFree : wholePass.FaultFree := by
  refine ⟨rfl, fun n op => ⟨rfl, ⟨_, rfl⟩, ⟨_, rfl, by decide⟩, fun env _ => rfl⟩⟩

theorem heldWorld_row {outbox : List (OutboxEntry Nat Unit)} {object : ObjectKey} {row : WriteReceiptRow Nat}
    (h : (heldWorld outbox).receipts.get object = some row) :
    object = (.todoist, str "t1") ∧ row = ⟨(.todoist, str "t1"), some (str "k0"), str "h0", some taskReceipt, 0⟩ := by
  have hmem := Map.get_eq_some_iff.mp h
  change (object, row) ∈ [_] at hmem
  simpa using hmem

theorem heldWorld_heldIntents {first second : OutboxEntry Nat Unit} (hids : first.outboxId ≠ second.outboxId)
    (hkeys : first.idempotencyKey ≠ second.idempotencyKey) (hsecond : second.object = (.todoist, str "t1"))
    (hopen : second.status ∉ OUTBOX_TERMINAL)
    (hlatest : first.enqueuedAt < second.enqueuedAt ∧ first.payloadHash ≠ second.payloadHash)
    (hclock : second.enqueuedAt < 10) : HeldIntents (heldWorld [first, second]) (.todoist, str "t1") second := by
  constructor
  · intro object row hrow
    obtain ⟨-, rfl⟩ := heldWorld_row hrow
    exact ⟨fun _ => rfl, fun _ => rfl⟩
  · exact ⟨_, rfl, rfl, ⟨str "k0", rfl, rfl⟩, _, rfl, rfl⟩
  · simp [heldWorld, hids]
  · simp [heldWorld, hkeys]
  · exact ⟨by simp [heldWorld], hsecond, hopen⟩
  · intro e he _ _ hne
    simp only [heldWorld, List.mem_cons, List.not_mem_nil, or_false] at he
    rcases he with rfl | rfl
    · exact hlatest
    · exact absurd rfl hne
  · intro e he _ _
    simp only [heldWorld, List.mem_cons, List.not_mem_nil, or_false] at he
    rcases he with rfl | rfl
    · exact hlatest.1.trans hclock
    · exact hclock

end reverted

end sow.tools
