import Sow.Effect.Crash
import Sow.Integrations.Tools.AtMostOneObject
import Sow.Knowledge.KnowledgeWriter.MemoryPorts
import Sow.Workflows.DecideFlow

open sow.js sow.effect sow.contracts sow.db sow.domain
open sow.knowledge_writer (Sha256 KnownDigests tabulated digits_of_all)
open sow.tools (ToolOp ToolM ToolWorld Cause Choice ObjectKey ExternalWriteDeps DispatchOptions ExternalWriteResult VendorCall WriteReceiptRow
  toolHandler duplicateKey stored)

namespace sow.workflows

/-- The stores that the flow works on, with the vendor behind the gateway. -/
structure FlowWorld (Time Payload : Type) where
  tools : ToolWorld Time Payload
  approvals : Approvals

/-- What the environment decides at a call of the flow. -/
structure FlowChoice (Time : Type) where
  tool : Choice Time
  render : Except JsString Unit
  resolved : Except WorkflowRunError ResolveRunOutcome

section ports

variable {Time Payload : Type}

/-- `create` is refused under an id that has a card. -/
def createCardRow (table : Approvals) (card : Approval) : DbResult Approval × Approvals :=
  match table.get card.id with
  | some _ => (.error duplicateKey, table)
  | none => (.ok card, table.set card.id card)

variable [LinearOrder Time] (tables : CaseTables) (sha256 : Sha256) (epoch : Time) (armedFor : TargetSystem → JsString → Bool)
  (jobWorkspaceId : JsString)

/-- `isApproved` of the gateway: the card of the key is approved, for this payload, and a sender is armed. -/
def isApprovedHook (table : Approvals) (env : ExternalWriteEnvelope) : Bool :=
  (table.get (approvalIdFor tables sha256 env.idempotencyKey jobWorkspaceId)).any fun card =>
    card.status = .approved && card.payloadHash = env.payloadHash && armedFor env.targetSystem jobWorkspaceId

/-- `recordPendingApproval` of the gateway. -/
def gatewayCard (action : ProposedAction Payload) (env : ExternalWriteEnvelope) : Approval where
  id := approvalIdFor tables sha256 env.idempotencyKey jobWorkspaceId
  actionRef := some action.actionId
  planRef := none
  subjectKind := .external_action
  workspaceId := jobWorkspaceId
  status := .pending
  actor := str "worker"
  channel := .mac
  payloadHash := env.payloadHash
  snoozeUntil := none
  expiresAt := none

/-- The Tool Gateway over the receipt store and the vendor; its two hooks work on the cards. -/
def gatewayPorts : Handler (ToolOp Time Payload) ToolOp.Ret Cause (FlowWorld Time Payload) (Choice Time) where
  exec w op d := match op with
    | .isApproved env => (.ok (isApprovedHook tables sha256 armedFor jobWorkspaceId w.approvals env), w)
    | .recordPendingApproval action env =>
      (.ok (), { w with approvals := (createCardRow w.approvals (gatewayCard tables sha256 jobWorkspaceId action env)).2 })
    | op => (((toolHandler epoch).exec w.tools op d).1, { w with tools := ((toolHandler epoch).exec w.tools op d).2 })

def flowPorts : Handler (FlowOp Time Payload) FlowOp.Ret Cause (FlowWorld Time Payload) (FlowChoice Time) where
  exec w op d := match op with
    | .resolveRun => (.ok d.resolved, w)
    | .tool op => (gatewayPorts tables sha256 epoch armedFor jobWorkspaceId).exec w op d.tool
    | .approval op =>
      (((approvalsDb.exec w.approvals op ()).1.mapError fun _ => str "database error"),
        { w with approvals := (approvalsDb.exec w.approvals op ()).2 })
    | .createApproval card => (.ok (createCardRow w.approvals card).1, { w with approvals := (createCardRow w.approvals card).2 })
    | .render _ _ => (.ok d.render, w)
    | .health _ => (.ok (), w)

@[simp] theorem flowPorts_resolveRun (w : FlowWorld Time Payload) (d : FlowChoice Time) :
    (flowPorts tables sha256 epoch armedFor jobWorkspaceId).exec w .resolveRun d = (.ok d.resolved, w) := rfl

end ports

section property

variable {Time Payload : Type}

/-- The stores do not fail, and the vendor tells what it holds. -/
structure StoresAnswer (_ : FlowOp Time Payload) (d : FlowChoice Time) : Prop where
  fault : d.tool.fault = none
  probe : ∃ object, d.tool.probe = .exact object

/-- Nothing fails: the vendor also creates what it is asked to. -/
structure FaultFree (op : FlowOp Time Payload) (d : FlowChoice Time) : Prop where
  stores : StoresAnswer op d
  creates : ∃ receipt, d.tool.adapter = .ok receipt
  secret : ∃ token, d.tool.secret = .ok (.ok token) ∧ trim token ≠ []
  renders : d.render = .ok ()

/-- The creations of an object that have taken effect. -/
def ToolWorldCreated (w : ToolWorld Time Payload) (object : ObjectKey) : List (VendorCall Payload) :=
  w.calls.filter fun c => c.creates && c.landed && c.object = object

variable [LinearOrder Time] (tables : CaseTables) (sha256 : Sha256) (epoch : Time) (armedFor : TargetSystem → JsString → Bool)
  (deps : DecideFlowDeps Payload) (ctx : ApprovalFlowContext Time Payload) (decision : ApprovalDecision)

/-- The worlds after any number of runs of the flow, each ended or crashed, with stores that answer. -/
def FlowReaches (w w' : FlowWorld Time Payload) : Prop :=
  Redriven (flowPorts tables sha256 epoch armedFor deps.jobWorkspaceId) StoresAnswer (runDecide tables sha256 deps ctx decision) w w'

def CardApproved (w : FlowWorld Time Payload) : Prop :=
  ∃ card, w.approvals.get (flowCardId tables sha256 ctx) = some card ∧ card.status = .approved

/-- The approved action reaches the vendor exactly once. -/
structure ReachesVendorOnce (w₀ : FlowWorld Time Payload) : Prop where
  approvedFirst : ∀ w, FlowReaches tables sha256 epoch armedFor deps ctx decision w₀ w →
    (∃ c ∈ w.tools.calls, c.creates = true ∧ c.object = (ctx.envelope.targetSystem, ctx.envelope.canonicalObjectKey)) →
    CardApproved tables sha256 ctx w
  atMostOnce : ∀ w, FlowReaches tables sha256 epoch armedFor deps ctx decision w₀ w →
    (ToolWorldCreated w.tools (ctx.envelope.targetSystem, ctx.envelope.canonicalObjectKey)).length ≤ 1
  arrives : ∀ w, FlowReaches tables sha256 epoch armedFor deps ctx decision w₀ w → CardApproved tables sha256 ctx w →
    ∀ choose : Nat → FlowOp Time Payload → FlowChoice Time, (∀ n op, FaultFree op (choose n op)) →
      let out := (flowPorts tables sha256 epoch armedFor deps.jobWorkspaceId).run choose 0 (runDecide tables sha256 deps ctx decision) w
      (ToolWorldCreated out.2.tools (ctx.envelope.targetSystem, ctx.envelope.canonicalObjectKey)).length = 1 ∧
        ∃ outcome result, out.1 = .ok outcome ∧ outcome.dispatched = some result

/-- Nothing has been written for an envelope. -/
structure Unwritten (w : ToolWorld Time Payload) (env : ExternalWriteEnvelope) : Prop where
  keys : ∀ object row, w.receipts.get object = some row → row.idempotencyKey ≠ some env.idempotencyKey
  application : w.applications.get env.idempotencyKey = none
  preexisting : w.preexisting (env.targetSystem, env.canonicalObjectKey) = none
  unasked : ∀ c ∈ w.calls, c.creates = true → c.object ≠ (env.targetSystem, env.canonicalObjectKey)

/-- Nothing has been written or recorded for the flow. -/
structure Untouched (w : FlowWorld Time Payload) : Prop where
  card : w.approvals.get (flowCardId tables sha256 ctx) = none
  row : w.tools.receipts.get (ctx.envelope.targetSystem, ctx.envelope.canonicalObjectKey) = none
  unwritten : Unwritten w.tools ctx.envelope

end property

section rules

variable {Time Payload α : Type} [LinearOrder Time] {tables : CaseTables} {sha256 : Sha256} {epoch : Time}
  {armedFor : TargetSystem → JsString → Bool} {jobWorkspaceId : JsString} {adm : FlowOp Time Payload → FlowChoice Time → Prop}
  {w : FlowWorld Time Payload}

/-- A program on the cards changes the cards only. -/
theorem wp_onApprovals {p : ApprovalM α} {a : α} {table : Approvals} {Q : Except Cause α → FlowWorld Time Payload → Prop}
    (heval : approvalsDb.eval p w.approvals = (.ok a, table)) (hQ : Q (.ok a) { w with approvals := table }) :
    wp (flowPorts tables sha256 epoch armedFor jobWorkspaceId) adm (onApprovals p) Q w := by
  have hrun : wp approvalsDb (fun _ _ => True) p (fun r v => Q (r.mapError fun _ => str "database error") { w with approvals := v }) w.approvals := by
    rw [wp_eval_iff, heval]
    exact hQ
  unfold onApprovals
  refine wp_embed FlowWorld.approvals (fun w table => { w with approvals := table }) (fun _ => ()) ?_ ?_ ?_ ?_ ?_ ?_ hrun
  · exact fun _ _ _ => trivial
  · intro w op d
    cases op with
    | selectById id => rfl
    | updateWhereStatus id status next =>
      simp only [flowPorts, approvalsDb]
      cases w.approvals.get id with
      | none => rfl
      | some row => by_cases h : row.status = status <;> simp only [h, if_true, if_false] <;> rfl
  · exact fun _ _ _ => rfl
  · exact fun _ _ => rfl
  · exact fun _ _ _ => rfl
  · exact fun _ => rfl

/-- A program on the gateway runs against its ports. -/
theorem wp_onTools {p : ToolM Time Payload α} {admTool : ToolOp Time Payload → Choice Time → Prop}
    {Q : Except Cause α → FlowWorld Time Payload → Prop} (hadm : ∀ op d, adm (.tool op) d → admTool op d.tool)
    (hp : wp (gatewayPorts tables sha256 epoch armedFor jobWorkspaceId) admTool p Q w) :
    wp (flowPorts tables sha256 epoch armedFor jobWorkspaceId) adm (onTools p) Q w := by
  unfold onTools
  apply wp_lift id (fun _ w => w) FlowChoice.tool hadm
  · intro w op d
    cases op <;> simp only [flowPorts, id_eq] <;> cases ((gatewayPorts tables sha256 epoch armedFor jobWorkspaceId).exec w _ d.tool).1 <;> rfl
  · exact fun _ _ _ => rfl
  · exact fun _ _ => rfl
  · exact fun _ _ _ => rfl
  · exact fun _ => rfl
  · exact hp

/-- A card stays when another is created. -/
theorem createCardRow_keeps {table : Approvals} {id : JsString} {card : Approval} (new : Approval) (h : table.get id = some card) :
    (createCardRow table new).2.get id = some card := by
  unfold createCardRow
  by_cases hid : new.id = id
  · rw [hid, h]
    exact h
  · cases table.get new.id with
    | some _ => exact h
    | none =>
      rw [Map.get_set_of_ne _ _ hid]
      exact h

/-- The gateway leaves the cards that there are. -/
theorem gatewayPorts_keeps {id : JsString} {card : Approval} (w : FlowWorld Time Payload) (op : ToolOp Time Payload) (d : Choice Time)
    (h : w.approvals.get id = some card) :
    ((gatewayPorts tables sha256 epoch armedFor jobWorkspaceId).exec w op d).2.approvals.get id = some card := by
  cases op with
  | recordPendingApproval action env => exact createCardRow_keeps _ h
  | _ => exact h

/-- The world in which the row of an object has been reserved. -/
def reservedWorld (epoch : Time) (w : FlowWorld Time Payload) (env : ExternalWriteEnvelope) : FlowWorld Time Payload :=
  { w with tools := { w.tools with receipts :=
    (sow.tools.tables.reserve epoch w.tools.receipts (env.targetSystem, env.canonicalObjectKey)).2 } }

/-- The step that records the card claims the row of the object. -/
theorem wp_reservePending (env : ExternalWriteEnvelope) (hadm : ∀ op d, adm op d → StoresAnswer op d)
    {Q : Except Cause Bool → FlowWorld Time Payload → Prop} (hQ : ∀ b, Q (.ok b) (reservedWorld epoch w env)) :
    wp (flowPorts tables sha256 epoch armedFor jobWorkspaceId) adm (reservePending env) Q w := by
  unfold reservePending
  have hreserve : wp (flowPorts tables sha256 epoch armedFor jobWorkspaceId) adm
      (onTools (sow.tools.ReceiptStore.reserve (env.targetSystem, env.canonicalObjectKey)) : FlowM Time Payload _)
      (fun r w' => (∃ reservation, r = .ok reservation) ∧ w' = reservedWorld epoch w env) w := by
    change ∀ d, adm _ d → _
    intro d hd
    simp only [flowPorts, gatewayPorts, toolHandler, stored, (hadm _ d hd).fault]
    exact ⟨⟨_, rfl⟩, rfl⟩
  rw [wp_bind]
  refine hreserve.mono ?_
  rintro r w' ⟨⟨reservation, rfl⟩, rfl⟩
  cases reservation with
  | committed row => exact hQ _
  | reserved => exact hQ _
  | in_progress => exact hQ _

/-- The card of the flow is on record, as it was or as the flow creates it, and the row is claimed. -/
theorem wp_recordPending (deps : DecideFlowDeps Payload) (ctx : ApprovalFlowContext Time Payload)
    (hadm : ∀ op d, adm op d → StoresAnswer op d) {Q : Except Cause (Except JsString Approval) → FlowWorld Time Payload → Prop}
    (hQ : ∀ w', w'.tools = (reservedWorld epoch w ctx.envelope).tools → w'.approvals.get (flowCardId tables sha256 ctx) =
        some ((w.approvals.get (flowCardId tables sha256 ctx)).getD (pendingCard tables sha256 deps ctx)) →
      Q (.ok (.ok ((w.approvals.get (flowCardId tables sha256 ctx)).getD (pendingCard tables sha256 deps ctx)))) w') :
    wp (flowPorts tables sha256 epoch armedFor jobWorkspaceId) adm (recordPending tables sha256 deps ctx) Q w := by
  unfold recordPending
  rw [wp_bind]
  apply wp_reservePending _ hadm
  intro b
  simp only [wp_bind]
  cases hget : w.approvals.get (flowCardId tables sha256 ctx) with
  | some card =>
    rw [hget] at hQ
    apply wp_onApprovals (w := reservedWorld epoch w ctx.envelope) (eval_get_some hget)
    exact hQ _ rfl hget
  | none =>
    rw [hget] at hQ
    apply wp_onApprovals (w := reservedWorld epoch w ctx.envelope) (eval_get_none hget)
    simp only [wp_bind, wp_perform, flowPorts, createCardRow]
    intro d hd
    have hid : (pendingCard tables sha256 deps ctx).id = flowCardId tables sha256 ctx := rfl
    have hnone : (reservedWorld epoch w ctx.envelope).approvals.get (flowCardId tables sha256 ctx) = none := hget
    rw [hid, hnone]
    exact hQ _ rfl (Map.get_set_self ..)

/-- A card that is shown on both channels is surfaced. -/
theorem wp_surfaceCard (card : Approval) (hadm : ∀ op d, adm op d → d.render = .ok ()) {Q : Except Cause Bool → FlowWorld Time Payload → Prop}
    (hQ : Q (.ok true) w) : wp (flowPorts tables sha256 epoch armedFor jobWorkspaceId) adm (surfaceCard card) Q w := by
  unfold surfaceCard
  simp only [wp_bind, wp_perform, flowPorts]
  intro mac hmac telegram htelegram
  rw [hadm _ _ hmac, hadm _ _ htelegram]
  exact hQ

end rules

section blocked

variable {Time Payload : Type} {env : ExternalWriteEnvelope} {epoch : Time}

/-- The object has the placeholder of a reservation, and nothing has been written for the envelope. -/
structure Blocked (w : ToolWorld Time Payload) (env : ExternalWriteEnvelope) : Prop where
  reserved : ∃ row, w.receipts.get (env.targetSystem, env.canonicalObjectKey) = some row ∧ row.receipt = none
  unwritten : Unwritten w env

theorem Unwritten.not_holds {w : ToolWorld Time Payload} (h : Unwritten w env) :
    w.holds (env.targetSystem, env.canonicalObjectKey) = false := by
  unfold ToolWorld.holds
  rw [h.preexisting, Option.isSome_none, Bool.false_or, List.any_eq_false]
  intro c hc
  simp only [Bool.and_eq_true, decide_eq_true_eq, not_and]
  exact fun hcreates => h.unasked c hc hcreates.1

theorem Unwritten.no_created {w : ToolWorld Time Payload} (h : Unwritten w env) :
    ToolWorldCreated w (env.targetSystem, env.canonicalObjectKey) = [] := by
  unfold ToolWorldCreated
  rw [List.filter_eq_nil_iff]
  intro c hc
  simp only [Bool.and_eq_true, decide_eq_true_eq, not_and]
  exact fun hcreates => h.unasked c hc hcreates.1

theorem Unwritten.reserve (epoch : Time) {w : FlowWorld Time Payload} (h : Unwritten w.tools env) :
    Unwritten (reservedWorld epoch w env).tools env := by
  refine ⟨?_, h.application, h.preexisting, h.unasked⟩
  intro object row hget
  unfold reservedWorld sow.tools.tables.reserve at hget
  cases hrow : w.tools.receipts.get (env.targetSystem, env.canonicalObjectKey) with
  | some current =>
    rw [hrow] at hget
    exact h.keys object row hget
  | none =>
    rw [hrow] at hget
    by_cases hobject : (env.targetSystem, env.canonicalObjectKey) = object
    · subst hobject
      rw [Map.get_set_self] at hget
      obtain rfl := Option.some.inj hget
      simp only [ne_eq, reduceCtorEq, not_false_eq_true]
    · rw [Map.get_set_of_ne _ _ hobject] at hget
      exact h.keys object row hget

/-- The reservation of an object that nothing was written for blocks it. -/
theorem Unwritten.blocked (epoch : Time) {w : FlowWorld Time Payload} (h : Unwritten w.tools env)
    (hrow : w.tools.receipts.get (env.targetSystem, env.canonicalObjectKey) = none) :
    Blocked (reservedWorld epoch w env).tools env := by
  refine ⟨?_, h.reserve epoch⟩
  unfold reservedWorld sow.tools.tables.reserve
  rw [hrow]
  exact ⟨_, Map.get_set_self .., rfl⟩

theorem Blocked.reserve {w : ToolWorld Time Payload} (h : Blocked w env) :
    sow.tools.tables.reserve epoch w.receipts (env.targetSystem, env.canonicalObjectKey) = (.in_progress, w.receipts) := by
  obtain ⟨row, hrow, hreceipt⟩ := h.reserved
  unfold sow.tools.tables.reserve
  rw [hrow]
  simp only [hreceipt, Option.isSome_none, Bool.false_eq_true, if_false]

/-- The gateway is asked with stores that answer and a vendor that tells what it holds. -/
def Told (_ : ToolOp Time Payload) (d : Choice Time) : Prop := d.fault = none ∧ ∃ object, d.probe = .exact object

theorem Told.stored {op : ToolOp Time Payload} {d : Choice Time} (hd : Told op d) {α : Type} (w w' : ToolWorld Time Payload)
    (answer : DbResult α) : stored d w w' answer = (.ok answer, w') := by
  unfold sow.tools.stored
  rw [hd.1]

variable [LinearOrder Time] {tables : CaseTables} {sha256 : Sha256} {armedFor : TargetSystem → JsString → Bool} {jobWorkspaceId : JsString}
  {w : FlowWorld Time Payload}

/-- A blocked object is not found anywhere. -/
theorem wp_resolveExisting_blocked (ctx : sow.tools.AdapterCallContext) (hw : Blocked w.tools env) :
    wp (gatewayPorts tables sha256 epoch armedFor jobWorkspaceId) Told (sow.tools.resolveExisting env ctx)
      (fun r w' => w' = w ∧ r = .ok .none) w := by
  obtain ⟨row, hrow, hreceipt⟩ := hw.reserved
  have happlication : sow.tools.applicationLookup (sow.tools.tables.getApplication w.tools.applications env.idempotencyKey) = .miss := by
    unfold sow.tools.tables.getApplication
    rw [hw.unwritten.application]
    rfl
  have hkey : sow.tools.checkedLookup (sow.tools.tables.getByIdempotencyKey w.tools.receipts env.idempotencyKey) = .miss := by
    have hfind : (w.tools.receipts.entries.find? fun e => e.2.idempotencyKey = some env.idempotencyKey) = none := by
      rw [List.find?_eq_none]
      intro e he
      simpa using hw.unwritten.keys e.1 e.2 (Map.get_eq_some_iff.mpr he)
    unfold sow.tools.tables.getByIdempotencyKey
    rw [hfind]
    rfl
  have hobject : sow.tools.checkedLookup
      (sow.tools.tables.getByCanonicalObjectKey w.tools.receipts (env.targetSystem, env.canonicalObjectKey)) = .miss := by
    unfold sow.tools.tables.getByCanonicalObjectKey
    rw [hrow]
    simp only [sow.tools.tables.committedRow, hreceipt]
    rfl
  unfold sow.tools.resolveExisting sow.tools.ReceiptStore.getApplication sow.tools.ReceiptStore.getByIdempotencyKeyChecked
    sow.tools.ReceiptStore.getByCanonicalObjectKeyChecked
  simp only [bind_map_left]
  apply wp_answers (P := fun r w' => r = sow.tools.tables.getApplication w.tools.applications env.idempotencyKey ∧ w' = w)
    fun d hd => ⟨_, _, by simp only [gatewayPorts, toolHandler, hd.stored], rfl, rfl⟩
  rintro r w' ⟨rfl, rfl⟩
  rw [happlication]
  apply wp_answers (P := fun r w => r = sow.tools.tables.getByIdempotencyKey w'.tools.receipts env.idempotencyKey ∧ w = w')
    fun d hd => ⟨_, _, by simp only [gatewayPorts, toolHandler, hd.stored], rfl, rfl⟩
  rintro r w ⟨rfl, rfl⟩
  rw [hkey]
  apply wp_answers (P := fun r w' =>
    r = sow.tools.tables.getByCanonicalObjectKey w.tools.receipts (env.targetSystem, env.canonicalObjectKey) ∧ w' = w)
    fun d hd => ⟨_, _, by simp only [gatewayPorts, toolHandler, hd.stored], rfl, rfl⟩
  rintro r w' ⟨rfl, rfl⟩
  rw [hobject]
  apply wp_answers (P := fun r w => r = .ok none ∧ w = w')
  · rintro d ⟨-, object, hprobe⟩
    refine ⟨_, _, rfl, ?_, rfl⟩
    simp only [hprobe, sow.tools.Probe.report, hw.unwritten.not_holds, Bool.false_eq_true, if_false]
  · rintro r w ⟨rfl, rfl⟩
    exact ⟨rfl, rfl⟩

/-- A write to a blocked object is held. -/
theorem wp_dispatchWrite_blocked (action : ProposedAction Payload) (opts : DispatchOptions Time) (hw : Blocked w.tools env) :
    wp (gatewayPorts tables sha256 epoch armedFor jobWorkspaceId) Told (sow.tools.dispatchWrite env action opts) (fun _ w' => w' = w) w := by
  unfold sow.tools.dispatchWrite
  rw [wp_bind]
  refine (wp_resolveExisting_blocked _ hw).mono ?_
  rintro r w' ⟨rfl, rfl⟩
  unfold sow.tools.dispatchCreate sow.tools.ReceiptStore.reserve
  simp only [bind_map_left]
  apply wp_answers (P := fun r w => r = .ok .in_progress ∧ w = w')
  · exact fun d hd => ⟨_, _, by simp only [gatewayPorts, toolHandler, hd.stored, hw.reserve], rfl, rfl⟩
  · rintro r w ⟨rfl, rfl⟩
    rfl

/-- A dispatch to a blocked object calls no vendor, and leaves the cards that there are. -/
theorem wp_dispatchRouted_blocked (registered : TargetSystem → Bool) (deps : ExternalWriteDeps Payload) (action : ProposedAction Payload)
    (opts : DispatchOptions Time) (hw : Blocked w.tools env) {id : JsString} {card : Approval} (hcard : w.approvals.get id = some card) :
    wp (gatewayPorts tables sha256 epoch armedFor jobWorkspaceId) Told (dispatchRouted registered deps env action opts)
      (fun _ w' => w'.tools = w.tools ∧ w'.approvals.get id = some card) w := by
  have hwrite : wp (gatewayPorts tables sha256 epoch armedFor jobWorkspaceId) Told (sow.tools.dispatchWrite env action opts)
      (fun _ w' => w'.tools = w.tools ∧ w'.approvals.get id = some card) w :=
    (wp_dispatchWrite_blocked action opts hw).mono fun _ _ h => by rw [h]; exact ⟨rfl, hcard⟩
  have happroved : wp (gatewayPorts tables sha256 epoch armedFor jobWorkspaceId) Told (sow.tools.dispatchApproved deps env action opts)
      (fun _ w' => w'.tools = w.tools ∧ w'.approvals.get id = some card) w := by
    unfold sow.tools.dispatchApproved
    split_ifs
    · rw [wp_bind]
      refine (wp_of_within (I := fun w' => w' = w) (sow.tools.resolveWriteCredentialFault_within env.targetSystem opts.workspaceId) rfl ?_).mono ?_
      · rintro op w' d ⟨ref, rfl⟩ - rfl
        rfl
      · rintro r w' rfl
        cases r with
        | error e => exact ⟨rfl, hcard⟩
        | ok fault =>
          cases fault with
          | none => exact hwrite
          | some fault => exact ⟨rfl, hcard⟩
    · exact hwrite
  unfold dispatchRouted
  split_ifs
  · exact ⟨rfl, hcard⟩
  · exact ⟨rfl, hcard⟩
  · unfold sow.tools.dispatchExternalWrite
    cases sow.tools.admitExternalWriteEnvelope deps.schemaViolation env action with
    | some message => exact ⟨rfl, hcard⟩
    | none =>
      dsimp only
      split_ifs
      · refine wp_call fun d hd => ⟨_, _, rfl, ?_⟩
        split_ifs
        · exact happroved
        · refine wp_call fun d hd => ⟨_, _, rfl, rfl, ?_⟩
          exact createCardRow_keeps _ hcard
      · exact happroved

end blocked

section decision

variable (deps : ApplyTransitionActivityDeps) {table : Approvals} {card : Approval} {decision : ApprovalDecision}

/-- The approval of a pending card is applied. -/
theorem eval_apply_pending (hget : table.get card.id = some card) (hpending : card.status = .pending) (happroved : decision.decision = .approved) :
    ∃ decided, decided.id = card.id ∧ decided.status = .approved ∧
      approvalsDb.eval (ApplyTransitionPort.apply deps card decision) table = (.ok (.ok ⟨decided, true, none⟩), table.set card.id decided) := by
  have hedge : approvalMachine.transition .pending .approved = .ok .approved := by decide
  unfold ApplyTransitionPort.apply cas
  simp only [happroved, DecisionTarget.status, hpending, hedge]
  refine ⟨_, ?_, ?_, eval_bind_ok (eval_applyTransition_won hget ?_) _⟩
  · rfl
  · rfl
  · rw [decideApprovalCas_apply_iff, hpending]
    exact ⟨ApprovalStatus.noConfusion, rfl, rfl⟩

/-- The approval of an approved card is a second decision. -/
theorem eval_apply_approved (hget : table.get card.id = some card) (hstatus : card.status = .approved) (happroved : decision.decision = .approved) :
    approvalsDb.eval (ApplyTransitionPort.apply deps card decision) table = (.ok (.ok (noop .approved card)), table) := by
  have hedge : approvalMachine.transition .approved .approved = .ok .approved := by decide
  have hlost : decideApprovalCas .approved .approved .approved = .idempotent_noop := decideApprovalCas_self ..
  unfold ApplyTransitionPort.apply cas
  simp only [happroved, DecisionTarget.status, hstatus, hedge]
  have hlose : ∀ call : TransitionCall, call.id = card.id → call.expectedFromStatus = .approved → call.next.status = .approved →
      approvalsDb.eval (applyTransition call) table = (.ok (casDbResult .idempotent_noop card card), table) := by
    intro call hcall hfrom hnext
    have hcas : decideApprovalCas card.status call.expectedFromStatus call.next.status = .idempotent_noop := by rw [hstatus, hfrom, hnext, hlost]
    rw [eval_applyTransition_lost (by rw [hcall, hget]) (by rw [hcas]; exact CasVerdict.noConfusion), hcas]
  have heval := hlose ⟨card.id, .approved, { card with
    status := .approved, actor := decision.actor, channel := decision.channel, snoozeUntil := card.snoozeUntil }⟩ rfl rfl rfl
  exact eval_bind_ok heval _

end decision

section main

variable {Time Payload : Type} [LinearOrder Time] {tables : CaseTables} {sha256 : Sha256} {epoch : Time}
  {armedFor : TargetSystem → JsString → Bool} {deps : DecideFlowDeps Payload} {ctx : ApprovalFlowContext Time Payload}
  {decision : ApprovalDecision} {w : FlowWorld Time Payload}

/-- The card of the flow is approved, under its own id. -/
def ApprovedUnder (tables : CaseTables) (sha256 : Sha256) (ctx : ApprovalFlowContext Time Payload) (w : FlowWorld Time Payload) : Prop :=
  ∃ card, w.approvals.get (flowCardId tables sha256 ctx) = some card ∧ card.id = flowCardId tables sha256 ctx ∧ card.status = .approved

omit [LinearOrder Time] in
theorem ApprovedUnder.cardApproved (h : ApprovedUnder tables sha256 ctx w) : CardApproved tables sha256 ctx w := by
  obtain ⟨card, hstored, -, hstatus⟩ := h
  exact ⟨card, hstored, hstatus⟩

variable (epoch armedFor deps)

/-- The first decision of a flow is applied, and nothing is written. -/
theorem wp_runDecide_first (happroved : decision.decision = .approved) (hw : Untouched tables sha256 ctx w) :
    wp (flowPorts tables sha256 epoch armedFor deps.jobWorkspaceId) FaultFree (runDecide tables sha256 deps ctx decision)
      (fun _ w' => ApprovedUnder tables sha256 ctx w' ∧ Unwritten w'.tools ctx.envelope) w := by
  unfold runDecide
  rw [wp_bind, wp_perform]
  intro d hd
  simp only [flowPorts_resolveRun]
  rw [wp_bind]
  apply wp_recordPending _ _ fun _ _ h => h.stores
  intro w₁ htools hget
  simp only [hw.card, Option.getD_none] at hget ⊢
  rw [wp_bind]
  apply wp_surfaceCard _ fun _ _ h => h.renders
  simp only [Bool.not_true, Bool.false_eq_true, if_false]
  rw [wp_bind]
  obtain ⟨decided, hid, hstatus, heval⟩ := eval_apply_pending deps.transition
    (show w₁.approvals.get (pendingCard tables sha256 deps ctx).id = some (pendingCard tables sha256 deps ctx) from hget) rfl happroved
  apply wp_onApprovals heval
  simp only [Bool.not_true, Bool.false_eq_true, if_false]
  unfold routeDecision dispatchApprovedAction
  simp only [hstatus, reduceCtorEq, decide_false, Bool.or_self, Bool.false_eq_true, if_false, bind_assoc, pure_bind]
  rw [wp_bind]
  -- The placeholder of the card blocks the dispatch.
  have hblocked : Blocked w₁.tools ctx.envelope := htools ▸ hw.unwritten.blocked epoch hw.row
  have hset := Map.get_set_self w₁.approvals (flowCardId tables sha256 ctx) decided
  have hstores : ∀ (op : ToolOp Time Payload) (d : FlowChoice Time), FaultFree (.tool op) d → StoresAnswer (.tool op) d := fun _ _ h => h.stores
  refine (wp_onTools (fun op d h => ⟨(hstores op d h).fault, (hstores op d h).probe⟩)
    (wp_dispatchRouted_blocked deps.registered deps.gateway ctx.action _ (w := { w₁ with approvals := w₁.approvals.set _ decided })
      hblocked hset)).mono ?_
  rintro r w₂ ⟨hsame, hkept⟩
  have hdone : ApprovedUnder tables sha256 ctx w₂ ∧ Unwritten w₂.tools ctx.envelope :=
    ⟨⟨decided, hkept, hid, hstatus⟩, hsame ▸ hblocked.unwritten⟩
  cases r with
  | error e => exact hdone
  | ok outcome =>
    dsimp only
    cases hfold : foldDispatch ctx.envelope outcome with
    | ok result => exact hdone
    | error e => exact fun _ _ => hdone

/-- A run that finds the decision applied dispatches nothing. -/
theorem wp_runDecide_again (happroved : decision.decision = .approved) (hcard : ApprovedUnder tables sha256 ctx w)
    (hw : Unwritten w.tools ctx.envelope) :
    wp (flowPorts tables sha256 epoch armedFor deps.jobWorkspaceId) FaultFree (runDecide tables sha256 deps ctx decision)
      (fun _ w' => Unwritten w'.tools ctx.envelope) w := by
  obtain ⟨card, hstored, hid, hstatus⟩ := hcard
  unfold runDecide
  rw [wp_bind, wp_perform]
  intro d hd
  simp only [flowPorts_resolveRun]
  rw [wp_bind]
  apply wp_recordPending _ _ fun _ _ h => h.stores
  intro w₁ htools hget
  simp only [hstored, Option.getD_some] at hget ⊢
  rw [wp_bind]
  apply wp_surfaceCard _ fun _ _ h => h.renders
  simp only [Bool.not_true, Bool.false_eq_true, if_false]
  rw [wp_bind]
  apply wp_onApprovals (eval_apply_approved deps.transition (by rw [hid]; exact hget) hstatus happroved)
  change Unwritten w₁.tools ctx.envelope
  rw [htools]
  exact hw.reserve epoch

/-- An environment without faults. -/
def faultFreeChoice (epoch : Time) : FlowChoice Time where
  tool := { Choice.calm epoch with
    adapter := .ok ⟨str "x1", none, epoch, none⟩, probe := .exact ⟨str "x1", none, none⟩, secret := .ok (.ok (str "token")) }
  render := .ok ()
  resolved := .error ⟨.persist_failed, [], none⟩

omit [LinearOrder Time] in
theorem faultFreeChoice_faultFree (epoch : Time) (op : FlowOp Time Payload) : FaultFree op (faultFreeChoice epoch) :=
  ⟨⟨rfl, _, rfl⟩, ⟨_, rfl⟩, ⟨_, rfl, by decide⟩, rfl⟩

/-- An approved action never reaches the vendor: the flow claims the row of the object before it
    dispatches to it, and a decision that is applied is not dispatched again. -/
theorem decideFlow_never_reachesVendorOnce (tables : CaseTables) (sha256 : Sha256) (epoch : Time) (armedFor : TargetSystem → JsString → Bool)
    (deps : DecideFlowDeps Payload) (ctx : ApprovalFlowContext Time Payload) (decision : ApprovalDecision)
    (happroved : decision.decision = .approved) (w₀ : FlowWorld Time Payload) (hw₀ : Untouched tables sha256 ctx w₀) :
    ¬ ReachesVendorOnce tables sha256 epoch armedFor deps ctx decision w₀ := by
  intro h
  have hfree : ∀ (n : Nat) (op : FlowOp Time Payload), FaultFree op (faultFreeChoice epoch) :=
    fun _ op => faultFreeChoice_faultFree epoch op
  obtain ⟨hcard, hunwritten⟩ := (wp_runDecide_first epoch armedFor deps happroved hw₀).run hfree 0
  have hreached : FlowReaches tables sha256 epoch armedFor deps ctx decision w₀ _ :=
    Redriven.start.again (leaves_run (fun n op => (hfree n op).stores) 0)
  obtain ⟨hone, -⟩ := h.arrives _ hreached hcard.cardApproved _ hfree
  have hnone := ((wp_runDecide_again epoch armedFor deps happroved hcard hunwritten).run hfree 0).no_created
  rw [hnone] at hone
  cases hone

end main

section task

def taskAction : ProposedAction Unit := ⟨str "a1", .todoist, str "t1", (), str "needs_approval", str "k1"⟩

/-- A flow for one task, which passes every gate. -/
def taskFlow : ApprovalFlowContext Nat Unit where
  workspaceId := str "w1"
  action := taskAction
  envelope := ⟨str "a1", .todoist, str "t1", str "k1", [], str "h1"⟩
  intentCreatedAt := none

def taskDeps : DecideFlowDeps Unit where
  registered := fun _ => true
  gateway := ⟨fun _ => none, fun _ => true, true⟩
  transition := ⟨str "2026-01-01T00:00:00.000Z", str "2026-01-02T00:00:00.000Z", str "2026-01-08T00:00:00.000Z"⟩
  recordActor := str "worker"
  seedChannel := .mac
  recordExpiresAt := str "2026-01-08T00:00:00.000Z"
  jobWorkspaceId := str "w1"

/-- The digest of the id of its card. -/
def taskDigests : KnownDigests where
  entries :=
    [(utf8 (str "[\"sow.idem.v1\",\"approval.pending\",[[\"idempotencykey\",\"k1\"],[\"workspace\",\"w1\"]]]"),
      str "52f1974a949f0d8c28b350a25cde29491f9737c2c7ecd0ec8d605e310d9040d9")]
  distinct := by decide +kernel
  digits := digits_of_all (by decide +kernel)

def approveTask : ApprovalDecision := ⟨.approved, .mac, str "owner"⟩

def emptyFlowWorld : FlowWorld Nat Unit := ⟨⟨[], .empty, .empty, fun _ => none, [], 0⟩, .empty⟩

/-- One run of the flow, without faults. -/
abbrev runTask (w : FlowWorld Nat Unit) : Except Cause (DecideOutcome Nat) × FlowWorld Nat Unit :=
  (flowPorts asciiTables (tabulated taskDigests) 0 (fun _ _ => true) (str "w1")).run (fun _ _ => faultFreeChoice 0) 0
    (runDecide asciiTables (tabulated taskDigests) taskDeps taskFlow approveTask) w

/-- The task is approved and dispatched, and run again: the vendor has nothing. -/
theorem decideFlow_strands_task :
    ¬ ReachesVendorOnce asciiTables (tabulated taskDigests) 0 (fun _ _ => true) taskDeps taskFlow approveTask emptyFlowWorld := by
  intro h
  have hfree : ∀ (n : Nat) (op : FlowOp Nat Unit), FaultFree op (faultFreeChoice 0) := fun _ op => faultFreeChoice_faultFree 0 op
  have happroved : ((runTask emptyFlowWorld).2.approvals.get (flowCardId asciiTables (tabulated taskDigests) taskFlow)).any
      (fun card => card.status = .approved) = true := by decide +kernel
  have hnone : (ToolWorldCreated (runTask (runTask emptyFlowWorld).2).2.tools (.todoist, str "t1")).length = 0 := by decide +kernel
  obtain ⟨card, hcard, hstatus⟩ := (Option.any_eq_true _ _).mp happroved
  obtain ⟨hone, -⟩ := h.arrives _ (Redriven.start.again (leaves_run (fun n op => (hfree n op).stores) 0))
    ⟨card, hcard, of_decide_eq_true hstatus⟩ _ hfree
  have habsurd := hnone.symm.trans hone
  cases habsurd

/-- The verdict for this flow. -/
theorem decideFlow_never_reachesVendorOnce_task :
    ¬ ReachesVendorOnce asciiTables (tabulated taskDigests) 0 (fun _ _ => true) taskDeps taskFlow approveTask emptyFlowWorld := by
  apply decideFlow_never_reachesVendorOnce asciiTables (tabulated taskDigests) 0 (fun _ _ => true) taskDeps taskFlow approveTask rfl
  refine ⟨rfl, rfl, ?_, rfl, rfl, ?_⟩
  · intro object row h
    cases h
  · intro c hc
    cases hc

end task

end sow.workflows
