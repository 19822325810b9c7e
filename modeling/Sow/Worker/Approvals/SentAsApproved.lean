import Sow.Effect.Wp
import Sow.Knowledge.KnowledgeWriter.MemoryPorts
import Sow.Js.Case
import Sow.Worker.Approvals.ExternalDispatch

open sow.js sow.effect sow.contracts sow.db sow.domain sow.integrations
open sow.knowledge_writer (Sha256 KnownDigests tabulated digits_of_all)
open sow.tools (Cause ExternalWriteResult)

namespace sow.worker

/-- The outbox, the stored workspaces (whether each row is well-formed), and the calls of
    the gateway so far. -/
structure ApprovalDispatchWorld (Time : Type) where
  outbox : Outbox Time
  workspaces : Map JsString Bool
  dispatched : List (RoutedDispatch Time)

/-- What the environment decides at a call; a faulted update may have landed. -/
structure ApprovalDispatchChoice (Time : Type) where
  fault : Option DbError
  landed : Bool
  gateway : Except Cause (ExternalWriteResult Time)
  hook : Except Cause Unit
  time : Time

/-- The stores answer. -/
def Answers {Time : Type} (_ : ApprovalDispatchOp Time) (d : ApprovalDispatchChoice Time) : Prop := d.fault = none

section ports

variable {Time : Type}

/-- `workspaceConfig.get` -/
def readWorkspace (workspaces : Map JsString Bool) (workspaceId : JsString) : DbResult Unit :=
  match workspaces.get workspaceId with
  | none => .error (notFound (str "workspace " ++ workspaceId))
  | some true => .ok ()
  | some false => .error ⟨.stored_row_schema_violation, str "stored workspace row", none⟩

def approvalDispatchPorts :
    Handler (ApprovalDispatchOp Time) ApprovalDispatchOp.Ret Cause (ApprovalDispatchWorld Time) (ApprovalDispatchChoice Time) where
  exec w op d := match op with
    | .getWorkspace workspaceId => (.ok (d.fault.elim (readWorkspace w.workspaces workspaceId) .error), w)
    | .getEntry outboxId => (.ok (d.fault.elim (w.outbox.read outboxId) .error), w)
    | .updateEntry entry =>
      (.ok (d.fault.elim (w.outbox.update entry).1 .error),
        if d.fault.isNone || d.landed then { w with outbox := (w.outbox.update entry).2 } else w)
    | .dispatchRouted dispatch => (d.gateway, { w with dispatched := w.dispatched ++ [dispatch] })
    | .clock => (.ok d.time, w)
    | .onFailure _ => (d.hook, w)
    | .onSent _ => (d.hook, w)

end ports

/-- The keys that a card was made for: those of an object, and those of an operation on it. -/
structure Proposal where
  targetSystem : JsString
  canonicalIdentity : Identity
  operation : JsString
  idempotencyIdentity : Identity

section property

variable {Time : Type} (tables : CaseTables) (sha256 : Sha256) (deps : ExternalApprovalDispatchDeps Time)

def Proposal.canonicalObjectKey (proposal : Proposal) : JsString :=
  buildCanonicalObjectKey tables sha256 proposal.targetSystem proposal.canonicalIdentity

def Proposal.idempotencyKey (proposal : Proposal) : JsString :=
  buildIdempotencyKey tables sha256 proposal.operation proposal.idempotencyIdentity

/-- The card was made for the proposal, under the id that its replay key derives. -/
def Proposal.MadeCard (proposal : Proposal) (approval : Approval) : Prop :=
  approval.id = approvalIdFor tables sha256 (proposal.idempotencyKey tables sha256) approval.workspaceId

/-- What the gateway is given is what the card stands for. -/
structure AsApproved (approval : Approval) (proposal : Proposal) (workspaces : Map JsString Bool) (sent : RoutedDispatch Time) : Prop where
  external : approval.subjectKind = .external_action
  approved : approval.status = .approved
  onboarded : workspaces.get approval.workspaceId = some true
  scope : sent.workspaceId = approval.workspaceId
  actionId : approval.actionRef = some sent.env.actionId ∧ approval.actionRef = some sent.action.actionId
  payload : payloadHash sha256 sent.action.payload = approval.payloadHash ∧ sent.env.payloadHash = approval.payloadHash
  target : sent.env.targetSystem = proposal.targetSystem ∧ sent.action.targetSystem = proposal.targetSystem
  object : sent.env.canonicalObjectKey = proposal.canonicalObjectKey tables sha256 ∧
    sent.action.canonicalObjectKey = proposal.canonicalObjectKey tables sha256

/-- A card that will never be sent, with an open entry of its own. -/
structure Closable (approval : Approval) (outbox : Outbox Time) (entry : OutboxEntry Time) : Prop where
  external : approval.subjectKind = .external_action
  closing : isClosing approval = true
  saved : outbox.get (approvalOutboxId approval.id) = some entry
  own : isOwnEntry tables sha256 approval entry = true
  nonterminal : entry.status ∉ TERMINAL

/-- The entry of the card is closed, and nothing else is touched. -/
def Closes (approval : Approval) (outbox outbox' : Outbox Time) : Prop :=
  ∃ entry updatedAt, Closable tables sha256 approval outbox entry ∧
    outbox' = outbox.set { entry with status := str "rejected", updatedAt := updatedAt }

/-- The world after one call of `dispatchExternalApproval`. -/
def afterDispatch (approval : Approval) (outbox : Outbox Time) (workspaces : Map JsString Bool)
    (choose : Nat → ApprovalDispatchOp Time → ApprovalDispatchChoice Time) : ApprovalDispatchWorld Time :=
  (approvalDispatchPorts.run choose 0 (dispatchExternalApproval tables sha256 deps approval) ⟨outbox, workspaces, []⟩).2

/-- One call of `dispatchExternalApproval`: what reaches the gateway is what was approved. A call
    that does not reach it leaves the outbox unchanged, but for the entry of a closing card, which
    is closed if the store answers. -/
def SendsAsApproved (approval : Approval) (proposal : Proposal) (outbox : Outbox Time) (workspaces : Map JsString Bool) : Prop :=
  ∀ choose : Nat → ApprovalDispatchOp Time → ApprovalDispatchChoice Time,
    let w' := afterDispatch tables sha256 deps approval outbox workspaces choose
    (∀ sent ∈ w'.dispatched, AsApproved tables sha256 approval proposal workspaces sent) ∧
      (w'.dispatched = [] → w'.outbox = outbox ∨ Closes tables sha256 approval outbox w'.outbox) ∧
        ((∀ n op, Answers op (choose n op)) → (∃ entry, Closable tables sha256 approval outbox entry) →
          w'.dispatched = [] ∧ Closes tables sha256 approval outbox w'.outbox)

/-- The saved entry passes every check of the dispatch. -/
structure Dispatchable (approval : Approval) (outbox : Outbox Time) (workspaces : Map JsString Bool) (entry : OutboxEntry Time) : Prop where
  external : approval.subjectKind = .external_action
  approved : approval.status = .approved
  assigned : approval.workspaceId ≠ UNASSIGNED_WORKSPACE
  onboarded : workspaces.get approval.workspaceId = some true
  saved : outbox.get (approvalOutboxId approval.id) = some entry
  own : isOwnEntry tables sha256 approval entry = true
  hash : entry.payloadHash = approval.payloadHash
  payload : payloadApproved sha256 approval entry = true
  armed : deps.armedFor entry.targetSystem entry.workspaceId = true
  «open» : entry.status = str "proposed" ∨ entry.status = str "retry_queued"

end property

section checks

variable {Time : Type} {tables : CaseTables} {sha256 : Sha256} {deps : ExternalApprovalDispatchDeps Time} {approval : Approval}
  {entry : OutboxEntry Time}

theorem checkEntry_verified_iff {found : OutboxEntry Time} :
    checkEntry tables sha256 approval found = .verified entry ↔
      found = entry ∧ isOwnEntry tables sha256 approval entry = true ∧ entry.payloadHash = approval.payloadHash ∧
        payloadApproved sha256 approval entry = true := by
  unfold checkEntry isOwnEntry
  split
  · next hne =>
    refine iff_of_false (by simp) ?_
    rintro ⟨rfl, hown, -⟩
    simp [hne] at hown
  · next hws =>
    split
    · next hderives =>
      refine iff_of_false (by simp) ?_
      rintro ⟨rfl, hown, -⟩
      simp_all
    · next hderives =>
      split
      · next hhash => exact iff_of_false (by simp) (by rintro ⟨rfl, -, heq, -⟩; exact hhash heq)
      · next hhash =>
        split
        · next hpayload => exact iff_of_false (by simp) (by rintro ⟨rfl, -, -, heq⟩; simp [heq] at hpayload)
        · next hpayload =>
          rw [SavedActionCheck.verified.injEq]
          refine (and_iff_left_of_imp ?_).symm
          rintro rfl
          simp_all

/-- A write is attempted in the open entry of an armed system only. -/
theorem entrySendState_dispatchable_iff (happroved : approval.status = .approved) :
    entrySendState deps.armedFor approval entry ∈ DISPATCHABLE ↔
      deps.armedFor entry.targetSystem entry.workspaceId = true ∧
        (entry.status = str "proposed" ∨ entry.status = str "retry_queued") := by
  have hterminal : ∀ status ∈ TERMINAL, status ≠ str "proposed" ∧ status ≠ str "retry_queued" := by decide
  unfold entrySendState DISPATCHABLE
  rw [happroved]
  by_cases ht : entry.status ∈ TERMINAL
  · obtain ⟨hp, hq⟩ := hterminal _ ht
    refine iff_of_false ?_ (by simp [hp, hq])
    unfold TERMINAL at ht
    simp only [List.mem_cons, List.not_mem_nil, or_false] at ht
    obtain h | h | h := ht <;> simp [h] <;> decide
  · unfold TERMINAL at ht
    simp only [List.mem_cons, List.not_mem_nil, or_false, not_or] at ht
    obtain ⟨hr, hj, he⟩ := ht
    cases harmed : deps.armedFor entry.targetSystem entry.workspaceId
    · simp [hr, hj, he]
    · by_cases hp : entry.status = str "proposed"
      · simp [hp]; decide
      · by_cases hq : entry.status = str "retry_queued"
        · simp [hq]; decide
        · simp [hp, hq, hr, hj, he]

end checks

section run

variable {Time : Type} {tables : CaseTables} {sha256 : Sha256} {deps : ExternalApprovalDispatchDeps Time} {approval : Approval}
  {adm : ApprovalDispatchOp Time → ApprovalDispatchChoice Time → Prop} {w : ApprovalDispatchWorld Time}

/-- The one call of the gateway for a saved entry. -/
def sentFor (approval : Approval) (entry : OutboxEntry Time) : RoutedDispatch Time where
  env := rebuildSentEnvelope entry
  action := rebuildSentAction entry
  requiresApproval := true
  approvedKey := entry.idempotencyKey
  workspaceId := approval.workspaceId
  intentCreatedAt := entry.enqueuedAt

theorem reportFailure_wp {failure : Option ExternalApprovalFailure} :
    wp approvalDispatchPorts adm (reportFailure deps failure) (fun r w' => r = .ok () ∧ w' = w) w := by
  unfold reportFailure
  split
  · split
    · rw [wp_tryCatch, wp_perform]
      intro d _
      simp only [approvalDispatchPorts]
      cases d.hook with
      | ok _ => exact ⟨trivial, trivial⟩
      | error e => exact ⟨rfl, rfl⟩
    · exact ⟨rfl, rfl⟩
  · exact ⟨rfl, rfl⟩

theorem reportSent_wp {outcome : ExternalApprovalOutcome} :
    wp approvalDispatchPorts adm (reportSent deps approval outcome) (fun r w' => r = .ok () ∧ w' = w) w := by
  unfold reportSent
  split
  · rw [wp_tryCatch, wp_perform]
    intro d _
    simp only [approvalDispatchPorts]
    cases d.hook with
    | ok _ => exact ⟨trivial, trivial⟩
    | error e => exact ⟨rfl, rfl⟩
  · exact ⟨rfl, rfl⟩

/-- Reporting is not part of what the world sees. -/
theorem dispatchExternalApproval_wp {P : ApprovalDispatchWorld Time → Prop}
    (h : wp approvalDispatchPorts adm (decideAndSend tables sha256 deps approval) (fun _ w' => P w') w) :
    wp approvalDispatchPorts adm (dispatchExternalApproval tables sha256 deps approval) (fun _ w' => P w') w := by
  have hreport : ∀ outcome w', P w' → wp approvalDispatchPorts adm
      (do
        reportFailure deps (failureOf outcome approval.id)
        reportSent deps approval outcome
        return outcome) (fun _ w' => P w') w' := by
    intro outcome w' hw'
    rw [wp_bind]
    refine wp.mono reportFailure_wp ?_
    rintro _ _ ⟨rfl, rfl⟩
    dsimp only
    rw [wp_bind]
    refine wp.mono reportSent_wp ?_
    rintro _ _ ⟨rfl, rfl⟩
    exact hw'
  unfold dispatchExternalApproval
  rw [wp_bind, wp_tryCatch]
  refine wp.mono h fun r w' hw' => ?_
  cases r with
  | ok outcome => exact hreport outcome w' hw'
  | error e => exact hreport _ w' hw'

theorem sendEntry_wp {entry : OutboxEntry Time} :
    wp approvalDispatchPorts adm (sendEntry deps approval entry) (fun _ w' => w'.dispatched = w.dispatched ++ [sentFor approval entry]) w := by
  unfold sendEntry
  rw [wp_bind, wp_perform]
  intro d _
  simp only [approvalDispatchPorts]
  cases d.gateway with
  | error e => rfl
  | ok result =>
    refine wp_call fun d _ => ⟨d.time, _, rfl, wp_call fun d' _ => ⟨d'.time, _, rfl, wp_call fun d'' _ => ⟨_, _, rfl, ?_⟩⟩⟩
    rw [wp_pure]
    dsimp only
    split <;> rfl

theorem getWorkspace_wp {α : Type} {workspaceId : JsString} {f : DbResult Unit → ApprovalDispatchM Time α}
    {Q : Except Cause α → ApprovalDispatchWorld Time → Prop} (herror : ∀ e, wp approvalDispatchPorts adm (f (.error e)) Q w)
    (hok : w.workspaces.get workspaceId = some true → wp approvalDispatchPorts adm (f (.ok ())) Q w) :
    wp approvalDispatchPorts adm (.perform (.getWorkspace workspaceId) >>= f) Q w := by
  refine wp_call fun d _ => ⟨_, w, rfl, ?_⟩
  cases d.fault with
  | some e => exact herror e
  | none =>
    simp only [Option.elim_none, readWorkspace]
    cases hget : w.workspaces.get workspaceId with
    | none => exact herror _
    | some wellFormed =>
      cases wellFormed with
      | false => exact herror _
      | true => exact hok hget

theorem getEntry_wp {α : Type} {outboxId : JsString} {f : DbResult (OutboxEntry Time) → ApprovalDispatchM Time α}
    {Q : Except Cause α → ApprovalDispatchWorld Time → Prop}
    (herror : ∀ e, wp approvalDispatchPorts adm (f (.error e)) Q w)
    (hok : ∀ entry, w.outbox.get outboxId = some entry → wp approvalDispatchPorts adm (f (.ok entry)) Q w) :
    wp approvalDispatchPorts adm (.perform (.getEntry outboxId) >>= f) Q w := by
  refine wp_call fun d _ => ⟨_, w, rfl, ?_⟩
  cases d.fault with
  | some e => exact herror e
  | none =>
    simp only [Option.elim_none, Outbox.read]
    cases hget : w.outbox.get outboxId with
    | none => exact herror _
    | some entry => exact hok entry hget

/-- Closing a saved entry is an update that the store takes as it is. -/
theorem update_closed {outbox : Outbox Time} {outboxId : JsString} {entry : OutboxEntry Time} {updatedAt : Time}
    (hsaved : outbox.get outboxId = some entry) :
    outbox.update { entry with status := str "rejected", updatedAt := updatedAt } =
      (.ok { entry with status := str "rejected", updatedAt := updatedAt },
        outbox.set { entry with status := str "rejected", updatedAt := updatedAt }) := by
  unfold Outbox.update
  dsimp only
  rw [outbox.keyed _ _ hsaved, hsaved]

/-- Closing a card reaches no adapter, and touches its own entry only. -/
theorem closeSavedEntry_wp (hexternal : approval.subjectKind = .external_action) (hclosing : isClosing approval = true) :
    wp approvalDispatchPorts adm (closeSavedEntry tables sha256 approval)
      (fun _ w' => w'.dispatched = w.dispatched ∧ (w'.outbox = w.outbox ∨ Closes tables sha256 approval w.outbox w'.outbox)) w := by
  unfold closeSavedEntry
  refine getEntry_wp (fun e => ⟨rfl, .inl rfl⟩) fun entry hsaved => ?_
  dsimp only
  split
  · exact ⟨rfl, .inl rfl⟩
  · next hown =>
    split
    · next hopen =>
      refine wp_call fun d _ => ⟨d.time, w, rfl, wp_call fun d' _ => ⟨_, _, rfl, ?_⟩⟩
      rw [wp_pure, update_closed hsaved]
      split
      · refine ⟨rfl, .inr ⟨entry, d.time, ⟨hexternal, hclosing, hsaved, ?_, hopen⟩, rfl⟩⟩
        simpa using hown
      · exact ⟨rfl, .inl rfl⟩
    · exact ⟨rfl, .inl rfl⟩

/-- A card that is verified has a stored workspace, and a saved entry that passes the checks. -/
theorem checkSavedAction_wp {Q : Except Cause (SavedActionCheck Time) → ApprovalDispatchWorld Time → Prop}
    (hother : ∀ check, (∀ entry, check ≠ .verified entry) → Q (.ok check) w)
    (hverified : ∀ entry, approval.workspaceId ≠ UNASSIGNED_WORKSPACE → w.workspaces.get approval.workspaceId = some true →
      w.outbox.get (approvalOutboxId approval.id) = some entry → checkEntry tables sha256 approval entry = .verified entry →
        Q (.ok (.verified entry)) w) :
    wp approvalDispatchPorts adm (checkSavedAction tables sha256 approval) Q w := by
  unfold checkSavedAction
  split
  · exact hother _ (by simp)
  · next hassigned =>
    refine getWorkspace_wp (fun e => ?_) fun honboarded => getEntry_wp (fun e => ?_) fun entry hsaved => ?_
    · refine hother _ fun entry => ?_
      split <;> simp
    · refine hother _ fun entry => ?_
      split <;> simp
    · dsimp only
      rw [wp_pure]
      cases hcheck : checkEntry tables sha256 approval entry with
      | verified found =>
        obtain ⟨rfl, -⟩ := checkEntry_verified_iff.mp hcheck
        exact hverified entry hassigned honboarded hsaved hcheck
      | refused reason => exact hother _ (by simp)
      | no_saved_action => exact hother _ (by simp)
      | store_fault => exact hother _ (by simp)

/-- The gateway is reached for a dispatchable entry only; otherwise the entry is left alone, or closed. -/
theorem decideAndSend_wp :
    wp approvalDispatchPorts adm (decideAndSend tables sha256 deps approval)
      (fun _ w' => (w'.dispatched = w.dispatched ∧ (w'.outbox = w.outbox ∨ Closes tables sha256 approval w.outbox w'.outbox)) ∨
        ∃ entry, Dispatchable tables sha256 deps approval w.outbox w.workspaces entry ∧
          w'.dispatched = w.dispatched ++ [sentFor approval entry]) w := by
  unfold decideAndSend
  split
  · exact .inl ⟨rfl, .inl rfl⟩
  · next hsemantic =>
    have hexternal : approval.subjectKind = .external_action := by cases h : approval.subjectKind <;> simp_all
    split
    · next hclosing => exact wp.mono (closeSavedEntry_wp hexternal hclosing) fun _ _ h => .inl h
    · split
      · exact .inl ⟨rfl, .inl rfl⟩
      · next happroved =>
        rw [wp_bind]
        refine checkSavedAction_wp (fun check hcheck => ?_) fun entry hassigned honboarded hsaved hcheck => ?_
        · dsimp only
          split
          · exact .inl ⟨rfl, .inl rfl⟩
          · split
            · exact .inl ⟨rfl, .inl rfl⟩
            · cases check with
              | verified entry => exact absurd rfl (hcheck entry)
              | refused reason => exact .inl ⟨rfl, .inl rfl⟩
              | no_saved_action => exact .inl ⟨rfl, .inl rfl⟩
              | store_fault => exact .inl ⟨rfl, .inl rfl⟩
        · simp only [sendStateOf]
          split
          · exact .inl ⟨rfl, .inl rfl⟩
          · next hstate =>
            have happroved : approval.status = .approved := not_not.mp happroved
            obtain ⟨-, hown, hhash, hpayload⟩ := checkEntry_verified_iff.mp hcheck
            obtain ⟨harmed, hopen⟩ := (entrySendState_dispatchable_iff happroved).mp (not_not.mp hstate)
            refine wp.mono sendEntry_wp fun _ w' hsent => .inr ⟨entry, ?_, hsent⟩
            exact ⟨hexternal, happroved, hassigned, honboarded, hsaved, hown, hhash, hpayload, harmed, hopen⟩

/-- When the stores answer, a dispatchable entry is sent. -/
theorem decideAndSend_dispatches {entry : OutboxEntry Time}
    (h : Dispatchable tables sha256 deps approval w.outbox w.workspaces entry) :
    wp approvalDispatchPorts Answers (decideAndSend tables sha256 deps approval)
      (fun _ w' => w'.dispatched = w.dispatched ++ [sentFor approval entry]) w := by
  have hcheck : checkEntry tables sha256 approval entry = .verified entry :=
    checkEntry_verified_iff.mpr ⟨rfl, h.own, h.hash, h.payload⟩
  have hstate : entrySendState deps.armedFor approval entry ∈ DISPATCHABLE :=
    (entrySendState_dispatchable_iff h.approved).mpr ⟨h.armed, h.open⟩
  have hclosing : isClosing approval = false := by simp [isClosing, h.approved]
  unfold decideAndSend
  rw [if_neg (by rw [h.external]; decide), hclosing, if_neg Bool.false_ne_true, if_neg (not_not.mpr h.approved), wp_bind]
  unfold checkSavedAction
  rw [if_neg h.assigned]
  refine wp_call fun d hd => ⟨.ok (), w, ?_, wp_call fun d' hd' => ⟨.ok entry, w, ?_, ?_⟩⟩
  · simp [approvalDispatchPorts, readWorkspace, h.onboarded, show d.fault = none from hd]
  · simp [approvalDispatchPorts, Outbox.read, h.saved, show d'.fault = none from hd']
  · simp only [wp_pure, hcheck, sendStateOf]
    rw [if_neg (not_not.mpr hstate)]
    exact sendEntry_wp

/-- When the store answers, the open entry of a closing card is closed. -/
theorem decideAndSend_closes {entry : OutboxEntry Time} (h : Closable tables sha256 approval w.outbox entry) :
    wp approvalDispatchPorts Answers (decideAndSend tables sha256 deps approval)
      (fun _ w' => w'.dispatched = w.dispatched ∧ Closes tables sha256 approval w.outbox w'.outbox) w := by
  unfold decideAndSend
  rw [if_neg (by rw [h.external]; decide), if_pos h.closing]
  unfold closeSavedEntry
  refine wp_call fun d hd => ⟨.ok entry, w, ?_, ?_⟩
  · simp [approvalDispatchPorts, Outbox.read, h.saved, show d.fault = none from hd]
  · dsimp only
    rw [h.own, if_neg (by decide), if_pos h.nonterminal]
    refine wp_call fun d' _ => ⟨d'.time, w, rfl, wp_call fun d'' hd'' => ⟨_, _, rfl, ?_⟩⟩
    rw [wp_pure, update_closed h.saved, show d''.fault = none from hd'']
    exact ⟨rfl, entry, d'.time, h, rfl⟩

end run

section verdict

variable {Time : Type} {tables : CaseTables} {sha256 : Sha256} {deps : ExternalApprovalDispatchDeps Time} {approval : Approval}
  {proposal : Proposal} {outbox : Outbox Time} {workspaces : Map JsString Bool} {entry : OutboxEntry Time}

/-- The checks leave the action, the system and the object to the entry. -/
theorem Dispatchable.asApproved_iff (h : Dispatchable tables sha256 deps approval outbox workspaces entry) :
    AsApproved tables sha256 approval proposal workspaces (sentFor approval entry) ↔
      approval.actionRef = some entry.actionRef ∧ entry.targetSystem = proposal.targetSystem ∧
        entry.canonicalObjectKey = proposal.canonicalObjectKey tables sha256 := by
  constructor
  · intro hsent
    exact ⟨hsent.actionId.1, hsent.target.1, hsent.object.1⟩
  · rintro ⟨haction, htarget, hobject⟩
    refine ⟨h.external, h.approved, h.onboarded, rfl, ⟨haction, haction⟩, ⟨?_, h.hash⟩, ⟨htarget, htarget⟩, ⟨hobject, hobject⟩⟩
    have hpayload := h.payload
    unfold payloadApproved at hpayload
    change payloadHash sha256 (payloadOrEmpty entry.payload) = approval.payloadHash
    cases hp : entry.payload with
    | none => simp [hp] at hpayload
    | some payload =>
      rw [hp, Option.any_some, Bool.and_eq_true, decide_eq_true_eq] at hpayload
      obtain ⟨hobject, hhash⟩ := hpayload
      cases payload with
      | arr items => exact hhash
      | obj fields => exact hhash
      | null => cases hobject
      | bool b => cases hobject
      | num text => cases hobject
      | str s => cases hobject

/-- When the stores answer, a dispatchable entry reaches the gateway. -/
theorem SendsAsApproved.sent (h : SendsAsApproved tables sha256 deps approval proposal outbox workspaces)
    (hentry : Dispatchable tables sha256 deps approval outbox workspaces entry) :
    AsApproved tables sha256 approval proposal workspaces (sentFor approval entry) := by
  let choose : Nat → ApprovalDispatchOp Time → ApprovalDispatchChoice Time :=
    fun _ _ => ⟨none, false, .ok .approval_pending, .ok (), entry.enqueuedAt⟩
  have hanswers : ∀ n op, Answers op (choose n op) := fun _ _ => rfl
  have hrun : (afterDispatch tables sha256 deps approval outbox workspaces choose).dispatched = [] ++ [sentFor approval entry] :=
    wp.run (dispatchExternalApproval_wp (decideAndSend_dispatches hentry)) hanswers 0
  refine (h choose).1 _ ?_
  rw [hrun]
  exact List.mem_singleton_self _

theorem afterDispatch_cases (choose : Nat → ApprovalDispatchOp Time → ApprovalDispatchChoice Time) :
    ((afterDispatch tables sha256 deps approval outbox workspaces choose).dispatched = [] ∧
        ((afterDispatch tables sha256 deps approval outbox workspaces choose).outbox = outbox ∨
          Closes tables sha256 approval outbox (afterDispatch tables sha256 deps approval outbox workspaces choose).outbox)) ∨
      ∃ entry, Dispatchable tables sha256 deps approval outbox workspaces entry ∧
        (afterDispatch tables sha256 deps approval outbox workspaces choose).dispatched = [sentFor approval entry] := by
  have hdecide : wp approvalDispatchPorts (fun _ _ => True) (decideAndSend tables sha256 deps approval) _ ⟨outbox, workspaces, []⟩ :=
    decideAndSend_wp
  exact wp.run (dispatchExternalApproval_wp hdecide) (fun _ _ => trivial) 0

end verdict

/-- What is sent is what was approved, exactly if every entry that passes the checks names the
    action, the system and the object of its card. -/
theorem dispatchExternalApproval_sendsAsApproved_iff {Time : Type} (tables : CaseTables) (sha256 : Sha256)
    (deps : ExternalApprovalDispatchDeps Time) (approval : Approval) (proposal : Proposal) (outbox : Outbox Time)
    (workspaces : Map JsString Bool) :
    SendsAsApproved tables sha256 deps approval proposal outbox workspaces ↔
      ∀ entry, Dispatchable tables sha256 deps approval outbox workspaces entry →
        approval.actionRef = some entry.actionRef ∧ entry.targetSystem = proposal.targetSystem ∧
          entry.canonicalObjectKey = proposal.canonicalObjectKey tables sha256 := by
  constructor
  · intro h entry hentry
    exact hentry.asApproved_iff.mp (h.sent hentry)
  · intro h choose
    refine ⟨fun sent hsent => ?_, fun hnothing => ?_, fun hanswers hclosable => ?_⟩
    · obtain ⟨hkept, -⟩ | ⟨entry, hentry, hdispatched⟩ := afterDispatch_cases choose
      · rw [hkept] at hsent
        cases hsent
      · rw [hdispatched, List.mem_singleton] at hsent
        exact hsent ▸ hentry.asApproved_iff.mpr (h entry hentry)
    · obtain ⟨-, houtbox⟩ | ⟨entry, -, hdispatched⟩ := afterDispatch_cases choose
      · exact houtbox
      · rw [hdispatched] at hnothing
        cases hnothing
    · obtain ⟨entry, hentry⟩ := hclosable
      exact wp.run (dispatchExternalApproval_wp (decideAndSend_closes hentry)) hanswers 0

section changed

/-- A card for an issue in one system, and the entry saved with it. -/
def issueProposal : Proposal where
  targetSystem := str "linear"
  canonicalIdentity := [(str "title", str "ship")]
  operation := str "create_issue"
  idempotencyIdentity := [(str "title", str "ship")]

/-- The digests of the keys of the proposal, of the id of its card, and of an empty payload. -/
def issueDigests : KnownDigests where
  entries :=
    [(utf8 (str "[\"sow.cok.v1\",\"linear\",[[\"title\",\"ship\"]]]"),
        str "bef19dae22ef205cc7823b2b1da2fcecadc3169abfdd3a413c36fc1f75dbf870"),
      (utf8 (str "[\"sow.idem.v1\",\"create_issue\",[[\"title\",\"ship\"]]]"),
        str "da443aa91ed484f14abdadb5277eac041f407e72004ad16fe6fe2f17d5f5a866"),
      (utf8 (str "[\"sow.idem.v1\",\"approval.pending\",[[\"idempotencykey\",\"idem_da443aa91ed484f14abdadb5277eac041f407e72004ad16fe6fe2f17d5f5a866\"],[\"workspace\",\"work\"]]]"),
        str "437e6aeb71f7bf256824d16d25af11ceb6dc482af4d6e04d62f9493c1e14d7f6"),
      (utf8 (str "\x7b\x7d"), str "44136fa355b3678a1146ad16f7e8649e94fb4fc21fe77e8310c060f61caaff8a")]
  distinct := by decide +kernel
  digits := digits_of_all (by decide +kernel)

def issueSha256 : Sha256 := tabulated issueDigests

def issueCard : Approval where
  id := approvalIdFor asciiTables issueSha256 (issueProposal.idempotencyKey asciiTables issueSha256) (str "work")
  actionRef := some (issueProposal.idempotencyKey asciiTables issueSha256)
  planRef := none
  subjectKind := .external_action
  workspaceId := str "work"
  status := .approved
  actor := str "owner"
  channel := .mac
  payloadHash := payloadHash issueSha256 (.obj [])
  snoozeUntil := none
  expiresAt := none

/-- The entry of the card, whose system was changed out of band. -/
def changedEntry : OutboxEntry Nat where
  outboxId := approvalOutboxId issueCard.id
  actionRef := issueProposal.idempotencyKey asciiTables issueSha256
  workspaceId := str "work"
  targetSystem := str "todoist"
  canonicalObjectKey := issueProposal.canonicalObjectKey asciiTables issueSha256
  idempotencyKey := issueProposal.idempotencyKey asciiTables issueSha256
  payloadHash := payloadHash issueSha256 (.obj [])
  approvalPolicy := none
  status := str "proposed"
  payload := some (.obj [])
  writeReceipt := none
  attempts := 0
  enqueuedAt := 1
  nextAttemptAt := none
  updatedAt := 1

def changedOutbox : Outbox Nat := (Outbox.mk .empty fun _ _ h => by cases h).set changedEntry

def armedDeps : ExternalApprovalDispatchDeps Nat := ⟨fun _ _ => true, none, true, true, fun t ms => t + ms⟩

/-- The changed entry passes every check, and its write goes to the system that no one approved. -/
theorem changedEntry_not_sendsAsApproved :
    issueProposal.MadeCard asciiTables issueSha256 issueCard ∧
      ¬ SendsAsApproved asciiTables issueSha256 armedDeps issueCard issueProposal changedOutbox (Map.empty.set (str "work") true) := by
  refine ⟨rfl, fun h => ?_⟩
  have hid : approvalIdFor asciiTables issueSha256 changedEntry.idempotencyKey changedEntry.workspaceId = issueCard.id := rfl
  have hpayload : payloadHash issueSha256 (.obj []) = issueCard.payloadHash := rfl
  have hentry : Dispatchable asciiTables issueSha256 armedDeps issueCard changedOutbox (Map.empty.set (str "work") true) changedEntry := by
    refine ⟨rfl, rfl, by decide, by decide, ?_, ?_, rfl, ?_, rfl, .inl rfl⟩
    · exact Outbox.get_set_self _ changedEntry
    · unfold isOwnEntry derivesCard
      rw [hid]
      simp [changedEntry, issueCard]
    · unfold payloadApproved changedEntry
      simp [hpayload, isJsonObject]
  exact absurd (h.sent hentry).target.1 (by decide)

end changed

end sow.worker
