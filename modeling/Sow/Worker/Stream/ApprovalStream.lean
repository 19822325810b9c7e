import Sow.Domain.State.Machines
import Sow.Worker.Stream.EventClasses

open sow.js sow.contracts sow.domain

namespace sow.stream

/-- What the renderer may see of an approval. -/
structure UiSafeApproval where
  id : JsString
  subjectKind : ApprovalSubjectKind
  status : ApprovalStatus
  channel : Channel
  workspaceId : JsString
  actionRef : Option JsString
  snoozeUntil : Option JsString
  expiresAt : Option JsString
  deriving DecidableEq

/-- The publisher's projector names no target system. -/
def toUiSafeApproval (approval : Approval) : UiSafeApproval where
  id := approval.id
  subjectKind := approval.subjectKind
  status := approval.status
  channel := approval.channel
  workspaceId := approval.workspaceId
  actionRef := approval.actionRef
  snoozeUntil := approval.snoozeUntil
  expiresAt := approval.expiresAt

/-- `UiSafeApprovalSchema` accepts the card; `datetime` is the check of an ISO time. -/
def isUiSafeApproval (datetime : JsString → Bool) (card : UiSafeApproval) : Bool :=
  0 < card.id.length && card.actionRef.all (0 < ·.length) && card.snoozeUntil.all datetime && card.expiresAt.all datetime &&
    0 < card.workspaceId.length

/-- The payload of an approval event, or that of another class. -/
inductive UiSafePayload (Other : Type) where
  | approval (card : UiSafeApproval)
  | other (payload : Other)
  deriving DecidableEq

/-- The projectors of the other three classes, and their branches of the event schema. -/
structure OtherProjectors (Ref Item Card Other : Type) where
  workflowRunRef : Ref → Other
  healthItem : Item → Other
  dashboardCard : Card → Other
  safeParse : StreamEvent Other → Bool

/-- A publish of another class. -/
inductive OtherChange (Ref Item Card : Type) where
  | workflowStatus (ref : Ref)
  | health (item : Item)
  | readModel (card : Card)

section feed

variable {Ref Item Card Other : Type} (datetime : JsString → Bool) (others : OtherProjectors Ref Item Card Other)

def uiSafeProjectors : Projectors Ref Item Card (UiSafePayload Other) where
  workflowRunRef ref := .other (others.workflowRunRef ref)
  approval approval := .approval (toUiSafeApproval approval)
  healthItem item := .other (others.healthItem item)
  dashboardCard card := .other (others.dashboardCard card)
  safeParse ev := match ev.payload with
    | .approval card => decide (ev.name = .approval_update) && isUiSafeApproval datetime card
    | .other payload => others.safeParse ⟨ev.name, ev.seq, ev.eventId, payload⟩

/-- The record passes the publish gate. -/
def Passes (approval : Approval) : Prop := isUiSafeApproval datetime (toUiSafeApproval approval) = true

instance (approval : Approval) : Decidable (Passes datetime approval) := inferInstanceAs (Decidable (_ = true))

/-- What happens to the approvals and to the stream. -/
inductive Act (Ref Item Card : Type) where
  /-- The store takes the record of a transition. -/
  | transition (next : Approval)
  /-- The calls of `publishApproval` for the last transition: one, and the re-drives. -/
  | drive (approvalId : JsString) (redrives : Nat)
  | other (change : OtherChange Ref Item Card)

/-- The stored approvals, and those whose last transition has not been published yet. -/
structure Ledger where
  store : Map JsString Approval
  due : List JsString

/-- A transition that is no edge of the machine changes nothing, and neither does one
    before the calls for the last one. -/
def Ledger.step (l : Ledger) : Act Ref Item Card → Ledger
  | .transition next =>
    match l.store.get next.id with
    | some cur =>
      if next.id ∉ l.due ∧ approvalMachine.canTransition cur.status next.status = true then ⟨l.store.set next.id next, next.id :: l.due⟩ else l
    | none => l
  | .drive approvalId _ => ⟨l.store, l.due.erase approvalId⟩
  | .other _ => l

/-- The record that an act publishes. -/
def Ledger.driven (l : Ledger) : Act Ref Item Card → Option Approval
  | .drive approvalId _ => if approvalId ∈ l.due then l.store.get approvalId else none
  | _ => none

/-- The records that a history publishes, each once for its transition. -/
def Ledger.drives (l : Ledger) : List (Act Ref Item Card) → List Approval
  | [] => []
  | act :: history => (l.driven act).toList ++ (l.step act).drives history

/-- The ledger of a set of approvals. -/
def ledgerOf (approvals : List Approval) : Ledger := ⟨.ofList (approvals.map fun a => (a.id, a)), []⟩

/-- A publisher over a ledger, with every event it has emitted. -/
structure Feed (Other : Type) where
  ledger : Ledger
  publisher : StreamPublisher (UiSafePayload Other)
  emitted : List (StreamEvent (UiSafePayload Other))

/-- The feed after a publish. -/
def Feed.emit (s : Feed Other) (r : Option (StreamEvent (UiSafePayload Other)) × StreamPublisher (UiSafePayload Other)) : Feed Other :=
  { s with publisher := r.2, emitted := s.emitted ++ r.1.toList }

/-- `calls` calls of `publishApproval` with one record. -/
def Feed.call (s : Feed Other) (approval : Approval) : Nat → Feed Other
  | 0 => s
  | calls + 1 => (s.emit (publishApproval (uiSafeProjectors datetime others) s.publisher approval)).call approval calls

def publishOther (p : StreamPublisher (UiSafePayload Other)) :
    OtherChange Ref Item Card → Option (StreamEvent (UiSafePayload Other)) × StreamPublisher (UiSafePayload Other)
  | .workflowStatus ref => publishWorkflowStatus (uiSafeProjectors datetime others) p ref
  | .health item => publishHealth (uiSafeProjectors datetime others) p item
  | .readModel card => publishReadModelChange (uiSafeProjectors datetime others) p card

def Feed.step (s : Feed Other) (act : Act Ref Item Card) : Feed Other :=
  let published := match act, s.ledger.driven act with
    | .drive _ redrives, some approval => s.call datetime others approval (redrives + 1)
    | .other change, _ => s.emit (publishOther datetime others s.publisher change)
    | _, _ => s
  { published with ledger := s.ledger.step act }

def Feed.run (s : Feed Other) (history : List (Act Ref Item Card)) : Feed Other := history.foldl (Feed.step datetime others) s

def createFeed (replayWindow : Option Nat) (approvals : List Approval) : Feed Other :=
  ⟨ledgerOf approvals, createStreamPublisher replayWindow, []⟩

/-- The approval and the status that an event tells. -/
def approvalUpdate (ev : StreamEvent (UiSafePayload Other)) : Option (JsString × ApprovalStatus) :=
  match ev.payload with
  | .approval card => if ev.name = .approval_update then some (card.id, card.status) else none
  | .other _ => none

/-- The status that the last event of an approval tells. -/
def latestStatus (emitted : List (StreamEvent (UiSafePayload Other))) (approvalId : JsString) : Option ApprovalStatus :=
  ((emitted.filterMap approvalUpdate).reverse.find? fun u => decide (u.1 = approvalId)).map Prod.snd

/-- After the calls for a transition whose record passes the gate, the last event of the
    approval tells its status, and the calls have emitted one event. -/
def TellsStatus (s : Feed Other) (act : Act Ref Item Card) : Prop :=
  ∀ approval, s.ledger.driven act = some approval → Passes datetime approval →
    latestStatus (s.step datetime others act).emitted approval.id = some approval.status ∧
      (s.step datetime others act).emitted.length = s.emitted.length + 1

/-- The approval and the status of each record that passes the gate. -/
def passed (records : List Approval) : List (JsString × ApprovalStatus) :=
  (records.filter fun a => decide (Passes datetime a)).map fun a => (a.id, a.status)

/-- No approval is published again with a status that it was published with before. -/
def NoReturn (approvals : List Approval) (history : List (Act Ref Item Card)) : Prop :=
  (passed datetime ((ledgerOf approvals).drives history)).Nodup

end feed

section identity

/-- The identity under which a transition is remembered. -/
def transitionIdentity (approvalId : JsString) (status : ApprovalStatus) : JsString := approvalId ++ str ":" ++ status.text

theorem status_text_colon (status : ApprovalStatus) : unit ':' ∉ status.text := by
  cases status <;> decide

theorem status_text_injective : Function.Injective ApprovalStatus.text := by
  intro s t h
  revert h
  cases s <;> cases t <;> decide

/-- Two transitions with one identity are of one approval to one status. -/
theorem transitionIdentity_inj {a b : JsString} {s t : ApprovalStatus} (h : transitionIdentity a s = transitionIdentity b t) : a = b ∧ s = t := by
  have hcolon : str ":" = [unit ':'] := rfl
  simp only [transitionIdentity, hcolon, List.append_assoc, List.singleton_append] at h
  obtain ⟨hid, hstatus⟩ := lastField_inj (status_text_colon s) (status_text_colon t) h
  exact ⟨hid, status_text_injective hstatus⟩

end identity

section spec

variable {Ref Item Card Other : Type} {datetime : JsString → Bool} {others : OtherProjectors Ref Item Card Other}

/-- The event that a call emits. -/
def approvalEvent (seq : Nat) (approval : Approval) : StreamEvent (UiSafePayload Other) :=
  ⟨.approval_update, seq, decimal seq, .approval (toUiSafeApproval approval)⟩

theorem safeParse_approvalEvent (seq : Nat) (approval : Approval) :
    (uiSafeProjectors datetime others).safeParse (approvalEvent seq approval) = isUiSafeApproval datetime (toUiSafeApproval approval) := by
  simp [uiSafeProjectors, approvalEvent]

/-- A call emits an event where the record passes the gate and its transition has not been seen. -/
theorem publishApproval_fresh {p : StreamPublisher (UiSafePayload Other)} {approval : Approval} (hpass : Passes datetime approval)
    (hfresh : transitionIdentity approval.id approval.status ∉ p.seenApprovalTransitions) :
    (publishApproval (uiSafeProjectors datetime others) p approval).1 = some (approvalEvent p.seq approval) ∧
      (publishApproval (uiSafeProjectors datetime others) p approval).2.seenApprovalTransitions =
        p.seenApprovalTransitions ++ [transitionIdentity approval.id approval.status] := by
  unfold transitionIdentity at hfresh ⊢
  have hgate := @safeParse_approvalEvent Ref Item Card Other datetime others p.seq approval
  rw [hpass] at hgate
  have hmake : make (uiSafeProjectors datetime others) p (fun s eventId =>
      ⟨.approval_update, s, eventId, (uiSafeProjectors datetime others).approval approval⟩) =
      (some (approvalEvent p.seq approval), record { p with seq := p.seq + 1 } (approvalEvent p.seq approval)) := by
    unfold make
    apply if_neg
    rw [Bool.not_eq_false]
    exact hgate
  unfold publishApproval
  simp only [if_neg hfresh, hmake]
  exact ⟨trivial, rfl⟩

/-- Any other call leaves the publisher as it is. -/
theorem publishApproval_dropped {p : StreamPublisher (UiSafePayload Other)} {approval : Approval}
    (h : Passes datetime approval → transitionIdentity approval.id approval.status ∈ p.seenApprovalTransitions) :
    publishApproval (uiSafeProjectors datetime others) p approval = (none, p) := by
  unfold transitionIdentity at h
  unfold publishApproval
  by_cases hpass : Passes datetime approval
  · simp only [if_pos (h hpass)]
  · have hgate := @safeParse_approvalEvent Ref Item Card Other datetime others p.seq approval
    have hmake : make (uiSafeProjectors datetime others) p (fun s eventId =>
        ⟨.approval_update, s, eventId, (uiSafeProjectors datetime others).approval approval⟩) = (none, p) := by
      unfold make
      apply if_pos
      rw [Bool.eq_false_iff.mpr hpass] at hgate
      exact hgate
    simp only [hmake]
    split <;> rfl

theorem emit_none (s : Feed Other) : s.emit (none, s.publisher) = s := by
  simp [Feed.emit]

theorem call_dropped {s : Feed Other} {approval : Approval}
    (h : Passes datetime approval → transitionIdentity approval.id approval.status ∈ s.publisher.seenApprovalTransitions) (calls : Nat) :
    s.call datetime others approval calls = s := by
  induction calls with
  | zero => rfl
  | succ calls ih => rw [Feed.call, publishApproval_dropped h, emit_none, ih]

/-- Of the calls for a fresh transition the first emits its event, and the others nothing. -/
theorem call_fresh {s : Feed Other} {approval : Approval} (hpass : Passes datetime approval)
    (hfresh : transitionIdentity approval.id approval.status ∉ s.publisher.seenApprovalTransitions) (redrives : Nat) :
    (s.call datetime others approval (redrives + 1)).emitted = s.emitted ++ [approvalEvent s.publisher.seq approval] ∧
      (s.call datetime others approval (redrives + 1)).publisher.seenApprovalTransitions =
        s.publisher.seenApprovalTransitions ++ [transitionIdentity approval.id approval.status] := by
  obtain ⟨hevent, hseen⟩ := @publishApproval_fresh Ref Item Card Other datetime others _ _ hpass hfresh
  rw [Feed.call, call_dropped]
  · refine ⟨?_, hseen⟩
    rw [Feed.emit, hevent]
    rfl
  · intro _
    rw [Feed.emit, hseen]
    exact List.mem_append_right _ (List.mem_singleton_self _)

theorem latestStatus_concat (emitted : List (StreamEvent (UiSafePayload Other))) (seq : Nat) (approval : Approval) :
    latestStatus (emitted ++ [approvalEvent seq approval]) approval.id = some approval.status := by
  have hupdate : approvalUpdate (approvalEvent seq approval : StreamEvent (UiSafePayload Other)) = some (approval.id, approval.status) := rfl
  unfold latestStatus
  rw [List.filterMap_append, List.filterMap_cons_some hupdate, List.filterMap_nil, List.reverse_append]
  simp

/-- Publishing another class remembers no transition. -/
theorem publishOther_seen (p : StreamPublisher (UiSafePayload Other)) (change : OtherChange Ref Item Card) :
    (publishOther datetime others p change).2.seenApprovalTransitions = p.seenApprovalTransitions := by
  have hmake : ∀ build, (make (uiSafeProjectors datetime others) p build).2.seenApprovalTransitions = p.seenApprovalTransitions := by
    intro build
    unfold make
    dsimp only
    split <;> rfl
  cases change with
  | workflowStatus ref => exact hmake _
  | health item => exact hmake _
  | readModel card => exact hmake _

theorem passed_cons_of_pass {approval : Approval} (h : Passes datetime approval) (records : List Approval) :
    passed datetime (approval :: records) = (approval.id, approval.status) :: passed datetime records := by
  unfold passed
  rw [List.filter_cons_of_pos (by simpa using h), List.map_cons]

theorem passed_cons_of_not {approval : Approval} (h : ¬ Passes datetime approval) (records : List Approval) :
    passed datetime (approval :: records) = passed datetime records := by
  unfold passed
  rw [List.filter_cons_of_neg (by simpa using h)]

theorem passed_append (l l' : List Approval) : passed datetime (l ++ l') = passed datetime l ++ passed datetime l' := by
  unfold passed
  rw [List.filter_append, List.map_append]

/-- The publisher remembers the transitions of the records that passed, and no others. -/
def Remembers (s : Feed Other) (past : List (JsString × ApprovalStatus)) : Prop :=
  ∀ approvalId status, transitionIdentity approvalId status ∈ s.publisher.seenApprovalTransitions ↔ (approvalId, status) ∈ past

variable {s : Feed Other} {past : List (JsString × ApprovalStatus)}

/-- An act that publishes no record tells nothing and is not remembered. -/
theorem step_undriven {act : Act Ref Item Card} (h : s.ledger.driven act = none) (hs : Remembers s past) :
    TellsStatus datetime others s act ∧ Remembers (s.step datetime others act) past := by
  refine ⟨fun approval happroval => absurd (h.symm.trans happroval) (by simp), ?_⟩
  have hseen : (s.step datetime others act).publisher.seenApprovalTransitions = s.publisher.seenApprovalTransitions := by
    unfold Feed.step
    rw [h]
    cases act with
    | transition next => rfl
    | drive approvalId redrives => rfl
    | other change => exact publishOther_seen _ change
  intro approvalId status
  rw [hseen]
  exact hs approvalId status

theorem exists_redrives {act : Act Ref Item Card} {approval : Approval} (h : s.ledger.driven act = some approval) :
    ∃ redrives, (s.step datetime others act).publisher = (s.call datetime others approval (redrives + 1)).publisher ∧
      (s.step datetime others act).emitted = (s.call datetime others approval (redrives + 1)).emitted := by
  unfold Feed.step
  rw [h]
  cases act with
  | transition next => cases h
  | drive approvalId redrives => exact ⟨redrives, rfl, rfl⟩
  | other change => cases h

/-- The calls with a record tell its status where the transition is new, and then it is remembered. -/
theorem step_driven {act : Act Ref Item Card} {approval : Approval} (h : s.ledger.driven act = some approval) (hs : Remembers s past) :
    (TellsStatus datetime others s act ↔ (Passes datetime approval → (approval.id, approval.status) ∉ past)) ∧
      ((Passes datetime approval → (approval.id, approval.status) ∉ past) →
        Remembers (s.step datetime others act) (past ++ passed datetime [approval])) := by
  obtain ⟨redrives, hpublisher, hemitted⟩ := @exists_redrives Ref Item Card Other datetime others s _ _ h
  by_cases hpass : Passes datetime approval
  · rw [passed_cons_of_pass hpass]
    by_cases hmem : (approval.id, approval.status) ∈ past
    · -- the calls are dropped, and no event is emitted
      refine ⟨⟨fun htells => ?_, fun hnot => absurd hmem (hnot hpass)⟩, fun hnot => absurd hmem (hnot hpass)⟩
      have hlength := (htells approval h hpass).2
      rw [hemitted, call_dropped fun _ => (hs _ _).mpr hmem] at hlength
      omega
    · have hfresh := fun hseen => hmem ((hs _ _).mp hseen)
      obtain ⟨hevents, hseen⟩ := @call_fresh Ref Item Card Other datetime others s _ hpass hfresh redrives
      refine ⟨⟨fun _ _ => hmem, fun _ => ?_⟩, fun _ => ?_⟩
      · intro other hother _
        obtain rfl := Option.some.inj (h.symm.trans hother)
        rw [hemitted, hevents, List.length_append, List.length_singleton]
        exact ⟨latestStatus_concat _ _ _, rfl⟩
      · intro approvalId status
        rw [hpublisher, hseen, List.mem_append, List.mem_append, hs approvalId status, List.mem_singleton]
        apply or_congr_right
        constructor
        · intro heq
          obtain ⟨rfl, rfl⟩ := transitionIdentity_inj heq
          exact List.mem_singleton_self _
        · intro heq
          obtain ⟨rfl, rfl⟩ := Prod.mk.inj (List.mem_singleton.mp heq)
          rfl
  · refine ⟨⟨fun _ hyes => absurd hyes hpass, fun _ => ?_⟩, fun _ => ?_⟩
    · intro other hother hyes
      obtain rfl := Option.some.inj (h.symm.trans hother)
      exact absurd hyes hpass
    · intro approvalId status
      rw [hpublisher, call_dropped fun hyes => absurd hyes hpass, passed_cons_of_not hpass]
      simpa [passed] using hs approvalId status

/-- Each act of a history tells the status where the records that pass are all new. -/
theorem tellsStatus_run_iff (history : List (Act Ref Item Card)) (hs : Remembers s past) (hpast : past.Nodup) :
    (∀ before act after, history = before ++ act :: after → TellsStatus datetime others (s.run datetime others before) act) ↔
      (past ++ passed datetime (s.ledger.drives history)).Nodup := by
  induction history generalizing s past with
  | nil =>
    refine ⟨fun _ => by simpa [Ledger.drives, passed] using hpast, fun _ before act after h => absurd h (by simp)⟩
  | cons act history ih =>
    have hsplit : (∀ before act' after, act :: history = before ++ act' :: after →
        TellsStatus datetime others (s.run datetime others before) act') ↔
        TellsStatus datetime others s act ∧ ∀ before act' after, history = before ++ act' :: after →
          TellsStatus datetime others ((s.step datetime others act).run datetime others before) act' := by
      constructor
      · intro h
        exact ⟨h [] act history rfl, fun before act' after heq => h (act :: before) act' after (by rw [heq, List.cons_append])⟩
      · rintro ⟨hhead, htail⟩ before act' after heq
        cases before with
        | nil =>
          obtain ⟨rfl, -⟩ := List.cons.inj heq
          exact hhead
        | cons b before =>
          obtain ⟨rfl, hrest⟩ := List.cons.inj heq
          exact htail before act' after hrest
    rw [hsplit, Ledger.drives, passed_append]
    cases hdriven : s.ledger.driven act with
    | none =>
      obtain ⟨htells, hnext⟩ := @step_undriven Ref Item Card Other datetime others s _ _ hdriven hs
      rw [and_iff_right htells, ih hnext hpast]
      rfl
    | some approval =>
      obtain ⟨htells, hnext⟩ := @step_driven Ref Item Card Other datetime others s _ _ _ hdriven hs
      rw [htells, Option.toList_some, ← List.append_assoc]
      by_cases hnew : Passes datetime approval → (approval.id, approval.status) ∉ past
      · have hnodup : (past ++ passed datetime [approval]).Nodup := by
          by_cases hpass : Passes datetime approval
          · rw [passed_cons_of_pass hpass]
            exact List.nodup_append.mpr ⟨hpast, List.nodup_singleton _, fun x hx y hy => by
              rw [List.mem_singleton.mp hy]
              exact fun heq => hnew hpass (heq ▸ hx)⟩
          · rw [passed_cons_of_not hpass]
            simpa [passed] using hpast
        rw [and_iff_right hnew, ih (hnext hnew) hnodup]
        rfl
      · refine ⟨fun h => absurd h.1 hnew, fun h => absurd ?_ hnew⟩
        intro hpass hmem
        rw [passed_cons_of_pass hpass] at h
        have hdisjoint := (List.nodup_append.mp (List.nodup_append.mp h).1).2.2
        exact hdisjoint _ hmem _ (List.mem_cons_self ..) rfl

/-- The stream tells the current status after every transition of a history if and only if
    no approval returns to a status it was published with. -/
theorem feed_tellsStatus_iff {Ref Item Card Other : Type} (datetime : JsString → Bool) (others : OtherProjectors Ref Item Card Other)
    (replayWindow : Option Nat) (approvals : List Approval) (history : List (Act Ref Item Card)) :
    (∀ before act after, history = before ++ act :: after →
      TellsStatus datetime others ((createFeed replayWindow approvals).run datetime others before) act) ↔
      NoReturn datetime approvals history := by
  have hs : Remembers (createFeed replayWindow approvals : Feed Other) [] := by
    intro approvalId status
    simp [createFeed, createStreamPublisher]
  exact tellsStatus_run_iff history hs List.nodup_nil

/-- A card of a status. -/
def cardOf (status : ApprovalStatus) : Approval :=
  ⟨str "ap-1", some (str "act-1"), none, .external_action, str "ws-1", status, str "owner", .mac, str "h", none, none⟩

/-- A card that is snoozed, comes back, and is snoozed again. -/
def snoozedTwice : List (Act Unit Unit Unit) :=
  [.transition (cardOf .deferred), .drive (str "ap-1") 0, .transition (cardOf .pending), .drive (str "ap-1") 0,
    .transition (cardOf .deferred), .drive (str "ap-1") 0]

def blankOthers : OtherProjectors Unit Unit Unit Unit := ⟨fun _ => (), fun _ => (), fun _ => (), fun _ => true⟩

/-- The last event tells that the card is pending while it is snoozed. -/
theorem snoozedTwice_tells_pending : ¬ ∀ before act after, snoozedTwice = before ++ act :: after →
    TellsStatus (fun _ => true) blankOthers ((createFeed none [cardOf .pending]).run (fun _ => true) blankOthers before) act := by
  intro h
  have htells := h (snoozedTwice.take 5) (.drive (str "ap-1") 0) [] rfl (cardOf .deferred) (by decide +kernel) (by decide +kernel)
  have hlatest : latestStatus (((createFeed none [cardOf .pending]).run (fun _ => true) blankOthers (snoozedTwice.take 5)).step
      (fun _ => true) blankOthers (.drive (str "ap-1") 0)).emitted (str "ap-1") = some .pending := by
    decide +kernel
  exact absurd (hlatest.symm.trans htells.1) (by decide)

end spec

end sow.stream
