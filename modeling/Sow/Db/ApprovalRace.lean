import Sow.Db.Approvals

open sow.js sow.effect sow.contracts

namespace sow.db

/-- Calls of `applyTransition` that run concurrently on one table. -/
abbrev TransitionPool (ι : Type) :=
  Pool ι ApprovalOp ApprovalOp.Ret DriverError (DbResult ApprovalTransitionOutcome) Approvals

section contenders

variable {ι : Type} [DecidableEq ι] (calls : ι → TransitionCall)

/-- The calls before any of them has moved. -/
def contenders (table : Approvals) : TransitionPool ι := ⟨fun i => applyTransition (calls i), table⟩

/-- The call has returned `applied: true`, with a terminal target. -/
def LandedTerminal (c : TransitionPool ι) (i : ι) : Prop :=
  isTerminalApprovalStatus (calls i).next.status = true ∧ ∃ approval, c.thread i = .pure (.ok ⟨approval, true⟩)

/-- What a step of call `i` may do to the table and may answer. -/
structure StepLands (c c' : TransitionPool ι) (i : ι) : Prop where
  tombstone : ∀ id row, c.world.get id = some row → isTerminalApprovalStatus row.status = true →
    c'.world.get id = some row
  moved : ∀ approval, c.thread i ≠ .pure (.ok ⟨approval, true⟩) → c'.thread i = .pure (.ok ⟨approval, true⟩) →
    (∃ row, c.world.get (calls i).id = some row ∧ row.status = (calls i).expectedFromStatus) ∧
      c'.world.get (calls i).id = some approval ∧ approval.status = (calls i).next.status
  contender : ∀ row r, c.world.get (calls i).id = some row → row.status = (calls i).next.status →
    (∀ r, c.thread i ≠ .pure r) → c'.thread i = .pure r → ∃ approval, r = .ok ⟨approval, false⟩

/-- Along the schedule every decision lands exactly once. -/
structure LandsOnce (c : TransitionPool ι) (schedule : List (ι × Unit)) : Prop where
  once : ∀ i j, (calls i).id = (calls j).id → LandedTerminal calls (c.run approvalsDb schedule) i →
    LandedTerminal calls (c.run approvalsDb schedule) j → i = j
  steps : ∀ es i d es', schedule = es ++ (i, d) :: es' →
    StepLands calls (c.run approvalsDb es) (c.run approvalsDb (es ++ [(i, d)])) i

/-- No conditional update runs at a moment at which the row already has its target status. -/
def NoLateContender (c : TransitionPool ι) (schedule : List (ι × Unit)) : Prop :=
  ∀ es i d es', schedule = es ++ (i, d) :: es' → ∀ id status next k row,
    (c.run approvalsDb es).thread i = .call (.updateWhereStatus id status next) k →
    (c.run approvalsDb es).world.get (calls i).id = some row → row.status ≠ (calls i).next.status

end contenders

section call

variable {call : TransitionCall} {current row : Approval} {found : Option Approval}

/-- Reading the row applies nothing. -/
theorem decided_ne_applied {approval : Approval} : decided call found ≠ .done (.ok ⟨approval, true⟩) := by
  unfold decided
  cases found with
  | none => simp
  | some current =>
    simp only
    split_ifs with hverdict
    · simp
    · cases hcas : decideApprovalCas current.status call.expectedFromStatus call.next.status with
      | apply => exact absurd hcas hverdict
      | idempotent_noop => simp [casDbResult, casVerdictToOutcome]
      | stale_conflict => simp [casDbResult, casVerdictToOutcome]

/-- A call goes on to update only from the status it expects, which is neither
    terminal nor its target. -/
theorem decided_eq_updating (h : decided call found = .updating current) :
    isTerminalApprovalStatus call.expectedFromStatus = false ∧ call.expectedFromStatus ≠ call.next.status := by
  unfold decided at h
  cases found with
  | none => simp at h
  | some read =>
    simp only at h
    split_ifs at h with hverdict
    obtain ⟨hnext, hterminal, hfrom⟩ := decideApprovalCas_apply_iff.mp hverdict
    rw [hfrom] at hnext hterminal
    exact ⟨hterminal, hnext⟩

/-- A call that reads its target is a no-op. -/
theorem decided_of_target (h : row.status = call.next.status) :
    decided call (some row) = .done (.ok ⟨row, false⟩) := by
  unfold decided
  simp [h, decideApprovalCas_self, casDbResult, casVerdictToOutcome]

theorem landed_eq_applied {approval : Approval} (h : landed current found = .done (.ok ⟨approval, true⟩)) :
    found = some approval := by
  cases found with
  | none => simp [landed, casDbResult, casVerdictToOutcome] at h
  | some row =>
    simp only [landed, TransitionState.done.injEq, Except.ok.injEq, ApprovalTransitionOutcome.mk.injEq, and_true] at h
    rw [h]

end call

section steps

variable {ι : Type} {calls : ι → TransitionCall}

/-- What holds between the calls and the table throughout a run. -/
structure Settled (calls : ι → TransitionCall) (s : ι → TransitionState) (table : Approvals) : Prop where
  updating : ∀ i current, s i = .updating current →
    isTerminalApprovalStatus (calls i).expectedFromStatus = false ∧ (calls i).expectedFromStatus ≠ (calls i).next.status
  landed : ∀ i approval, s i = .done (.ok ⟨approval, true⟩) → isTerminalApprovalStatus (calls i).next.status = true →
    ∃ row, table.get (calls i).id = some row ∧ isTerminalApprovalStatus row.status = true
  once : ∀ i j a b, (calls i).id = (calls j).id → s i = .done (.ok ⟨a, true⟩) → s j = .done (.ok ⟨b, true⟩) →
    isTerminalApprovalStatus (calls i).next.status = true → isTerminalApprovalStatus (calls j).next.status = true → i = j

/-- The conditional update either finds the row at the expected status and moves
    it, or changes nothing. -/
theorem exec_update_cases (table : Approvals) (id : JsString) (status : ApprovalStatus) (next : Approval) :
    (∃ row, table.get id = some row ∧ row.status = status ∧
      approvalsDb.exec table (.updateWhereStatus id status next) () =
        (.ok [setColumns row next], table.set id (setColumns row next))) ∨
    ((∀ row, table.get id = some row → row.status ≠ status) ∧
      approvalsDb.exec table (.updateWhereStatus id status next) () = (.ok [], table)) := by
  simp only [approvalsDb]
  cases hrow : table.get id with
  | none => simp
  | some row =>
    by_cases hstatus : row.status = status
    · simp [hstatus]
    · simp [hstatus]

/-- A row whose status is terminal is left alone by every step of a run. -/
theorem Settled.tombstone {s : ι → TransitionState} {table : Approvals} (h : Settled calls s table) {i : ι}
    {op : ApprovalOp} (hallows : (transitionProtocol (calls i)).allows (s i) op) {id : JsString} {row : Approval}
    (hrow : table.get id = some row) (hterminal : isTerminalApprovalStatus row.status = true) :
    (approvalsDb.exec table op ()).2.get id = some row := by
  cases hs : s i with
  | start =>
    rw [hs] at hallows
    obtain rfl : op = .selectById (calls i).id := hallows
    exact hrow
  | done r =>
    rw [hs] at hallows
    exact hallows.elim
  | updating current =>
    rw [hs] at hallows
    obtain rfl : op = .updateWhereStatus (calls i).id (calls i).expectedFromStatus (calls i).next := hallows
    rcases exec_update_cases table (calls i).id (calls i).expectedFromStatus (calls i).next with
      ⟨moved, hmoved, hstatus, hexec⟩ | ⟨-, hexec⟩
    · rw [hexec]
      have hne : (calls i).id ≠ id := by
        intro hid
        rw [hid, hrow] at hmoved
        obtain rfl := Option.some.inj hmoved
        rw [hstatus, (h.updating i current hs).1] at hterminal
        exact absurd hterminal (by decide)
      exact (Map.get_set_of_ne _ _ hne).trans hrow
    · rw [hexec]
      exact hrow

/-- The state a call is in after a step of its own. -/
theorem next_eq_applied {call : TransitionCall} {st : TransitionState} {op : ApprovalOp} {table : Approvals}
    {approval : Approval} (hallows : (transitionProtocol call).allows st op)
    (hnext : (transitionProtocol call).next st op (approvalsDb.exec table op ()).1 = .done (.ok ⟨approval, true⟩)) :
    ∃ row, table.get call.id = some row ∧ row.status = call.expectedFromStatus ∧ approval = setColumns row call.next ∧
      (∃ current, st = .updating current) ∧ (approvalsDb.exec table op ()).2 = table.set call.id approval := by
  cases st with
  | start =>
    obtain rfl : op = .selectById call.id := hallows
    exact absurd hnext decided_ne_applied
  | done r => exact hallows.elim
  | updating current =>
    obtain rfl : op = .updateWhereStatus call.id call.expectedFromStatus call.next := hallows
    rcases exec_update_cases table call.id call.expectedFromStatus call.next with
      ⟨row, hrow, hstatus, hexec⟩ | ⟨-, hexec⟩
    · rw [hexec] at hnext ⊢
      obtain rfl := Option.some.inj (@landed_eq_applied current _ _ hnext)
      exact ⟨row, hrow, hstatus, rfl, ⟨current, rfl⟩, rfl⟩
    · rw [hexec] at hnext
      cases @landed_eq_applied current none _ hnext

/-- The protocol state of a call that has returned. -/
theorem state_of_returned {c : TransitionPool ι} {s : ι → TransitionState}
    (hc : c.Follows (fun i => transitionProtocol (calls i)) (fun _ => Answers) s) {i : ι}
    {r : DbResult ApprovalTransitionOutcome} (hr : c.thread i = .pure r) : s i = .done r := by
  have hi := hc i
  rw [hr] at hi
  obtain ⟨res, hres, hs⟩ := hi
  obtain rfl := Except.ok.inj hres
  exact hs

/-- A call in its last state has returned. -/
theorem returned_of_state {c : TransitionPool ι} {s : ι → TransitionState}
    (hc : c.Follows (fun i => transitionProtocol (calls i)) (fun _ => Answers) s) {i : ι}
    {r : DbResult ApprovalTransitionOutcome} (hs : s i = .done r) : c.thread i = .pure r := by
  have hi := hc i
  rw [hs] at hi
  cases hthread : c.thread i with
  | pure a =>
    rw [hthread] at hi
    obtain ⟨res, hres, hdone⟩ := hi
    obtain rfl := TransitionState.done.inj hdone
    obtain rfl := Except.ok.inj hres
    rfl
  | throw e =>
    rw [hthread] at hi
    obtain ⟨res, hres, -⟩ := hi
    cases hres
  | call op k =>
    rw [hthread] at hi
    exact hi.1.elim

variable [DecidableEq ι]

theorem Settled.step {s : ι → TransitionState} {table : Approvals} (h : Settled calls s table) {i : ι}
    {op : ApprovalOp} (hallows : (transitionProtocol (calls i)).allows (s i) op) :
    Settled calls
      (Function.update s i ((transitionProtocol (calls i)).next (s i) op (approvalsDb.exec table op ()).1))
      (approvalsDb.exec table op ()).2 := by
  -- A call that applies now finds a live row, so no call has landed on it before.
  have hfresh : ∀ a j b, (transitionProtocol (calls i)).next (s i) op (approvalsDb.exec table op ()).1 =
      .done (.ok ⟨a, true⟩) → s j = .done (.ok ⟨b, true⟩) → (calls i).id = (calls j).id →
      isTerminalApprovalStatus (calls j).next.status = true → False := by
    intro a j b hnext hj hid hterminal
    obtain ⟨row, hrow, hstatus, -, ⟨current, hs⟩, -⟩ := next_eq_applied hallows hnext
    obtain ⟨row', hrow', hterminal'⟩ := h.landed j b hj hterminal
    rw [← hid, hrow] at hrow'
    obtain rfl := Option.some.inj hrow'
    rw [hstatus, (h.updating i current hs).1] at hterminal'
    exact absurd hterminal' (by decide)
  constructor
  · intro j current hj
    by_cases hji : j = i
    · subst hji
      rw [Function.update_self] at hj
      cases hs : s j with
      | start =>
        rw [hs] at hj hallows
        obtain rfl : op = .selectById (calls j).id := hallows
        exact decided_eq_updating hj
      | done r =>
        rw [hs] at hallows
        exact hallows.elim
      | updating current => exact h.updating j current hs
    · rw [Function.update_of_ne hji] at hj
      exact h.updating j current hj
  · intro j approval hj hterminal
    by_cases hji : j = i
    · subst hji
      rw [Function.update_self] at hj
      obtain ⟨row, hrow, hstatus, rfl, -, htable⟩ := next_eq_applied hallows hj
      rw [htable]
      exact ⟨_, Map.get_set_self .., hterminal⟩
    · rw [Function.update_of_ne hji] at hj
      obtain ⟨row, hrow, hrowTerminal⟩ := h.landed j approval hj hterminal
      exact ⟨row, h.tombstone hallows hrow hrowTerminal, hrowTerminal⟩
  · intro j k a b hid hj hk hterminalj hterminalk
    by_cases hji : j = i
    · by_cases hki : k = i
      · exact hji.trans hki.symm
      · rw [hji, Function.update_self] at hj
        rw [Function.update_of_ne hki] at hk
        exact (hfresh a k b hj hk (hji ▸ hid) hterminalk).elim
    · by_cases hki : k = i
      · rw [Function.update_of_ne hji] at hj
        rw [hki, Function.update_self] at hk
        exact (hfresh b j a hk hj (hki ▸ hid.symm) hterminalj).elim
      · rw [Function.update_of_ne hji] at hj
        rw [Function.update_of_ne hki] at hk
        exact h.once j k a b hid hj hk hterminalj hterminalk

/-- Every run of contenders keeps their protocols, and stays settled. -/
theorem contenders_settled (calls : ι → TransitionCall) (table : Approvals) (schedule : List (ι × Unit)) :
    ∃ s, ((contenders calls table).run approvalsDb schedule).Follows (fun i => transitionProtocol (calls i))
        (fun _ => Answers) s ∧
      Settled calls s ((contenders calls table).run approvalsDb schedule).world := by
  refine Pool.invariant (c := contenders calls table) (s := fun _ => .start) (fun i => applyTransition_keeps (calls i))
    (fun _ _ _ _ _ => True) (Settled calls) ?_ ?_ schedule fun _ _ _ _ _ _ _ _ _ _ => trivial
  · constructor
    · intro i current h
      cases h
    · intro i approval h
      cases h
    · intro i j a b _ h
      cases h
  · intro s w i op d h hallows _
    exact h.step hallows

/-- A step that is not a late update lands as it should. -/
theorem stepLands_of_prompt {c : TransitionPool ι} {s : ι → TransitionState}
    (hc : c.Follows (fun i => transitionProtocol (calls i)) (fun _ => Answers) s) (hsettled : Settled calls s c.world)
    {i : ι} {d : Unit}
    (hprompt : ∀ id status next k row, c.thread i = .call (.updateWhereStatus id status next) k →
      c.world.get (calls i).id = some row → row.status ≠ (calls i).next.status) :
    StepLands calls c (c.step approvalsDb (i, d)) i := by
  rcases c.step_cases i d with hidle | ⟨op, k, hcall, hmove⟩
  · rw [hidle]
    exact ⟨fun _ _ hrow _ => hrow, fun _ hne h => absurd h hne, fun _ r _ _ hne h => absurd h (hne r)⟩
  · obtain ⟨hallows, hnext⟩ := hc.step (d := d) hcall
    have hdone : ∀ r, (c.step approvalsDb (i, d)).thread i = .pure r →
        (transitionProtocol (calls i)).next (s i) op (approvalsDb.exec c.world op d).1 = .done r := by
      intro r hr
      have hstate := state_of_returned hnext hr
      rwa [Function.update_self] at hstate
    constructor
    · intro id row hrow hterminal
      rw [hmove]
      exact hsettled.tombstone hallows hrow hterminal
    · intro approval _ happlied
      obtain ⟨row, hrow, hstatus, rfl, -, htable⟩ := next_eq_applied hallows (hdone _ happlied)
      refine ⟨⟨row, hrow, hstatus⟩, ?_, rfl⟩
      rw [hmove]
      exact htable ▸ Map.get_set_self ..
    · intro row r hrow htarget _ hr
      have hstate := hdone r hr
      cases hs : s i with
      | start =>
        rw [hs] at hallows hstate
        obtain rfl : op = .selectById (calls i).id := hallows
        have hread : (approvalsDb.exec c.world (.selectById (calls i).id) d).1 = .ok [row] := by
          simp [approvalsDb, hrow]
        rw [hread] at hstate
        change decided (calls i) (some row) = _ at hstate
        rw [decided_of_target htarget] at hstate
        exact ⟨row, (TransitionState.done.inj hstate).symm⟩
      | done r' =>
        rw [hs] at hallows
        exact hallows.elim
      | updating current =>
        rw [hs] at hallows
        obtain rfl : op = .updateWhereStatus (calls i).id (calls i).expectedFromStatus (calls i).next := hallows
        exact absurd htarget (hprompt _ _ _ k row hcall hrow)

/-- A late update answers its caller with an error. -/
theorem not_stepLands_of_late {c : TransitionPool ι} {s : ι → TransitionState}
    (hc : c.Follows (fun i => transitionProtocol (calls i)) (fun _ => Answers) s) (hsettled : Settled calls s c.world)
    {i : ι} {d : Unit} {id : JsString} {status : ApprovalStatus} {next row : Approval}
    {k : Except DriverError (List Approval) → ApprovalM (DbResult ApprovalTransitionOutcome)}
    (hcall : c.thread i = .call (.updateWhereStatus id status next) k) (hrow : c.world.get (calls i).id = some row)
    (htarget : row.status = (calls i).next.status) : ¬ StepLands calls c (c.step approvalsDb (i, d)) i := by
  intro hlands
  obtain ⟨hallows, hnext⟩ := hc.step (d := d) hcall
  cases hs : s i with
  | start =>
    rw [hs] at hallows
    cases hallows
  | done r =>
    rw [hs] at hallows
    exact hallows.elim
  | updating current =>
    rw [hs] at hallows hnext
    obtain ⟨rfl, rfl, rfl⟩ := ApprovalOp.updateWhereStatus.inj hallows
    have hmissed : (approvalsDb.exec c.world
        (.updateWhereStatus (calls i).id (calls i).expectedFromStatus (calls i).next) d).1 = .ok [] := by
      rcases exec_update_cases c.world (calls i).id (calls i).expectedFromStatus (calls i).next with
        ⟨row', hrow', hstatus, -⟩ | ⟨-, hexec⟩
      · rw [hrow] at hrow'
        obtain rfl := Option.some.inj hrow'
        exact absurd (hstatus.symm.trans htarget) (hsettled.updating i current hs).2
      · exact congrArg Prod.fst hexec
    rw [hmissed] at hnext
    have hreturned := returned_of_state hnext (i := i) (Function.update_self ..)
    have hpending : ∀ r, c.thread i ≠ .pure r := by
      intro r hr
      rw [hcall] at hr
      cases hr
    obtain ⟨approval, happroval⟩ := hlands.contender row _ hrow htarget hpending hreturned
    cases happroval

/-- Approval decisions land exactly once, in every run and whatever the table: at
    most one call applies a terminal target, a tombstone stays, whoever applies moved
    the row from the status it expected, and a contender for the status that the row
    already has is a no-op, if and only if no conditional update comes late. -/
theorem applyTransition_landsOnce_iff (calls : ι → TransitionCall) (table : Approvals) (schedule : List (ι × Unit)) :
    LandsOnce calls (contenders calls table) schedule ↔ NoLateContender calls (contenders calls table) schedule := by
  constructor
  · intro hlands es i d es' hes id status next k row hcall hrow htarget
    obtain ⟨s, hfollows, hsettled⟩ := contenders_settled calls table es
    have hstep := hlands.steps es i d es' hes
    rw [Pool.run_concat] at hstep
    exact not_stepLands_of_late hfollows hsettled hcall hrow htarget hstep
  · intro hprompt
    constructor
    · rintro i j hid ⟨hterminali, a, ha⟩ ⟨hterminalj, b, hb⟩
      obtain ⟨s, hfollows, hsettled⟩ := contenders_settled calls table schedule
      exact hsettled.once i j a b hid (state_of_returned hfollows ha) (state_of_returned hfollows hb) hterminali hterminalj
    · intro es i d es' hes
      obtain ⟨s, hfollows, hsettled⟩ := contenders_settled calls table es
      rw [Pool.run_concat]
      exact stepLands_of_prompt hfollows hsettled fun id status next k row hcall hrow =>
        hprompt es i d es' hes id status next k row hcall hrow

end steps

section parity

/-- The same approval, asked to be approved from pending, by two channels at once. -/
def parityCalls (channel : Bool) : TransitionCall where
  id := str "a1"
  expectedFromStatus := .pending
  next := ⟨str "a1", some (str "act"), none, .external_action, str "ws", .approved, str "owner",
    if channel then .telegram else .mac, str "h", none, none⟩

def pendingApprovals : Approvals :=
  .ofList [(str "a1", { (parityCalls false).next with status := .pending })]

/-- Both calls read the pending row before either of them updates it. -/
def paritySchedule : List (Bool × Unit) := [(false, ()), (true, ()), (false, ()), (true, ())]

theorem applyTransition_parity_conflict : ¬ LandsOnce parityCalls (contenders parityCalls pendingApprovals) paritySchedule := by
  intro h
  have hcontender := (h.steps [(false, ()), (true, ()), (false, ())] true () [] rfl).contender
  obtain ⟨approval, happroval⟩ := hcontender (parityCalls false).next _ rfl rfl (fun r hr => by cases hr) rfl
  cases happroval

end parity

end sow.db
