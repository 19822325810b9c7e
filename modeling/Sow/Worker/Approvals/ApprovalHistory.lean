import Sow.Worker.Api.ApprovalCommands
import Sow.Workflows.ApprovalFlow

open sow.js sow.effect sow.contracts sow.db sow.domain sow.workflows

namespace sow.worker

/-- The three entry points to a stored card. -/
inductive ApprovalCommand where
  | decide (approvalId : JsString) (decision : ApprovalDecision) (channel : Channel) (now : JsString)
      (dispatchApproval : Approval → Except FailureVariant Unit)
  | apply (deps : ApplyTransitionActivityDeps) (approval : Approval) (decision : workflows.ApprovalDecision)
  | applySystem (approval : Approval) (transition : ApprovalSystemTransition) (now : JsString)
  | tick (snooze : SnoozeTick)

namespace ApprovalCommand

/-- The clock reading that the command is given. -/
def now : ApprovalCommand → JsString
  | decide _ _ _ now _ => now
  | apply deps _ _ => deps.now
  | applySystem _ _ now => now
  | tick snooze => snooze.now

/-- The store after a command. -/
def after (dates : IsoDates) (table : Approvals) : ApprovalCommand → Approvals
  | decide approvalId decision channel now dispatchApproval =>
    (approvalsDb.eval (decideApprovalCommand dates dispatchApproval now approvalId decision channel) table).2
  | apply deps approval decision => (approvalsDb.eval (ApplyTransitionPort.apply deps approval decision) table).2
  | applySystem approval transition _ => (approvalsDb.eval (ApplyTransitionPort.applySystem approval transition) table).2
  | tick snooze => (approvalsDb.eval (runSnoozeTick dates snooze) table).2

end ApprovalCommand

/-- The store after a history of commands. -/
def runHistory (dates : IsoDates) (table : Approvals) (history : List ApprovalCommand) : Approvals :=
  history.foldl (ApprovalCommand.after dates) table

/-- The card's expiry lies in the past of the clock reading. -/
def Past (dates : IsoDates) (card : Approval) (now : JsString) : Prop :=
  ∃ expiresAtMs nowMs, parseIsoMs dates card.expiresAt = some expiresAtMs ∧ dates.parse now = some nowMs ∧ expiresAtMs ≤ nowMs

/-- Every status change is an edge of the machine, and no expired card is approved. -/
def LegalChanges (dates : IsoDates) (table table' : Approvals) (now : JsString) : Prop :=
  ∀ id card card', table.get id = some card → table'.get id = some card' → card'.status ≠ card.status →
    approvalMachine.canTransition card.status card'.status = true ∧ (card'.status = .approved → ¬ Past dates card now)

def LegalHistory (dates : IsoDates) (table : Approvals) (history : List ApprovalCommand) : Prop :=
  ∀ past command future, history = past ++ command :: future →
    LegalChanges dates (runHistory dates table past) (command.after dates (runHistory dates table past)) command.now

/-- A deferred card is only deferred again, and an approval meets no pending card that has expired. -/
def Admitted (dates : IsoDates) (table : Approvals) : ApprovalCommand → Prop
  | .decide approvalId decision _ now _ => ∀ card, table.get approvalId = some card →
    (card.status = .deferred → decision = .defer) ∧ (card.status = .pending → decision = .approve → ¬ Past dates card now)
  | .apply deps approval decision => ∀ card, table.get approval.id = some card →
    card.status = .pending → approval.status = .pending → decision.decision = .approved → ¬ Past dates card deps.now
  | .applySystem _ _ _ => True
  | .tick _ => True

section changes

variable {dates : IsoDates} {table : Approvals} {id now : JsString} {card next : Approval} {call : TransitionCall}

theorem legalChanges_refl : LegalChanges dates table table now := by
  intro id card card' hget hget' hne
  exact absurd (congrArg Approval.status (Option.some.inj (hget'.symm.trans hget))) hne

/-- One card is moved. -/
theorem legalChanges_set_iff (hget : table.get id = some card) (hne : next.status ≠ card.status) :
    LegalChanges dates table (table.set id (setColumns card next)) now ↔
      approvalMachine.canTransition card.status next.status = true ∧ (next.status = .approved → ¬ Past dates card now) := by
  constructor
  · intro h
    exact h id card (setColumns card next) hget (Map.get_set_self ..) hne
  · intro h id' card₁ card' hget₁ hget' hne'
    by_cases hid : id = id'
    · subst hid
      obtain rfl := Option.some.inj (hget.symm.trans hget₁)
      rw [Map.get_set_self] at hget'
      obtain rfl := Option.some.inj hget'
      exact h
    · rw [Map.get_set_of_ne _ _ hid, hget₁] at hget'
      exact absurd (congrArg Approval.status (Option.some.inj hget').symm) hne'

/-- The store after a compare-and-set, run alone. -/
def transitioned (table : Approvals) (call : TransitionCall) : Approvals := (approvalsDb.eval (applyTransition call) table).2

theorem transitioned_none (h : table.get call.id = none) : transitioned table call = table := by
  rw [transitioned, eval_applyTransition_none h]

theorem transitioned_lost (h : table.get call.id = some card)
    (hlost : decideApprovalCas card.status call.expectedFromStatus call.next.status ≠ .apply) : transitioned table call = table := by
  rw [transitioned, eval_applyTransition_lost h hlost]

theorem transitioned_won (h : table.get call.id = some card)
    (hwon : decideApprovalCas card.status call.expectedFromStatus call.next.status = .apply) :
    transitioned table call = table.set call.id (setColumns card call.next) := by
  rw [transitioned, eval_applyTransition_won h hwon]

/-- A compare-and-set always answers. -/
theorem eval_applyTransition (table : Approvals) (call : TransitionCall) :
    ∃ r, approvalsDb.eval (applyTransition call) table = (.ok r, transitioned table call) := by
  cases h : table.get call.id with
  | none => exact ⟨_, by rw [transitioned, eval_applyTransition_none h]⟩
  | some card =>
    by_cases hwon : decideApprovalCas card.status call.expectedFromStatus call.next.status = .apply
    · exact ⟨_, by rw [transitioned, eval_applyTransition_won h hwon]⟩
    · exact ⟨_, by rw [transitioned, eval_applyTransition_lost h hwon]⟩

theorem eval_get (table : Approvals) (id : JsString) : ∃ r, approvalsDb.eval (approvals.get id) table = (.ok r, table) := by
  cases h : table.get id with
  | none => exact ⟨_, eval_get_none h⟩
  | some card => exact ⟨_, eval_get_some h⟩

/-- The activity writes what its compare-and-set writes, when the machine admits the edge. -/
theorem eval_cas_refused {approval : Approval} {origin target : ApprovalStatus} {e : TransitionError ApprovalStatus}
    (h : approvalMachine.transition origin target = .error e) : (approvalsDb.eval (cas approval origin target next) table).2 = table := by
  unfold cas
  rw [h]
  rfl

theorem eval_cas_admitted {approval : Approval} {origin target s : ApprovalStatus}
    (h : approvalMachine.transition origin target = .ok s) :
    (approvalsDb.eval (cas approval origin target next) table).2 = transitioned table ⟨approval.id, origin, next⟩ := by
  obtain ⟨r, hr⟩ := eval_applyTransition table ⟨approval.id, origin, next⟩
  unfold cas
  rw [h]
  dsimp only
  rw [eval_bind_ok hr]
  generalize transitioned table ⟨approval.id, origin, next⟩ = table'
  cases r with
  | ok outcome =>
    dsimp only
    split <;> rfl
  | error e =>
    dsimp only
    split
    · obtain ⟨r', hr'⟩ := eval_get table' approval.id
      rw [eval_bind_ok hr']
      cases r' with
      | ok current =>
        dsimp only
        split <;> rfl
      | error e' => rfl
    · rfl

end changes

section commands

variable {dates : IsoDates} {table : Approvals} {id now : JsString} {card next approval : Approval}

theorem eval_decide_none {decision : ApprovalDecision} {channel : Channel}
    {dispatchApproval : Approval → Except FailureVariant Unit} (h : table.get id = none) :
    (approvalsDb.eval (decideApprovalCommand dates dispatchApproval now id decision channel) table).2 = table := by
  unfold decideApprovalCommand
  rw [eval_bind_ok (eval_get_none h)]
  rfl

theorem eval_decide_invalid {decision : ApprovalDecision} {channel : Channel}
    {dispatchApproval : Approval → Except FailureVariant Unit} {cause : DriverError} (h : table.get id = some card)
    (hnext : nextRecord dates card decision channel now = .error cause) :
    (approvalsDb.eval (decideApprovalCommand dates dispatchApproval now id decision channel) table).2 = table := by
  unfold decideApprovalCommand
  rw [eval_bind_ok (eval_get_some h)]
  dsimp only
  rw [hnext]
  rfl

theorem eval_decide_some {decision : ApprovalDecision} {channel : Channel}
    {dispatchApproval : Approval → Except FailureVariant Unit} (h : table.get id = some card)
    (hnext : nextRecord dates card decision channel now = .ok next) :
    (approvalsDb.eval (decideApprovalCommand dates dispatchApproval now id decision channel) table).2 =
      transitioned table ⟨id, card.status, next⟩ := by
  obtain ⟨r, hr⟩ := eval_applyTransition table ⟨id, card.status, next⟩
  unfold decideApprovalCommand
  rw [eval_bind_ok (eval_get_some h)]
  dsimp only
  rw [hnext]
  change (approvalsDb.eval (applyTransition ⟨id, card.status, next⟩ >>= _) table).2 = _
  rw [eval_bind_ok hr]
  generalize transitioned table ⟨id, card.status, next⟩ = table'
  cases r with
  | error e => rfl
  | ok outcome =>
    dsimp only
    split
    · cases dispatchApproval outcome.approval with
      | error e => rfl
      | ok _ => rfl
    · rfl

/-- A terminal card is left alone by every compare-and-set. -/
theorem transitioned_terminal {origin : ApprovalStatus} (h : table.get id = some card)
    (hterminal : isTerminalApprovalStatus card.status = true) : transitioned table ⟨id, origin, next⟩ = table :=
  transitioned_lost h fun hwon => absurd (decideApprovalCas_apply_iff.mp hwon).2.1 (by rw [hterminal]; exact Bool.true_eq_false.mp)

/-- A live card is moved by the compare-and-set of one who has read it. -/
theorem transitioned_read (h : table.get id = some card) (hne : card.status ≠ next.status)
    (hlive : isTerminalApprovalStatus card.status = false) :
    transitioned table ⟨id, card.status, next⟩ = table.set id (setColumns card next) :=
  transitioned_won h (decideApprovalCas_apply_iff.mpr ⟨hne, hlive, rfl⟩)

theorem status_cases (status : ApprovalStatus) :
    status = .pending ∨ status = .deferred ∨ isTerminalApprovalStatus status = true := by
  cases status <;> decide

theorem decide_legal_iff {decision : ApprovalDecision} {channel : Channel}
    {dispatchApproval : Approval → Except FailureVariant Unit} :
    LegalChanges dates table (ApprovalCommand.after dates table (.decide id decision channel now dispatchApproval)) now ↔
      Admitted dates table (.decide id decision channel now dispatchApproval) := by
  simp only [ApprovalCommand.after, Admitted]
  cases hget : table.get id with
  | none =>
    rw [eval_decide_none hget]
    exact ⟨fun _ _ h => (by cases h), fun _ => legalChanges_refl⟩
  | some card =>
    simp only [Option.some.injEq, forall_eq']
    cases hnext : nextRecord dates card decision channel now with
    | error cause =>
      rw [eval_decide_invalid hget hnext]
      have hdefer : decision = .defer := by
        by_contra hne
        simp [nextRecord, hne] at hnext
      subst hdefer
      exact ⟨fun _ => ⟨fun _ => rfl, fun _ h => (by cases h)⟩, fun _ => legalChanges_refl⟩
    | ok next =>
      rw [eval_decide_some hget hnext]
      have htarget := nextRecord_status hnext
      rcases status_cases card.status with hpending | hdeferred | hterminal
      · -- A pending card takes every decision.
        have hne : next.status ≠ card.status := by
          rw [htarget, hpending]
          cases decision <;> decide
        have hedge : approvalMachine.canTransition card.status next.status = true := by
          rw [htarget, hpending]
          cases decision <;> decide
        have happroved : next.status = .approved ↔ decision = .approve := by
          rw [htarget]
          cases decision <;> decide
        rw [transitioned_read hget hne.symm (by rw [hpending]; rfl), legalChanges_set_iff hget hne, happroved]
        constructor
        · rintro ⟨-, hlive⟩
          exact ⟨fun h => absurd (hpending.symm.trans h) (by decide), fun _ => hlive⟩
        · rintro ⟨-, hlive⟩
          exact ⟨hedge, hlive hpending⟩
      · -- A deferred card has no edge to a decision.
        by_cases hdefer : decision = .defer
        · subst hdefer
          have hsame : card.status = next.status := hdeferred.trans htarget.symm
          rw [transitioned_lost hget fun hwon => (decideApprovalCas_apply_iff.mp hwon).1 hsame]
          exact ⟨fun _ => ⟨fun _ => rfl, fun _ h => (by cases h)⟩, fun _ => legalChanges_refl⟩
        · have hne : next.status ≠ card.status := by
            rw [htarget, hdeferred]
            cases decision with
            | defer => exact absurd rfl hdefer
            | approve => decide
            | edit => decide
            | reject => decide
          have hedge : approvalMachine.canTransition card.status next.status = false := by
            rw [htarget, hdeferred]
            cases decision with
            | defer => exact absurd rfl hdefer
            | approve => decide
            | edit => decide
            | reject => decide
          rw [transitioned_read hget hne.symm (by rw [hdeferred]; rfl), legalChanges_set_iff hget hne, hedge]
          constructor
          · rintro ⟨h, -⟩
            exact absurd h Bool.false_ne_true
          · rintro ⟨h, -⟩
            exact absurd (h hdeferred) hdefer
      · rw [transitioned_terminal hget hterminal]
        constructor
        · intro _
          constructor
          · intro h
            rw [h] at hterminal
            exact absurd hterminal (by decide)
          · intro h
            rw [h] at hterminal
            exact absurd hterminal (by decide)
        · exact fun _ => legalChanges_refl

/-- From a live state the machine admits its edges only. -/
theorem edge_of_transition {origin target s : ApprovalStatus} (h : approvalMachine.transition origin target = .ok s)
    (hlive : isTerminalApprovalStatus origin = false) : approvalMachine.canTransition origin target = true := by
  cases origin with
  | pending => cases target <;> first | rfl | cases h
  | deferred => cases target <;> first | rfl | cases h
  | approved => cases hlive
  | edited => cases hlive
  | rejected => cases hlive
  | expired => cases hlive

theorem pending_of_edge {origin : ApprovalStatus} (h : approvalMachine.canTransition origin .approved = true) : origin = .pending := by
  cases origin <;> first | rfl | cases h

/-- The activity changes a card along an edge; it does not look at the expiry. -/
theorem cas_legal_iff {origin target : ApprovalStatus} (hnext : next.status = target) :
    LegalChanges dates table (approvalsDb.eval (cas approval origin target next) table).2 now ↔
      (target = .approved → origin = .pending → ∀ card, table.get approval.id = some card → card.status = .pending →
        ¬ Past dates card now) := by
  subst hnext
  cases hedge : approvalMachine.transition origin next.status with
  | error e =>
    rw [eval_cas_refused hedge]
    refine ⟨fun _ happroved hpending => ?_, fun _ => legalChanges_refl⟩
    rw [happroved, hpending] at hedge
    exact nomatch hedge
  | ok s =>
    rw [eval_cas_admitted hedge]
    cases hget : table.get approval.id with
    | none =>
      rw [transitioned_none hget]
      exact ⟨fun _ _ _ _ h => (nomatch h), fun _ => legalChanges_refl⟩
    | some card =>
      simp only [Option.some.injEq, forall_eq']
      by_cases hwon : decideApprovalCas card.status origin next.status = .apply
      · obtain ⟨hne, hlive, rfl⟩ := decideApprovalCas_apply_iff.mp hwon
        rw [transitioned_won hget hwon, legalChanges_set_iff hget hne.symm]
        have hcan := edge_of_transition hedge hlive
        constructor
        · rintro ⟨-, h⟩ happroved _ _
          exact h happroved
        · intro h
          refine ⟨hcan, fun happroved => ?_⟩
          have hpending := pending_of_edge (happroved ▸ hcan)
          exact h happroved hpending hpending
      · rw [transitioned_lost hget hwon]
        refine ⟨fun _ happroved horigin hpending => ?_, fun _ => legalChanges_refl⟩
        rw [happroved, horigin, hpending] at hwon
        exact absurd rfl hwon

/-- What follows a program without touching the store leaves its changes legal. -/
theorem eval_bind_legal {α β : Type} {p : ApprovalM α} {f : α → ApprovalM β}
    (hp : LegalChanges dates table (approvalsDb.eval p table).2 now) (hf : ∀ a, ∃ b, f a = pure b) :
    LegalChanges dates table (approvalsDb.eval (p >>= f) table).2 now := by
  cases h : approvalsDb.eval p table with
  | mk r table' =>
    rw [h] at hp
    cases r with
    | ok a =>
      obtain ⟨b, hb⟩ := hf a
      rw [eval_bind_ok h, hb]
      exact hp
    | error e =>
      rw [eval_bind_error h]
      exact hp

/-- A move of the timer is never an approval. -/
theorem applySystem_legal (transition : ApprovalSystemTransition) :
    LegalChanges dates table (approvalsDb.eval (ApplyTransitionPort.applySystem approval transition) table).2 now := by
  refine (cas_legal_iff ?status).mpr fun happroved => ?_
  case status => rfl
  cases transition with
  | expire => exact nomatch happroved
  | resurface => exact nomatch happroved

theorem runSnoozeTick_legal (snooze : SnoozeTick) :
    LegalChanges dates table (approvalsDb.eval (runSnoozeTick dates snooze) table).2 now := by
  unfold runSnoozeTick
  cases snooze.approval with
  | none => exact legalChanges_refl
  | some approval =>
    dsimp only
    by_cases hdeferred : approval.status = .deferred
    · rw [if_neg (not_not.mpr hdeferred)]
      cases evaluateDeferred dates approval snooze.deferredAt snooze.now snooze.snoozeConfig with
      | sleep => exact legalChanges_refl
      | expire => exact eval_bind_legal (applySystem_legal .expire) fun r => by cases r <;> exact ⟨_, rfl⟩
      | resurface =>
        refine eval_bind_legal (applySystem_legal .resurface) fun r => ?_
        cases r with
        | error e => exact ⟨_, rfl⟩
        | ok r =>
          dsimp only
          cases snooze.shown r.approval with
          | error code => exact ⟨_, rfl⟩
          | ok _ => exact ⟨_, rfl⟩
    · rw [if_pos hdeferred]
      exact legalChanges_refl

/-- A command is legal exactly when it is admitted. -/
theorem after_legal_iff (command : ApprovalCommand) :
    LegalChanges dates table (command.after dates table) command.now ↔ Admitted dates table command := by
  cases command with
  | decide approvalId decision channel now dispatchApproval => exact decide_legal_iff
  | apply deps approval decision =>
    refine (cas_legal_iff ?status).trans ?_
    case status => rfl
    have htarget : decision.decision.status = .approved ↔ decision.decision = .approved := by
      cases decision.decision <;> decide
    simp only [htarget, Admitted]
    exact ⟨fun h card hget hpending horigin happroved => h happroved horigin card hget hpending,
      fun h happroved horigin card hget hpending => h card hget hpending horigin happroved⟩
  | applySystem approval transition now => exact ⟨fun _ => trivial, fun _ => applySystem_legal transition⟩
  | tick snooze => exact ⟨fun _ => trivial, fun _ => runSnoozeTick_legal snooze⟩

end commands

/-- Every history is legal if and only if its commands are admitted: a deferred card is only
    deferred again, and an approval meets no pending card whose expiry has passed. -/
theorem approvalHistory_legal_iff (dates : IsoDates) (table : Approvals) (history : List ApprovalCommand) :
    LegalHistory dates table history ↔
      ∀ past command future, history = past ++ command :: future → Admitted dates (runHistory dates table past) command := by
  unfold LegalHistory
  simp only [after_legal_iff]

section cards

/-- A few instants of a calendar. -/
def calendar : IsoDates where
  parse s := if s = str "t0" then some 0 else if s = str "t1" then some 3600000 else if s = str "t7" then some 604800000 else none
  toISOString ms := if ms = 604800000 then str "t7" else str "t1"

/-- A pending card that expires at `t1`. -/
def pendingCard : Approval :=
  ⟨str "a", some (str "act"), none, .external_action, str "ws", .pending, str "owner", .mac, str "h", none, some (str "t1")⟩

def cards : Approvals := .ofList [(str "a", pendingCard)]

def decideCard (decision : ApprovalDecision) (now : JsString) : ApprovalCommand :=
  .decide (str "a") decision .telegram now fun _ => .ok ()

/-- A card approved while deferred, and a card approved after it has expired, by a command and
    by the workflow. -/
theorem approvals_not_legal :
    ¬ LegalHistory calendar cards [decideCard .defer (str "t0"), decideCard .approve (str "t1")] ∧
      ¬ LegalHistory calendar cards [decideCard .approve (str "t7")] ∧
      ¬ LegalHistory calendar cards [.apply ⟨str "t7", str "t7", str "t7"⟩ pendingCard ⟨.approved, .mac, str "owner"⟩] := by
  refine ⟨fun h => ?_, fun h => ?_, fun h => ?_⟩
  · have hedge := (h [decideCard .defer (str "t0")] (decideCard .approve (str "t1")) [] rfl (str "a") _ _ rfl rfl (by decide)).1
    exact absurd hedge (by decide)
  · have hlive := (h [] (decideCard .approve (str "t7")) [] rfl (str "a") _ _ rfl rfl (by decide)).2 rfl
    exact hlive ⟨3600000, 604800000, rfl, rfl, by decide⟩
  · have hlive := (h [] (.apply ⟨str "t7", str "t7", str "t7"⟩ pendingCard ⟨.approved, .mac, str "owner"⟩) [] rfl
      (str "a") _ _ rfl rfl (by decide)).2 rfl
    exact hlive ⟨3600000, 604800000, rfl, rfl, by decide⟩

end cards

end sow.worker
