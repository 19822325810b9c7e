import Sow.Workflows.Runtime.RunRegistry

open sow.js sow.effect sow.db sow.domain

namespace sow.workflows

/-- Calls on the registry that run concurrently on one table. -/
abbrev RunPool (ι : Type) := Pool ι RunOp RunOp.Ret DriverError RunAnswer WorkflowRunRefs

section run

variable {ι : Type} [DecidableEq ι] (calls : ι → RunCall)

/-- The calls before any of them has moved. -/
def registryCalls (table : WorkflowRunRefs) : RunPool ι := ⟨fun i => (calls i).program, table⟩

/-- A move of a stored run along the state machine. -/
structure LegalMove (row row' : WorkflowRunRef) : Prop where
  edge : row'.state = row.state ∨ workflowRunMachine.canTransition row.state row'.state = true
  audited : row'.state ≠ row.state → isTerminalWorkflowRunState row'.state = true → row'.auditRefs ≠ []
  frozen : isTerminalWorkflowRunState row.state = true → row'.state = row.state

def MovesLegally (c : RunPool ι) (schedule : List (ι × Fault DriverError)) : Prop :=
  ∀ es e es', schedule = es ++ e :: es' → ∀ workflowId row, (c.run workflowRunRefsDb es).world.get workflowId = some row →
    ∃ row', (c.run workflowRunRefsDb (es ++ [e])).world.get workflowId = some row' ∧ LegalMove row row'

/-- Every ref whose append has returned is stored. -/
def AppendsKept (c : RunPool ι) (schedule : List (ι × Fault DriverError)) : Prop :=
  ∀ i workflowId auditRef row, calls i = .append workflowId auditRef →
    (c.run workflowRunRefsDb schedule).thread i = .pure (.appended (.ok row)) →
      ∃ stored, (c.run workflowRunRefsDb schedule).world.get workflowId = some stored ∧ auditRef ∈ stored.auditRefs

/-- The registry survives the run. -/
structure Survives (c : RunPool ι) (schedule : List (ι × Fault DriverError)) : Prop where
  moves : MovesLegally c schedule
  appends : AppendsKept calls c schedule

/-- No call writes over a column that has changed since it read the run: the stored state is
    the one it read, or its target already; the stored refs are among those it read. -/
structure Undisturbed (c : RunPool ι) (schedule : List (ι × Fault DriverError)) : Prop where
  state : ∀ es i d es₁ d' es₂, schedule = es ++ (i, d) :: (es₁ ++ (i, d') :: es₂) → ∀ workflowId target k k' row stored,
    (c.run workflowRunRefsDb es).thread i = .call (.select workflowId) k →
    (c.run workflowRunRefsDb (es ++ (i, d) :: es₁)).thread i = .call (.setState workflowId target) k' →
    (c.run workflowRunRefsDb es).world.get workflowId = some row →
    (c.run workflowRunRefsDb (es ++ (i, d) :: es₁)).world.get workflowId = some stored →
      stored.state = row.state ∨ stored.state = target
  auditRefs : ∀ es i d es₁ d' es₂, schedule = es ++ (i, d) :: (es₁ ++ (i, d') :: es₂) → ∀ workflowId refs k k' row stored,
    (c.run workflowRunRefsDb es).thread i = .call (.select workflowId) k →
    (c.run workflowRunRefsDb (es ++ (i, d) :: es₁)).thread i = .call (.setAuditRefs workflowId refs) k' →
    (c.run workflowRunRefsDb es).world.get workflowId = some row →
    (c.run workflowRunRefsDb (es ++ (i, d) :: es₁)).world.get workflowId = some stored → stored.auditRefs ⊆ row.auditRefs

end run

section step

/-- What a step of a call does to its state and to the table. -/
inductive RunStep (call : RunCall) (table : WorkflowRunRefs) : RunCallState → RunCallState → WorkflowRunRefs → Prop
  | unread (answer : RunAnswer) (hanswer : ∀ row, answer ≠ .appended (.ok row)) : RunStep call table .start (.done answer) table
  | read (row : WorkflowRunRef) (hget : table.get call.workflowId = some row) (hrefused : call.refused row = none) :
    RunStep call table .start (.writing row) table
  | missed (row : WorkflowRunRef) (answer : RunAnswer) (hanswer : ∀ row, answer ≠ .appended (.ok row)) :
    RunStep call table (.writing row) (.done answer) table
  | wrote (row stored : WorkflowRunRef) (answer : RunAnswer) (hget : table.get call.workflowId = some stored) :
    RunStep call table (.writing row) (.done answer) (table.set call.workflowId (call.set row stored))

variable {call : RunCall} {table : WorkflowRunRefs} {s : RunCallState} {d : Fault DriverError}

theorem unread_ne_appended {e : DbError} (row : WorkflowRunRef) : call.unread e ≠ .appended (.ok row) := by
  cases call with
  | transition workflowId target => exact nofun
  | append workflowId auditRef => exact nofun

theorem refused_ne_appended {current : WorkflowRunRef} {answer : RunAnswer} (h : call.refused current = some answer)
    (row : WorkflowRunRef) : answer ≠ .appended (.ok row) := by
  cases call with
  | transition workflowId target =>
    obtain ⟨e, -, rfl⟩ := Option.map_eq_some_iff.mp h
    exact nofun
  | append workflowId auditRef => cases h

theorem written_error_ne_appended {current : WorkflowRunRef} {e : DbError} (row : WorkflowRunRef) :
    call.written current (.error e) ≠ .appended (.ok row) := by
  cases call with
  | transition workflowId target => exact nofun
  | append workflowId auditRef => exact nofun

/-- A failed or empty read ends the call; a row ends it or is held for the write. -/
theorem runStep_read (r : Except DriverError (List WorkflowRunRef))
    (hr : (∃ cause, r = .error cause) ∨ r = .ok (table.get call.workflowId).toList) :
    RunStep call table .start (runNext call .start r) table := by
  rcases hr with ⟨cause, rfl⟩ | rfl
  · exact .unread _ unread_ne_appended
  · cases hget : table.get call.workflowId with
    | none => exact .unread _ unread_ne_appended
    | some row =>
      change RunStep call table .start (afterRead call (.ok row)) table
      unfold afterRead
      cases hrefused : call.refused row with
      | some answer =>
        dsimp only
        rw [hrefused]
        exact .unread _ (refused_ne_appended hrefused)
      | none =>
        dsimp only
        rw [hrefused]
        exact .read row hget hrefused

theorem runRunOp_writeOp (row : WorkflowRunRef) :
    runRunOp table (call.writeOp row) = updateRow table call.workflowId (call.set row) := by
  cases call with
  | transition workflowId target => rfl
  | append workflowId auditRef => rfl

/-- A call of a thread is one of these steps. -/
theorem runStep_of_call {op : RunOp} {k : Except DriverError op.Ret → RunM RunAnswer} (hcall : runCode call s = .call op k) :
    RunStep call table s (runNext call s (workflowRunRefsDb.exec table op d).1) (workflowRunRefsDb.exec table op d).2 := by
  rcases (runCode_call hcall).1 with ⟨rfl, rfl⟩ | ⟨row, rfl, rfl⟩
  · rcases faulty_cases runRunOp table (.select call.workflowId) d with hexec | ⟨cause, table', hexec, htable⟩
    · unfold workflowRunRefsDb
      rw [hexec]
      exact runStep_read _ (.inr rfl)
    · obtain rfl : table' = table := htable.elim id id
      unfold workflowRunRefsDb
      rw [hexec]
      exact runStep_read _ (.inl ⟨cause, rfl⟩)
  · rcases faulty_cases runRunOp table (call.writeOp row) d with hexec | ⟨cause, table', hexec, htable⟩
    · unfold workflowRunRefsDb
      rw [hexec, runRunOp_writeOp]
      cases hget : table.get call.workflowId with
      | none =>
        rw [updateRow_none hget]
        exact .missed row _ written_error_ne_appended
      | some stored =>
        rw [updateRow_some hget]
        exact .wrote row stored _ hget
    · unfold workflowRunRefsDb
      rw [hexec]
      rw [runRunOp_writeOp] at htable
      rcases htable with rfl | rfl
      · exact .missed row _ written_error_ne_appended
      · cases hget : table.get call.workflowId with
        | none =>
          rw [updateRow_none hget]
          exact .missed row _ written_error_ne_appended
        | some stored =>
          rw [updateRow_some hget]
          exact .wrote row stored _ hget

end step

section write

variable {call : RunCall} {table table' : WorkflowRunRefs} {s s' : RunCallState} {row stored : WorkflowRunRef}

/-- The column that a call writes is as it has read it, or as it will leave it. -/
def Fresh : RunCall → WorkflowRunRef → WorkflowRunRef → Prop
  | .transition _ target, row, stored => stored.state = row.state ∨ stored.state = target
  | .append _ _, row, stored => stored.auditRefs ⊆ row.auditRefs

theorem legalMove_refl (row : WorkflowRunRef) : LegalMove row row where
  edge := .inl rfl
  audited hne := absurd rfl hne
  frozen _ := rfl

/-- A fresh write of an admitted call is a legal move. -/
theorem legalMove_set (hrefused : call.refused row = none) (hfresh : Fresh call row stored)
    (haudited : row.auditRefs ≠ [] → stored.auditRefs ≠ []) : LegalMove stored (call.set row stored) := by
  cases call with
  | append workflowId auditRef => exact ⟨.inl rfl, fun hne => absurd rfl hne, fun _ => rfl⟩
  | transition workflowId target =>
    obtain ⟨hedge, hterminal⟩ := refusal_eq_none (Option.map_eq_none_iff.mp hrefused)
    rcases hfresh with hread | htarget
    · constructor
      case edge => exact .inr (hread ▸ hedge)
      case audited => exact fun _ hentered => haudited (hterminal hentered)
      case frozen =>
        intro hfrozen
        rw [hread] at hfrozen
        exact absurd hedge (by rw [workflowRunMachine, defineMachine_terminal hfrozen]; exact Bool.false_ne_true)
    · exact ⟨.inl htarget.symm, fun hne => absurd htarget.symm hne, fun _ => htarget.symm⟩

theorem auditRefs_subset_set (hfresh : Fresh call row stored) : stored.auditRefs ⊆ (call.set row stored).auditRefs := by
  cases call with
  | transition workflowId target => exact List.Subset.refl _
  | append workflowId auditRef => exact List.subset_append_of_subset_left _ hfresh

/-- A row of the table after a step: moved legally, and with no ref lost. -/
theorem RunStep.keepsRow {workflowId : JsString} (hstep : RunStep call table s s' table')
    (hfresh : ∀ row stored, s = .writing row → table.get call.workflowId = some stored → Fresh call row stored)
    (hrefused : ∀ row, s = .writing row → call.refused row = none)
    (haudited : ∀ row stored, s = .writing row → table.get call.workflowId = some stored →
      row.auditRefs ≠ [] → stored.auditRefs ≠ [])
    (hget : table.get workflowId = some stored) :
    ∃ stored', table'.get workflowId = some stored' ∧ LegalMove stored stored' ∧ stored.auditRefs ⊆ stored'.auditRefs := by
  have hstays : ∃ stored', table.get workflowId = some stored' ∧ LegalMove stored stored' ∧ stored.auditRefs ⊆ stored'.auditRefs :=
    ⟨stored, hget, legalMove_refl stored, List.Subset.refl _⟩
  cases hstep with
  | unread answer hanswer => exact hstays
  | read row hrow hadmitted => exact hstays
  | missed row answer hanswer => exact hstays
  | wrote row stored₁ answer hrow =>
    by_cases hkey : call.workflowId = workflowId
    · subst hkey
      obtain rfl := Option.some.inj (hrow.symm.trans hget)
      have hset := hfresh row stored₁ rfl hrow
      exact ⟨_, Map.get_set_self .., legalMove_set (hrefused row rfl) hset (haudited row stored₁ rfl hrow), auditRefs_subset_set hset⟩
    · rw [Map.get_set_of_ne _ _ hkey]
      exact hstays

end write

section history

variable {ι : Type} [DecidableEq ι] {calls : ι → RunCall} {c : RunPool ι} {schedule es es' : List (ι × Fault DriverError)}
  {i : ι} {d : Fault DriverError} {s : ι → RunCallState} {row stored : WorkflowRunRef}

/-- Along the schedule, call `i` has read the row. -/
def WasRead (calls : ι → RunCall) (c : RunPool ι) (es : List (ι × Fault DriverError)) (i : ι) (row : WorkflowRunRef) : Prop :=
  ∃ es₁ d es₂ k, es = es₁ ++ (i, d) :: es₂ ∧ (c.run workflowRunRefsDb es₁).thread i = .call (.select (calls i).workflowId) k ∧
    (c.run workflowRunRefsDb es₁).world.get (calls i).workflowId = some row

theorem WasRead.append (h : WasRead calls c es i row) : WasRead calls c (es ++ es') i row := by
  obtain ⟨es₁, d, es₂, k, rfl, hcall, hget⟩ := h
  exact ⟨es₁, d, es₂ ++ es', k, by simp, hcall, hget⟩

/-- What holds between the calls and the table throughout a run. -/
structure RunInvariant (calls : ι → RunCall) (c : RunPool ι) (es : List (ι × Fault DriverError)) (s : ι → RunCallState)
    (table : WorkflowRunRefs) : Prop where
  admitted : ∀ i row, s i = .writing row → (calls i).refused row = none
  read : ∀ i row, s i = .writing row → WasRead calls c es i row
  audited : ∀ i row, s i = .writing row → row.auditRefs ≠ [] →
    ∃ stored, table.get (calls i).workflowId = some stored ∧ stored.auditRefs ≠ []
  kept : ∀ i workflowId auditRef row, calls i = .append workflowId auditRef → s i = .done (.appended (.ok row)) →
    ∃ stored, table.get workflowId = some stored ∧ auditRef ∈ stored.auditRefs

theorem RunInvariant.start (table : WorkflowRunRefs) : RunInvariant calls c [] (fun _ => .start) table where
  admitted _ _ h := by cases h
  read _ _ h := by cases h
  audited _ _ h := by cases h
  kept _ _ _ _ _ h := by cases h

/-- A call that is about to write in an undisturbed run does so freshly. -/
theorem Undisturbed.fresh {k : Except DriverError (List WorkflowRunRef) → RunM RunAnswer} (h : Undisturbed c schedule)
    (hschedule : schedule = es ++ (i, d) :: es') (hread : WasRead calls c es i row)
    (hcall : (c.run workflowRunRefsDb es).thread i = .call ((calls i).writeOp row) k)
    (hstored : (c.run workflowRunRefsDb es).world.get (calls i).workflowId = some stored) : Fresh (calls i) row stored := by
  obtain ⟨es₁, d₁, es₂, k₁, rfl, hselect, hrow⟩ := hread
  have hsplit : schedule = es₁ ++ (i, d₁) :: (es₂ ++ (i, d) :: es') := by rw [hschedule]; simp
  cases hkind : calls i with
  | transition workflowId target =>
    rw [hkind] at hcall hselect hrow hstored
    exact h.state es₁ i d₁ es₂ d es' hsplit workflowId target k₁ k row stored hselect hcall hrow hstored
  | append workflowId auditRef =>
    rw [hkind] at hcall hselect hrow hstored
    exact h.auditRefs es₁ i d₁ es₂ d es' hsplit workflowId _ k₁ k row stored hselect hcall hrow hstored

/-- A row of the table after a step of an undisturbed run. -/
theorem RunInvariant.keepsRow {op : RunOp} {k : Except DriverError op.Ret → RunM RunAnswer} {workflowId : JsString}
    (h : RunInvariant calls c es s (c.run workflowRunRefsDb es).world) (hundisturbed : Undisturbed c schedule)
    (hschedule : schedule = es ++ (i, d) :: es') (hcall : (c.run workflowRunRefsDb es).thread i = .call op k)
    (hcode : runCode (calls i) (s i) = .call op k) (hget : (c.run workflowRunRefsDb es).world.get workflowId = some stored) :
    ∃ stored', (workflowRunRefsDb.exec (c.run workflowRunRefsDb es).world op d).2.get workflowId = some stored' ∧
      LegalMove stored stored' ∧ stored.auditRefs ⊆ stored'.auditRefs := by
  refine (runStep_of_call hcode).keepsRow ?_ (h.admitted i) ?_ hget
  · intro row stored₁ hs hstored
    obtain ⟨hstart, -⟩ | ⟨row', hs', rfl⟩ := (runCode_call hcode).1
    · exact nomatch hs.symm.trans hstart
    · obtain rfl : row = row' := RunCallState.writing.inj (hs.symm.trans hs')
      exact hundisturbed.fresh hschedule (h.read i row hs) hcall hstored
  · intro row stored₁ hs hstored hne
    obtain ⟨stored', hstored', hne'⟩ := h.audited i row hs hne
    rw [hstored] at hstored'
    exact Option.some.inj hstored' ▸ hne'

/-- The call that moves learns what it read or wrote; nothing the others know is lost. -/
theorem RunInvariant.step {op : RunOp} {k : Except DriverError op.Ret → RunM RunAnswer}
    (h : RunInvariant calls c es s (c.run workflowRunRefsDb es).world) (hundisturbed : Undisturbed c schedule)
    (hschedule : schedule = es ++ (i, d) :: es') (hcall : (c.run workflowRunRefsDb es).thread i = .call op k)
    (hcode : runCode (calls i) (s i) = .call op k) :
    RunInvariant calls c (es ++ [(i, d)])
      (Function.update s i (runNext (calls i) (s i) (workflowRunRefsDb.exec (c.run workflowRunRefsDb es).world op d).1))
      (workflowRunRefsDb.exec (c.run workflowRunRefsDb es).world op d).2 := by
  have hrow : ∀ {workflowId stored}, (c.run workflowRunRefsDb es).world.get workflowId = some stored →
      ∃ stored', (workflowRunRefsDb.exec (c.run workflowRunRefsDb es).world op d).2.get workflowId = some stored' ∧
        LegalMove stored stored' ∧ stored.auditRefs ⊆ stored'.auditRefs :=
    h.keepsRow hundisturbed hschedule hcall hcode
  have hstep : RunStep (calls i) (c.run workflowRunRefsDb es).world (s i) _ _ := runStep_of_call (d := d) hcode
  generalize runNext (calls i) (s i) (workflowRunRefsDb.exec (c.run workflowRunRefsDb es).world op d).1 = next at hstep ⊢
  generalize (workflowRunRefsDb.exec (c.run workflowRunRefsDb es).world op d).2 = table at hstep hrow ⊢
  -- A call that is writing after the step has read its row now, or was writing before.
  have hwriting : ∀ j row, Function.update s i next j = .writing row → s j = .writing row ∨
      j = i ∧ op = .select (calls i).workflowId ∧ table = (c.run workflowRunRefsDb es).world ∧
        (c.run workflowRunRefsDb es).world.get (calls i).workflowId = some row ∧ (calls i).refused row = none := by
    intro j row hj
    by_cases hji : j = i
    · subst hji
      rw [Function.update_self] at hj
      subst hj
      generalize hs : s j = state at hstep
      cases hstep with
      | read row' hget hrefused =>
        obtain ⟨-, hop⟩ | ⟨row'', hs', -⟩ := (runCode_call hcode).1
        · exact .inr ⟨rfl, hop, rfl, hget, hrefused⟩
        · exact nomatch hs.symm.trans hs'
    · rw [Function.update_of_ne hji] at hj
      exact .inl hj
  constructor
  case admitted =>
    intro j row hj
    rcases hwriting j row hj with hbefore | ⟨rfl, -, -, -, hrefused⟩
    · exact h.admitted j row hbefore
    · exact hrefused
  case read =>
    intro j row hj
    rcases hwriting j row hj with hbefore | ⟨rfl, rfl, -, hget, -⟩
    · exact (h.read j row hbefore).append
    · exact ⟨es, d, [], k, rfl, hcall, hget⟩
  case audited =>
    intro j row hj hne
    rcases hwriting j row hj with hbefore | ⟨rfl, -, rfl, hget, -⟩
    · obtain ⟨stored, hstored, hstoredNe⟩ := h.audited j row hbefore hne
      obtain ⟨stored', hstored', -, hsubset⟩ := hrow hstored
      refine ⟨stored', hstored', fun hempty => hstoredNe ?_⟩
      rw [hempty] at hsubset
      exact List.subset_nil.mp hsubset
    · exact ⟨row, hget, hne⟩
  case kept =>
    intro j workflowId auditRef row hj hdone
    by_cases hji : j = i
    · subst hji
      rw [Function.update_self] at hdone
      subst hdone
      generalize hs : s j = state at hstep
      cases hstep with
      | unread answer hanswer => exact absurd rfl (hanswer row)
      | missed row' answer hanswer => exact absurd rfl (hanswer row)
      | wrote row' stored answer hget =>
        rw [hj]
        exact ⟨_, Map.get_set_self .., List.mem_append_right _ (List.mem_singleton_self _)⟩
    · rw [Function.update_of_ne hji] at hdone
      obtain ⟨stored, hstored, hmem⟩ := h.kept j workflowId auditRef row hj hdone
      obtain ⟨stored', hstored', -, hsubset⟩ := hrow hstored
      exact ⟨stored', hstored', hsubset hmem⟩

theorem Undisturbed.of_append (h : Undisturbed c (es ++ es')) : Undisturbed c es where
  state es₁ i d es₂ d' es₃ hes := h.state es₁ i d es₂ d' (es₃ ++ es') (by rw [hes]; simp)
  auditRefs es₁ i d es₂ d' es₃ hes := h.auditRefs es₁ i d es₂ d' (es₃ ++ es') (by rw [hes]; simp)

/-- The invariant holds at the end of every undisturbed run. -/
theorem registryCalls_invariant (calls : ι → RunCall) (table : WorkflowRunRefs) (es : List (ι × Fault DriverError))
    (h : Undisturbed (registryCalls calls table) es) :
    ∃ s, ((registryCalls calls table).run workflowRunRefsDb es).Executes (fun i => runMachine (calls i)) s ∧
      RunInvariant calls (registryCalls calls table) es s ((registryCalls calls table).run workflowRunRefsDb es).world := by
  have hstart : (registryCalls calls table).Executes (fun i => runMachine (calls i)) fun _ => .start := fun _ => rfl
  refine hstart.history (RunInvariant calls (registryCalls calls table)) (.start _) es ?_ ?_
  · intro es₁ e s table hinv
    exact ⟨hinv.admitted, fun i row hs => (hinv.read i row hs).append, hinv.audited, hinv.kept⟩
  · intro es₁ i d es₂ hes s op k hexec hinv hcode
    exact hinv.step h hes ((hexec i).trans hcode) hcode

theorem MovesLegally.of_undisturbed {table : WorkflowRunRefs} (h : Undisturbed (registryCalls calls table) schedule) :
    MovesLegally (registryCalls calls table) schedule := by
  intro es e es' hschedule workflowId row hget
  obtain ⟨i, d⟩ := e
  obtain ⟨s, hexec, hinv⟩ := registryCalls_invariant calls table es (hschedule ▸ h).of_append
  rw [Pool.run_concat]
  rcases ((registryCalls calls table).run workflowRunRefsDb es).step_cases i d with hidle | ⟨op, k, hcall, hmove⟩
  · rw [hidle]
    exact ⟨row, hget, legalMove_refl row⟩
  · rw [hmove]
    obtain ⟨row', hget', hlegal, -⟩ := hinv.keepsRow h hschedule hcall ((hexec i).symm.trans hcall) hget
    exact ⟨row', hget', hlegal⟩

theorem AppendsKept.of_undisturbed {table : WorkflowRunRefs} (h : Undisturbed (registryCalls calls table) schedule) :
    AppendsKept calls (registryCalls calls table) schedule := by
  intro i workflowId auditRef row hcall hreturned
  obtain ⟨s, hexec, hinv⟩ := registryCalls_invariant calls table schedule h
  have hcode := (hexec i).symm.trans hreturned
  have hdone : s i = .done (.appended (.ok row)) := by
    cases hs : s i with
    | start =>
      rw [hs] at hcode
      exact nomatch program_eq.symm.trans hcode
    | writing row' =>
      rw [hs] at hcode
      cases hcode
    | done answer =>
      rw [hs] at hcode
      rw [Program.pure.inj hcode]
  exact hinv.kept i workflowId auditRef row hcall hdone

end history

/-- The registry survives every run in which no call writes over a column that has changed
    since it read the run. -/
theorem workflowRuns_survive {ι : Type} [DecidableEq ι] (calls : ι → RunCall) (table : WorkflowRunRefs)
    (schedule : List (ι × Fault DriverError)) (h : Undisturbed (registryCalls calls table) schedule) :
    Survives calls (registryCalls calls table) schedule :=
  ⟨.of_undisturbed h, .of_undisturbed h⟩

section runsOfOneRow

/-- One run, waiting for its approval, with an audit ref. -/
def waitingRun : WorkflowRunRefs :=
  .ofList [(str "w", ⟨str "w", str "manual", str "waiting_approval", str "k", [str "a0"]⟩)]

/-- Nothing is written between two steps of one call. -/
theorem Undisturbed.of_unchanged {ι : Type} [DecidableEq ι] {c : RunPool ι} {schedule : List (ι × Fault DriverError)}
    (h : ∀ n m : Fin schedule.length, n < m → (schedule.get n).1 = (schedule.get m).1 →
      (c.run workflowRunRefsDb (schedule.take n)).world = (c.run workflowRunRefsDb (schedule.take m)).world) :
    Undisturbed c schedule := by
  have hworld : ∀ es i d es₁ d' es₂, schedule = es ++ (i, d) :: (es₁ ++ (i, d') :: es₂) →
      (c.run workflowRunRefsDb es).world = (c.run workflowRunRefsDb (es ++ (i, d) :: es₁)).world := by
    intro es i d es₁ d' es₂ hes
    have hlater : schedule = es ++ (i, d) :: es₁ ++ (i, d') :: es₂ := by rw [hes]; simp
    obtain ⟨n, hn, hi⟩ := schedule_position hes
    obtain ⟨m, hm, hi'⟩ := schedule_position hlater
    have hlt : n < m := by
      have hlength := congrArg List.length hm
      rw [List.length_append, List.length_cons, congrArg List.length hn, List.length_take, List.length_take,
        min_eq_left n.isLt.le, min_eq_left m.isLt.le] at hlength
      exact Fin.lt_def.mpr (by omega)
    rw [hm, hn]
    exact h n m hlt (by rw [← hi, ← hi'])
  constructor
  case state =>
    intro es i d es₁ d' es₂ hes workflowId target k k' row stored _ _ hrow hstored
    rw [hworld es i d es₁ d' es₂ hes, hstored] at hrow
    rw [Option.some.inj hrow]
    exact .inl rfl
  case auditRefs =>
    intro es i d es₁ d' es₂ hes workflowId refs k k' row stored _ _ hrow hstored
    rw [hworld es i d es₁ d' es₂ hes, hstored] at hrow
    rw [Option.some.inj hrow]
    exact List.Subset.refl _

/-- A ref is appended, then the run is completed. -/
def appendThenComplete (completes : Bool) : RunCall :=
  if completes then .transition (str "w") (str "completed") else .append (str "w") (str "a1")

def inTurn : List (Bool × Fault DriverError) := [(false, .none), (false, .none), (true, .none), (true, .none)]

theorem inTurn_undisturbed : Undisturbed (registryCalls appendThenComplete waitingRun) inTurn :=
  .of_unchanged (by decide)

theorem workflowRuns_survive_inTurn :
    Undisturbed (registryCalls appendThenComplete waitingRun) inTurn ∧
      Survives appendThenComplete (registryCalls appendThenComplete waitingRun) inTurn :=
  ⟨inTurn_undisturbed, workflowRuns_survive appendThenComplete waitingRun inTurn inTurn_undisturbed⟩

/-- Two moves and two appends. -/
def overlappingCalls (i : Bool × Bool) : RunCall :=
  if i.1 then .append (str "w") (if i.2 then str "a2" else str "a1")
  else .transition (str "w") (if i.2 then str "running" else str "completed")

/-- Both moves read before either of them writes, and so do both appends. -/
def overlapping : List ((Bool × Bool) × Fault DriverError) :=
  [((false, false), .none), ((false, true), .none), ((false, false), .none), ((false, true), .none),
    ((true, false), .none), ((true, true), .none), ((true, false), .none), ((true, true), .none)]

/-- A completed run is set running again, and the first of two appended refs is lost. -/
theorem overlapping_not_survives :
    ¬ MovesLegally (registryCalls overlappingCalls waitingRun) overlapping ∧
      ¬ AppendsKept overlappingCalls (registryCalls overlappingCalls waitingRun) overlapping := by
  constructor
  · intro h
    obtain ⟨row', hget, hlegal⟩ := h (overlapping.take 3) ((false, true), .none) (overlapping.drop 4) rfl (str "w") _ rfl
    obtain rfl := Option.some.inj hget
    exact absurd (hlegal.frozen (by decide)) (by decide)
  · intro h
    obtain ⟨stored, hget, hmem⟩ := h (true, false) (str "w") (str "a1") _ rfl rfl
    obtain rfl := Option.some.inj hget
    exact absurd hmem (by decide)

end runsOfOneRow

end sow.workflows
