import Sow.Effect.Interleave
import Sow.Worker.Lease.SingleHolder

open sow.js sow.effect sow.db

namespace sow.worker

/-- Was the operation issued under an older lease than the latest? -/
def isFencedStale (operationGeneration latestGeneration : Nat) : Bool := operationGeneration < latestGeneration

structure FencedWriteError where
  operationGeneration : Nat
  latestGeneration : Nat
  deriving DecidableEq

/-- What a guarded write calls: the store of the leases, and the effects of the write itself. -/
inductive FenceOp (Stamp E : Type) where
  | lease (op : LeaseOp Stamp)
  | write (effect : E)

abbrev FenceOp.Ret {Stamp E : Type} : FenceOp Stamp E → Type
  | .lease op => op.Ret
  | .write _ => Unit

abbrev FenceM (Stamp E : Type) := Program (FenceOp Stamp E) FenceOp.Ret DriverError

/-- A program on the store of the leases. -/
def onLeases {Stamp E α : Type} (p : LeaseM Stamp α) : FenceM Stamp E α := p.lift FenceOp.lease fun _ r => r

structure FenceWorld (Stamp E : Type) where
  leases : LeaseWorld Stamp
  effects : List E

section

variable {Stamp E T : Type} [DecidableEq Stamp]

def withLeaseFence (operationGeneration : Nat) (readLatestGeneration : FenceM Stamp E Nat) (performWrite : FenceM Stamp E T) :
    FenceM Stamp E (Except FencedWriteError T) := do
  let latestGeneration ← readLatestGeneration
  if isFencedStale operationGeneration latestGeneration then return .error ⟨operationGeneration, latestGeneration⟩
  else return .ok (← performWrite)

/-- A missing lease reads as the generation 0. -/
def readLatestGenerationFromStore (taskQueue : JsString) : FenceM Stamp E Nat := do
  let current ← onLeases (LeaseStoreAdapter.get taskQueue)
  return match current with
    | some record => record.generation
    | none => 0

/-- The stores, and the effects in the order in which they are made. -/
def fenceDb : Handler (FenceOp Stamp E) FenceOp.Ret DriverError (FenceWorld Stamp E) (LeaseChoice Stamp) where
  exec w op d := match op with
    | .lease op => ((leasesDb.exec w.leases op d).1, { w with leases := (leasesDb.exec w.leases op d).2 })
    | .write effect =>
      match d.fault with
      | .none => (.ok (), { w with effects := w.effects ++ [effect] })
      | .failed cause => (.error cause, w)
      | .unknown cause => (.error cause, { w with effects := w.effects ++ [effect] })

def FenceOp.IsWrite : FenceOp Stamp E → Prop
  | .lease _ => False
  | .write _ => True

/-- A write that is issued under a generation of the lease of a queue, of any number of effects. -/
structure FencedCall (Stamp E T : Type) where
  taskQueue : JsString
  operationGeneration : Nat
  performWrite : FenceM Stamp E T
  writes : performWrite.Within FenceOp.IsWrite

/-- A guarded write, or an instance that re-acquires a lease. -/
inductive FenceCall (Stamp E T : Type) where
  | fenced (call : FencedCall Stamp E T)
  | reacquire (call : LeaseCall)

inductive FenceOutcome (Stamp T : Type) where
  | written (r : Except FencedWriteError T)
  | reacquired (outcome : ReacquireOutcome Stamp)

def FencedCall.program (call : FencedCall Stamp E T) : FenceM Stamp E (FenceOutcome Stamp T) := do
  return .written (← withLeaseFence call.operationGeneration (readLatestGenerationFromStore call.taskQueue) call.performWrite)

def FenceCall.program (dates : Dates Stamp) : FenceCall Stamp E T → FenceM Stamp E (FenceOutcome Stamp T)
  | .fenced call => call.program
  | .reacquire call => do
    return .reacquired (← onLeases (call.program dates))

end

section spec

variable {Stamp E T ι : Type} [DecidableEq Stamp] [DecidableEq ι] (dates : Dates Stamp) (calls : ι → FenceCall Stamp E T)

/-- Guarded writes and instances that re-acquire, concurrently. -/
abbrev FencePool (ι Stamp E T : Type) [DecidableEq Stamp] :=
  Pool ι (FenceOp Stamp E) FenceOp.Ret DriverError (FenceOutcome Stamp T) (FenceWorld Stamp E)

/-- The calls before any of them has moved. -/
def fencedCalls (w : FenceWorld Stamp E) : FencePool ι Stamp E T := ⟨fun i => (calls i).program dates, w⟩

/-- The lease of the queue is of no later generation. -/
def NotPast (w : FenceWorld Stamp E) (taskQueue : JsString) (generation : Nat) : Prop :=
  ∀ record, w.leases.leases.get taskQueue = some record → record.generation ≤ generation

/-- The next step of the call makes an effect of its write. -/
def TakesEffect (c : FencePool ι Stamp E T) (es : List (ι × LeaseChoice Stamp)) (i : ι) (d : LeaseChoice Stamp) : Prop :=
  (∀ cause, d.fault ≠ .failed cause) ∧ ∃ effect k, (c.run fenceDb es).thread i = .call (.write effect) k

/-- No effect is made after a lease of a later generation than that of its write. -/
def Fenced (c : FencePool ι Stamp E T) (schedule : List (ι × LeaseChoice Stamp)) : Prop :=
  ∀ es i d rest call, schedule = es ++ (i, d) :: rest → calls i = .fenced call → TakesEffect c es i d →
    ∀ before after, es = before ++ after → NotPast (c.run fenceDb before).world call.taskQueue call.operationGeneration

/-- No guarded write reads the lease in vain while it is of a later generation, and no lease of a later generation is
    written between the read and an effect. -/
def Undisturbed (c : FencePool ι Stamp E T) (schedule : List (ι × LeaseChoice Stamp)) : Prop :=
  ∀ es i d between d' rest call, schedule = es ++ (i, d) :: (between ++ (i, d') :: rest) → calls i = .fenced call →
    (c.run fenceDb es).thread i = call.program → TakesEffect c (es ++ (i, d) :: between) i d' →
      (d.fault ≠ .none → NotPast (c.run fenceDb es).world call.taskQueue call.operationGeneration) ∧
        (NotPast (c.run fenceDb es).world call.taskQueue call.operationGeneration → ∀ before after, between = before ++ after →
          NotPast (c.run fenceDb (es ++ (i, d) :: before)).world call.taskQueue call.operationGeneration)

end spec

section advances

variable {Stamp E T : Type} {dates : Dates Stamp}

/-- A call that replaces a lease only by one of no earlier generation. -/
def LeaseAdvances : LeaseOp Stamp → Prop
  | .update expected next => expected.generation ≤ next.generation
  | _ => True

def FenceOp.Advances : FenceOp Stamp E → Prop
  | .lease op => LeaseAdvances op
  | .write _ => True

variable [DecidableEq Stamp] {w : FenceWorld Stamp E} {taskQueue : JsString} {record : LeaseRecord Stamp}

theorem runLeaseOp_advances {table : LeaseTable Stamp} (reading : Stamp) {op : LeaseOp Stamp} (hop : LeaseAdvances op)
    (hstored : table.get taskQueue = some record) :
    ∃ record', (runLeaseOp table reading op).2.get taskQueue = some record' ∧ record.generation ≤ record'.generation := by
  cases op with
  | now => exact ⟨record, hstored, le_rfl⟩
  | select _ => exact ⟨record, hstored, le_rfl⟩
  | insert next =>
    simp only [runLeaseOp]
    split
    · next hfree =>
      have hne : next.taskQueue ≠ taskQueue := by
        rintro rfl
        rw [hfree] at hstored
        cases hstored
      exact ⟨record, (table.get_put_of_ne hne).trans hstored, le_rfl⟩
    · exact ⟨record, hstored, le_rfl⟩
  | update expected next =>
    simp only [runLeaseOp]
    split
    · next hexpected =>
      by_cases hqueue : expected.taskQueue = taskQueue
      · subst hqueue
        rw [hexpected] at hstored
        obtain rfl := Option.some.inj hstored
        exact ⟨setLease expected next, table.get_put_self (setLease expected next), hop⟩
      · have hne : (setLease expected next).taskQueue ≠ taskQueue := hqueue
        exact ⟨record, (table.get_put_of_ne hne).trans hstored, le_rfl⟩
    · exact ⟨record, hstored, le_rfl⟩

/-- A stored lease stays, or is followed by one of no earlier generation. -/
theorem exec_advances {op : FenceOp Stamp E} (d : LeaseChoice Stamp) (hop : op.Advances) (hstored : w.leases.leases.get taskQueue = some record) :
    ∃ record', (fenceDb.exec w op d).2.leases.leases.get taskQueue = some record' ∧ record.generation ≤ record'.generation := by
  cases op with
  | write effect =>
    unfold fenceDb
    dsimp only
    cases d.fault <;> exact ⟨record, hstored, le_rfl⟩
  | lease op =>
    unfold fenceDb leasesDb
    dsimp only
    cases d.fault with
    | none => exact runLeaseOp_advances d.reading hop hstored
    | failed cause => exact ⟨record, hstored, le_rfl⟩
    | unknown cause => exact runLeaseOp_advances d.reading hop hstored

omit [DecidableEq Stamp] in
theorem get_within (taskQueue : JsString) :
    (LeaseStoreAdapter.get taskQueue : LeaseM Stamp (Option (LeaseRecord Stamp))).Within LeaseAdvances := by
  refine ⟨trivial, fun r => ?_⟩
  cases r with
  | error cause => trivial
  | ok rows => cases rows <;> trivial

omit [DecidableEq Stamp] in
/-- The next lease is of no earlier generation than the one it replaces. -/
theorem generation_nextLease {input : LeaseDecisionInput Stamp} (hcurrent : input.current = some record) :
    record.generation ≤ (nextLease dates input).generation := by
  unfold nextLease
  simp only [hcurrent]
  split <;> omega

theorem decideLease_within (input : LeaseDecisionInput Stamp) : (decideLease dates input).Within LeaseAdvances := by
  unfold decideLease
  split
  · trivial
  · refine Program.Within.bind (Program.Within.attempt ?_) fun won => ?_
    · cases hcurrent : input.current with
      | none =>
        rw [compareAndSet_insert]
        exact ⟨trivial, fun _ => trivial⟩
      | some record =>
        rw [compareAndSet_update]
        exact ⟨generation_nextLease hcurrent, fun _ => trivial⟩
    · cases won with
      | error cause => trivial
      | ok won => cases won <;> trivial

theorem leaseCall_within (call : LeaseCall) : (call.program dates).Within LeaseAdvances := by
  unfold LeaseCall.program
  refine Program.Within.bind (Program.within_perform trivial) fun now => ?_
  unfold reacquireLease
  refine Program.Within.bind (get_within _) fun current => ?_
  exact Program.Within.bind (decideLease_within _) fun decision => trivial

omit [DecidableEq Stamp] in
theorem within_onLeases {α : Type} {p : LeaseM Stamp α} (hp : p.Within LeaseAdvances) :
    (onLeases p : FenceM Stamp E α).Within FenceOp.Advances :=
  hp.lift fun _ hop => hop

theorem fenceCall_within (call : FenceCall Stamp E T) : (call.program dates).Within FenceOp.Advances := by
  cases call with
  | reacquire call =>
    exact Program.Within.bind (within_onLeases (leaseCall_within call)) fun outcome => trivial
  | fenced call =>
    refine Program.Within.bind ?_ fun r => trivial
    unfold withLeaseFence readLatestGenerationFromStore
    refine Program.Within.bind (Program.Within.bind (within_onLeases (get_within _)) fun current => trivial) fun latest => ?_
    split
    · trivial
    · refine Program.Within.bind (call.writes.mono fun op hop => ?_) fun v => trivial
      cases op with
      | lease op => exact hop.elim
      | write effect => trivial

end advances

section runs

variable {Stamp E T ι : Type} [DecidableEq Stamp] [DecidableEq ι] {dates : Dates Stamp} {calls : ι → FenceCall Stamp E T}
  {w : FenceWorld Stamp E} {es es' : List (ι × LeaseChoice Stamp)} {i : ι} {taskQueue : JsString} {generation : Nat}

theorem run_within (es : List (ι × LeaseChoice Stamp)) : ∀ i, (((fencedCalls dates calls w).run fenceDb es).thread i).Within FenceOp.Advances :=
  (@Pool.run_within _ _ _ _ _ _ _ _ _ _ FenceOp.Advances (fun _ => True) (fun _ _ _ _ _ => trivial)
    (fun i => fenceCall_within (calls i)) trivial es).1

/-- A lease of a later generation is never undone. -/
theorem NotPast.of_append (h : NotPast ((fencedCalls dates calls w).run fenceDb (es ++ es')).world taskQueue generation) :
    NotPast ((fencedCalls dates calls w).run fenceDb es).world taskQueue generation := by
  intro record hstored
  rw [Pool.run_append] at h
  have hstep : ∀ (w' : FenceWorld Stamp E) (op : FenceOp Stamp E) (d : LeaseChoice Stamp), op.Advances →
      (∃ record', w'.leases.leases.get taskQueue = some record' ∧ record.generation ≤ record'.generation) →
        ∃ record', (fenceDb.exec w' op d).2.leases.leases.get taskQueue = some record' ∧ record.generation ≤ record'.generation := by
    intro w' op d hop hlater
    obtain ⟨record₁, hstored₁, hle₁⟩ := hlater
    obtain ⟨record₂, hstored₂, hle₂⟩ := exec_advances d hop hstored₁
    exact ⟨record₂, hstored₂, hle₁.trans hle₂⟩
  obtain ⟨-, record', hstored', hle⟩ := Pool.run_within hstep (run_within es) ⟨record, hstored, le_rfl⟩ es'
  exact hle.trans (h record' hstored')

/-- The generation that a guarded write takes from the answer of the store. -/
def latestOf : Except DriverError (List (LeaseRecord Stamp)) → Nat
  | .ok rows => match rows.head? with
    | some record => record.generation
    | none => 0
  | .error _ => 0

/-- A guarded write behind its read. -/
def afterFence (call : FencedCall Stamp E T) (latest : Nat) : FenceM Stamp E (FenceOutcome Stamp T) := do
  let r ← (if isFencedStale call.operationGeneration latest then return .error ⟨call.operationGeneration, latest⟩
    else return .ok (← call.performWrite) : FenceM Stamp E (Except FencedWriteError T))
  return .written r

omit [DecidableEq Stamp] in
theorem fencedCall_program (call : FencedCall Stamp E T) :
    ∃ k, call.program = .call (.lease (.select call.taskQueue)) k ∧ ∀ r, k r = afterFence call (latestOf r) := by
  refine ⟨_, rfl, fun r => ?_⟩
  cases r with
  | error cause => rfl
  | ok rows => cases rows <;> rfl

omit [DecidableEq Stamp] in
/-- A write under an older lease than the one it read is refused. -/
theorem afterFence_stale {call : FencedCall Stamp E T} {latest : Nat} (h : isFencedStale call.operationGeneration latest = true) :
    afterFence call latest = .pure (.written (.error ⟨call.operationGeneration, latest⟩)) := by
  unfold afterFence
  rw [if_pos h]
  rfl

/-- A read that does not fail finds the generation of the lease. -/
theorem latestOf_select {d : LeaseChoice Stamp} (hfault : d.fault = .none) {record : LeaseRecord Stamp}
    (hstored : w.leases.leases.get taskQueue = some record) :
    latestOf (fenceDb.exec w (.lease (.select taskQueue)) d).1 = record.generation := by
  unfold fenceDb leasesDb
  simp only [hfault, runLeaseOp, hstored]
  rfl

end runs

/-- A guarded write is fenced in exactly the runs that do not disturb it. -/
theorem fenced_iff_undisturbed {Stamp E T ι : Type} [DecidableEq Stamp] [DecidableEq ι] (dates : Dates Stamp)
    (calls : ι → FenceCall Stamp E T) (w : FenceWorld Stamp E) (schedule : List (ι × LeaseChoice Stamp)) :
    Fenced calls (fencedCalls dates calls w) schedule ↔ Undisturbed calls (fencedCalls dates calls w) schedule := by
  constructor
  · intro h es i d between d' rest call hschedule hcall _ htakes
    have hfenced := h (es ++ (i, d) :: between) i d' rest call (by rw [hschedule]; simp) hcall htakes
    refine ⟨fun _ => hfenced es ((i, d) :: between) rfl, fun _ before after hbetween => ?_⟩
    exact hfenced (es ++ (i, d) :: before) after (by rw [hbetween]; simp)
  · intro h es i d' rest call hschedule hcall htakes before after hes
    have hstart : (fencedCalls dates calls w).thread i = call.program := by
      unfold fencedCalls
      simp only [hcall]
      rfl
    obtain ⟨k, hprogram, hk⟩ := fencedCall_program call
    obtain ⟨-, effect, k', heffect⟩ := id htakes
    rcases Pool.first_move (hstart.trans hprogram) es with hunmoved | ⟨es₁, d, between, rfl, hread, hanswer⟩
    · rw [hunmoved] at heffect
      cases heffect
    · rw [hk] at hanswer
      obtain ⟨hfault, hlater⟩ := h es₁ i d between d' rest call (by rw [hschedule]; simp) hcall (hread.trans hprogram.symm) htakes
      -- behind a refusal there is no effect
      have hfresh : ¬ isFencedStale call.operationGeneration
          (latestOf (fenceDb.exec ((fencedCalls dates calls w).run fenceDb es₁).world (.lease (.select call.taskQueue)) d).1) = true := by
        intro hstale
        rw [afterFence_stale hstale] at hanswer
        have hended := @Pool.run_pure _ _ _ _ _ _ _ _ fenceDb _ _ _ hanswer between
        rw [← Pool.run_append, List.append_assoc, List.singleton_append] at hended
        rw [hended] at heffect
        cases heffect
      have hnot : NotPast ((fencedCalls dates calls w).run fenceDb es₁).world call.taskQueue call.operationGeneration := by
        by_cases hnone : d.fault = .none
        · intro record hstored
          rw [latestOf_select hnone hstored] at hfresh
          unfold isFencedStale at hfresh
          simpa using hfresh
        · exact hfault hnone
      have hend := hlater hnot between [] (by simp)
      rw [hes] at hend
      exact hend.of_append

section standby

/-- The lease of `a`, of generation 1, has expired. -/
def asleep : FenceWorld Int Unit := ⟨⟨unleased.leases.put ⟨str "q", str "a", 0, 100, 1⟩, 150⟩, []⟩

theorem perform_isWrite : (Program.perform (FenceOp.write ()) : FenceM Int Unit Unit).Within FenceOp.IsWrite := Program.within_perform trivial

/-- `a` writes once under its lease, and `b` takes the lease over. -/
def wakers (i : Fin 2) : FenceCall Int Unit Unit :=
  if i = 0 then .fenced ⟨str "q", 1, .perform (FenceOp.write ()), perform_isWrite⟩ else .reacquire (leaseOf (str "b"))

/-- The take-over comes between the read of `a` and its write. -/
def wakeUp : List (Fin 2 × LeaseChoice Int) := [moves 0 150 0, moves 1 150 0, moves 1 150 0, moves 1 150 0, moves 0 150 0]

theorem wakeUp_leases : ((fencedCalls msDates wakers asleep).run fenceDb (wakeUp.take 4)).world.leases.leases.get (str "q") =
    some ⟨str "q", str "b", 150, 250, 2⟩ := by
  decide +kernel

theorem wakeUp_takesEffect : TakesEffect (fencedCalls msDates wakers asleep) (wakeUp.take 4) 0 ⟨0, 150, .none⟩ :=
  ⟨nofun, (), _, rfl⟩

/-- The write of `a` takes effect under generation 1, after `b` has committed generation 2. -/
theorem wakeUp_not_fenced : ¬ Fenced wakers (fencedCalls msDates wakers asleep) wakeUp := by
  intro h
  have hnot := h (wakeUp.take 4) 0 ⟨0, 150, .none⟩ [] _ rfl rfl wakeUp_takesEffect (wakeUp.take 4) [] rfl
  have hle : 2 ≤ 1 := hnot _ wakeUp_leases
  omega

end standby

end sow.worker
