import Sow.Db.InstanceLeases
import Sow.Effect.Interleave

open sow.js sow.effect sow.db

namespace sow.worker

/-- `Date.parse` and `toISOString`, between valid ISO strings and milliseconds. -/
structure Dates (Stamp : Type) where
  parse : Stamp → Int
  toISOString : Int → Stamp
  parse_toISOString : ∀ ms, parse (toISOString ms) = ms

attribute [simp] Dates.parse_toISOString

inductive LeaseAction where
  | acquire
  | passive
  | reacquire
  deriving DecidableEq

structure LeaseDecision (Stamp : Type) where
  action : LeaseAction
  next : Option (LeaseRecord Stamp)

inductive LeaseDecisionErrorCode where
  | lost_race
  | store_fault
  deriving DecidableEq

/-- Every failure carries the passive action. -/
structure LeaseDecisionError where
  code : LeaseDecisionErrorCode
  action : LeaseAction
  message : JsString

structure LeaseDecisionInput (Stamp : Type) where
  taskQueue : JsString
  ownerId : JsString
  now : Stamp
  leaseTtlMs : Int
  current : Option (LeaseRecord Stamp)

structure ReacquireInput (Stamp : Type) where
  taskQueue : JsString
  ownerId : JsString
  now : Stamp
  leaseTtlMs : Int

structure ReacquireOutcome (Stamp : Type) where
  action : LeaseAction
  mayProcess : Bool
  next : Option (LeaseRecord Stamp)

section

variable {Stamp : Type} [DecidableEq Stamp] (dates : Dates Stamp)

def isExpired (record : LeaseRecord Stamp) (now : Stamp) : Bool := dates.parse record.expiresAt ≤ dates.parse now

namespace LeaseStoreAdapter

/-- A miss and a read fault both mean that there is no lease. -/
def get (taskQueue : JsString) : LeaseM Stamp (Option (LeaseRecord Stamp)) := do
  let r ← leases.get taskQueue
  match r with
  | .error _ => pure none
  | .ok record => pure (some record)

/-- A fault is never a win. -/
def compareAndSet (expected : Option (LeaseRecord Stamp)) (next : LeaseRecord Stamp) : LeaseM Stamp Bool := do
  let r ← leases.compareAndSet expected next
  match r with
  | .error _ => pure false
  | .ok won => pure won

end LeaseStoreAdapter

/-- Another instance holds a live lease. -/
def heldByOther (input : LeaseDecisionInput Stamp) : Bool :=
  match input.current with
  | some current => current.ownerId ≠ input.ownerId && !isExpired dates current input.now
  | none => false

/-- The live lease is the caller's own. -/
def ownsLive (input : LeaseDecisionInput Stamp) : Bool :=
  match input.current with
  | some current => current.ownerId = input.ownerId && !isExpired dates current input.now
  | none => false

/-- The record to write: a renewal keeps the generation and the time of the acquisition, a
    fresh acquisition takes the next generation. -/
def nextLease (input : LeaseDecisionInput Stamp) : LeaseRecord Stamp where
  taskQueue := input.taskQueue
  ownerId := input.ownerId
  acquiredAt :=
    match input.current with
    | some current => if ownsLive dates input then current.acquiredAt else input.now
    | none => input.now
  expiresAt := dates.toISOString (dates.parse input.now + input.leaseTtlMs)
  generation :=
    match input.current with
    | some current => if ownsLive dates input then current.generation else current.generation + 1
    | none => 1

def decideLease (input : LeaseDecisionInput Stamp) : LeaseM Stamp (Except LeaseDecisionError (LeaseDecision Stamp)) :=
  if heldByOther dates input then pure (.ok ⟨.passive, none⟩)
  else do
    let action := if ownsLive dates input then LeaseAction.reacquire else .acquire
    let next := nextLease dates input
    let won ← (LeaseStoreAdapter.compareAndSet input.current next).attempt
    match won with
    | .error cause => pure (.error ⟨.store_fault, .passive, str "lease store fault: " ++ cause.message.getD []⟩)
    | .ok won =>
      if won then pure (.ok ⟨action, some next⟩)
      else pure (.error ⟨.lost_race, .passive, str "lost lease compareAndSet race on " ++ input.taskQueue⟩)

/-- `mayProcess` holds for a lease that was acquired or renewed. -/
def outcomeOf : Except LeaseDecisionError (LeaseDecision Stamp) → ReacquireOutcome Stamp
  | .error e => ⟨e.action, false, none⟩
  | .ok d => ⟨d.action, d.action ≠ .passive, d.next⟩

def reacquireLease (input : ReacquireInput Stamp) : LeaseM Stamp (ReacquireOutcome Stamp) := do
  let current ← LeaseStoreAdapter.get input.taskQueue
  let decision ← decideLease dates ⟨input.taskQueue, input.ownerId, input.now, input.leaseTtlMs, current⟩
  pure (outcomeOf decision)

end

/-- An instance that is about to re-acquire the lease. -/
structure LeaseCall where
  taskQueue : JsString
  ownerId : JsString
  leaseTtlMs : Int

namespace LeaseCall

variable {Stamp : Type} [DecidableEq Stamp] (dates : Dates Stamp) (call : LeaseCall)

/-- The arguments of the call once the clock has been read. -/
def input (now : Stamp) : ReacquireInput Stamp := ⟨call.taskQueue, call.ownerId, now, call.leaseTtlMs⟩

/-- The clock is read, and its reading passed on. -/
def program : LeaseM Stamp (ReacquireOutcome Stamp) := do
  let now : Stamp ← .perform LeaseOp.now
  reacquireLease dates (call.input now)

def decision (now : Stamp) (current : Option (LeaseRecord Stamp)) : LeaseDecisionInput Stamp :=
  ⟨call.taskQueue, call.ownerId, now, call.leaseTtlMs, current⟩

end LeaseCall

/-- Where such an instance stands. -/
inductive LeaseState (Stamp : Type) where
  | start
  | reading (now : Stamp)
  | writing (now : Stamp) (current : Option (LeaseRecord Stamp))
  | done (outcome : ReacquireOutcome Stamp)
  | failed (cause : DriverError)

section machine

variable {Stamp : Type} [DecidableEq Stamp] (dates : Dates Stamp) (call : LeaseCall)

/-- The state of an instance that has read the lease. -/
def afterRead (now : Stamp) (current : Option (LeaseRecord Stamp)) : LeaseState Stamp :=
  if heldByOther dates (call.decision now current) then .done ⟨.passive, false, none⟩ else .writing now current

/-- The outcome of an instance whose write has been answered. -/
def afterWrite (now : Stamp) (current : Option (LeaseRecord Stamp)) (won : Bool) : ReacquireOutcome Stamp :=
  if won then
    ⟨if ownsLive dates (call.decision now current) then .reacquire else .acquire, true,
      some (nextLease dates (call.decision now current))⟩
  else ⟨.passive, false, none⟩

/-- The statement of a compare-and-set. -/
def casOp (expected : Option (LeaseRecord Stamp)) (next : LeaseRecord Stamp) : LeaseOp Stamp :=
  match expected with
  | none => .insert next
  | some expected => .update expected next

def leaseCode : LeaseState Stamp → LeaseM Stamp (ReacquireOutcome Stamp)
  | .start => call.program dates
  | .reading now => reacquireLease dates (call.input now)
  | .writing now current => do
    let decision ← decideLease dates (call.decision now current)
    pure (outcomeOf decision)
  | .done outcome => .pure outcome
  | .failed cause => .throw cause

/-- An instance reads the clock, then the lease, and at most writes its record over what it read. -/
def leaseNext (s : LeaseState Stamp) (op : LeaseOp Stamp) (r : Except DriverError op.Ret) : LeaseState Stamp :=
  match s, op, r with
  | .start, .now, .ok now => .reading now
  | .start, _, .error cause => .failed cause
  | .reading now, .select _, .ok rows => afterRead dates call now rows.head?
  | .reading now, _, .error _ => afterRead dates call now none
  | .writing now current, .insert _, .ok rows => .done (afterWrite dates call now current (0 < rows.length))
  | .writing now current, .update _ _, .ok rows => .done (afterWrite dates call now current (0 < rows.length))
  | .writing now current, _, .error _ => .done (afterWrite dates call now current false)
  | s, _, _ => s

variable {dates call} {now : Stamp} {current : Option (LeaseRecord Stamp)}

theorem leaseCode_afterRead : leaseCode dates call (afterRead dates call now current) =
    leaseCode dates call (.writing now current) := by
  unfold afterRead
  by_cases hother : heldByOther dates (call.decision now current) = true
  · rw [if_pos hother, leaseCode, leaseCode, decideLease, if_pos hother]
    rfl
  · rw [if_neg hother]

omit [DecidableEq Stamp] in
theorem outcomeOf_won :
    outcomeOf (.ok ⟨if ownsLive dates (call.decision now current) then .reacquire else .acquire,
      some (nextLease dates (call.decision now current))⟩) = afterWrite dates call now current true := by
  unfold afterWrite
  cases ownsLive dates (call.decision now current) <;> rfl

theorem decideLeaseCas_self (record : LeaseRecord Stamp) : decideLeaseCas (some record) (some record) = true := by
  simp [decideLeaseCas, leaseRecordsEqual]

/-- The write is won when a row comes back. -/
def won (r : Except DriverError (List (LeaseRecord Stamp))) : Bool :=
  match r with
  | .ok rows => 0 < rows.length
  | .error _ => false

theorem compareAndSet_insert (next : LeaseRecord Stamp) :
    LeaseStoreAdapter.compareAndSet none next = .call (.insert next) fun r => .pure (won r) := by
  refine congrArg (Program.call (LeaseOp.insert next)) (funext fun r => ?_)
  cases r with
  | error cause => rfl
  | ok rows => cases rows <;> rfl

theorem compareAndSet_update (expected next : LeaseRecord Stamp) :
    LeaseStoreAdapter.compareAndSet (some expected) next = .call (.update expected next) fun r => .pure (won r) := by
  refine congrArg (Program.call (LeaseOp.update expected next)) (funext fun r => ?_)
  cases r with
  | error cause => rfl
  | ok rows =>
    cases rows with
    | nil => rfl
    | cons row rows => exact congrArg Program.pure (decideLeaseCas_self expected)

/-- An instance that writes is answered by its one statement. -/
theorem leaseCode_writing (hother : ¬ heldByOther dates (call.decision now current) = true) :
    ∃ k, leaseCode dates call (.writing now current) =
        .call (casOp current (nextLease dates (call.decision now current))) k ∧
      ∀ r, k r = leaseCode dates call
        (leaseNext dates call (.writing now current) (casOp current (nextLease dates (call.decision now current))) r) := by
  rw [leaseCode, decideLease, if_neg hother]
  cases current with
  | none =>
    dsimp only [LeaseCall.decision]
    rw [compareAndSet_insert]
    refine ⟨_, rfl, fun r => ?_⟩
    cases r with
    | error cause => rfl
    | ok rows =>
      cases rows with
      | nil => rfl
      | cons row rows => exact congrArg Program.pure outcomeOf_won
  | some expected =>
    dsimp only [LeaseCall.decision]
    rw [compareAndSet_update]
    refine ⟨_, rfl, fun r => ?_⟩
    cases r with
    | error cause => rfl
    | ok rows =>
      cases rows with
      | nil => rfl
      | cons row rows => exact congrArg Program.pure outcomeOf_won

theorem leaseCode_held (hother : heldByOther dates (call.decision now current) = true) :
    leaseCode dates call (.writing now current) = .pure ⟨.passive, false, none⟩ := by
  rw [leaseCode, decideLease, if_pos hother]
  rfl

/-- What a state calls, and how it goes on. -/
theorem leaseCode_call {s : LeaseState Stamp} {op : LeaseOp Stamp}
    {k : Except DriverError op.Ret → LeaseM Stamp (ReacquireOutcome Stamp)} (h : leaseCode dates call s = .call op k) :
    (s = .start ∧ op = .now ∨ (∃ now, s = .reading now ∧ op = .select call.taskQueue) ∨
      ∃ now current, s = .writing now current ∧ ¬ heldByOther dates (call.decision now current) = true ∧
        op = casOp current (nextLease dates (call.decision now current))) ∧
      ∀ r, k r = leaseCode dates call (leaseNext dates call s op r) := by
  cases s with
  | start =>
    obtain ⟨rfl, hk⟩ := Program.call.inj h
    obtain rfl := eq_of_heq hk
    refine ⟨.inl ⟨rfl, rfl⟩, fun r => ?_⟩
    cases r <;> rfl
  | reading now =>
    obtain ⟨rfl, hk⟩ := Program.call.inj h
    obtain rfl := eq_of_heq hk
    refine ⟨.inr (.inl ⟨now, rfl, rfl⟩), fun r => ?_⟩
    cases r with
    | error cause => exact leaseCode_afterRead.symm
    | ok rows =>
      cases rows with
      | nil => exact leaseCode_afterRead.symm
      | cons row rows => exact leaseCode_afterRead.symm
  | writing now current =>
    by_cases hother : heldByOther dates (call.decision now current) = true
    · rw [leaseCode_held hother] at h
      cases h
    · obtain ⟨k', hcode, hk'⟩ := leaseCode_writing hother
      obtain ⟨rfl, hk⟩ := Program.call.inj (hcode.symm.trans h)
      obtain rfl := eq_of_heq hk
      exact ⟨.inr (.inr ⟨now, current, rfl, hother, rfl⟩), hk'⟩
  | done outcome => cases h
  | failed cause => cases h

/-- An instance that re-acquires, as a state machine. -/
def leaseMachine (dates : Dates Stamp) (call : LeaseCall) :
    Machine (LeaseOp Stamp) LeaseOp.Ret DriverError (ReacquireOutcome Stamp) (LeaseState Stamp) where
  code := leaseCode dates call
  next := leaseNext dates call
  resume h := (leaseCode_call h).2

end machine

end sow.worker
