import Sow.Db.Errors
import Sow.Js.Map

open sow.js sow.effect

namespace sow.db

/-- The lease of a task queue. Its instants are ISO strings, compared as texts by the store. -/
structure LeaseRecord (Stamp : Type) where
  taskQueue : JsString
  ownerId : JsString
  acquiredAt : Stamp
  expiresAt : Stamp
  generation : Nat
  deriving DecidableEq

variable {Stamp : Type}

section cas

variable [DecidableEq Stamp]

/-- Equality of every fenced field; two empty slots are equal. -/
def leaseRecordsEqual (a b : Option (LeaseRecord Stamp)) : Bool :=
  match a, b with
  | some a, some b =>
    a.taskQueue = b.taskQueue && a.ownerId = b.ownerId && a.acquiredAt = b.acquiredAt && a.expiresAt = b.expiresAt &&
      a.generation = b.generation
  | a, b => a.isNone && b.isNone

/-- The write wins when the stored record is the expected one. -/
def decideLeaseCas (expected stored : Option (LeaseRecord Stamp)) : Bool := leaseRecordsEqual expected stored

end cas

/-- The statements on the leases table, and the reading of the clock that a caller injects. -/
inductive LeaseOp (Stamp : Type) where
  | now
  /-- `select().where(taskQueue = …).limit(1)` -/
  | select (taskQueue : JsString)
  /-- `insert().values(next).onConflictDoNothing(taskQueue).returning()` -/
  | insert (next : LeaseRecord Stamp)
  /-- `update().set(next).where(every field = expected).returning()` -/
  | update (expected next : LeaseRecord Stamp)

abbrev LeaseOp.Ret : LeaseOp Stamp → Type
  | .now => Stamp
  | .select _ => List (LeaseRecord Stamp)
  | .insert _ => List (LeaseRecord Stamp)
  | .update _ _ => List (LeaseRecord Stamp)

abbrev LeaseM (Stamp : Type) := Program (LeaseOp Stamp) LeaseOp.Ret DriverError

/-- The leases table: at most one record for each task queue. -/
structure LeaseTable (Stamp : Type) where
  rows : Map JsString (LeaseRecord Stamp)
  keyed : ∀ {taskQueue record}, rows.get taskQueue = some record → record.taskQueue = taskQueue

namespace LeaseTable

variable (table : LeaseTable Stamp)

def get (taskQueue : JsString) : Option (LeaseRecord Stamp) := table.rows.get taskQueue

def put (record : LeaseRecord Stamp) : LeaseTable Stamp where
  rows := table.rows.set record.taskQueue record
  keyed {taskQueue record'} h := by
    by_cases hkey : record.taskQueue = taskQueue
    · subst hkey
      rw [Map.get_set_self] at h
      rw [Option.some.inj h]
    · rw [Map.get_set_of_ne _ _ hkey] at h
      exact table.keyed h

theorem get_put_self (record : LeaseRecord Stamp) : (table.put record).get record.taskQueue = some record :=
  Map.get_set_self ..

theorem get_put_of_ne {record : LeaseRecord Stamp} {taskQueue : JsString} (h : record.taskQueue ≠ taskQueue) :
    (table.put record).get taskQueue = table.get taskQueue :=
  Map.get_set_of_ne _ _ h

end LeaseTable

/-- The table, and the time that passes. -/
structure LeaseWorld (Stamp : Type) where
  leases : LeaseTable Stamp
  clock : Int

/-- What may befall a statement. -/
inductive LeaseFault where
  | none
  /-- It fails without having run. -/
  | failed (cause : DriverError)
  /-- It runs, and is reported to have failed. -/
  | unknown (cause : DriverError)

/-- What the environment chooses at a step: how much time has passed, the reading of the
    clock, and the fault. -/
structure LeaseChoice (Stamp : Type) where
  tick : Nat
  reading : Stamp
  fault : LeaseFault

/-- The columns of `next` that an update sets; the key stays. -/
def setLease (row next : LeaseRecord Stamp) : LeaseRecord Stamp := { next with taskQueue := row.taskQueue }

variable [DecidableEq Stamp]

/-- What a statement answers and leaves behind; each is atomic. -/
def runLeaseOp (table : LeaseTable Stamp) (reading : Stamp) : (op : LeaseOp Stamp) → op.Ret × LeaseTable Stamp
  | .now => (reading, table)
  | .select taskQueue => ((table.get taskQueue).toList, table)
  | .insert next => if table.get next.taskQueue = none then ([next], table.put next) else ([], table)
  | .update expected next =>
    if table.get expected.taskQueue = some expected then
      ([setLease expected next], table.put (setLease expected next))
    else ([], table)

def leasesDb : Handler (LeaseOp Stamp) LeaseOp.Ret DriverError (LeaseWorld Stamp) (LeaseChoice Stamp) where
  exec w op d :=
    let r := runLeaseOp w.leases d.reading op
    let later := w.clock + d.tick
    match d.fault with
    | .none => (.ok r.1, ⟨r.2, later⟩)
    | .failed cause => (.error cause, ⟨w.leases, later⟩)
    | .unknown cause => (.error cause, ⟨r.2, later⟩)

namespace leases

def get (taskQueue : JsString) : LeaseM Stamp (DbResult (LeaseRecord Stamp)) := postgres.run do
  let rows : List (LeaseRecord Stamp) ← .perform (LeaseOp.select taskQueue)
  match rows.head? with
  | some row => pure (.ok row)
  | none => pure (.error (notFound (str "lease " ++ taskQueue)))

def compareAndSet (expected : Option (LeaseRecord Stamp)) (next : LeaseRecord Stamp) : LeaseM Stamp (DbResult Bool) :=
  postgres.run do
    match expected with
    | none =>
      let inserted : List (LeaseRecord Stamp) ← .perform (LeaseOp.insert next)
      pure (.ok (decideLeaseCas none (if inserted.length > 0 then none else some next)))
    | some expected =>
      let rows : List (LeaseRecord Stamp) ← .perform (LeaseOp.update expected next)
      pure (.ok (decideLeaseCas (some expected) (if rows.length > 0 then some expected else none)))

end leases

end sow.db
