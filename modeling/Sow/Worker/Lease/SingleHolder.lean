import Sow.Worker.Lease.InstanceLease

open sow.js sow.effect sow.db

namespace sow.worker

variable {Stamp : Type} {dates : Dates Stamp}

section writing

variable [DecidableEq Stamp] {call : LeaseCall} {now : Stamp} {current : Option (LeaseRecord Stamp)} {next : LeaseRecord Stamp}

variable (dates call now) in
/-- A compare-and-set finds the record it expects and puts its own in its place, or does nothing. -/
theorem run_casOp (table : LeaseTable Stamp) (reading : Stamp) (hkey : ∀ e, current = some e → e.taskQueue = next.taskQueue) :
    table.get next.taskQueue = current ∧ (runLeaseOp table reading (casOp current next)).2 = table.put next ∧
        leaseNext dates call (.writing now current) (casOp current next) (.ok (runLeaseOp table reading (casOp current next)).1) =
          .done (afterWrite dates call now current true) ∨
      table.get next.taskQueue ≠ current ∧ (runLeaseOp table reading (casOp current next)).2 = table ∧
        leaseNext dates call (.writing now current) (casOp current next) (.ok (runLeaseOp table reading (casOp current next)).1) =
          .done (afterWrite dates call now current false) := by
  cases current with
  | none =>
    by_cases hempty : table.get next.taskQueue = none
    · simp [casOp, runLeaseOp, hempty, leaseNext]
    · simp [casOp, runLeaseOp, hempty, leaseNext]
  | some e =>
    have he : e.taskQueue = next.taskQueue := hkey e rfl
    by_cases hexpected : table.get next.taskQueue = some e
    · have hset : setLease e next = next := by rw [setLease, he]
      simp [casOp, runLeaseOp, he, hexpected, hset, leaseNext]
    · simp [casOp, runLeaseOp, he, hexpected, leaseNext]

variable (dates call now) in
/-- What the write of an instance leaves behind, whatever befalls it. -/
theorem exec_casOp (w : LeaseWorld Stamp) (d : LeaseChoice Stamp) (hkey : ∀ e, current = some e → e.taskQueue = next.taskQueue) :
    (leasesDb.exec w (casOp current next) d).2.clock = w.clock + d.tick ∧
      ((leasesDb.exec w (casOp current next) d).2.leases = w.leases ∧
          leaseNext dates call (.writing now current) (casOp current next) (leasesDb.exec w (casOp current next) d).1 =
            .done (afterWrite dates call now current false) ∨
        w.leases.get next.taskQueue = current ∧ (leasesDb.exec w (casOp current next) d).2.leases = w.leases.put next ∧
          ∃ won, leaseNext dates call (.writing now current) (casOp current next) (leasesDb.exec w (casOp current next) d).1 =
            .done (afterWrite dates call now current won)) := by
  have hfault : ∀ cause, leaseNext dates call (.writing now current) (casOp current next) (.error cause) =
      .done (afterWrite dates call now current false) := by
    intro cause
    cases current <;> rfl
  have hrun := run_casOp dates call now w.leases d.reading hkey
  unfold leasesDb
  dsimp only
  cases d.fault with
  | none =>
    refine ⟨rfl, ?_⟩
    rcases hrun with ⟨hget, hput, hnext⟩ | ⟨-, hput, hnext⟩
    · exact .inr ⟨hget, hput, true, hnext⟩
    · exact .inl ⟨hput, hnext⟩
  | failed cause => exact ⟨rfl, .inl ⟨rfl, hfault cause⟩⟩
  | unknown cause =>
    refine ⟨rfl, ?_⟩
    rcases hrun with ⟨hget, hput, -⟩ | ⟨-, hput, -⟩
    · exact .inr ⟨hget, hput, false, hfault cause⟩
    · exact .inl ⟨hput, hfault cause⟩

end writing

section run

variable [DecidableEq Stamp] {ι : Type} [DecidableEq ι] (dates : Dates Stamp) (calls : ι → LeaseCall)

/-- Instances that re-acquire leases concurrently. -/
abbrev LeasePool (ι Stamp : Type) [DecidableEq Stamp] :=
  Pool ι (LeaseOp Stamp) LeaseOp.Ret DriverError (ReacquireOutcome Stamp) (LeaseWorld Stamp)

/-- The instances before any of them has moved. -/
def instances (w : LeaseWorld Stamp) : LeasePool ι Stamp := ⟨fun i => (calls i).program dates, w⟩

/-- A leave to process, as its holder has it in memory. -/
structure Verdict (Stamp : Type) where
  taskQueue : JsString
  ownerId : JsString
  since : Int
  until_ : Int

/-- The step at which instance `i` returns `mayProcess`, with the record it has committed. -/
structure Returns (c : LeasePool ι Stamp) (es : List (ι × LeaseChoice Stamp)) (i : ι) (d : LeaseChoice Stamp)
    (record : LeaseRecord Stamp) : Prop where
  pending : ∀ outcome, (c.run leasesDb es).thread i ≠ .pure outcome
  returned : ∃ action, (c.run leasesDb (es ++ [(i, d)])).thread i = .pure ⟨action, true, some record⟩

/-- A verdict holds from the moment it is given until its record expires. -/
def Given (c : LeasePool ι Stamp) (schedule : List (ι × LeaseChoice Stamp)) (v : Verdict Stamp) : Prop :=
  ∃ es i d es' record, schedule = es ++ (i, d) :: es' ∧ Returns c es i d record ∧
    v = ⟨(calls i).taskQueue, (calls i).ownerId, (c.run leasesDb (es ++ [(i, d)])).world.clock, dates.parse record.expiresAt⟩

def Overlap (v v' : Verdict Stamp) : Prop := ∃ t, v.since ≤ t ∧ t < v.until_ ∧ v'.since ≤ t ∧ t < v'.until_

/-- Every instance is given a reading of the one clock. -/
def CommonClock (c : LeasePool ι Stamp) (schedule : List (ι × LeaseChoice Stamp)) : Prop :=
  ∀ es i d es', schedule = es ++ (i, d) :: es' → (c.run leasesDb es).thread i = (calls i).program dates →
    dates.parse d.reading = (c.run leasesDb es).world.clock

/-- No instance reads a live lease of its own that expires later than the time it was given
    plus its time to live. -/
def RenewalsExtend (c : LeasePool ι Stamp) (schedule : List (ι × LeaseChoice Stamp)) : Prop :=
  ∀ es i d es', schedule = es ++ (i, d) :: es' → ∀ now record,
    (c.run leasesDb es).thread i = reacquireLease dates ((calls i).input now) →
      (c.run leasesDb es).world.leases.get (calls i).taskQueue = some record → record.ownerId = (calls i).ownerId →
        isExpired dates record now = false → dates.parse record.expiresAt ≤ dates.parse now + (calls i).leaseTtlMs

/-- The lease has a single holder throughout the run. -/
structure SingleHolder (c : LeasePool ι Stamp) (schedule : List (ι × LeaseChoice Stamp)) : Prop where
  generation : ∀ es es' es'', schedule = es ++ (es' ++ es'') → ∀ taskQueue record,
    (c.run leasesDb es).world.leases.get taskQueue = some record →
      ∃ record', (c.run leasesDb (es ++ es')).world.leases.get taskQueue = some record' ∧
        record.generation ≤ record'.generation ∧ (record'.generation = record.generation → record'.ownerId = record.ownerId)
  disjoint : CommonClock dates calls c schedule → ∀ v v', Given dates calls c schedule v → Given dates calls c schedule v' →
    v.taskQueue = v'.taskQueue → v.ownerId ≠ v'.ownerId → ¬ Overlap v v'

end run

section invariant

/-- What an instance has read is so; `timed` runs are those with a common clock in which
    renewals extend. -/
structure Informed (dates : Dates Stamp) (call : LeaseCall) (timed : Prop) (clock : Int) (s : LeaseState Stamp) : Prop where
  read : ∀ now, timed → s = .reading now → dates.parse now ≤ clock
  written : ∀ now current, timed → s = .writing now current → dates.parse now ≤ clock
  queue : ∀ now record, s = .writing now (some record) → record.taskQueue = call.taskQueue
  extends_ : ∀ now record, timed → s = .writing now (some record) → ownsLive dates (call.decision now (some record)) = true →
    dates.parse record.expiresAt ≤ dates.parse now + call.leaseTtlMs

/-- The condition of a timed run, on one step. -/
structure Timely (dates : Dates Stamp) (call : LeaseCall) (s : LeaseState Stamp) (w : LeaseWorld Stamp)
    (d : LeaseChoice Stamp) : Prop where
  reading : s = .start → dates.parse d.reading = w.clock
  renewal : ∀ now record, s = .reading now → w.leases.get call.taskQueue = some record →
    record.ownerId = call.ownerId → isExpired dates record now = false →
      dates.parse record.expiresAt ≤ dates.parse now + call.leaseTtlMs

/-- What a step of an instance does to its state and to the table. -/
inductive LeaseStep (dates : Dates Stamp) (call : LeaseCall) (table : LeaseTable Stamp) (reading : Stamp) :
    LeaseState Stamp → LeaseState Stamp → LeaseTable Stamp → Prop
  | clock : LeaseStep dates call table reading .start (.reading reading) table
  | noClock (cause : DriverError) : LeaseStep dates call table reading .start (.failed cause) table
  | read (now : Stamp) (current : Option (LeaseRecord Stamp)) (hread : current = none ∨ current = table.get call.taskQueue) :
    LeaseStep dates call table reading (.reading now) (afterRead dates call now current) table
  | lost (now : Stamp) (current : Option (LeaseRecord Stamp)) :
    LeaseStep dates call table reading (.writing now current) (.done (afterWrite dates call now current false)) table
  | committed (now : Stamp) (current : Option (LeaseRecord Stamp)) (won : Bool) (hget : table.get call.taskQueue = current)
      (hother : ¬ heldByOther dates (call.decision now current) = true) :
    LeaseStep dates call table reading (.writing now current) (.done (afterWrite dates call now current won))
      (table.put (nextLease dates (call.decision now current)))

/-- What follows a committed record: later generations, or renewals of it by its owner. -/
structure Succeeds (dates : Dates Stamp) (timed : Prop) (record : LeaseRecord Stamp) (w : LeaseWorld Stamp)
    (record' : LeaseRecord Stamp) : Prop where
  stored : w.leases.get record.taskQueue = some record'
  generation : record.generation ≤ record'.generation
  owner : record'.generation = record.generation → record'.ownerId = record.ownerId
  renewed : timed → record'.generation = record.generation → dates.parse record.expiresAt ≤ dates.parse record'.expiresAt
  expired : timed → record.generation < record'.generation → dates.parse record.expiresAt ≤ w.clock

variable {call : LeaseCall} {timed : Prop} {s s' : LeaseState Stamp} {w : LeaseWorld Stamp} {d : LeaseChoice Stamp}

theorem Informed.mono {clock clock' : Int} (h : Informed dates call timed clock s) (hclock : clock ≤ clock') :
    Informed dates call timed clock' s where
  read now htimed hs := le_trans (h.read now htimed hs) hclock
  written now current htimed hs := le_trans (h.written now current htimed hs) hclock
  queue := h.queue
  extends_ := h.extends_

theorem Informed.start (clock : Int) : Informed dates call timed clock .start where
  read _ _ hs := by cases hs
  written _ _ _ hs := by cases hs
  queue _ _ hs := by cases hs
  extends_ _ _ _ hs := by cases hs

theorem Informed.ended {clock : Int} (hreading : ∀ now, s ≠ .reading now) (hwriting : ∀ now current, s ≠ .writing now current) :
    Informed dates call timed clock s where
  read now _ hs := absurd hs (hreading now)
  written now current _ hs := absurd hs (hwriting now current)
  queue now _ hs := absurd hs (hwriting now _)
  extends_ now _ _ hs := absurd hs (hwriting now _)

theorem afterRead_writing {now now' : Stamp} {current current' : Option (LeaseRecord Stamp)}
    (h : afterRead dates call now current = .writing now' current') : now' = now ∧ current' = current := by
  unfold afterRead at h
  split at h
  · cases h
  · cases h
    exact ⟨rfl, rfl⟩

theorem afterRead_ne_reading {now now' : Stamp} {current : Option (LeaseRecord Stamp)} :
    afterRead dates call now current ≠ .reading now' := by
  unfold afterRead
  split <;> exact nofun

theorem ownsLive_iff {now : Stamp} {record : LeaseRecord Stamp} :
    ownsLive dates (call.decision now (some record)) = true ↔ record.ownerId = call.ownerId ∧ isExpired dates record now = false := by
  unfold ownsLive LeaseCall.decision
  rw [Bool.and_eq_true, decide_eq_true_iff, Bool.not_eq_true']

theorem heldByOther_iff {now : Stamp} {record : LeaseRecord Stamp} :
    heldByOther dates (call.decision now (some record)) = true ↔ record.ownerId ≠ call.ownerId ∧ isExpired dates record now = false := by
  unfold heldByOther LeaseCall.decision
  rw [Bool.and_eq_true, decide_eq_true_iff, Bool.not_eq_true']

/-- Only an expired lease is taken over. -/
theorem expired_of_takeover {now : Stamp} {record : LeaseRecord Stamp}
    (hother : ¬ heldByOther dates (call.decision now (some record)) = true)
    (howns : ¬ ownsLive dates (call.decision now (some record)) = true) :
    dates.parse record.expiresAt ≤ dates.parse now := by
  by_contra hlive
  have hexpired : isExpired dates record now = false := by simpa [isExpired] using hlive
  by_cases howner : record.ownerId = call.ownerId
  · exact howns (ownsLive_iff.mpr ⟨howner, hexpired⟩)
  · exact hother (heldByOther_iff.mpr ⟨howner, hexpired⟩)

variable {record record' : LeaseRecord Stamp}

theorem Succeeds.refl (hstored : w.leases.get record.taskQueue = some record) : Succeeds dates timed record w record where
  stored := hstored
  generation := le_refl _
  owner _ := rfl
  renewed _ _ := le_refl _
  expired _ hlt := absurd hlt (lt_irrefl _)

/-- The lease of another queue, or of a step that writes nothing. -/
theorem Succeeds.unchanged {w' : LeaseWorld Stamp} (h : Succeeds dates timed record w record')
    (hget : w'.leases.get record.taskQueue = w.leases.get record.taskQueue) (hclock : w.clock ≤ w'.clock) :
    Succeeds dates timed record w' record' where
  stored := hget.trans h.stored
  generation := h.generation
  owner := h.owner
  renewed := h.renewed
  expired htimed hlt := le_trans (h.expired htimed hlt) hclock

/-- A renewal follows the lease it renews. -/
theorem Succeeds.renewal {w' : LeaseWorld Stamp} {now : Stamp} (h : Succeeds dates timed record w record')
    (howns : ownsLive dates (call.decision now (some record')) = true) (hclock : w.clock ≤ w'.clock)
    (hextends : timed → dates.parse record'.expiresAt ≤ dates.parse now + call.leaseTtlMs)
    (hstored : w'.leases.get record.taskQueue = some (nextLease dates (call.decision now (some record')))) :
    Succeeds dates timed record w' (nextLease dates (call.decision now (some record'))) := by
  have hgeneration : (nextLease dates (call.decision now (some record'))).generation = record'.generation := if_pos howns
  have howner : (nextLease dates (call.decision now (some record'))).ownerId = record'.ownerId := (ownsLive_iff.mp howns).1.symm
  constructor
  case stored => exact hstored
  case generation => exact hgeneration ▸ h.generation
  case owner => exact fun hsame => howner.trans (h.owner (hgeneration.symm.trans hsame))
  case renewed =>
    intro htimed hsame
    calc dates.parse record.expiresAt
        ≤ dates.parse record'.expiresAt := h.renewed htimed (hgeneration.symm.trans hsame)
      _ ≤ dates.parse now + call.leaseTtlMs := hextends htimed
      _ = dates.parse (nextLease dates (call.decision now (some record'))).expiresAt := (dates.parse_toISOString _).symm
  case expired =>
    intro htimed hlt
    rw [hgeneration] at hlt
    exact le_trans (h.expired htimed hlt) hclock

/-- A take-over follows the lease that has expired. -/
theorem Succeeds.takeover {w' : LeaseWorld Stamp} {now : Stamp} (h : Succeeds dates timed record w record')
    (howns : ¬ ownsLive dates (call.decision now (some record')) = true) (hclock : w.clock ≤ w'.clock)
    (hexpired : timed → dates.parse record'.expiresAt ≤ w.clock)
    (hstored : w'.leases.get record.taskQueue = some (nextLease dates (call.decision now (some record')))) :
    Succeeds dates timed record w' (nextLease dates (call.decision now (some record'))) := by
  have hgeneration : (nextLease dates (call.decision now (some record'))).generation = record'.generation + 1 := if_neg howns
  have hlater : record.generation < (nextLease dates (call.decision now (some record'))).generation := by
    rw [hgeneration]
    exact Nat.lt_succ_of_le h.generation
  constructor
  case stored => exact hstored
  case generation => exact hlater.le
  case owner => exact fun hsame => absurd hsame hlater.ne'
  case renewed => exact fun _ hsame => absurd hsame hlater.ne'
  case expired =>
    intro htimed _
    rcases h.generation.eq_or_lt with hsame | hlt
    · exact le_trans (le_trans (h.renewed htimed hsame.symm) (hexpired htimed)) hclock
    · exact le_trans (h.expired htimed hlt) hclock

theorem Informed.step {table : LeaseTable Stamp} (h : Informed dates call timed w.clock s)
    (hstep : LeaseStep dates call w.leases d.reading s s' table) (htimely : timed → Timely dates call s w d) :
    Informed dates call timed w.clock s' := by
  cases hstep with
  | clock =>
    refine ⟨fun now htimed hs => ?_, nofun, nofun, nofun⟩
    obtain rfl := LeaseState.reading.inj hs
    exact le_of_eq ((htimely htimed).reading rfl)
  | noClock cause => exact .ended nofun nofun
  | read now current hread =>
    have hstored : ∀ {record}, current = some record → w.leases.get call.taskQueue = some record := by
      intro record hrecord
      rcases hread with hnone | hget
      · rw [hnone] at hrecord
        cases hrecord
      · exact hget.symm.trans hrecord
    constructor
    case read =>
      intro now' htimed hs
      exact absurd hs afterRead_ne_reading
    case written =>
      intro now' current' htimed hs
      obtain ⟨rfl, -⟩ := afterRead_writing hs
      exact h.read now' htimed rfl
    case queue =>
      intro now' record hs
      obtain ⟨-, hrecord⟩ := afterRead_writing hs
      exact w.leases.keyed (hstored hrecord.symm)
    case extends_ =>
      intro now' record htimed hs howns
      obtain ⟨rfl, hrecord⟩ := afterRead_writing hs
      obtain ⟨howner, hlive⟩ := ownsLive_iff.mp howns
      exact (htimely htimed).renewal now' record rfl (hstored hrecord.symm) howner hlive
  | lost now current => exact .ended nofun nofun
  | committed now current won hget hother => exact .ended nofun nofun

theorem Succeeds.step {w' : LeaseWorld Stamp} (h : Succeeds dates timed record w record')
    (hinformed : Informed dates call timed w.clock s) (hstep : LeaseStep dates call w.leases d.reading s s' w'.leases)
    (hclock : w.clock ≤ w'.clock) : ∃ record'', Succeeds dates timed record w' record'' := by
  generalize htable : w'.leases = table at hstep
  cases hstep with
  | clock => exact ⟨record', h.unchanged (by rw [htable]) hclock⟩
  | noClock cause => exact ⟨record', h.unchanged (by rw [htable]) hclock⟩
  | read now current hread => exact ⟨record', h.unchanged (by rw [htable]) hclock⟩
  | lost now current => exact ⟨record', h.unchanged (by rw [htable]) hclock⟩
  | committed now current won hget hother =>
    by_cases hqueue : call.taskQueue = record.taskQueue
    · obtain rfl : current = some record' := by rw [← hget, hqueue, h.stored]
      have hstored : w'.leases.get record.taskQueue = some (nextLease dates (call.decision now (some record'))) := by
        rw [htable, ← hqueue]
        exact w.leases.get_put_self _
      by_cases howns : ownsLive dates (call.decision now (some record')) = true
      · exact ⟨_, h.renewal howns hclock (fun htimed => hinformed.extends_ now record' htimed rfl howns) hstored⟩
      · have hexpired := expired_of_takeover hother howns
        exact ⟨_, h.takeover howns hclock (fun htimed => le_trans hexpired (hinformed.written now _ htimed rfl)) hstored⟩
    · have hget' : w'.leases.get record.taskQueue = w.leases.get record.taskQueue := by
        rw [htable]
        exact w.leases.get_put_of_ne hqueue
      exact ⟨record', h.unchanged hget' hclock⟩

section step

variable [DecidableEq Stamp]

variable (dates call w d) in
theorem exec_select (now : Stamp) :
    (leasesDb.exec w (.select call.taskQueue) d).2.leases = w.leases ∧
      ∃ current, (current = none ∨ current = w.leases.get call.taskQueue) ∧
        leaseNext dates call (.reading now) (.select call.taskQueue) (leasesDb.exec w (.select call.taskQueue) d).1 =
          afterRead dates call now current := by
  unfold leasesDb
  dsimp only
  cases d.fault with
  | none =>
    refine ⟨rfl, w.leases.get call.taskQueue, .inr rfl, ?_⟩
    change afterRead dates call now (w.leases.get call.taskQueue).toList.head? = _
    rw [Option.head?_toList]
  | failed cause => exact ⟨rfl, none, .inl rfl, rfl⟩
  | unknown cause => exact ⟨rfl, none, .inl rfl, rfl⟩

variable (dates call w d) in
theorem exec_now :
    (leasesDb.exec w .now d).2.leases = w.leases ∧
      (leaseNext dates call .start .now (leasesDb.exec w .now d).1 = .reading d.reading ∨
        ∃ cause, leaseNext dates call .start .now (leasesDb.exec w .now d).1 = .failed cause) := by
  unfold leasesDb
  dsimp only
  cases d.fault with
  | none => exact ⟨rfl, .inl rfl⟩
  | failed cause => exact ⟨rfl, .inr ⟨cause, rfl⟩⟩
  | unknown cause => exact ⟨rfl, .inr ⟨cause, rfl⟩⟩

theorem exec_clock (op : LeaseOp Stamp) : (leasesDb.exec w op d).2.clock = w.clock + d.tick := by
  unfold leasesDb
  dsimp only
  cases d.fault <;> rfl

/-- A call of an instance is one of these steps. -/
theorem leaseStep_of_call {op : LeaseOp Stamp} {k : Except DriverError op.Ret → LeaseM Stamp (ReacquireOutcome Stamp)}
    (hinformed : Informed dates call timed w.clock s) (hcall : leaseCode dates call s = .call op k) :
    LeaseStep dates call w.leases d.reading s (leaseNext dates call s op (leasesDb.exec w op d).1)
      (leasesDb.exec w op d).2.leases := by
  rcases (leaseCode_call hcall).1 with ⟨rfl, rfl⟩ | ⟨now, rfl, rfl⟩ | ⟨now, current, rfl, hother, rfl⟩
  · obtain ⟨hleases, hnext | ⟨cause, hnext⟩⟩ := exec_now dates call w d
    · rw [hleases, hnext]
      exact .clock
    · rw [hleases, hnext]
      exact .noClock cause
  · obtain ⟨hleases, current, hread, hnext⟩ := exec_select dates call w d now
    rw [hleases, hnext]
    exact .read now current hread
  · have hkey : ∀ e, current = some e → e.taskQueue = (nextLease dates (call.decision now current)).taskQueue := by
      intro e he
      subst he
      exact hinformed.queue now e rfl
    rcases (exec_casOp dates call now w d hkey).2 with ⟨hleases, hnext⟩ | ⟨hget, hleases, won, hnext⟩
    · rw [hleases, hnext]
      exact .lost now current
    · rw [hleases, hnext]
      exact .committed now current won hget hother

end step

end invariant

section runs

variable [DecidableEq Stamp] {ι : Type} [DecidableEq ι] {calls : ι → LeaseCall} {timed : Prop}
  {c : LeasePool ι Stamp} {schedule es es' : List (ι × LeaseChoice Stamp)} {i : ι} {d : LeaseChoice Stamp}
  {s : ι → LeaseState Stamp} {w : LeaseWorld Stamp}

/-- Every instance of the pool has left the code of its state. -/
abbrev Running (dates : Dates Stamp) (calls : ι → LeaseCall) (c : LeasePool ι Stamp) (s : ι → LeaseState Stamp) : Prop :=
  c.Executes (fun i => leaseMachine dates (calls i)) s

/-- A run with a common clock in which renewals extend. -/
def Timed (dates : Dates Stamp) (calls : ι → LeaseCall) (c : LeasePool ι Stamp) (schedule : List (ι × LeaseChoice Stamp)) : Prop :=
  CommonClock dates calls c schedule ∧ RenewalsExtend dates calls c schedule

theorem Timed.timely (h : Timed dates calls c schedule) (hschedule : schedule = es ++ (i, d) :: es')
    (hrunning : Running dates calls (c.run leasesDb es) s) : Timely dates (calls i) (s i) (c.run leasesDb es).world d where
  reading hs := h.1 es i d es' hschedule ((hrunning i).trans (congrArg (leaseCode dates (calls i)) hs))
  renewal now record hs := h.2 es i d es' hschedule now record ((hrunning i).trans (congrArg (leaseCode dates (calls i)) hs))

/-- A step of the pool: it informs the instance that moves, and a committed record is
    followed by another. -/
theorem informed_step {op : LeaseOp Stamp} {k : Except DriverError op.Ret → LeaseM Stamp (ReacquireOutcome Stamp)}
    (hinformed : ∀ j, Informed dates (calls j) timed w.clock (s j)) (hcall : leaseCode dates (calls i) (s i) = .call op k)
    (htimely : timed → Timely dates (calls i) (s i) w d) :
    ∀ j, Informed dates (calls j) timed (leasesDb.exec w op d).2.clock
      (Function.update s i (leaseNext dates (calls i) (s i) op (leasesDb.exec w op d).1) j) := by
  have hclock : w.clock ≤ (leasesDb.exec w op d).2.clock := by
    rw [exec_clock]
    omega
  intro j
  by_cases hj : j = i
  · subst hj
    rw [Function.update_self]
    exact ((hinformed j).step (leaseStep_of_call (hinformed j) hcall) htimely).mono hclock
  · rw [Function.update_of_ne hj]
    exact (hinformed j).mono hclock

omit [DecidableEq ι] in
theorem succeeds_step {op : LeaseOp Stamp} {k : Except DriverError op.Ret → LeaseM Stamp (ReacquireOutcome Stamp)}
    {record record' : LeaseRecord Stamp} (hinformed : ∀ j, Informed dates (calls j) timed w.clock (s j))
    (hcall : leaseCode dates (calls i) (s i) = .call op k) (h : Succeeds dates timed record w record') :
    ∃ record'', Succeeds dates timed record (leasesDb.exec w op d).2 record'' := by
  refine h.step (hinformed i) (leaseStep_of_call (hinformed i) hcall) ?_
  rw [exec_clock]
  omega

/-- What the instances have read stays so along a run. -/
theorem run_informed (hrunning : Running dates calls c s) (hinformed : ∀ j, Informed dates (calls j) timed c.world.clock (s j))
    (htimed : timed → Timed dates calls c es) :
    ∃ s', Running dates calls (c.run leasesDb es) s' ∧ ∀ j, Informed dates (calls j) timed (c.run leasesDb es).world.clock (s' j) :=
  hrunning.invariant (fun s w i d => timed → Timely dates (calls i) (s i) w d)
    (fun s w => ∀ j, Informed dates (calls j) timed w.clock (s j)) hinformed
    (fun _ _ _ _ _ _ h hcall htimely => informed_step h hcall htimely) es
    fun _ _ _ _ hes _ hrun hon => (htimed hon).timely hes hrun

/-- A committed record is followed by another along a run. -/
theorem run_succeeds {record record' : LeaseRecord Stamp} (hrunning : Running dates calls c s)
    (hinformed : ∀ j, Informed dates (calls j) timed c.world.clock (s j)) (htimed : timed → Timed dates calls c es)
    (h : Succeeds dates timed record c.world record') : ∃ record'', Succeeds dates timed record (c.run leasesDb es).world record'' := by
  have hrun := hrunning.invariant (fun s w i d => timed → Timely dates (calls i) (s i) w d)
    (fun s w => (∀ j, Informed dates (calls j) timed w.clock (s j)) ∧ ∃ record'', Succeeds dates timed record w record'')
    ⟨hinformed, record', h⟩
    (fun s w i op k d h hcall htimely => ⟨informed_step h.1 hcall htimely, h.2.elim fun _ hs => succeeds_step h.1 hcall hs⟩) es
    fun _ _ _ _ hes _ hrun hon => (htimed hon).timely hes hrun
  obtain ⟨-, -, -, hsucceeds⟩ := hrun
  exact hsucceeds

theorem Timed.of_append (h : Timed dates calls c (es ++ es')) :
    Timed dates calls c es ∧ Timed dates calls (c.run leasesDb es) es' := by
  refine ⟨⟨?_, ?_⟩, ?_, ?_⟩
  · intro es₁ i d es₂ hes
    exact h.1 es₁ i d (es₂ ++ es') (by rw [hes]; simp)
  · intro es₁ i d es₂ hes
    exact h.2 es₁ i d (es₂ ++ es') (by rw [hes]; simp)
  · intro es₁ i d es₂ hes
    rw [← Pool.run_append]
    exact h.1 (es ++ es₁) i d es₂ (by rw [hes]; simp)
  · intro es₁ i d es₂ hes
    rw [← Pool.run_append]
    exact h.2 (es ++ es₁) i d es₂ (by rw [hes]; simp)

theorem afterRead_ne_won {now : Stamp} {current : Option (LeaseRecord Stamp)} {action : LeaseAction} {record : LeaseRecord Stamp}
    {call : LeaseCall} :
    leaseCode dates call (afterRead dates call now current) ≠ .pure ⟨action, true, some record⟩ := by
  rw [leaseCode_afterRead]
  by_cases hother : heldByOther dates (call.decision now current) = true
  · rw [leaseCode_held hother]
    exact fun h => nomatch h
  · obtain ⟨k, hcode, -⟩ := leaseCode_writing hother
    rw [hcode]
    exact fun h => nomatch h

/-- An instance that returns `mayProcess` has committed its own record at that step. -/
theorem Returns.committed {record : LeaseRecord Stamp} (h : Returns c es i d record)
    (hrunning : Running dates calls (c.run leasesDb es) s)
    (hinformed : Informed dates (calls i) timed (c.run leasesDb es).world.clock (s i)) :
    record.taskQueue = (calls i).taskQueue ∧ record.ownerId = (calls i).ownerId ∧
      (c.run leasesDb (es ++ [(i, d)])).world.leases.get (calls i).taskQueue = some record := by
  obtain ⟨action, hreturned⟩ := h.returned
  rw [Pool.run_concat] at hreturned ⊢
  rcases (c.run leasesDb es).step_cases i d with hidle | ⟨op, k, hcall, hmove⟩
  · rw [hidle] at hreturned
    exact absurd hreturned (h.pending _)
  · rw [hmove] at hreturned ⊢
    have hcode := (hrunning i).symm.trans hcall
    have hstep := leaseStep_of_call hinformed (d := d) hcode
    have hafter : leaseCode dates (calls i) (leaseNext dates (calls i) (s i) op (leasesDb.exec (c.run leasesDb es).world op d).1) =
        .pure ⟨action, true, some record⟩ := by
      rw [← (leaseCode_call hcode).2, ← hreturned]
      exact (Function.update_self i _ (c.run leasesDb es).thread).symm
    generalize leaseNext dates (calls i) (s i) op (leasesDb.exec (c.run leasesDb es).world op d).1 = s' at hstep hafter
    generalize hs : s i = state at hstep
    dsimp only
    generalize (leasesDb.exec (c.run leasesDb es).world op d).2.leases = table at hstep
    cases hstep with
    | clock => exact nomatch hafter
    | noClock cause => exact nomatch hafter
    | read now current hread => exact absurd hafter afterRead_ne_won
    | lost now current => exact nomatch hafter
    | committed now current won hget hother =>
      cases won with
      | false => exact nomatch hafter
      | true =>
        obtain rfl : nextLease dates ((calls i).decision now current) = record :=
          Option.some.inj (congrArg ReacquireOutcome.next (Program.pure.inj hafter))
        exact ⟨rfl, rfl, LeaseTable.get_put_self ..⟩

variable (dates calls w es timed) in
/-- The instances before any of them has moved have read nothing. -/
theorem informed_prefix (htimed : timed → Timed dates calls (instances dates calls w) es) :
    ∃ s, Running dates calls ((instances dates calls w).run leasesDb es) s ∧
      ∀ j, Informed dates (calls j) timed ((instances dates calls w).run leasesDb es).world.clock (s j) := by
  have hrunning : Running dates calls (instances dates calls w) fun _ => .start := fun _ => rfl
  exact run_informed hrunning (fun _ => .start _) htimed

/-- A verdict of another owner is given when the earlier one has expired. -/
theorem Returns.expired {j : ι} {d' : LeaseChoice Stamp} {record record' : LeaseRecord Stamp}
    (htimed : Timed dates calls (instances dates calls w) (es ++ (i, d) :: (es' ++ [(j, d')])))
    (h : Returns (instances dates calls w) es i d record)
    (h' : Returns (instances dates calls w) (es ++ (i, d) :: es') j d' record')
    (hqueue : (calls j).taskQueue = (calls i).taskQueue) (howner : (calls j).ownerId ≠ (calls i).ownerId) :
    dates.parse record.expiresAt ≤
      ((instances dates calls w).run leasesDb (es ++ (i, d) :: es' ++ [(j, d')])).world.clock := by
  have hsplit : es ++ (i, d) :: (es' ++ [(j, d')]) = es ++ [(i, d)] ++ (es' ++ [(j, d')]) := by simp
  have hsplit' : es ++ (i, d) :: (es' ++ [(j, d')]) = es ++ (i, d) :: es' ++ [(j, d')] := by simp
  obtain ⟨s, hrunning, hinformed⟩ := informed_prefix dates calls True es w fun _ => htimed.of_append.1
  obtain ⟨hkey, hholder, hstored⟩ := h.committed hrunning (hinformed i)
  obtain ⟨s', hrunning', hinformed'⟩ := informed_prefix dates calls True (es ++ (i, d) :: es') w fun _ => (hsplit' ▸ htimed).of_append.1
  obtain ⟨hkey', hholder', hstored'⟩ := h'.committed hrunning' (hinformed' j)
  obtain ⟨s₁, hrunning₁, hinformed₁⟩ := informed_prefix dates calls True (es ++ [(i, d)]) w fun _ => (hsplit ▸ htimed).of_append.1
  obtain ⟨record'', hsucceeds⟩ := run_succeeds hrunning₁ hinformed₁ (fun _ => (hsplit ▸ htimed).of_append.2)
    (.refl (hkey ▸ hstored))
  rw [← Pool.run_append, ← hsplit, hsplit'] at hsucceeds
  obtain rfl : record' = record'' := by
    have hboth := hsucceeds.stored
    rw [hkey, ← hqueue, hstored'] at hboth
    exact Option.some.inj hboth
  have hlater : record'.generation ≠ record.generation := by
    intro hsame
    exact howner (hholder'.symm.trans ((hsucceeds.owner hsame).trans hholder))
  exact hsucceeds.expired trivial (lt_of_le_of_ne hsucceeds.generation hlater.symm)

end runs

/-- The lease has a single holder in every run whose renewals extend. -/
theorem reacquireLease_singleHolder {Stamp ι : Type} [DecidableEq Stamp] [DecidableEq ι] (dates : Dates Stamp)
    (calls : ι → LeaseCall) (w : LeaseWorld Stamp) (schedule : List (ι × LeaseChoice Stamp))
    (hextend : RenewalsExtend dates calls (instances dates calls w) schedule) :
    SingleHolder dates calls (instances dates calls w) schedule := by
  constructor
  case generation =>
    intro es es' es'' hschedule taskQueue record hstored
    obtain ⟨s, hrunning, hinformed⟩ := informed_prefix dates calls False es w False.elim
    have hkey := LeaseTable.keyed _ hstored
    obtain ⟨record', hsucceeds⟩ : ∃ record', Succeeds dates False record ((instances dates calls w).run leasesDb (es ++ es')).world record' := by
      rw [Pool.run_append]
      exact run_succeeds hrunning hinformed False.elim (.refl (hkey.symm ▸ hstored))
    exact ⟨record', hkey ▸ hsucceeds.stored, hsucceeds.generation, hsucceeds.owner⟩
  case disjoint =>
    intro hclock v v' hv hv' hqueue howner hoverlap
    obtain ⟨t, hsince, huntil, hsince', huntil'⟩ := hoverlap
    obtain ⟨es₁, i, d, rest₁, record, hes₁, hreturns, rfl⟩ := hv
    obtain ⟨es₂, j, d', rest₂, record', hes₂, hreturns', rfl⟩ := hv'
    have htimed : Timed dates calls (instances dates calls w) schedule := ⟨hclock, hextend⟩
    rcases schedule_order (hes₁.symm.trans hes₂) with ⟨-, hstep⟩ | ⟨between, rfl⟩ | ⟨between, rfl⟩
    · exact howner (congrArg (fun e => (calls e.1).ownerId) hstep)
    · have hcut : schedule = es₁ ++ (i, d) :: (between ++ [(j, d')]) ++ rest₂ := by rw [hes₂]; simp
      have hexpired := hreturns.expired (hcut ▸ htimed).of_append.1 hreturns' hqueue.symm howner.symm
      exact absurd (lt_of_lt_of_le huntil hexpired) (not_lt.mpr hsince')
    · have hcut : schedule = es₂ ++ (j, d') :: (between ++ [(i, d)]) ++ rest₁ := by rw [hes₁]; simp
      have hexpired := hreturns'.expired (hcut ▸ htimed).of_append.1 hreturns hqueue howner
      exact absurd (lt_of_lt_of_le huntil' hexpired) (not_lt.mpr hsince)

section runsOfFour

/-- Instants written as their milliseconds. -/
def msDates : Dates Int := ⟨id, id, fun _ => rfl⟩

/-- Instance `i` moves, a clock read at that step says `reading`, and `tick` milliseconds pass. -/
def moves {ι : Type} (i : ι) (reading : Int) (tick : Nat) : ι × LeaseChoice Int := (i, ⟨tick, reading, .none⟩)

/-- No lease has been taken, at time 0. -/
def unleased : LeaseWorld Int := ⟨⟨⟨[], List.nodup_nil⟩, nofun⟩, 0⟩

def leaseOf (owner : JsString) : LeaseCall := ⟨str "q", owner, 100⟩

/-- An owner acquires the lease, another finds it live, and a third takes it over. -/
def owners (i : Fin 3) : LeaseCall := leaseOf (if i = 0 then str "a" else if i = 1 then str "b" else str "c")

def handedOver : List (Fin 3 × LeaseChoice Int) :=
  [moves 0 0 0, moves 0 0 0, moves 0 0 50, moves 1 50 0, moves 1 50 50, moves 2 100 0, moves 2 100 0, moves 2 100 0]

theorem handedOver_renewalsExtend : RenewalsExtend msDates owners (instances msDates owners unleased) handedOver := by
  have howner : ∀ n : Fin handedOver.length,
      (((instances msDates owners unleased).run leasesDb (handedOver.take n)).world.leases.get
        (owners (handedOver.get n).1).taskQueue).map LeaseRecord.ownerId ≠ some (owners (handedOver.get n).1).ownerId := by
    decide
  intro es i d es' hschedule now record _ hstored hown
  obtain ⟨n, rfl, hn⟩ := schedule_position hschedule
  have hget := howner n
  rw [← hn] at hget
  exact absurd ((congrArg (Option.map LeaseRecord.ownerId) hstored).trans (congrArg some hown)) hget

theorem reacquireLease_singleHolder_handedOver :
    RenewalsExtend msDates owners (instances msDates owners unleased) handedOver ∧
      SingleHolder msDates owners (instances msDates owners unleased) handedOver :=
  ⟨handedOver_renewalsExtend, reacquireLease_singleHolder msDates owners unleased handedOver handedOver_renewalsExtend⟩

/-- Three calls of one owner, and one of another. -/
def rivals (i : Fin 4) : LeaseCall := leaseOf (if i = 3 then str "b" else str "a")

/-- The second call of `a` reads the clock at 50, the third at 60 and renews until 160; then
    the second renews, until 150, and at 150 `b` takes the lease over. -/
def overtaken : List (Fin 4 × LeaseChoice Int) :=
  [moves 0 0 0, moves 0 0 0, moves 0 0 50, moves 1 50 10, moves 2 60 0, moves 2 60 0, moves 2 60 0, moves 1 60 0,
   moves 1 60 90, moves 3 150 0, moves 3 150 0, moves 3 150 0]

theorem overtaken_commonClock : CommonClock msDates rivals (instances msDates rivals unleased) overtaken := by
  have hclock : ∀ n : Fin overtaken.length, msDates.parse (overtaken.get n).2.reading =
      ((instances msDates rivals unleased).run leasesDb (overtaken.take n)).world.clock := by
    decide
  intro es i d es' hschedule _
  obtain ⟨n, rfl, hn⟩ := schedule_position hschedule
  have hreading := hclock n
  rw [← hn] at hreading
  exact hreading

theorem overtaken_renewed : Given msDates rivals (instances msDates rivals unleased) overtaken ⟨str "q", str "a", 60, 160⟩ :=
  ⟨overtaken.take 6, 2, ⟨0, 60, .none⟩, overtaken.drop 7, ⟨str "q", str "a", 0, 160, 1⟩, rfl,
    { pending := nofun, returned := ⟨.reacquire, rfl⟩ }, rfl⟩

theorem overtaken_takenOver : Given msDates rivals (instances msDates rivals unleased) overtaken ⟨str "q", str "b", 150, 250⟩ :=
  ⟨overtaken.take 11, 3, ⟨0, 150, .none⟩, [], ⟨str "q", str "b", 150, 250, 2⟩, rfl,
    { pending := nofun, returned := ⟨.acquire, rfl⟩ }, rfl⟩

/-- Both owners may process at 150. -/
theorem overtaken_not_singleHolder : ¬ SingleHolder msDates rivals (instances msDates rivals unleased) overtaken := by
  intro h
  apply h.disjoint overtaken_commonClock _ _ overtaken_renewed overtaken_takenOver rfl (by decide)
  exact ⟨150, by decide, by decide, by decide, by decide⟩

end runsOfFour

end sow.worker
