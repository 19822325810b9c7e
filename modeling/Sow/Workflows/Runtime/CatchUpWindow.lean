import Mathlib.Algebra.Order.Floor.Ring
import Mathlib.Data.List.DropRight
import Mathlib.Data.Rat.Floor
import Mathlib.Tactic.Linarith
import Mathlib.Tactic.Ring
import Sow.Js.Number

open sow.js

namespace sow.workflows

/-- A clock, in the effects of its reader; a reading of the monotonic source is only
    comparable within its epoch. -/
structure Clock (M : Type → Type) where
  now : M JsString
  monotonicMs : M (Option ℚ)
  monotonicEpoch : M (Option JsString)

structure ScheduleBookkeeping where
  scheduleId : JsString
  lastRunWall : JsString
  lastRunMonotonicMs : Option ℚ
  lastRunMonotonicEpoch : Option JsString
  deriving DecidableEq

structure CatchUpInput where
  lastRun : JsString
  now : JsString
  intervalMs : ℚ
  catchUpWindowMs : ℚ
  elapsedMsOverride : Option ℚ

/-- The single run that the missed occurrences collapse to, if any, and those that are too old for it. -/
structure CatchUpResult where
  nextRun : Option JsString
  collapsed : Bool
  missed : List JsString
  droppedCount : ℤ
  deriving DecidableEq

def INERT : CatchUpResult := ⟨none, false, [], 0⟩

def MAX_MISSED_RECORDED : ℕ := 100

/-- A date is made of the integer part of its milliseconds. -/
def integerPart (ms : ℚ) : ℤ := if ms < 0 then ⌈ms⌉ else ⌊ms⌋

/-- The newest of the dropped occurrences, collected from the newest down and then reversed. -/
def missedOccurrences (dates : IsoDates) (lastMs : ℤ) (intervalMs : ℚ) (droppedCount : ℤ) : List JsString :=
  let cap := min droppedCount MAX_MISSED_RECORDED
  ((List.range cap.toNat).map fun i : ℕ => dates.toISOString (integerPart (lastMs + (droppedCount - i : ℤ) * intervalMs))).reverse

def collapsedNextRun (dates : IsoDates) (input : CatchUpInput) : CatchUpResult :=
  if ¬ 0 < input.intervalMs then INERT
  else if ¬ 0 < input.catchUpWindowMs then INERT
  else
    match dates.parse input.lastRun, dates.parse input.now with
    | some lastMs, some wallNowMs =>
      let nowMs : ℚ := match input.elapsedMsOverride with
        | some elapsed => lastMs + max elapsed 0
        | none => wallNowMs
      if nowMs ≤ lastMs then INERT
      else
        let dueCount := ⌊(nowMs - lastMs) / input.intervalMs⌋
        if dueCount ≤ 0 then INERT
        else
          let edgeMs := nowMs - input.catchUpWindowMs
          let firstInsideK := max 1 ⌈(edgeMs - lastMs) / input.intervalMs⌉
          let insideCount := dueCount - firstInsideK + 1
          let droppedCount := firstInsideK - 1
          let missed := missedOccurrences dates lastMs input.intervalMs droppedCount
          if insideCount ≤ 0 then ⟨none, false, missed, droppedCount⟩
          else ⟨some input.now, decide (1 < insideCount), missed, droppedCount⟩
    | _, _ => INERT

section clock

variable {M : Type → Type} [Monad M] (dates : IsoDates) (clock : Clock M)

/-- The time since the last run: the monotonic delta within one epoch, else the wall delta; never negative. -/
def computeElapsed (bookkeeping : ScheduleBookkeeping) : M ℚ := do
  let nowMono ← clock.monotonicMs
  let nowEpoch ← clock.monotonicEpoch
  match nowMono, bookkeeping.lastRunMonotonicMs, nowEpoch with
  | some nowMono, some lastMono, some epoch =>
    if bookkeeping.lastRunMonotonicEpoch = some epoch then pure (max (nowMono - lastMono) 0) else wallElapsed
  | _, _, _ => wallElapsed
where
  wallElapsed : M ℚ := do
    let now ← clock.now
    match dates.parse now, dates.parse bookkeeping.lastRunWall with
    | some now, some last => pure (max ((now : ℚ) - last) 0)
    | _, _ => pure 0

def collapsedNextRunFromClock (bookkeeping : ScheduleBookkeeping) (intervalMs catchUpWindowMs : ℚ) : M CatchUpResult := do
  let elapsed ← computeElapsed dates clock bookkeeping
  let now ← clock.now
  pure (collapsedNextRun dates ⟨bookkeeping.lastRunWall, now, intervalMs, catchUpWindowMs, some elapsed⟩)

/-- The record of a run at the present readings. -/
def advanceBookkeeping (scheduleId : JsString) : M ScheduleBookkeeping := do
  let mono ← clock.monotonicMs
  let now ← clock.now
  match mono with
  | none => pure ⟨scheduleId, now, none, none⟩
  | some mono =>
    let epoch ← clock.monotonicEpoch
    pure ⟨scheduleId, now, some mono, epoch⟩

end clock

section occurrences

variable (last interval window now : ℤ)

/-- The occurrence of a schedule that many intervals after its last run. -/
def occurrence (k : ℤ) : ℤ := last + k * interval

/-- Due, and not older than the window. -/
def Catchable (k : ℤ) : Prop := 1 ≤ k ∧ now - window ≤ occurrence last interval k ∧ occurrence last interval k ≤ now

/-- Due, and older than the window. -/
def Dropped (k : ℤ) : Prop := 1 ≤ k ∧ occurrence last interval k ≤ now ∧ occurrence last interval k < now - window

/-- A catch-up that tells exactly what was missed. -/
structure PlansExactly (dates : IsoDates) (wake : JsString) (r : CatchUpResult) : Prop where
  single : r.nextRun = none ∨ r.nextRun = some wake
  due : r.nextRun.isSome = true ↔ ∃ k, Catchable last interval window now k
  collapsed : r.collapsed = true ↔ ∃ k k', k < k' ∧ Catchable last interval window now k ∧ Catchable last interval window now k'
  dropped : ∃ ks : List ℤ, ks.Pairwise (· < ·) ∧ (∀ k, k ∈ ks ↔ Dropped last interval window now k) ∧ r.droppedCount = ks.length ∧
    r.missed = (ks.rtake 100).map fun k => dates.toISOString (occurrence last interval k)

end occurrences

section exact

variable {dates : IsoDates} {wake : JsString} {last interval window now : ℤ}

@[simp] theorem integerPart_intCast (ms : ℤ) : integerPart ms = ms := by
  unfold integerPart
  split <;> simp

/-- Where no occurrence is due, there is nothing to run and nothing to record. -/
theorem plansExactly_inert (h : ∀ k, 1 ≤ k → now < occurrence last interval k) : PlansExactly last interval window now dates wake INERT := by
  have hcatchable : ∀ k, ¬ Catchable last interval window now k := fun k hk => absurd hk.2.2 (not_le.mpr (h k hk.1))
  have hdropped : ∀ k, ¬ Dropped last interval window now k := fun k hk => absurd hk.2.1 (not_le.mpr (h k hk.1))
  refine ⟨.inl rfl, ?_, ?_, [], .nil, fun k => ?_, rfl, rfl⟩
  · simp [INERT, hcatchable]
  · simp [INERT, hcatchable]
  · simp [hdropped k]

/-- The occurrences up to now are those up to the floor of the quotient. -/
theorem le_dueCount_iff (hinterval : 0 < interval) (k : ℤ) : k ≤ ⌊((now : ℚ) - last) / interval⌋ ↔ occurrence last interval k ≤ now := by
  have hpos : (0 : ℚ) < interval := by exact_mod_cast hinterval
  have hcast : (k : ℚ) * interval ≤ now - last ↔ k * interval ≤ now - last := by exact_mod_cast Iff.rfl
  rw [Int.le_floor, le_div_iff₀ hpos, hcast]
  unfold occurrence
  constructor <;> intro h <;> linarith

/-- The occurrences from the edge on are those from the ceiling of the quotient on. -/
theorem firstInsideK_le_iff (hinterval : 0 < interval) (k : ℤ) :
    max 1 ⌈((now : ℚ) - window - last) / interval⌉ ≤ k ↔ 1 ≤ k ∧ now - window ≤ occurrence last interval k := by
  have hpos : (0 : ℚ) < interval := by exact_mod_cast hinterval
  have hcast : (now : ℚ) - window - last ≤ k * interval ↔ now - window - last ≤ k * interval := by exact_mod_cast Iff.rfl
  rw [max_le_iff, Int.ceil_le, div_le_iff₀ hpos, hcast]
  unfold occurrence
  constructor <;> rintro ⟨hk, h⟩ <;> exact ⟨hk, by linarith⟩

/-- What is recorded as missed: the newest of the dropped occurrences, the oldest of them first. -/
theorem missedOccurrences_eq (n : ℕ) : missedOccurrences dates last interval n =
    (((List.range n).map fun i : ℕ => (i : ℤ) + 1).rtake 100).map fun k => dates.toISOString (occurrence last interval k) := by
  have hcap : (min (n : ℤ) MAX_MISSED_RECORDED).toNat = min 100 n := by
    unfold MAX_MISSED_RECORDED
    omega
  have hnewest : (List.range (min 100 n)).map (fun i : ℕ => (n : ℤ) - i) = ((List.range n).map fun i : ℕ => (i : ℤ) + 1).reverse.take 100 := by
    refine List.ext_getElem (by simp) fun i hi _ => ?_
    simp only [List.length_map, List.length_range] at hi
    simp only [List.getElem_map, List.getElem_range, List.getElem_take, List.getElem_reverse, List.length_map, List.length_range]
    omega
  unfold missedOccurrences
  simp only
  rw [hcap, List.rtake_eq_reverse_take_reverse, ← hnewest, List.map_reverse, List.map_map]
  refine congrArg List.reverse (List.map_congr_left fun i _ => ?_)
  have hcast : (last : ℚ) + ((n : ℤ) - (i : ℤ) : ℤ) * (interval : ℚ) = (occurrence last interval ((n : ℤ) - i) : ℤ) := by
    unfold occurrence
    push_cast
    ring
  rw [hcast, integerPart_intCast]
  rfl

/-- A catch-up on the wall clock tells exactly what was missed. -/
theorem collapsedNextRun_plansExactly {lastRun : JsString} (hlast : dates.parse lastRun = some last) (hwake : dates.parse wake = some now)
    (hinterval : 0 < interval) (hwindow : 0 < window) :
    PlansExactly last interval window now dates wake (collapsedNextRun dates ⟨lastRun, wake, interval, window, none⟩) := by
  have hposInterval : (0 : ℚ) < interval := by exact_mod_cast hinterval
  have hposWindow : (0 : ℚ) < window := by exact_mod_cast hwindow
  have hdue : ∀ k, k ≤ ⌊((now : ℚ) - last) / interval⌋ ↔ occurrence last interval k ≤ now := le_dueCount_iff hinterval
  have hfirst : ∀ k, max 1 ⌈((now : ℚ) - window - last) / interval⌉ ≤ k ↔ 1 ≤ k ∧ now - window ≤ occurrence last interval k :=
    firstInsideK_le_iff hinterval
  unfold collapsedNextRun
  simp only [hlast, hwake]
  rw [if_neg (not_not.mpr hposInterval), if_neg (not_not.mpr hposWindow)]
  generalize ⌊((now : ℚ) - last) / interval⌋ = due at hdue ⊢
  generalize hf : max 1 ⌈((now : ℚ) - window - last) / interval⌉ = first at hfirst ⊢
  have hone : 1 ≤ first := by
    rw [← hf]
    exact le_max_left _ _
  by_cases hback : (now : ℚ) ≤ last
  · rw [if_pos hback]
    have hback' : now ≤ last := by exact_mod_cast hback
    refine plansExactly_inert fun k hk => ?_
    unfold occurrence
    nlinarith
  rw [if_neg hback]
  by_cases hnone : due ≤ 0
  · rw [if_pos hnone]
    refine plansExactly_inert fun k hk => not_le.mp fun hle => ?_
    have := (hdue k).mpr hle
    omega
  rw [if_neg hnone]
  have hcatchable : ∀ k, Catchable last interval window now k ↔ first ≤ k ∧ k ≤ due := by
    intro k
    unfold Catchable
    rw [hdue, hfirst, and_assoc]
  have hdropped : ∀ k, Dropped last interval window now k ↔ 1 ≤ k ∧ k < first := by
    intro k
    rw [← not_le, hfirst]
    unfold Dropped
    constructor
    · rintro ⟨hk, -, hold⟩
      exact ⟨hk, fun h => by omega⟩
    · rintro ⟨hk, h⟩
      have hold : ¬ now - window ≤ occurrence last interval k := fun hle => h ⟨hk, hle⟩
      exact ⟨hk, by omega, by omega⟩
  obtain ⟨n, hn⟩ : ∃ n : ℕ, first - 1 = n := ⟨(first - 1).toNat, by omega⟩
  have hrecorded : ∃ ks : List ℤ, ks.Pairwise (· < ·) ∧ (∀ k, k ∈ ks ↔ Dropped last interval window now k) ∧ first - 1 = ks.length ∧
      missedOccurrences dates last interval (first - 1) = (ks.rtake 100).map fun k => dates.toISOString (occurrence last interval k) := by
    refine ⟨(List.range n).map fun i : ℕ => (i : ℤ) + 1, ?_, fun k => ?_, by simp [hn], by rw [hn]; exact missedOccurrences_eq n⟩
    · refine List.Pairwise.map _ (fun a b hab => ?_) List.pairwise_lt_range
      omega
    · rw [hdropped, List.mem_map]
      constructor
      · rintro ⟨i, hi, rfl⟩
        have := List.mem_range.mp hi
        omega
      · rintro ⟨hk, hlt⟩
        exact ⟨(k - 1).toNat, List.mem_range.mpr (by omega), by omega⟩
  by_cases hstale : due - first + 1 ≤ 0
  · rw [if_pos hstale]
    refine ⟨.inl rfl, ?_, ?_, hrecorded⟩
    · simp only [Option.isSome_none, Bool.false_eq_true, false_iff]
      rintro ⟨k, hk⟩
      have := (hcatchable k).mp hk
      omega
    · simp only [Bool.false_eq_true, false_iff]
      rintro ⟨k, k', hlt, hk, hk'⟩
      have := (hcatchable k).mp hk
      have := (hcatchable k').mp hk'
      omega
  · rw [if_neg hstale]
    refine ⟨.inr rfl, ?_, ?_, hrecorded⟩
    · simp only [Option.isSome_some, true_iff]
      exact ⟨first, (hcatchable first).mpr (by omega)⟩
    · simp only [decide_eq_true_eq]
      constructor
      · intro hmany
        exact ⟨first, first + 1, by omega, (hcatchable _).mpr (by omega), (hcatchable _).mpr (by omega)⟩
      · rintro ⟨k, k', hlt, hk, hk'⟩
        have := (hcatchable k).mp hk
        have := (hcatchable k').mp hk'
        omega

end exact

section clock

variable {dates : IsoDates}

/-- Whether there is a run, whether it stands for more than one occurrence, and how many are dropped. -/
def CatchUpResult.verdict (r : CatchUpResult) : Bool × Bool × ℤ := (r.nextRun.isSome, r.collapsed, r.droppedCount)

/-- The clock is in the boot epoch of the last run, that much later by its monotonic source. -/
def SameEpoch (clock : Clock Id) (bookkeeping : ScheduleBookkeeping) (delta : ℚ) : Prop :=
  ∃ nowMono lastMono epoch, clock.monotonicMs = some nowMono ∧ bookkeeping.lastRunMonotonicMs = some lastMono ∧
    clock.monotonicEpoch = some epoch ∧ bookkeeping.lastRunMonotonicEpoch = some epoch ∧ nowMono - lastMono = delta

/-- Both wall readings are instants. -/
def WallReads (dates : IsoDates) (clock : Clock Id) (bookkeeping : ScheduleBookkeeping) : Prop :=
  (dates.parse clock.now).isSome = true ∧ (dates.parse bookkeeping.lastRunWall).isSome = true

/-- The verdict on a measured time is one on that time alone. -/
theorem verdict_of_elapsed {lastRun lastRun' wake wake' : JsString} {last last' now now' : ℤ} (hlast : dates.parse lastRun = some last)
    (hlast' : dates.parse lastRun' = some last') (hwake : dates.parse wake = some now) (hwake' : dates.parse wake' = some now')
    (interval window elapsed : ℚ) :
    (collapsedNextRun dates ⟨lastRun, wake, interval, window, some elapsed⟩).verdict =
      (collapsedNextRun dates ⟨lastRun', wake', interval, window, some elapsed⟩).verdict := by
  have hspan : ∀ l : ℚ, l + max elapsed 0 - l = max elapsed 0 := fun l => by ring
  have hedge : ∀ l : ℚ, l + max elapsed 0 - window - l = max elapsed 0 - window := fun l => by ring
  have hback : ∀ l : ℚ, l + max elapsed 0 ≤ l ↔ max elapsed 0 ≤ 0 := fun l => by constructor <;> intro h <;> linarith
  unfold collapsedNextRun
  simp only [hlast, hlast', hwake, hwake', hspan, hedge, hback]
  split_ifs <;> rfl

theorem collapsedNextRunFromClock_eq {clock : Clock Id} {bookkeeping : ScheduleBookkeeping} {delta : ℚ} (h : SameEpoch clock bookkeeping delta)
    (interval window : ℚ) : collapsedNextRunFromClock dates clock bookkeeping interval window =
      collapsedNextRun dates ⟨bookkeeping.lastRunWall, clock.now, interval, window, some (max delta 0)⟩ := by
  obtain ⟨nowMono, lastMono, epoch, hnow, hlast, hepoch, hlastEpoch, rfl⟩ := h
  have helapsed : computeElapsed dates clock bookkeeping = (pure (max (nowMono - lastMono) 0) : Id ℚ) := by
    unfold computeElapsed
    simp only [hnow, hlast, hepoch, hlastEpoch]
    exact if_pos rfl
  unfold collapsedNextRunFromClock
  rw [helapsed]
  rfl

/-- Within one boot epoch the verdict is one on the monotonic delta alone, whatever the wall clock reads. -/
theorem verdict_of_sameEpoch {clock clock' : Clock Id} {bookkeeping bookkeeping' : ScheduleBookkeeping} {delta : ℚ}
    (h : SameEpoch clock bookkeeping delta) (h' : SameEpoch clock' bookkeeping' delta) (hwall : WallReads dates clock bookkeeping)
    (hwall' : WallReads dates clock' bookkeeping') (interval window : ℚ) :
    (collapsedNextRunFromClock dates clock bookkeeping interval window).verdict =
      (collapsedNextRunFromClock dates clock' bookkeeping' interval window).verdict := by
  obtain ⟨now, hnow⟩ := Option.isSome_iff_exists.mp hwall.1
  obtain ⟨last, hlast⟩ := Option.isSome_iff_exists.mp hwall.2
  obtain ⟨now', hnow'⟩ := Option.isSome_iff_exists.mp hwall'.1
  obtain ⟨last', hlast'⟩ := Option.isSome_iff_exists.mp hwall'.2
  rw [collapsedNextRunFromClock_eq h, collapsedNextRunFromClock_eq h']
  exact verdict_of_elapsed hlast hlast' hnow hnow' interval window _

end clock

section midnight

def midnight : JsString := str "1970-01-01T00:00:00.000Z"

def tenPast : JsString := str "1970-01-01T00:10:00.000Z"

/-- The two instants of a gap of ten minutes. -/
def tenMinutes : IsoDates where
  parse s := if s = midnight then some 0 else if s = tenPast then some 600000 else none
  toISOString ms := if ms < 600000 then midnight else tenPast

end midnight

end sow.workflows
