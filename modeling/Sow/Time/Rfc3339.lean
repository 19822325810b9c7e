import Mathlib.Algebra.BigOperators.Group.Finset.Basic
import Mathlib.Algebra.Order.BigOperators.Group.Finset
import Sow.Js.Sort

open sow.js

namespace sow.time

/-- The last `width` decimal digits of a number. -/
def digits : Nat → Nat → JsString
  | 0, _ => []
  | width + 1, n => digits width (n / 10) ++ [UInt16.ofNat (48 + n % 10)]

section order

theorem append_lt_append_iff {p q s t : List Nat} (h : p.length = q.length) : p ++ s < q ++ t ↔ p < q ∨ p = q ∧ s < t := by
  induction p generalizing q with
  | nil =>
    cases q with
    | nil => simp
    | cons b q => simp at h
  | cons a p ih =>
    cases q with
    | nil => simp at h
    | cons b q =>
      rw [List.cons_append, List.cons_append, List.cons_lt_cons_iff, List.cons_lt_cons_iff, ih (Nat.succ.inj h), List.cons.injEq]
      grind

/-- Texts of equal length before others decide, unless they are the same. -/
theorem ltUnits_append_iff {p q s t : JsString} (h : p.length = q.length) :
    LtUnits (p ++ s) (q ++ t) ↔ LtUnits p q ∨ p = q ∧ LtUnits s t := by
  unfold LtUnits
  rw [List.map_append, List.map_append, append_lt_append_iff (by simpa using h), toNat_map_injective.eq_iff]

theorem not_ltUnits_self (s : JsString) : ¬ LtUnits s s := lt_irrefl (α := List Nat) _

/-- A text that both start with does not decide. -/
theorem ltUnits_append_left_iff (p : JsString) {s t : JsString} : LtUnits (p ++ s) (p ++ t) ↔ LtUnits s t := by
  rw [ltUnits_append_iff rfl, or_iff_right (not_ltUnits_self p), and_iff_right rfl]

/-- A text that both end with does not decide between texts of one length. -/
theorem ltUnits_append_right_iff (s : JsString) {p q : JsString} (h : p.length = q.length) :
    LtUnits (p ++ s) (q ++ s) ↔ LtUnits p q := by
  rw [ltUnits_append_iff h, or_iff_left (fun hs => not_ltUnits_self s hs.2)]

@[simp] theorem length_digits (width n : Nat) : (digits width n).length = width := by
  induction width generalizing n with
  | zero => rfl
  | succ width ih => rw [digits, List.length_append, ih, List.length_singleton]

/-- In a positional number the higher place decides, unless it is the same. -/
theorem mixed_lt_iff {radix a b c d : Nat} (hb : b < radix) (hd : d < radix) :
    a * radix + b < c * radix + d ↔ a < c ∨ a = c ∧ b < d := by
  rcases Nat.lt_trichotomy a c with h | rfl | h
  · have hle : (a + 1) * radix ≤ c * radix := Nat.mul_le_mul_right radix h
    rw [Nat.add_mul] at hle
    refine iff_of_true (by omega) (.inl h)
  · simp
  · have hle : (c + 1) * radix ≤ a * radix := Nat.mul_le_mul_right radix h
    rw [Nat.add_mul] at hle
    refine iff_of_false (by omega) ?_
    rintro (hlt | ⟨rfl, -⟩)
    · exact absurd hlt (by omega)
    · exact lt_irrefl _ h

private theorem digit_toNat (n : Nat) : (UInt16.ofNat (48 + n % 10)).toNat = 48 + n % 10 := by
  have hlt : n % 10 < 10 := Nat.mod_lt _ (by omega)
  rw [UInt16.toNat_ofNat', Nat.mod_eq_of_lt (by omega)]

theorem digits_injOn {width a b : Nat} (ha : a < 10 ^ width) (hb : b < 10 ^ width) (h : digits width a = digits width b) :
    a = b := by
  induction width generalizing a b with
  | zero =>
    rw [pow_zero] at ha hb
    omega
  | succ width ih =>
    rw [digits, digits] at h
    obtain ⟨hhigh, hlow⟩ := List.append_inj h (by simp)
    have hquot := ih (Nat.div_lt_of_lt_mul (by rw [← pow_succ']; exact ha)) (Nat.div_lt_of_lt_mul (by rw [← pow_succ']; exact hb)) hhigh
    have hrem := congrArg UInt16.toNat (List.singleton_inj.mp hlow)
    rw [digit_toNat, digit_toNat] at hrem
    omega

/-- Numbers written with one number of digits are ordered as their texts are. -/
theorem ltUnits_digits_iff {width a b : Nat} (ha : a < 10 ^ width) (hb : b < 10 ^ width) :
    LtUnits (digits width a) (digits width b) ↔ a < b := by
  induction width generalizing a b with
  | zero =>
    rw [pow_zero] at ha hb
    refine iff_of_false (not_ltUnits_self _) (by omega)
  | succ width ih =>
    have ha' : a / 10 < 10 ^ width := Nat.div_lt_of_lt_mul (by rw [← pow_succ']; exact ha)
    have hb' : b / 10 < 10 ^ width := Nat.div_lt_of_lt_mul (by rw [← pow_succ']; exact hb)
    have hlast : LtUnits [UInt16.ofNat (48 + a % 10)] [UInt16.ofNat (48 + b % 10)] ↔ a % 10 < b % 10 := by
      unfold LtUnits
      rw [List.map_singleton, List.map_singleton, digit_toNat, digit_toNat, List.cons_lt_cons_iff]
      simp
    have hhigh : digits width (a / 10) = digits width (b / 10) ↔ a / 10 = b / 10 :=
      ⟨digits_injOn ha' hb', congrArg (digits width)⟩
    rw [digits, digits, ltUnits_append_iff (by simp), ih ha' hb', hlast, hhigh,
      ← mixed_lt_iff (Nat.mod_lt a (by omega)) (Nat.mod_lt b (by omega)), Nat.div_add_mod', Nat.div_add_mod']

/-- Two texts compare as two numbers do. -/
structure Spells (p q : JsString) (a b : Nat) : Prop where
  lt : LtUnits p q ↔ a < b
  eq : p = q ↔ a = b

theorem spells_digits {width a b : Nat} (ha : a < 10 ^ width) (hb : b < 10 ^ width) :
    Spells (digits width a) (digits width b) a b :=
  ⟨ltUnits_digits_iff ha hb, digits_injOn ha hb, congrArg (digits width)⟩

theorem Spells.literal {p q : JsString} {a b : Nat} (h : Spells p q a b) (lit : JsString) : Spells (lit ++ p) (lit ++ q) a b :=
  ⟨(ltUnits_append_left_iff lit).trans h.lt, (List.append_right_inj lit).trans h.eq⟩

theorem Spells.zone {p q : JsString} {a b : Nat} (h : Spells p q a b) (hlen : p.length = q.length) (lit : JsString) :
    Spells (p ++ lit) (q ++ lit) a b :=
  ⟨(ltUnits_append_right_iff lit hlen).trans h.lt, (List.append_left_inj lit).trans h.eq⟩

/-- A text for the higher place goes before one for the lower. -/
theorem Spells.append {p q s t : JsString} {a b c d radix : Nat} (h : Spells p q a b) (h' : Spells s t c d)
    (hlen : p.length = q.length) (hc : c < radix) (hd : d < radix) :
    Spells (p ++ s) (q ++ t) (a * radix + c) (b * radix + d) := by
  have hlt : a * radix + c < b * radix + d ↔ a < b ∨ a = b ∧ c < d := mixed_lt_iff hc hd
  have hgt : b * radix + d < a * radix + c ↔ b < a ∨ b = a ∧ d < c := mixed_lt_iff hd hc
  constructor
  · rw [ltUnits_append_iff hlen, h.lt, h.eq, h'.lt, hlt]
  · constructor
    · intro heq
      obtain ⟨hp, hs⟩ := List.append_inj heq hlen
      rw [h.eq.mp hp, h'.eq.mp hs]
    · intro heq
      have hab : a = b := by omega
      have hcd : c = d := by omega
      rw [h.eq.mpr hab, h'.eq.mpr hcd]

end order

section calendar

def isLeapYear (year : Nat) : Bool := year % 4 = 0 && (year % 100 ≠ 0 || year % 400 = 0)

def daysInMonth (year month : Nat) : Nat :=
  if month = 2 then if isLeapYear year then 29 else 28
  else if month = 4 || month = 6 || month = 9 || month = 11 then 30
  else 31

/-- The days of a year before a month. -/
def daysBeforeMonth (year month : Nat) : Nat := ∑ i ∈ Finset.range (month - 1), daysInMonth year (i + 1)

/-- The days before a year, from the year 0. -/
def daysBeforeYear (year : Nat) : Nat := ∑ y ∈ Finset.range year, daysBeforeMonth y 13

def dayNumber (year month day : Nat) : Nat := daysBeforeYear year + daysBeforeMonth year month + day

variable {year month day year' month' day' : Nat}

theorem daysBeforeMonth_succ (hmonth : 1 ≤ month) :
    daysBeforeMonth year (month + 1) = daysBeforeMonth year month + daysInMonth year month := by
  obtain ⟨m, rfl⟩ := Nat.exists_eq_add_of_le' hmonth
  exact Finset.sum_range_succ ..

theorem daysBeforeMonth_mono (h : month ≤ month') : daysBeforeMonth year month ≤ daysBeforeMonth year month' := by
  apply Finset.sum_le_sum_of_subset
  exact Finset.range_subset_range.mpr (Nat.sub_le_sub_right h 1)

theorem daysBeforeYear_mono (h : year ≤ year') : daysBeforeYear year ≤ daysBeforeYear year' := by
  apply Finset.sum_le_sum_of_subset
  exact Finset.range_subset_range.mpr h

theorem daysBeforeYear_succ : daysBeforeYear (year + 1) = daysBeforeYear year + daysBeforeMonth year 13 := Finset.sum_range_succ ..

/-- A day of a month is before the next month. -/
theorem dayNumber_le_next (hmonth : 1 ≤ month) (hday : day ≤ daysInMonth year month) :
    daysBeforeMonth year month + day ≤ daysBeforeMonth year (month + 1) := by
  rw [daysBeforeMonth_succ hmonth]
  omega

/-- The days of a calendar are ordered by year, month and day. -/
theorem dayNumber_lt_of_lex (hmonth : 1 ≤ month) (hmonth' : month ≤ 12) (hday : day ≤ daysInMonth year month) (hday' : 1 ≤ day')
    (h : year < year' ∨ year = year' ∧ (month < month' ∨ month = month' ∧ day < day')) :
    dayNumber year month day < dayNumber year' month' day' := by
  unfold dayNumber
  have hnext := dayNumber_le_next hmonth hday
  obtain hyear | ⟨rfl, hmonths | ⟨rfl, hdays⟩⟩ := h
  · have hrest : daysBeforeMonth year (month + 1) ≤ daysBeforeMonth year 13 := daysBeforeMonth_mono (by omega)
    have hyears : daysBeforeYear (year + 1) ≤ daysBeforeYear year' := daysBeforeYear_mono hyear
    rw [daysBeforeYear_succ] at hyears
    omega
  · have hrest : daysBeforeMonth year (month + 1) ≤ daysBeforeMonth year month' := daysBeforeMonth_mono hmonths
    omega
  · omega

/-- The days of a calendar are numbered as their digits are. -/
theorem dayNumber_lt_iff (hmonth : 1 ≤ month ∧ month ≤ 12) (hmonth' : 1 ≤ month' ∧ month' ≤ 12)
    (hday : 1 ≤ day ∧ day ≤ daysInMonth year month) (hday' : 1 ≤ day' ∧ day' ≤ daysInMonth year' month')
    (hsmall : day < 100) (hsmall' : day' < 100) :
    (year * 100 + month) * 100 + day < (year' * 100 + month') * 100 + day' ↔
      dayNumber year month day < dayNumber year' month' day' := by
  have hlt (h : year < year' ∨ year = year' ∧ (month < month' ∨ month = month' ∧ day < day')) :
      dayNumber year month day < dayNumber year' month' day' := dayNumber_lt_of_lex hmonth.1 hmonth.2 hday.2 hday'.1 h
  have hgt (h : year' < year ∨ year' = year ∧ (month' < month ∨ month' = month ∧ day' < day)) :
      dayNumber year' month' day' < dayNumber year month day := dayNumber_lt_of_lex hmonth'.1 hmonth'.2 hday'.2 hday.1 h
  rcases Nat.lt_trichotomy ((year * 100 + month) * 100 + day) ((year' * 100 + month') * 100 + day') with h | h | h
  · exact iff_of_true h (hlt (by omega))
  · obtain rfl : year = year' := by omega
    obtain rfl : month = month' := by omega
    obtain rfl : day = day' := by omega
    exact iff_of_false (lt_irrefl _) (lt_irrefl _)
  · exact iff_of_false h.not_gt (hgt (by omega)).not_gt

theorem daysInMonth_lt : daysInMonth year month < 100 := by
  unfold daysInMonth
  grind

end calendar

/-- Where a local time stands: a letter for UTC, or a distance from it. -/
inductive Zone where
  | utc (small : Bool)
  | offset (east : Bool) (hours minutes : Nat)
  deriving DecidableEq

def Zone.text : Zone → JsString
  | .utc small => if small then str "z" else str "Z"
  | .offset east hours minutes => (if east then str "+" else str "-") ++ digits 2 hours ++ str ":" ++ digits 2 minutes

/-- Minutes east of UTC. -/
def Zone.minutes : Zone → Int
  | .utc _ => 0
  | .offset east hours minutes => (if east then 1 else -1) * (hours * 60 + minutes)

def Zone.Valid : Zone → Prop
  | .utc _ => True
  | .offset _ hours minutes => hours < 24 ∧ minutes < 60

/-- A date-time of RFC 3339. Its fraction of a second is a number of `places` digits. -/
structure Timestamp where
  year : Nat
  month : Nat
  day : Nat
  hour : Nat
  minute : Nat
  second : Nat
  places : Nat
  fraction : Nat
  smallT : Bool
  zone : Zone
  year_lt : year < 10000
  month_mem : 1 ≤ month ∧ month ≤ 12
  day_mem : 1 ≤ day ∧ day ≤ daysInMonth year month
  hour_lt : hour < 24
  minute_lt : minute < 60
  second_le : second ≤ 60
  fraction_lt : fraction < 10 ^ places
  zone_valid : zone.Valid

namespace Timestamp

variable (t u : Timestamp)

def dateText : JsString := digits 4 t.year ++ (str "-" ++ (digits 2 t.month ++ (str "-" ++ digits 2 t.day)))

def clockText : JsString := digits 2 t.hour ++ (str ":" ++ (digits 2 t.minute ++ (str ":" ++ digits 2 t.second)))

def fractionText : JsString := if t.places = 0 then [] else str "." ++ digits t.places t.fraction

def text : JsString :=
  t.dateText ++ ((if t.smallT then str "t" else str "T") ++ (t.clockText ++ (t.fractionText ++ t.zone.text)))

/-- The seconds of the local time, from the start of the year 0. -/
def seconds : Nat := ((dayNumber t.year t.month t.day * 24 + t.hour) * 60 + t.minute) * 60 + t.second

/-- The instant in seconds. -/
def instant : ℚ := t.seconds + t.fraction / 10 ^ t.places - t.zone.minutes * 60

/-- Two timestamps of one form: one zone, as many digits, and no leap second. -/
structure SpelledAlike : Prop where
  smallT : t.smallT = u.smallT
  zone : t.zone = u.zone
  places : t.places = u.places
  second : t.second < 60
  second' : u.second < 60

variable {t u}

theorem length_dateText : t.dateText.length = u.dateText.length := by
  unfold dateText
  simp

theorem length_clockText : t.clockText.length = u.clockText.length := by
  unfold clockText
  simp

theorem length_fractionText (h : t.places = u.places) : t.fractionText.length = u.fractionText.length := by
  unfold fractionText
  rw [h]
  split <;> simp

theorem spells_dateText : Spells t.dateText u.dateText ((t.year * 100 + t.month) * 100 + t.day) ((u.year * 100 + u.month) * 100 + u.day) := by
  have hmonth : t.month < 100 ∧ u.month < 100 := by
    have ht := t.month_mem
    have hu := u.month_mem
    omega
  have hday : t.day < 100 ∧ u.day < 100 :=
    ⟨lt_of_le_of_lt t.day_mem.2 daysInMonth_lt, lt_of_le_of_lt u.day_mem.2 daysInMonth_lt⟩
  have hyears : Spells (digits 4 t.year) (digits 4 u.year) t.year u.year := spells_digits t.year_lt u.year_lt
  have hmonths : Spells (str "-" ++ digits 2 t.month) (str "-" ++ digits 2 u.month) t.month u.month :=
    (spells_digits hmonth.1 hmonth.2).literal (str "-")
  have hdays : Spells (str "-" ++ digits 2 t.day) (str "-" ++ digits 2 u.day) t.day u.day :=
    (spells_digits hday.1 hday.2).literal (str "-")
  have hall := (hyears.append hmonths (by simp) hmonth.1 hmonth.2).append hdays (by simp) hday.1 hday.2
  unfold dateText
  simpa only [List.append_assoc] using hall

theorem spells_clockText (ht : t.second < 60) (hu : u.second < 60) :
    Spells t.clockText u.clockText ((t.hour * 60 + t.minute) * 60 + t.second) ((u.hour * 60 + u.minute) * 60 + u.second) := by
  have hhours : Spells (digits 2 t.hour) (digits 2 u.hour) t.hour u.hour :=
    spells_digits (t.hour_lt.trans (by omega)) (u.hour_lt.trans (by omega))
  have hminutes : Spells (str ":" ++ digits 2 t.minute) (str ":" ++ digits 2 u.minute) t.minute u.minute :=
    (spells_digits (t.minute_lt.trans (by omega)) (u.minute_lt.trans (by omega))).literal (str ":")
  have hseconds : Spells (str ":" ++ digits 2 t.second) (str ":" ++ digits 2 u.second) t.second u.second :=
    (spells_digits (ht.trans (by omega)) (hu.trans (by omega))).literal (str ":")
  have hall := (hhours.append hminutes (by simp) t.minute_lt u.minute_lt).append hseconds (by simp) ht hu
  unfold clockText
  simpa only [List.append_assoc] using hall

theorem spells_fractionText (h : t.places = u.places) : Spells t.fractionText u.fractionText t.fraction u.fraction := by
  have ht := t.fraction_lt
  have hu := u.fraction_lt
  rw [← h] at hu
  unfold fractionText
  rw [← h]
  by_cases hplaces : t.places = 0
  · rw [hplaces] at ht hu
    rw [if_pos hplaces, if_pos hplaces]
    refine ⟨iff_of_false (not_ltUnits_self _) (by omega), iff_of_true rfl (by omega)⟩
  · rw [if_neg hplaces, if_neg hplaces]
    exact (spells_digits ht hu).literal (str ".")

/-- The seconds of a day are ordered after its number. -/
theorem seconds_lt_iff (ht : t.second < 60) (hu : u.second < 60) :
    ((t.year * 100 + t.month) * 100 + t.day) * 86400 + ((t.hour * 60 + t.minute) * 60 + t.second) <
        ((u.year * 100 + u.month) * 100 + u.day) * 86400 + ((u.hour * 60 + u.minute) * 60 + u.second) ↔
      t.seconds < u.seconds := by
  have hclock : (t.hour * 60 + t.minute) * 60 + t.second < 86400 := by
    have hhour := t.hour_lt
    have hminute := t.minute_lt
    omega
  have hclock' : (u.hour * 60 + u.minute) * 60 + u.second < 86400 := by
    have hhour := u.hour_lt
    have hminute := u.minute_lt
    omega
  have hsmall := lt_of_le_of_lt t.day_mem.2 daysInMonth_lt
  have hsmall' := lt_of_le_of_lt u.day_mem.2 daysInMonth_lt
  have hlt := dayNumber_lt_iff t.month_mem u.month_mem t.day_mem u.day_mem hsmall hsmall'
  have hgt := dayNumber_lt_iff u.month_mem t.month_mem u.day_mem t.day_mem hsmall' hsmall
  unfold seconds
  omega

/-- The seconds and the digits after them are ordered as the instants, in one zone. -/
theorem instant_lt_iff (hzone : t.zone = u.zone) (hplaces : t.places = u.places) :
    t.instant < u.instant ↔ t.seconds < u.seconds ∨ t.seconds = u.seconds ∧ t.fraction < u.fraction := by
  have hu : u.fraction < 10 ^ t.places := hplaces ▸ u.fraction_lt
  have hpos : (0 : ℚ) < 10 ^ t.places := by positivity
  have hscale (v : Timestamp) : (v.seconds : ℚ) + v.fraction / 10 ^ t.places = ((v.seconds * 10 ^ t.places + v.fraction : ℕ) : ℚ) / 10 ^ t.places := by
    push_cast
    field_simp
  unfold instant
  rw [← hzone, ← hplaces, sub_lt_sub_iff_right, hscale t, hscale u, div_lt_div_iff_of_pos_right hpos, Nat.cast_lt,
    mixed_lt_iff t.fraction_lt hu]

/-- Texts of one form are ordered as the instants they spell. -/
theorem ltUnits_text_iff (h : SpelledAlike t u) : LtUnits t.text u.text ↔ t.instant < u.instant := by
  have hfraction : u.fraction < 10 ^ t.places := h.places ▸ u.fraction_lt
  have hclock (v : Timestamp) (hsecond : v.second < 60) : (v.hour * 60 + v.minute) * 60 + v.second < 86400 := by
    have hhour := v.hour_lt
    have hminute := v.minute_lt
    omega
  have hday : Spells (t.dateText ++ if t.smallT then str "t" else str "T") (u.dateText ++ if t.smallT then str "t" else str "T")
      ((t.year * 100 + t.month) * 100 + t.day) ((u.year * 100 + u.month) * 100 + u.day) :=
    spells_dateText.zone length_dateText _
  have hseconds := hday.append (spells_clockText h.second h.second') (by simp [length_dateText (u := u)]) (hclock t h.second) (hclock u h.second')
  have hall := hseconds.append (spells_fractionText h.places)
    (by simp [length_dateText (u := u), length_clockText (u := u)]) t.fraction_lt hfraction
  have htext := (hall.zone (by simp [length_dateText (u := u), length_clockText (u := u), length_fractionText h.places]) t.zone.text).lt
  have hlt := seconds_lt_iff h.second h.second'
  have hgt := seconds_lt_iff h.second' h.second
  rw [mixed_lt_iff t.fraction_lt hfraction] at htext
  rw [instant_lt_iff h.zone h.places]
  unfold text
  rw [← h.smallT, ← h.zone]
  simp only [← List.append_assoc]
  rw [htext]
  omega

end Timestamp

end sow.time
