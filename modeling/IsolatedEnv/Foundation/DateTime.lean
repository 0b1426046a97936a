import Mathlib.Data.List.Basic
import Mathlib.Tactic.IntervalCases

/-!
# Timezone-aware date-times

Python's `datetime` as far as database timestamps use it: the calendar and
clock fields with their ranges, and an offset from UTC strictly between minus
and plus one day, in microseconds.  The instant counts microseconds as
`datetime.toordinal` counts days, and is what comparisons look at.
-/

namespace IsolatedEnv.Foundation

def isLeap (year : Nat) : Bool :=
  year % 4 = 0 && (year % 100 ≠ 0 || year % 400 = 0)

def daysInMonth (year : Nat) : Nat → Nat
  | 1 | 3 | 5 | 7 | 8 | 10 | 12 => 31
  | 4 | 6 | 9 | 11 => 30
  | 2 => if isLeap year then 29 else 28
  | _ => 0

theorem daysInMonth_le (year month : Nat) : daysInMonth year month ≤ 31 := by
  unfold daysInMonth
  split <;> try split
  all_goals omega

/-- The ranges the `datetime` constructor checks. -/
def CivilValid (year month day hour minute second microsecond : Nat) : Prop :=
  1 ≤ year ∧ year ≤ 9999 ∧ 1 ≤ month ∧ month ≤ 12 ∧ 1 ≤ day ∧
    day ≤ daysInMonth year month ∧ hour < 24 ∧ minute < 60 ∧ second < 60 ∧
    microsecond < 1000000

instance (year month day hour minute second microsecond : Nat) :
    Decidable (CivilValid year month day hour minute second microsecond) :=
  inferInstanceAs (Decidable (_ ∧ _))

/-- A `datetime` without time zone. -/
structure Civil where
  year : Nat
  month : Nat
  day : Nat
  hour : Nat
  minute : Nat
  second : Nat
  microsecond : Nat
  valid : CivilValid year month day hour minute second microsecond
  deriving DecidableEq

def microsecondsPerDay : Nat := 86400000000

structure UtcOffset where
  microseconds : Int
  valid : microseconds.natAbs < microsecondsPerDay
  deriving DecidableEq

structure DateTime where
  civil : Civil
  offset : UtcOffset
  deriving DecidableEq

namespace Civil

/-- `datetime(year, month, day, hour, minute, second, microsecond)`. -/
def make? (year month day hour minute second microsecond : Nat) :
    Option Civil :=
  if h : CivilValid year month day hour minute second microsecond then
    some ⟨year, month, day, hour, minute, second, microsecond, h⟩
  else none

@[simp] theorem make?_fields (c : Civil) :
    make? c.year c.month c.day c.hour c.minute c.second c.microsecond =
      some c := by
  rw [make?, dif_pos c.valid]

def daysBeforeYear (year : Nat) : Nat :=
  let y := year - 1
  y * 365 + y / 4 - y / 100 + y / 400

def daysBeforeMonth (year month : Nat) : Nat :=
  ((List.range month).map (daysInMonth year)).sum

def ordinal (c : Civil) : Nat :=
  daysBeforeYear c.year + daysBeforeMonth c.year c.month + c.day

theorem daysBeforeMonth_add_le {year month day : Nat} (hmonth : 1 ≤ month)
    (hmonth' : month ≤ 12) (hday : day ≤ daysInMonth year month) :
    daysBeforeMonth year month + day ≤ if isLeap year then 366 else 365 := by
  interval_cases month <;> cases hleap : isLeap year <;>
    simp [daysBeforeMonth, daysInMonth, List.range, List.range.loop, hleap] at hday ⊢ <;>
    omega

theorem ordinal_pos (c : Civil) : 1 ≤ c.ordinal := by
  obtain ⟨-, -, -, -, hday, -⟩ := c.valid
  unfold ordinal
  omega

theorem ordinal_le (c : Civil) : c.ordinal ≤ 3652059 := by
  obtain ⟨-, hyear, hmonth, hmonth', -, hday, -⟩ := c.valid
  have hdays := daysBeforeMonth_add_le hmonth hmonth' hday
  unfold ordinal daysBeforeYear
  by_cases hlast : c.year = 9999
  · have hleap : isLeap 9999 = false := by decide
    rw [hlast, hleap, if_neg (by decide)] at hdays
    rw [hlast]
    dsimp only
    omega
  · have hbound : daysBeforeMonth c.year c.month + c.day ≤ 366 := by
      split at hdays <;> omega
    dsimp only
    omega

def microseconds (c : Civil) : Nat :=
  (((c.ordinal * 24 + c.hour) * 60 + c.minute) * 60 + c.second) * 1000000 +
    c.microsecond

/-! ### A moment has one reading -/

theorem daysBeforeYear_succ {year : Nat} (hyear : 1 ≤ year) :
    daysBeforeYear (year + 1) =
      daysBeforeYear year + if isLeap year then 366 else 365 := by
  obtain ⟨y, rfl⟩ := Nat.exists_eq_add_of_le' hyear
  have hcentury : 100 ∣ y + 1 → 4 ∣ y + 1 := Nat.dvd_trans (by decide)
  have hfour : 400 ∣ y + 1 → 100 ∣ y + 1 := Nat.dvd_trans (by decide)
  have hleap : isLeap (y + 1) = true ↔ 4 ∣ y + 1 ∧ (¬100 ∣ y + 1 ∨ 400 ∣ y + 1) := by
    simp [isLeap, Nat.dvd_iff_mod_eq_zero]
  have hless : y / 100 ≤ y / 4 := Nat.div_le_div_left (by decide) (by decide)
  unfold daysBeforeYear
  simp only [Nat.add_sub_cancel, Nat.succ_div, hleap]
  by_cases h4 : 4 ∣ y + 1
  · by_cases h100 : 100 ∣ y + 1
    · by_cases h400 : 400 ∣ y + 1 <;> simp [h4, h100, h400] <;> omega
    · have h400 : ¬400 ∣ y + 1 := fun h => h100 (hfour h)
      simp [h4, h100, h400]
      omega
  · have h100 : ¬100 ∣ y + 1 := fun h => h4 (hcentury h)
    have h400 : ¬400 ∣ y + 1 := fun h => h100 (hfour h)
    simp [h4, h100, h400]
    omega

theorem daysBeforeYear_le {year later : Nat} (hyear : 1 ≤ year)
    (hlater : year + 1 ≤ later) :
    daysBeforeYear year + (if isLeap year then 366 else 365) ≤ daysBeforeYear later := by
  induction later, hlater using Nat.le_induction with
  | base => exact (daysBeforeYear_succ hyear).ge
  | succ later hlater ih =>
      have hstep := daysBeforeYear_succ (by omega : 1 ≤ later)
      omega

theorem daysBeforeMonth_le (year : Nat) {month later : Nat} (hlater : month + 1 ≤ later) :
    daysBeforeMonth year month + daysInMonth year month ≤ daysBeforeMonth year later := by
  induction later, hlater using Nat.le_induction with
  | base => simp [daysBeforeMonth, List.range_succ]
  | succ later hlater ih =>
      have hstep : daysBeforeMonth year (later + 1) =
          daysBeforeMonth year later + daysInMonth year later := by
        simp [daysBeforeMonth, List.range_succ]
      omega

theorem year_le_of_ordinal {c d : Civil} (h : c.ordinal ≤ d.ordinal) :
    c.year ≤ d.year := by
  by_contra hlater
  obtain ⟨hyear, -, hmonth, hmonth', hday, hday', -⟩ := d.valid
  obtain ⟨-, -, -, -, hpos, -⟩ := c.valid
  have hyears := daysBeforeYear_le hyear (by omega : d.year + 1 ≤ c.year)
  have hmonths := daysBeforeMonth_add_le hmonth hmonth' hday'
  unfold ordinal at h
  omega

theorem month_le_of_ordinal {c d : Civil} (hyear : c.year = d.year)
    (h : c.ordinal ≤ d.ordinal) : c.month ≤ d.month := by
  by_contra hlater
  obtain ⟨-, -, -, -, -, hday', -⟩ := d.valid
  obtain ⟨-, -, -, -, hpos, -⟩ := c.valid
  have hmonths := daysBeforeMonth_le d.year
    (by omega : d.month + 1 ≤ c.month)
  unfold ordinal at h
  rw [hyear] at h
  omega

theorem microseconds_injective : Function.Injective microseconds := by
  intro c d h
  have hc := c.valid
  have hd := d.valid
  unfold microseconds at h
  obtain ⟨-, -, -, -, -, -, hhour, hminute, hsecond, hmicrosecond⟩ := hc
  obtain ⟨-, -, -, -, -, -, hhour', hminute', hsecond', hmicrosecond'⟩ := hd
  have hordinal : c.ordinal = d.ordinal := by omega
  have hclock : c.hour = d.hour ∧ c.minute = d.minute ∧ c.second = d.second ∧
      c.microsecond = d.microsecond := by omega
  have hyear : c.year = d.year :=
    (year_le_of_ordinal hordinal.le).antisymm (year_le_of_ordinal hordinal.ge)
  have hmonth : c.month = d.month :=
    (month_le_of_ordinal hyear hordinal.le).antisymm
      (month_le_of_ordinal hyear.symm hordinal.ge)
  have hday : c.day = d.day := by
    unfold ordinal at hordinal
    rw [hyear, hmonth] at hordinal
    omega
  cases c
  cases d
  simp only at hyear hmonth hday hclock
  simp only [mk.injEq]
  exact ⟨hyear, hmonth, hday, hclock⟩

end Civil

namespace UtcOffset

/-- `timezone(timedelta(microseconds=n))`. -/
def make? (n : Int) : Option UtcOffset :=
  if h : n.natAbs < microsecondsPerDay then some ⟨n, h⟩ else none

@[simp] theorem make?_microseconds (o : UtcOffset) :
    make? o.microseconds = some o := by
  rw [make?, dif_pos o.valid]

def utc : UtcOffset := ⟨0, by decide⟩

theorem microseconds_injective : Function.Injective microseconds := by
  rintro ⟨m, hm⟩ ⟨n, hn⟩ rfl
  rfl

end UtcOffset

def DateTime.instant (d : DateTime) : Int :=
  d.civil.microseconds - d.offset.microseconds

/-- A `timestamptz` value of the database; the driver hands it out in UTC. -/
abbrev Timestamp := Civil

def Timestamp.dateTime (t : Timestamp) : DateTime := ⟨t, .utc⟩

theorem Timestamp.dateTime_instant (t : Timestamp) :
    t.dateTime.instant = t.microseconds := by
  simp [DateTime.instant, dateTime, UtcOffset.utc]

end IsolatedEnv.Foundation
