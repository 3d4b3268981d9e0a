import Mathlib.Algebra.Order.Ring.Int
import Mathlib.Data.Int.ConditionallyCompleteOrder
import Mathlib.Data.Nat.Find
import Mathlib.Order.SuccPred.IntervalSucc
import Mathlib.Tactic.Ring

/-!
# The calendar

The Gregorian calendar, extended to all years.  Days and seconds are counted from the start
of the year 1970.  A day falls on one date and a second on one moment, and a date and a
moment have their day and their second.
-/

namespace Calendar

/-! ### Years -/

/-- The leap years. -/
def IsLeap (y : ℤ) : Prop := y % 4 = 0 ∧ (y % 100 ≠ 0 ∨ y % 400 = 0)

instance (y : ℤ) : Decidable (IsLeap y) := inferInstanceAs (Decidable (_ ∧ (_ ∨ _)))

/-- The number of days of a year. -/
def yearLength (y : ℤ) : ℤ := if IsLeap y then 366 else 365

/-- The first day of a year. -/
def yearStart (y : ℤ) : ℤ :=
  365 * (y - 1970) + (y - 1) / 4 - (y - 1) / 100 + (y - 1) / 400 - 477

theorem yearStart_add_one (y : ℤ) :
  yearStart (y + 1) = yearStart y + yearLength y
  := by
  rw [yearStart, yearStart, yearLength]
  split_ifs with h
  · rw [IsLeap] at h
    omega
  · rw [IsLeap] at h
    omega

theorem yearStart_strictMono :
  StrictMono yearStart
  := by
  apply strictMono_int_of_lt_succ
  intro y
  have hstart := yearStart_add_one y
  rw [yearLength] at hstart
  split_ifs at hstart
  · omega
  · omega

/-- The year of a day: the one guessed from the average length of a year, or a neighbour. -/
def yearOf (n : ℤ) : ℤ :=
  let y := 1970 + 400 * n / 146097
  if n < yearStart y then y - 1 else if yearStart (y + 1) ≤ n then y + 1 else y

theorem yearStart_yearOf (n : ℤ) :
  yearStart (yearOf n) ≤ n
  := by
  rw [yearOf]
  split_ifs with hlt hle
  · rw [yearStart] at hlt ⊢
    omega
  · exact hle
  · exact not_lt.mp hlt

theorem lt_yearStart_yearOf (n : ℤ) :
  n < yearStart (yearOf n + 1)
  := by
  rw [yearOf]
  split_ifs with hlt hle
  · rw [sub_add_cancel]
    exact hlt
  · rw [yearStart] at hle ⊢
    omega
  · exact not_le.mp hle

/-- A day is in the year `y` or later when it is not before the first day of `y`. -/
theorem le_yearOf_iff {y n : ℤ} :
  y ≤ yearOf n ↔ yearStart y ≤ n
  := by
  constructor
  · intro h
    exact le_trans (yearStart_strictMono.monotone h) (yearStart_yearOf n)
  · intro h
    have hlt := yearStart_strictMono.lt_iff_lt.mp (lt_of_le_of_lt h (lt_yearStart_yearOf n))
    omega

/-! ### Months -/

/-- The number of days of a month; the months of a year are 0 to 11. -/
def monthLength (y : ℤ) : ℕ → ℤ
  | 1 => if IsLeap y then 29 else 28
  | 3 | 5 | 8 | 10 => 30
  | _ => 31

/-- The number of days of a year before a month. -/
def monthStart (y : ℤ) : ℕ → ℤ
  | 0 => 0
  | m + 1 => monthStart y m + monthLength y m

theorem monthStart_twelve (y : ℤ) :
  monthStart y 12 = yearLength y
  := by
  simp only [monthStart, monthLength, yearLength]
  split_ifs
  · rfl
  · rfl

theorem monthLength_le (y : ℤ) (m : ℕ) :
  monthLength y m ≤ 31
  := by
  rw [monthLength.eq_def]
  split
  · split_ifs
    · omega
    · omega
  all_goals omega

/-- The month of a day of the year, counted from zero. -/
def monthOf (y d : ℤ) : ℕ := Nat.findGreatest (fun m => monthStart y m ≤ d) 11

theorem monthOf_lt (y d : ℤ) :
  monthOf y d < 12
  := Nat.lt_succ_of_le (Nat.findGreatest_le 11)

theorem monthStart_monthOf {y d : ℤ} (h : 0 ≤ d) :
  monthStart y (monthOf y d) ≤ d
  := Nat.findGreatest_spec (P := fun m => monthStart y m ≤ d) (Nat.zero_le 11) h

theorem lt_monthStart_monthOf {y d : ℤ} (h : d < yearLength y) :
  d < monthStart y (monthOf y d + 1)
  := by
  rcases Nat.lt_or_ge (monthOf y d) 11 with hlt | hge
  · apply not_le.mp
    exact Nat.findGreatest_is_greatest (P := fun m => monthStart y m ≤ d) (Nat.lt_succ_self _) hlt
  · have heq : monthOf y d = 11 := by
      have := monthOf_lt y d
      omega
    rw [heq, monthStart_twelve]
    exact h

/-! ### Dates -/

/-- A date; its month is counted from zero, its day of the month from one. -/
structure Date where
  year : ℤ
  month : ℕ
  day : ℤ
  month_lt : month < 12
  day_pos : 1 ≤ day
  day_le : day ≤ monthLength year month

/-- The day of a date that may lie outside its year or its month: the months and the days
that are too many, or too few, carry over. -/
def dayOf (year month day : ℤ) : ℤ :=
  yearStart (year + month / 12) + monthStart (year + month / 12) (month % 12).toNat + (day - 1)

/-- The date of a day. -/
def dateOf (n : ℤ) : Date where
  year := yearOf n
  month := monthOf (yearOf n) (n - yearStart (yearOf n))
  day := n - yearStart (yearOf n)
    - monthStart (yearOf n) (monthOf (yearOf n) (n - yearStart (yearOf n))) + 1
  month_lt := monthOf_lt _ _
  day_pos := by
    have hyear := yearStart_yearOf n
    have hmonth := monthStart_monthOf (y := yearOf n) (d := n - yearStart (yearOf n)) (by omega)
    omega
  day_le := by
    have hyear := lt_yearStart_yearOf n
    rw [yearStart_add_one] at hyear
    have hmonth := lt_monthStart_monthOf (y := yearOf n) (d := n - yearStart (yearOf n)) (by omega)
    rw [monthStart] at hmonth
    omega

/-- The day of the date of a day is the day. -/
theorem dayOf_dateOf (n : ℤ) :
  dayOf (dateOf n).year (dateOf n).month (dateOf n).day = n
  := by
  have hlt := (dateOf n).month_lt
  have hdiv : ((dateOf n).month : ℤ) / 12 = 0 := by omega
  have hmod : (((dateOf n).month : ℤ) % 12).toNat = (dateOf n).month := by omega
  rw [dayOf, hdiv, hmod, add_zero]
  simp only [dateOf]
  ring

/-! ### Moments -/

/-- A second of a day of the calendar. -/
structure Moment where
  date : Date
  hour : ℤ
  minute : ℤ
  second : ℤ
  hour_nonneg : 0 ≤ hour
  hour_lt : hour < 24
  minute_nonneg : 0 ≤ minute
  minute_lt : minute < 60
  second_nonneg : 0 ≤ second
  second_lt : second < 60

/-- The second of a time of day, of a day that is given by a date. -/
def secondOf (year month day hour minute second : ℤ) : ℤ :=
  86400 * dayOf year month day + 3600 * hour + 60 * minute + second

/-- The moment of a second. -/
def momentOf (t : ℤ) : Moment where
  date := dateOf (t / 86400)
  hour := t % 86400 / 3600
  minute := t % 3600 / 60
  second := t % 60
  hour_nonneg := by omega
  hour_lt := by omega
  minute_nonneg := by omega
  minute_lt := by omega
  second_nonneg := by omega
  second_lt := by omega

/-- The second of the moment of a second is the second. -/
theorem secondOf_momentOf (t : ℤ) :
  secondOf (momentOf t).date.year (momentOf t).date.month (momentOf t).date.day
    (momentOf t).hour (momentOf t).minute (momentOf t).second = t
  := by
  have hday : dayOf (momentOf t).date.year (momentOf t).date.month (momentOf t).date.day
      = t / 86400 := dayOf_dateOf _
  rw [secondOf, hday]
  simp only [momentOf]
  omega

/-- The year of a second is 1970 or later when the second is not before the start of 1970. -/
theorem le_year_momentOf_iff {t : ℤ} :
  1970 ≤ (momentOf t).date.year ↔ 0 ≤ t
  := by
  have hyear : 1970 ≤ (momentOf t).date.year ↔ yearStart 1970 ≤ t / 86400 := le_yearOf_iff
  have hstart : yearStart 1970 = 0 := rfl
  rw [hyear, hstart]
  omega

end Calendar
