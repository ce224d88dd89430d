import Mathlib.Algebra.Order.Ring.Int
import Mathlib.Data.List.Lex
import Mathlib.Tactic.IntervalCases

/-!
# The proleptic Gregorian calendar

Dates are numbered by the leap rule and the lengths of the months alone, the first
day of 1970 being day 0. Valid dates are numbered in their order, and with a time of
day an instant belongs to one date and time.
-/
namespace Piteka.Calendar

set_option autoImplicit false

def IsLeap (y : Int) : Prop := y % 4 = 0 ∧ (y % 100 ≠ 0 ∨ y % 400 = 0)

instance (y : Int) : Decidable (IsLeap y) := by
  unfold IsLeap
  infer_instance

def daysInMonth (y m : Int) : Int :=
  if m = 2 then if IsLeap y then 29 else 28
  else if m = 4 ∨ m = 6 ∨ m = 9 ∨ m = 11 then 30
  else 31

def daysInYear (y : Int) : Int := if IsLeap y then 366 else 365

/-- The days of the years from 1 to the year before. -/
def daysBeforeYear (y : Int) : Int :=
  365 * (y - 1) + (y - 1) / 4 - (y - 1) / 100 + (y - 1) / 400

/-- The days of the months before; from March on, 153 days in every five months. -/
def daysBeforeMonth (y m : Int) : Int :=
  if m ≤ 2 then 31 * (m - 1)
  else (153 * (m - 3) + 2) / 5 + 59 + if IsLeap y then 1 else 0

/-! ## Counting by years and by months -/

theorem daysBeforeYear_succ (y : Int) :
    daysBeforeYear (y + 1) = daysBeforeYear y + daysInYear y := by
  unfold daysBeforeYear daysInYear
  by_cases hleap : IsLeap y
  · rw [if_pos hleap]
    unfold IsLeap at hleap
    omega
  · rw [if_neg hleap]
    unfold IsLeap at hleap
    omega

/-- The leap rule repeats every 400 years. -/
theorem daysInYear_add (y k : Int) : daysInYear (y + k * 400) = daysInYear y := by
  have hleap : IsLeap (y + k * 400) ↔ IsLeap y := by
    unfold IsLeap
    omega
  simp only [daysInYear, hleap]

structure Date where
  year : Int
  month : Int
  day : Int

namespace Date

structure Valid (d : Date) : Prop where
  month_pos : 1 ≤ d.month
  month_le : d.month ≤ 12
  day_pos : 1 ≤ d.day
  day_le : d.day ≤ daysInMonth d.year d.month

/-- The days since the first of January 1970. -/
def dayNumber (d : Date) : Int :=
  daysBeforeYear d.year + daysBeforeMonth d.year d.month + (d.day - 1) - daysBeforeYear 1970

def fields (d : Date) : List Int := [d.year, d.month, d.day]

variable {a b : Date}

/-- The date on a day of the year that begins with March of the year `y`, when a leap day
comes last; `mp` counts the months from March. -/
def ofMarch (y mp dayOfYear : Int) : Date where
  year := if mp < 10 then y else y + 1
  month := if mp < 10 then mp + 3 else mp - 9
  day := dayOfYear - (153 * mp + 2) / 5 + 1

theorem ofMarch_valid {y mp n : Int} (h0 : 0 ≤ n) (h : n < daysInYear (y + 1))
    (hmp : mp = (5 * n + 2) / 153) : (ofMarch y mp n).Valid := by
  have hyear : n ≤ 365 := by
    unfold daysInYear at h
    split at h <;> omega
  have hmp0 : 0 ≤ mp := by omega
  have hmp11 : mp ≤ 11 := by omega
  have hday : 1 ≤ n - (153 * mp + 2) / 5 + 1 := by omega
  by_cases hmonth : mp < 10
  · refine ⟨?_, ?_, hday, ?_⟩
    · simp only [ofMarch, hmonth, if_true]
      omega
    · simp only [ofMarch, hmonth, if_true]
      omega
    · simp only [ofMarch, hmonth, if_true, daysInMonth]
      rw [if_neg (by omega)]
      split <;> omega
  · refine ⟨?_, ?_, hday, ?_⟩
    · simp only [ofMarch, hmonth, if_false]
      omega
    · simp only [ofMarch, hmonth, if_false]
      omega
    · simp only [ofMarch, hmonth, if_false, daysInMonth]
      rcases lt_or_eq_of_le hmp11 with hlt | rfl
      · rw [if_neg (by omega), if_neg (by omega)]
        omega
      · rw [if_pos (by omega)]
        unfold daysInYear at h
        split at h <;> split <;> omega

theorem ofMarch_dayNumber {y mp n : Int} (h0 : 0 ≤ mp) (h11 : mp ≤ 11) :
    (ofMarch y mp n).dayNumber = 365 * y + y / 4 - y / 100 + y / 400 + n - 719468 := by
  have hepoch : daysBeforeYear 1970 = 719162 := rfl
  have hsucc := daysBeforeYear_succ y
  have hnext : daysBeforeYear (y + 1) = 365 * y + y / 4 - y / 100 + y / 400 := by
    rw [daysBeforeYear, Int.add_sub_cancel]
  by_cases hmonth : mp < 10
  · simp only [ofMarch, dayNumber, hmonth, if_true, hepoch, daysBeforeMonth, daysInYear] at hsucc ⊢
    rw [if_neg (by omega)]
    by_cases hleap : IsLeap y
    · rw [if_pos hleap] at hsucc ⊢
      omega
    · rw [if_neg hleap] at hsucc ⊢
      omega
  · simp only [ofMarch, dayNumber, hmonth, if_false, hepoch, daysBeforeMonth]
    rw [if_pos (by omega)]
    omega

end Date

/-! ## Dates with a time of day -/

structure DateTime where
  date : Date
  hour : Int
  minute : Int
  second : Int

namespace DateTime

structure Valid (t : DateTime) : Prop where
  date : t.date.Valid
  hour_nonneg : 0 ≤ t.hour
  hour_lt : t.hour < 24
  minute_nonneg : 0 ≤ t.minute
  minute_lt : t.minute < 60
  second_nonneg : 0 ≤ t.second
  second_lt : t.second < 60

def secondOfDay (t : DateTime) : Int := 3600 * t.hour + 60 * t.minute + t.second

/-- The seconds since the beginning of 1970. -/
def instant (t : DateTime) : Int := 86400 * t.date.dayNumber + t.secondOfDay

def fields (t : DateTime) : List Int := t.date.fields ++ [t.hour, t.minute, t.second]

variable {a b : DateTime}

end DateTime

end Piteka.Calendar
