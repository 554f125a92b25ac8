import Mathlib.Algebra.BigOperators.Group.Finset.Basic
import Mathlib.Tactic.IntervalCases
import Mathlib.Tactic.Linarith

set_option autoImplicit false

/-! # The Gregorian calendar

Days are numbered from 0000-01-01 on, by adding up the lengths of the years and months before them. The
leap years up to a year are counted by divisions (`daysBeforeYear_eq`).

A date carries the proof that it exists, so a date that does not exist, such as the 29th of February
of most years, cannot be numbered. -/

namespace Calendar

/-- Every fourth year, but of the last years of the centuries only every fourth. -/
def IsLeap (year : ℕ) : Prop := year % 4 = 0 ∧ (year % 100 ≠ 0 ∨ year % 400 = 0)

instance : DecidablePred IsLeap := fun _ => inferInstanceAs (Decidable (_ ∧ _))

/-- The number of days of a year. -/
def yearLength (year : ℕ) : ℕ := if IsLeap year then 366 else 365

/-- The length of a month, counted from 1. -/
def monthLength (year month : ℕ) : ℕ :=
  if month = 2 then if IsLeap year then 29 else 28
  else if month = 4 ∨ month = 6 ∨ month = 9 ∨ month = 11 then 30
  else 31

theorem monthLength_le (year month : ℕ) : monthLength year month ≤ 31 := by
  unfold monthLength
  split_ifs <;> omega

/-- The days from 0000-01-01 to the first day of a year. -/
def daysBeforeYear (year : ℕ) : ℕ := ∑ y ∈ Finset.range year, yearLength y

/-- The days of a year before the first day of a month. Months are counted from 1 on. -/
def daysBeforeMonth (year month : ℕ) : ℕ := ∑ m ∈ Finset.range (month - 1), monthLength year (m + 1)

/-- A day that exists. -/
structure Date where
  year : ℕ
  month : ℕ
  day : ℕ
  one_le_month : 1 ≤ month
  month_le : month ≤ 12
  one_le_day : 1 ≤ day
  day_le : day ≤ monthLength year month

/-- The number of a day; 0000-01-01 is day zero. -/
def Date.dayNumber (date : Date) : ℕ :=
  daysBeforeYear date.year + daysBeforeMonth date.year date.month + (date.day - 1)

/-! ## Counting by divisions -/

/-- Every fourth year is a leap year, but of the last years of the centuries only every fourth. -/
theorem leap_count (year : ℕ) :
    (if IsLeap year then 1 else 0) + (if year % 100 = 0 then 1 else 0)
      = (if year % 4 = 0 then 1 else 0) + if year % 400 = 0 then 1 else 0 := by
  by_cases hfour : year % 4 = 0
  · by_cases hcentury : year % 100 = 0
    · simp [IsLeap, hfour, hcentury, Nat.add_comm]
    · have hquarter : year % 400 ≠ 0 := by omega
      simp [IsLeap, hfour, hcentury, hquarter]
  · have hcentury : year % 100 ≠ 0 := by omega
    have hquarter : year % 400 ≠ 0 := by omega
    simp [IsLeap, hfour, hcentury, hquarter]

/-- The next year begins a new period of `n + 1` years if this one is divisible by them. -/
theorem succ_div_eq (year n : ℕ) :
    (year + 1 + n) / (n + 1) = (year + n) / (n + 1) + if year % (n + 1) = 0 then 1 else 0 := by
  have hdvd : n + 1 ∣ year + n + 1 ↔ year % (n + 1) = 0 := by
    rw [Nat.add_assoc, Nat.dvd_add_self_right, Nat.dvd_iff_mod_eq_zero]
  rw [Nat.add_right_comm, Nat.succ_div]
  simp [hdvd]

theorem daysBeforeYear_succ (year : ℕ) :
    daysBeforeYear (year + 1) = daysBeforeYear year + 365 + if IsLeap year then 1 else 0 := by
  rw [daysBeforeYear, daysBeforeYear, Finset.sum_range_succ, Nat.add_assoc, yearLength]
  split_ifs <;> rfl

theorem daysBeforeYear_eq (year : ℕ) :
    daysBeforeYear year + (year + 99) / 100 = 365 * year + (year + 3) / 4 + (year + 399) / 400 := by
  induction year with
  | zero => rfl
  | succ year ih =>
      have hfour : (year + 1 + 3) / 4 = (year + 3) / 4 + if year % 4 = 0 then 1 else 0 :=
        succ_div_eq year 3
      have hcentury :
          (year + 1 + 99) / 100 = (year + 99) / 100 + if year % 100 = 0 then 1 else 0 :=
        succ_div_eq year 99
      have hquarter :
          (year + 1 + 399) / 400 = (year + 399) / 400 + if year % 400 = 0 then 1 else 0 :=
        succ_div_eq year 399
      have hleap := leap_count year
      rw [daysBeforeYear_succ, hfour, hcentury, hquarter]
      linarith only [ih, hleap]

/-- From March on, the months of 31 and of 30 days alternate in fives. -/
theorem daysBeforeMonth_eq (year : ℕ) {month : ℕ} (hmonth : 1 ≤ month) (hle : month ≤ 12) :
    daysBeforeMonth year month
      = if month ≤ 2 then 31 * (month - 1)
        else (153 * (month - 3) + 2) / 5 + 59 + if IsLeap year then 1 else 0 := by
  by_cases hleap : IsLeap year
  · interval_cases month <;> simp [daysBeforeMonth, Finset.sum_range_succ, monthLength, hleap]
  · interval_cases month <;> simp [daysBeforeMonth, Finset.sum_range_succ, monthLength, hleap]

end Calendar
