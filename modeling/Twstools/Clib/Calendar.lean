import Twstools.Clib.FixedWidth
import Twstools.Clib.Time
/-!
# The calendar

The months of the Gregorian calendar, which is taken to go back to the year
0; `mktime` goes by the same (`daysBefore_succ`). A `CivilDate` is a day that
exists in it, with a year of four digits.
-/

namespace Twstools

/-- A year with a leap day. -/
def IsLeapYear (y : ℕ) : Prop := y % 4 = 0 ∧ (y % 100 ≠ 0 ∨ y % 400 = 0)

instance (y : ℕ) : Decidable (IsLeapYear y) := inferInstanceAs (Decidable (_ ∧ _))

/-- The days of a month. -/
def daysInMonth (y m : ℕ) : ℕ :=
  if m = 2 then if IsLeapYear y then 29 else 28
  else if m = 4 ∨ m = 6 ∨ m = 9 ∨ m = 11 then 30
  else 31

theorem daysInMonth_bounds (y m : ℕ) : 28 ≤ daysInMonth y m ∧ daysInMonth y m ≤ 31 := by
  unfold daysInMonth
  repeat' split
  all_goals omega

/-- **`mktime` counts with the same months.** -/
theorem daysBefore_succ {y m : ℕ} (hm : 1 ≤ m ∧ m ≤ 12) :
    daysBefore (y - 1900) m - daysBefore (y - 1900) (m - 1) = daysInMonth y m := by
  by_cases hfeb : m = 2
  · -- the leap day is the last one of the year that begins in March
    subst hfeb
    by_cases hleap : IsLeapYear y
    · rw [daysInMonth, if_pos rfl, if_pos hleap]
      unfold IsLeapYear at hleap
      simp only [daysBefore]
      omega
    · rw [daysInMonth, if_pos rfl, if_neg hleap]
      unfold IsLeapYear at hleap
      simp only [daysBefore]
      omega
  · obtain rfl | rfl | rfl | rfl | rfl | rfl | rfl | rfl | rfl | rfl | rfl :
        m = 1 ∨ m = 3 ∨ m = 4 ∨ m = 5 ∨ m = 6 ∨ m = 7 ∨ m = 8 ∨ m = 9 ∨ m = 10 ∨ m = 11 ∨
          m = 12 := by omega
    all_goals simp [daysBefore, daysInMonth]

/-- A day that exists. -/
structure CivilDate where
  year : ℕ
  month : ℕ
  day : ℕ
  year_le : year ≤ 9999
  month_pos : 1 ≤ month
  month_le : month ≤ 12
  day_pos : 1 ≤ day
  day_le : day ≤ daysInMonth year month

namespace CivilDate

variable {e : CivilDate}

/-- `yyyymmdd`. -/
def text (e : CivilDate) : List Char := zeroPad 4 e.year ++ (zeroPad 2 e.month ++ zeroPad 2 e.day)

/-- `yyyy-mm-dd`. -/
def isoText (e : CivilDate) : List Char :=
  zeroPad 4 e.year ++ '-' :: (zeroPad 2 e.month ++ '-' :: zeroPad 2 e.day)

/-- The early days are in every month. -/
def early (y m d : ℕ) (hy : y ≤ 9999) (hm : 1 ≤ m ∧ m ≤ 12) (hd : 1 ≤ d ∧ d ≤ 28) : CivilDate where
  year := y
  month := m
  day := d
  year_le := hy
  month_pos := hm.1
  month_le := hm.2
  day_pos := hd.1
  day_le := hd.2.trans (daysInMonth_bounds y m).1

theorem day_le_31 : e.day ≤ 31 := e.day_le.trans (daysInMonth_bounds _ _).2

end CivilDate

/-- `HH:MM:SS`. -/
def clockText (h mi se : ℕ) : List Char :=
  zeroPad 2 h ++ ':' :: (zeroPad 2 mi ++ ':' :: zeroPad 2 se)

end Twstools
