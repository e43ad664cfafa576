import Mathlib.Tactic.Ring
/-!
# Machine integers

Quantities of the program that stay far from the limits of their type are
unbounded integers here. What the code stores in an `int` after computing
it in a wider type goes through `toInt`, which keeps the low 32 bits;
`toInt_eq` says when nothing is lost.
-/

namespace Twstools

/-- The largest `int`. -/
def INT_MAX : ℤ := 2147483647

/-- The smallest `int`. -/
def INT_MIN : ℤ := -2147483648

/-- The value an `int` can hold. -/
def InInt (x : ℤ) : Prop := INT_MIN ≤ x ∧ x ≤ INT_MAX

instance (x : ℤ) : Decidable (InInt x) := inferInstanceAs (Decidable (_ ∧ _))

/-- Conversion to `int` from a wider integer type: the low 32 bits, read
as a signed number. -/
def toInt (x : ℤ) : ℤ := x.bmod 4294967296

/-- **A value in range is kept.** -/
theorem toInt_eq {x : ℤ} (h : InInt x) : toInt x = x := by
  obtain ⟨h1, h2⟩ := h
  unfold INT_MIN at h1
  unfold INT_MAX at h2
  exact Int.bmod_eq_of_le (by omega) (by omega)

/-- The result of the conversion is an `int`. -/
theorem inInt_toInt (x : ℤ) : InInt (toInt x) := by
  have h1 := Int.le_bmod (x := x) (m := 4294967296) (by omega)
  have h2 := Int.bmod_lt (x := x) (m := 4294967296) (by omega)
  unfold InInt INT_MIN INT_MAX toInt
  omega

/-- Too large a value becomes smaller. -/
theorem toInt_le {x : ℤ} (h : INT_MIN ≤ x) : toInt x ≤ x := by
  by_cases hmax : x ≤ INT_MAX
  · exact le_of_eq (toInt_eq ⟨h, hmax⟩)
  · have := (inInt_toInt x).2
    omega

/-- **The sign after the conversion.** A value that is not too large stays
positive, and one that is not positive comes to be so when it lies more
than 2 ^ 31 below a multiple of 2 ^ 32. -/
theorem toInt_le_zero_iff {x : ℤ} (h : x ≤ INT_MAX) :
    toInt x ≤ 0 ↔ x ≤ 0 ∧ -x % 4294967296 ≤ 2147483648 := by
  unfold INT_MAX at h
  unfold toInt
  rw [Int.bmod_def]
  split <;> omega

/-- A value just too large becomes negative. -/
theorem toInt_neg {x : ℤ} (h : INT_MAX < x) (h' : x ≤ 4294967295) : toInt x < 0 := by
  unfold INT_MAX at h
  unfold toInt
  rw [Int.bmod_def]
  split <;> omega

end Twstools
