import Twstools.Clib.Int
import Mathlib.Data.List.TakeWhile
/-!
# Decimal numbers in C strings

`printf`'s `%d`, `%ld` and `%lld` write an integer as `toString` does.
`strtol` reads one back: leading white space and a sign are passed over,
the digits that follow are the number, and a number no `long` can hold
becomes the nearest one. `atol` and `atoll` return that `long`; `atoi`
keeps the low 32 bits of it. `atol_toString` and `atoi_toString` are the
round trips, each on the range of its type.
-/

namespace Twstools

/-- The largest `long`, which is also the largest `long long`. -/
def LONG_MAX : ℤ := 9223372036854775807

/-- The smallest `long`. -/
def LONG_MIN : ℤ := -9223372036854775808

/-- The value a `long` can hold. -/
def InLong (x : ℤ) : Prop := LONG_MIN ≤ x ∧ x ≤ LONG_MAX

instance (x : ℤ) : Decidable (InLong x) := inferInstanceAs (Decidable (_ ∧ _))

theorem InInt.inLong {x : ℤ} (h : InInt x) : InLong x := by
  unfold InInt INT_MIN INT_MAX at h
  unfold InLong LONG_MIN LONG_MAX
  omega

/-- `isspace` in the C locale. -/
def isSpace (c : Char) : Bool :=
  c = ' ' ∨ c = '\t' ∨ c = '\n' ∨ c.toNat = 11 ∨ c.toNat = 12 ∨ c = '\r'

/-- The sign in front of a number: whether it is a minus, and the rest. -/
def splitSign : List Char → Bool × List Char
  | '-' :: cs => (true, cs)
  | '+' :: cs => (false, cs)
  | cs => (false, cs)

/-- The nearest `long`, as `strtol` returns with `ERANGE`. -/
def clampLong (x : ℤ) : ℤ := max LONG_MIN (min LONG_MAX x)

/-- `strtol(s, &end, 10)`: the number and what `end` points to. -/
def strtol (s : List Char) : ℤ × List Char :=
  let (neg, cs) := splitSign (s.dropWhile isSpace)
  let digits := cs.takeWhile Char.isDigit
  if digits = [] then (0, s)
  else
    let val : ℤ := Nat.ofDigitChars 10 digits 0
    (clampLong (if neg then -val else val), cs.dropWhile Char.isDigit)

/-- `atol`. -/
def atol (s : String) : ℤ := (strtol s.toList).1

/-- `atoll`: `long long` is as wide as `long`. -/
def atoll (s : String) : ℤ := atol s

/-- `atoi`: the `int` in the low bits of what `strtol` reads. -/
def atoi (s : String) : ℤ := toInt (atol s)

theorem clampLong_eq {x : ℤ} (h : InLong x) : clampLong x = x := by
  obtain ⟨h1, h2⟩ := h
  unfold clampLong
  omega

private theorem isDigit_toDigits {n : ℕ} : ∀ c ∈ Nat.toDigits 10 n, c.isDigit = true :=
  fun _ h => Nat.isDigit_of_mem_toDigits (by decide) (by decide) h

/-- The digits of a number are all taken, and nothing is left. -/
private theorem takeWhile_toDigits (n : ℕ) :
    (Nat.toDigits 10 n).takeWhile Char.isDigit = Nat.toDigits 10 n ∧
      (Nat.toDigits 10 n).dropWhile Char.isDigit = [] :=
  ⟨List.takeWhile_eq_self_iff.2 isDigit_toDigits,
    List.dropWhile_eq_nil_iff.2 isDigit_toDigits⟩

/-- A digit is neither white space nor a sign. -/
theorem isDigit_ne {c : Char} (h : c.isDigit = true) :
    isSpace c = false ∧ c ≠ '-' ∧ c ≠ '+' := by
  have hr : 48 ≤ c.toNat := by
    simp only [Char.isDigit, Bool.and_eq_true, decide_eq_true_eq] at h
    exact UInt32.le_iff_toNat_le.1 h.1
  refine ⟨?_, ?_, ?_⟩
  · unfold isSpace
    simp only [decide_eq_false_iff_not, not_or]
    refine ⟨?_, ?_, ?_, by omega, by omega, ?_⟩ <;> rintro rfl <;> simp at hr
  · rintro rfl; simp at hr
  · rintro rfl; simp at hr

theorem splitSign_of_digit {c : Char} {cs : List Char} (h : c.isDigit = true) :
    splitSign (c :: cs) = (false, c :: cs) := by
  obtain ⟨-, hm, hp⟩ := isDigit_ne h
  unfold splitSign
  split <;> simp_all

/-- `strtol` on the digits of a number, with a minus before them or not. -/
private theorem strtol_toDigits (n : ℕ) :
    strtol (Nat.toDigits 10 n) = (clampLong n, []) ∧
      strtol ('-' :: Nat.toDigits 10 n) = (clampLong (-n), []) := by
  obtain ⟨ht, hd⟩ := takeWhile_toDigits n
  have hne : Nat.toDigits 10 n ≠ [] := Nat.toDigits_ne_nil
  obtain ⟨c, cs, hc⟩ := List.exists_cons_of_ne_nil hne
  have hdig : c.isDigit = true := isDigit_toDigits (n := n) c (by rw [hc]; exact List.mem_cons_self)
  constructor
  · have hdrop : (Nat.toDigits 10 n).dropWhile isSpace = Nat.toDigits 10 n := by
      rw [hc, List.dropWhile_cons_of_neg (by simp [(isDigit_ne hdig).1])]
    have hsign : splitSign (Nat.toDigits 10 n) = (false, Nat.toDigits 10 n) := by
      rw [hc]; exact splitSign_of_digit hdig
    simp only [strtol, hdrop, hsign, ht, hd, hne, if_false, Bool.false_eq_true,
      Nat.ofDigitChars_ten_toDigits]
  · have hdrop : ('-' :: Nat.toDigits 10 n).dropWhile isSpace = '-' :: Nat.toDigits 10 n :=
      List.dropWhile_cons_of_neg (by decide)
    simp only [strtol, hdrop, splitSign, ht, hd, hne, if_false, if_true,
      Nat.ofDigitChars_ten_toDigits]

/-- **What `%ld` writes, `atol` reads.** -/
theorem atol_toString {x : ℤ} (h : InLong x) : atol (toString x) = x := by
  unfold atol
  cases x with
  | ofNat n =>
      have : (toString (Int.ofNat n)).toList = Nat.toDigits 10 n := Nat.toList_repr
      rw [this, (strtol_toDigits n).1]
      exact clampLong_eq h
  | negSucc n =>
      have : (toString (Int.negSucc n)).toList = '-' :: Nat.toDigits 10 (n + 1) := by
        rw [Int.toString_eq_repr, Int.repr_eq_if, if_neg (by omega)]
        simp [Nat.toList_repr]
      rw [this, (strtol_toDigits (n + 1)).2]
      exact clampLong_eq h

/-- **And `atoi`, of an `int`.** -/
theorem atoi_toString {x : ℤ} (h : InInt x) : atoi (toString x) = x := by
  rw [atoi, atol_toString h.inLong, toInt_eq h]

end Twstools
