import Twstools.Clib.Double
import Mathlib.Algebra.Order.Field.Basic
import Mathlib.Algebra.Order.Field.Power
import Mathlib.Data.Rat.Cast.Order
import Mathlib.Tactic.FieldSimp
import Mathlib.Tactic.Linarith
import Mathlib.Tactic.Positivity
/-!
# Numbers with ten digits

A number with at most ten significant digits is printed by `%.10g` without
any rounding, in whatever style, and reads back as itself.
-/

namespace Twstools

namespace Double

/-- The value of a decimal mantissa and exponent. -/
theorem scale_eq (m : ℕ) (e : ℤ) : scale m e = m * (10 : ℚ) ^ e := by
  unfold scale
  split
  · rename_i h
    obtain ⟨k, rfl⟩ := Int.eq_ofNat_of_zero_le h
    simp
  · rename_i h
    obtain ⟨k, hk⟩ := Int.eq_ofNat_of_zero_le (show 0 ≤ -e by omega)
    obtain rfl : e = -k := by omega
    rw [Rat.mkRat_eq_div, zpow_neg, neg_neg, Int.toNat_natCast, zpow_natCast]
    push_cast
    rw [div_eq_mul_inv]

/-! ## The exponent and the digits -/

theorem toDigits_bounds {n : ℕ} (hn : n ≠ 0) :
    10 ^ ((Nat.toDigits 10 n).length - 1) ≤ n ∧ n < 10 ^ (Nat.toDigits 10 n).length := by
  have hpos : 0 < (Nat.toDigits 10 n).length := Nat.length_toDigits_pos
  refine ⟨?_, (Nat.length_toDigits_le_iff (by decide) hpos).1 le_rfl⟩
  by_cases h1 : (Nat.toDigits 10 n).length = 1
  · rw [h1]
    simpa using Nat.one_le_iff_ne_zero.2 hn
  · by_contra hlt
    have := (Nat.length_toDigits_le_iff (by decide) (by omega)).2 (not_le.1 hlt)
    omega

/-- **`exponent10` is the place of the first digit.** -/
theorem exponent10_spec {n d : ℕ} (hn : n ≠ 0) (hd : d ≠ 0) :
    (10 : ℚ) ^ exponent10 n d ≤ n / d ∧ (n / d : ℚ) < 10 ^ (exponent10 n d + 1) := by
  obtain ⟨hn₁, hn₂⟩ := toDigits_bounds hn
  obtain ⟨hd₁, hd₂⟩ := toDigits_bounds hd
  have hln : 0 < (Nat.toDigits 10 n).length := Nat.length_toDigits_pos
  have hld : 0 < (Nat.toDigits 10 d).length := Nat.length_toDigits_pos
  generalize ha : (Nat.toDigits 10 n).length = a at *
  generalize hb : (Nat.toDigits 10 d).length = b at *
  -- a number of `a` digits lies in one decade, and so does one of `b`
  have hn₁' : (10 : ℚ) ^ ((a : ℤ) - 1) ≤ n := by
    have : (10 : ℚ) ^ (a - 1) ≤ n := by exact_mod_cast hn₁
    rwa [← zpow_natCast, Nat.cast_sub hln] at this
  have hn₂' : (n : ℚ) < 10 ^ (a : ℤ) := by
    rw [zpow_natCast]
    exact_mod_cast hn₂
  have hd₁' : (10 : ℚ) ^ ((b : ℤ) - 1) ≤ d := by
    have : (10 : ℚ) ^ (b - 1) ≤ d := by exact_mod_cast hd₁
    rwa [← zpow_natCast, Nat.cast_sub hld] at this
  have hd₂' : (d : ℚ) < 10 ^ (b : ℤ) := by
    rw [zpow_natCast]
    exact_mod_cast hd₂
  have hdpos : (0 : ℚ) < d := by exact_mod_cast Nat.pos_of_ne_zero hd
  -- their quotient lies in one of two
  have hlow : (10 : ℚ) ^ ((a : ℤ) - b - 1) ≤ n / d := by
    rw [le_div_iff₀ hdpos]
    calc (10 : ℚ) ^ ((a : ℤ) - b - 1) * d ≤ 10 ^ ((a : ℤ) - b - 1) * 10 ^ (b : ℤ) := by
          gcongr
      _ = 10 ^ ((a : ℤ) - 1) := by
          rw [← zpow_add₀ (by norm_num)]
          congr 1
          omega
      _ ≤ n := hn₁'
  have hhigh : (n / d : ℚ) < 10 ^ ((a : ℤ) - b + 1) := by
    rw [div_lt_iff₀ hdpos]
    calc (n : ℚ) < 10 ^ (a : ℤ) := hn₂'
      _ = 10 ^ ((a : ℤ) - b + 1) * 10 ^ ((b : ℤ) - 1) := by
          rw [← zpow_add₀ (by norm_num)]
          congr 1
          omega
      _ ≤ 10 ^ ((a : ℤ) - b + 1) * d := by gcongr
  have hx : exponent10 n d = if (10 : ℚ) ^ ((a : ℤ) - b) ≤ n / d then (a : ℤ) - b
      else (a : ℤ) - b - 1 := by
    simp only [exponent10, ha, hb, scale_eq, Rat.mkRat_eq_div, Nat.cast_one, one_mul,
      Int.cast_natCast]
  rw [hx]
  split
  · rename_i hle
    exact ⟨hle, hhigh⟩
  · rename_i hlt
    refine ⟨hlow, ?_⟩
    rw [sub_add_cancel]
    exact not_le.1 hlt

/-- The value has at most ten significant digits. -/
def TenDigits (q : ℚ) : Prop := ∃ (m : ℕ) (e : ℤ), m < 10 ^ 10 ∧ q = scale m e

/-- **Nothing is rounded**, and the ten digits stand for the number. -/
theorem significand10_spec {n d : ℕ} (hn : n ≠ 0) (hd : d ≠ 0) (h : TenDigits (n / d)) :
    ∃ (M : ℕ) (x : ℤ), significand10 n d = (M, x) ∧ 10 ^ 9 ≤ M ∧ M < 10 ^ 10 ∧
      (n / d : ℚ) = M * 10 ^ (x - 9) := by
  obtain ⟨m, e, hm, hq⟩ := h
  rw [scale_eq] at hq
  obtain ⟨hlow, hhigh⟩ := exponent10_spec hn hd
  generalize hx : exponent10 n d = x at hlow hhigh
  have hten : (10 : ℚ) ≠ 0 := by norm_num
  have hs : (n / d : ℚ) * 10 ^ (9 - x) = m * 10 ^ (e + 9 - x) := by
    rw [hq, mul_assoc, ← zpow_add₀ hten]
    congr 2
    omega
  -- the number is at least `10 ^ 9` units of the tenth digit
  have hge : (10 : ℚ) ^ 9 ≤ m * 10 ^ (e + 9 - x) := by
    rw [← hs]
    calc (10 : ℚ) ^ 9 = 10 ^ x * 10 ^ (9 - x) := by
          rw [← zpow_add₀ hten]
          norm_num
      _ ≤ n / d * 10 ^ (9 - x) := by gcongr
  have hlt : (m : ℚ) * 10 ^ (e + 9 - x) < 10 ^ 10 := by
    rw [← hs]
    calc (n / d : ℚ) * 10 ^ (9 - x) < 10 ^ (x + 1) * 10 ^ (9 - x) := by gcongr
      _ = 10 ^ 10 := by
          rw [← zpow_add₀ hten, show x + 1 + (9 - x) = 10 by omega]
          norm_num
  -- so with ten digits there are none behind it
  have he : 0 ≤ e + 9 - x := by
    by_contra hneg
    have hm' : (m : ℚ) < 10 ^ 10 := by exact_mod_cast hm
    have hle : (10 : ℚ) ^ (e + 9 - x) ≤ 10 ^ (-1 : ℤ) :=
      zpow_le_zpow_right₀ (by norm_num) (by omega)
    have hprod : (m : ℚ) * 10 ^ (e + 9 - x) ≤ m * 10 ^ (-1 : ℤ) := by gcongr
    have hinv : (10 : ℚ) ^ (-1 : ℤ) = 1 / 10 := by norm_num
    rw [hinv] at hprod
    linarith
  obtain ⟨k, hk⟩ := Int.eq_ofNat_of_zero_le he
  have hM : (m : ℚ) * 10 ^ (e + 9 - x) = ((m * 10 ^ k : ℕ) : ℚ) := by
    rw [hk]
    push_cast
    rw [zpow_natCast]
  rw [hM] at hge hlt hs
  have hge' : 10 ^ 9 ≤ m * 10 ^ k := by exact_mod_cast hge
  have hlt' : m * 10 ^ k < 10 ^ 10 := by exact_mod_cast hlt
  refine ⟨m * 10 ^ k, x, ?_, hge', hlt', ?_⟩
  · have hround : ∀ M : ℕ, roundHalfEven M 1 = M := fun M => by
      simp [roundHalfEven, Nat.mod_one]
    have hs' : mkRat n d * scale 1 (9 - x) = ((m * 10 ^ k : ℕ) : ℚ) := by
      rw [Rat.mkRat_eq_div, scale_eq, Nat.cast_one, one_mul, Int.cast_natCast, hs]
    simp only [significand10, hx, hs', Rat.num_natCast, Rat.den_natCast, Int.natAbs_natCast,
      hround]
    rw [if_neg (by omega)]
  · have : (n / d : ℚ) = n / d * 10 ^ (9 - x) * 10 ^ (x - 9) := by
      rw [mul_assoc, ← zpow_add₀ hten]
      simp
    rw [this, hs]

/-! ## Reading the text -/

/-- A list of digits. -/
def Digits (cs : List Char) : Prop := ∀ c ∈ cs, c.isDigit = true

theorem Digits.append {cs cs' : List Char} (h : Digits cs) (h' : Digits cs') :
    Digits (cs ++ cs') := fun c hc => (List.mem_append.1 hc).elim (h c) (h' c)

theorem digits_replicate (k : ℕ) : Digits (List.replicate k '0') := fun c hc => by
  rw [List.eq_of_mem_replicate hc]
  decide

theorem digits_toDigits (n : ℕ) : Digits (Nat.toDigits 10 n) :=
  fun _ hc => Nat.isDigit_of_mem_toDigits (by decide) (by decide) hc

/-- Only zeros are stripped. -/
theorem stripZeros_append (cs : List Char) :
    ∃ k, cs = stripZeros cs ++ List.replicate k '0' := by
  refine ⟨(cs.reverse.takeWhile (· = '0')).length, ?_⟩
  have hz : cs.reverse.takeWhile (· = '0') =
      List.replicate (cs.reverse.takeWhile (· = '0')).length '0' :=
    List.eq_replicate_iff.2 ⟨rfl, fun c hc => by simpa using List.mem_takeWhile_imp hc⟩
  have h := congrArg List.reverse
    (List.takeWhile_append_dropWhile (p := (· = '0')) (l := cs.reverse))
  rw [List.reverse_append, List.reverse_reverse] at h
  rw [stripZeros, ← List.reverse_replicate, ← hz]
  exact h.symm

/-- What may follow a mantissa: nothing that belongs to one. -/
def EndsMantissa (rest : List Char) : Prop :=
  ∀ c cs, rest = c :: cs → c.isDigit = false ∧ c ≠ '.'

theorem span_digits {cs rest : List Char} (h : Digits cs)
    (hr : ∀ c r, rest = c :: r → c.isDigit = false) :
    (cs ++ rest).takeWhile Char.isDigit = cs ∧ (cs ++ rest).dropWhile Char.isDigit = rest := by
  induction cs with
  | nil =>
      cases rest with
      | nil => exact ⟨rfl, rfl⟩
      | cons c r =>
          have := hr c r rfl
          simp [this]
  | cons c cs ih =>
      have hc := h c List.mem_cons_self
      obtain ⟨h₁, h₂⟩ := ih fun c hc => h c (List.mem_cons_of_mem _ hc)
      simp [hc, h₁, h₂]

theorem splitMantissa_eq {whole frac rest : List Char} (hw : Digits whole) (hf : Digits frac)
    (hr : EndsMantissa rest) :
    splitMantissa (whole ++ fraction frac ++ rest) = (whole, stripZeros frac, rest) := by
  have hrest : ∀ c r, rest = c :: r → c.isDigit = false := fun c r h => (hr c r h).1
  obtain ⟨k, hk⟩ := stripZeros_append frac
  have hstrip : Digits (stripZeros frac) := fun c hc =>
    hf c (by rw [hk]; exact List.mem_append_left _ hc)
  rw [List.append_assoc]
  unfold fraction
  cases hs : stripZeros frac with
  | nil =>
      obtain ⟨h₁, h₂⟩ := span_digits hw hrest
      simp only [List.nil_append, splitMantissa, h₁, h₂]
      cases hrs : rest with
      | nil => rfl
      | cons c r =>
          have := (hr c r hrs).2
          split
          · rename_i heq
            exact absurd (List.cons.inj heq).1 this
          · rfl
  | cons d ds =>
      rw [hs] at hstrip
      have hdot : ∀ c r, '.' :: (d :: ds ++ rest) = c :: r → c.isDigit = false :=
        fun c r h => by rw [← (List.cons.inj h).1]; decide
      obtain ⟨h₁, h₂⟩ := span_digits hw hdot
      obtain ⟨h₃, h₄⟩ := span_digits hstrip hrest
      simp only [List.cons_append] at h₁ h₂ h₃ h₄ ⊢
      simp only [splitMantissa, h₁, h₂, h₃, h₄]

/-- **A printed mantissa is read with all its digits**, the stripped zeros
among them. -/
theorem readPos_eq {whole frac rest : List Char} (hw : Digits whole) (hf : Digits frac)
    (hr : EndsMantissa rest) :
    readPos (whole ++ fraction frac ++ rest) =
      Nat.ofDigitChars 10 (whole ++ frac) 0 * (10 : ℚ) ^ (readExponent rest - frac.length) := by
  obtain ⟨k, hk⟩ := stripZeros_append frac
  rw [readPos, splitMantissa_eq hw hf hr]
  dsimp only
  rw [scale_eq]
  generalize stripZeros frac = fs at hk
  subst hk
  have hzeros : Nat.ofDigitChars 10 (whole ++ fs ++ List.replicate k '0') 0 =
      10 ^ k * Nat.ofDigitChars 10 (whole ++ fs) 0 := by
    rw [Nat.ofDigitChars_append, Nat.ofDigitChars_replicate_zero]
  rw [← List.append_assoc, hzeros, List.length_append, List.length_replicate]
  push_cast
  rw [← zpow_natCast, mul_comm ((10 : ℚ) ^ (k : ℤ)), mul_assoc, ← zpow_add₀ (by norm_num)]
  congr 2
  omega

/-- An exponent is read back. -/
theorem readExponent_exponentText (x : ℤ) : readExponent (exponentText x) = x := by
  have hds : ∀ ds : List Char, Digits ds →
      Nat.ofDigitChars 10 ((if ds.length < 2 then '0' :: ds else ds).takeWhile Char.isDigit) 0 =
        Nat.ofDigitChars 10 ds 0 := by
    intro ds h
    have htake : ds.takeWhile Char.isDigit = ds := List.takeWhile_eq_self_iff.2 h
    split
    · rw [List.takeWhile_cons_of_pos (by decide), htake, Nat.ofDigitChars_cons]
      rfl
    · rw [htake]
  have h := hds _ (digits_toDigits x.natAbs)
  rw [Nat.ofDigitChars_ten_toDigits] at h
  simp only [exponentText, readExponent]
  rw [if_pos (by decide)]
  split
  · rename_i hx
    simp only [splitSign, h, if_true]
    omega
  · rename_i hx
    simp only [splitSign, h, if_false, Bool.false_eq_true]
    omega

/-! ## The round trip -/

/-- The three styles of `%g` print the same number. -/
theorem readPos_printPos {n d : ℕ} (hn : n ≠ 0) (hd : d ≠ 0) (h : TenDigits (n / d)) :
    readPos (printPos n d) = n / d := by
  obtain ⟨M, x, hsig, hM₁, hM₂, hq⟩ := significand10_spec hn hd h
  have hlen : (Nat.toDigits 10 M).length = 10 := by
    have h₁ := (Nat.length_toDigits_le_iff (b := 10) (n := M) (by decide) (by decide)).2 hM₂
    have h₂ : ¬ (Nat.toDigits 10 M).length ≤ 9 := fun h =>
      absurd ((Nat.length_toDigits_le_iff (by decide) (by decide)).1 h) (not_lt.2 hM₁)
    omega
  have hdig := digits_toDigits M
  have hval : Nat.ofDigitChars 10 (Nat.toDigits 10 M) 0 = M := Nat.ofDigitChars_ten_toDigits
  simp only [printPos, hsig, hq]
  generalize Nat.toDigits 10 M = ds at hlen hdig hval
  have htake : ∀ k, Digits (ds.take k) := fun k c hc => hdig c (List.mem_of_mem_take hc)
  have hdrop : ∀ k, Digits (ds.drop k) := fun k c hc => hdig c (List.mem_of_mem_drop hc)
  split
  · -- one digit before the point, and an exponent
    rw [readPos_eq (htake 1) (hdrop 1), List.take_append_drop, hval, readExponent_exponentText,
      List.length_drop, hlen]
    · norm_num
    · rintro c cs hc
      rw [← (List.cons.inj hc).1]
      decide
  · rename_i hx
    split
    · -- no exponent
      rename_i hx0
      rw [← List.append_nil (ds.take _ ++ _), readPos_eq (htake _) (hdrop _),
        List.take_append_drop, hval, List.length_drop, hlen]
      · congr 2
        simp only [readExponent]
        omega
      · rintro c cs hc
        cases hc
    · -- zeros first
      rename_i hx0
      have hfrac : Digits (List.replicate ((-x).toNat - 1) '0' ++ ds) :=
        (digits_replicate _).append hdig
      have hz := @readPos_eq ['0'] _ [] (digits_replicate 1) hfrac (by rintro c cs hc; cases hc)
      rw [List.append_nil] at hz
      refine hz.trans ?_
      rw [List.singleton_append, ← List.cons_append, ← List.replicate_succ,
        Nat.ofDigitChars_append, Nat.ofDigitChars_replicate_zero, Nat.mul_zero, hval,
        List.length_append, List.length_replicate, hlen]
      congr 2
      simp only [readExponent]
      omega

/-- The text of a number begins with a digit. -/
theorem printPos_cons (n d : ℕ) : ∃ c cs, printPos n d = c :: cs ∧ c.isDigit = true := by
  simp only [printPos]
  have hne : Nat.toDigits 10 (significand10 n d).1 ≠ [] := Nat.toDigits_ne_nil
  obtain ⟨c, cs, hc⟩ := List.exists_cons_of_ne_nil hne
  have hdig : c.isDigit = true := digits_toDigits _ c (by rw [hc]; exact List.mem_cons_self)
  rw [hc]
  split
  · exact ⟨c, _, rfl, hdig⟩
  · split
    · exact ⟨c, _, rfl, hdig⟩
    · exact ⟨'0', _, rfl, by decide⟩

/-- Reading a sign and a number in digits. -/
theorem atof_signed {cs : List Char} {neg : Bool} (h : ∃ c r, cs = c :: r ∧ c.isDigit = true) :
    atof (String.ofList ((if neg then ['-'] else []) ++ cs)) =
      if DBL_MAX < readPos cs then .inf neg
      else .finite (if neg then -readPos cs else readPos cs) := by
  obtain ⟨c, r, rfl, hc⟩ := h
  have hi : (c :: r).take 3 ≠ ['i', 'n', 'f'] := by
    intro heq
    have hci : c = 'i' := (List.cons.inj heq).1
    rw [hci] at hc
    exact absurd hc (by decide)
  have hspace : (c :: r).dropWhile isSpace = c :: r :=
    List.dropWhile_cons_of_neg (by simp [(isDigit_ne hc).1])
  cases neg with
  | true =>
      have hminus : ('-' :: c :: r).dropWhile isSpace = '-' :: c :: r :=
        List.dropWhile_cons_of_neg (by decide)
      simp only [atof, if_true, String.toList_ofList, List.singleton_append, hminus, splitSign]
      rw [if_neg hi]
  | false =>
      simp only [atof, Bool.false_eq_true, if_false, String.toList_ofList, List.nil_append,
        hspace, splitSign_of_digit hc]
      rw [if_neg hi]

/-- The value is an infinity, or a finite number a double can hold that has
at most ten significant digits. -/
inductive Short : Double → Prop
  | finite {q : ℚ} : |q| ≤ DBL_MAX → TenDigits |q| → Short (.finite q)
  | inf {b : Bool} : Short (.inf b)

/-- **A number with ten digits reads back as it was printed.** -/
theorem printsExactly_of_short {x : Double} (h : x.Short) : x.PrintsExactly := by
  cases h with
  | @inf b => cases b <;> decide +kernel
  | @finite q hmax hten =>
      simp only [PrintsExactly, printG10]
      by_cases h0 : q = 0
      · rw [if_pos h0, h0]
        decide +kernel
      · rw [if_neg h0]
        have hn : q.num.natAbs ≠ 0 := Int.natAbs_ne_zero.2 (Rat.num_ne_zero.2 h0)
        have habs : |q| = q.num.natAbs / q.den := by
          rw [← Rat.num_div_den |q|, Rat.num_abs_eq_abs_num, Rat.den_abs_eq_den]
          push_cast
          rw [Nat.cast_natAbs, Int.cast_abs]
        rw [habs] at hmax hten
        have hread := readPos_printPos hn q.den_nz hten
        have hsigned := @atof_signed _ (decide (q < 0)) (printPos_cons q.num.natAbs q.den)
        simp only [decide_eq_true_eq] at hsigned
        rw [hsigned, hread, if_neg (not_lt.2 hmax), ← habs]
        refine congrArg finite ?_
        split
        · rename_i hneg
          rw [abs_of_neg hneg, neg_neg]
        · rename_i hpos
          exact abs_of_nonneg (not_lt.1 hpos)

/-- Ten digits with a point somewhere are such a number. -/
theorem short_of_digits {m : ℕ} (hm : m < 10 ^ 10) (k : ℕ) :
    (finite (m / 10 ^ k : ℚ)).Short := by
  have hpos : (0 : ℚ) ≤ m / 10 ^ k := by positivity
  have hmax : ((10 ^ 10 : ℕ) : ℚ) ≤ DBL_MAX := Nat.cast_le.2 (by decide +kernel)
  have hle : (m / 10 ^ k : ℚ) ≤ (10 ^ 10 : ℕ) := by
    calc (m / 10 ^ k : ℚ) ≤ m := div_le_self (Nat.cast_nonneg m) (one_le_pow₀ (by norm_num))
      _ ≤ (10 ^ 10 : ℕ) := by exact_mod_cast hm.le
  rw [← abs_of_nonneg hpos] at hle
  refine .finite (hle.trans hmax) ⟨m, -k, hm, ?_⟩
  rw [abs_of_nonneg hpos, scale_eq, zpow_neg, zpow_natCast, div_eq_mul_inv]

end Double

end Twstools
