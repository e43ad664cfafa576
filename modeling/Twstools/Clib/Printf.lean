import Twstools.Clib.FixedWidth
/-!
# What `printf` prints

`%g` is `%.10g` with another precision, `%f` has six digits behind the
point. The text of a number has no separator in it (`Plain`). What goes
into a buffer or a file is the bytes of a text, and a newline byte is a
newline (`newline_mem_utf8`).
-/

namespace Twstools

open Double (Digits digits_replicate digits_toDigits)

/-! ## Numbers -/

namespace Double

/-- `p` significant digits of `n / d`, as a number, and the exponent of the
first of them. -/
def significand (p n d : ℕ) : ℕ × ℤ :=
  let x := exponent10 n d
  let s := mkRat n d * scale 1 (p - 1 - x)
  let m := roundHalfEven s.num.natAbs s.den
  if m = 10 ^ p then (10 ^ (p - 1), x + 1) else (m, x)

/-- `%.*g` of a positive number. -/
def printPosPrec (p n d : ℕ) : List Char :=
  let (m, x) := significand p n d
  let ds := Nat.toDigits 10 m
  if x < -4 ∨ p ≤ x then ds.take 1 ++ fraction (ds.drop 1) ++ exponentText x
  else if 0 ≤ x then ds.take (x.toNat + 1) ++ fraction (ds.drop (x.toNat + 1))
  else '0' :: fraction (List.replicate ((-x).toNat - 1) '0' ++ ds)

/-- `%.*g`. -/
def printPrec (p : ℕ) : Double → List Char
  | .finite q =>
      if q = 0 then ['0']
      else (if q < 0 then ['-'] else []) ++ printPosPrec p q.num.natAbs q.den
  | .inf false => ['i', 'n', 'f']
  | .inf true => ['-', 'i', 'n', 'f']

/-- `%g`. -/
def printG (x : Double) : List Char := printPrec 6 x

/-- `%f`: six digits behind the point. -/
def printF : Double → List Char
  | .finite q =>
      let m := roundHalfEven (q.num.natAbs * 10 ^ 6) q.den
      (if q < 0 then ['-'] else []) ++ Nat.toDigits 10 (m / 10 ^ 6) ++
        '.' :: zeroPad 6 (m % 10 ^ 6)
  | .inf false => ['i', 'n', 'f']
  | .inf true => ['-', 'i', 'n', 'f']

/-- **`%.10g` is one of these.** -/
theorem printPrec_ten (x : Double) : (printG10 x).toList = printPrec 10 x := by
  cases x with
  | finite q =>
      simp only [printG10, printPrec]
      by_cases hq : q = 0
      · rw [if_pos hq, if_pos hq]
        rfl
      · rw [if_neg hq, if_neg hq, String.toList_ofList]
        rfl
  | inf b => cases b <;> rfl

example : printG (.finite (2115 / 10)) = "211.5".toList ∧ printG 1234567 = "1.23457e+06".toList ∧
    printF (.finite (-5 / 2)) = "-2.500000".toList := by decide +kernel

end Double

/-- A character the text of a number can have. -/
def IsPlain (c : Char) : Prop := c.isDigit = true ∨ c ∈ ['+', '-', '.', 'e', 'i', 'n', 'f']

/-- A text of such characters. -/
def Plain (cs : List Char) : Prop := ∀ c ∈ cs, IsPlain c

variable {cs cs' : List Char} {c : Char} {x : Double}

theorem Plain.append (h : Plain cs) (h' : Plain cs') : Plain (cs ++ cs') :=
  fun c hc => (List.mem_append.1 hc).elim (h c) (h' c)

theorem Plain.cons (hc : IsPlain c) (h : Plain cs) : Plain (c :: cs) :=
  List.forall_mem_cons.2 ⟨hc, h⟩

theorem plain_of_digits (h : Digits cs) : Plain cs := fun c hc => .inl (h c hc)

/-- What separates the fields and the lines is not plain. -/
theorem Plain.not_mem (h : Plain cs) (hd : c.isDigit = false)
    (hc : c ∉ ['+', '-', '.', 'e', 'i', 'n', 'f']) : c ∉ cs := by
  intro hmem
  rcases h c hmem with h | h
  · rw [hd] at h
    cases h
  · exact hc h

theorem plain_sign {p : Prop} [Decidable p] : Plain (if p then ['-'] else []) := by
  split
  · exact Plain.cons (.inr (by decide)) fun c hc => absurd hc List.not_mem_nil
  · exact fun c hc => absurd hc List.not_mem_nil

theorem plain_fraction (h : Digits cs) : Plain (Double.fraction cs) := by
  obtain ⟨k, hk⟩ := Double.stripZeros_append cs
  have hstrip : Digits (Double.stripZeros cs) := fun c hc =>
    h c (by rw [hk]; exact List.mem_append_left _ hc)
  unfold Double.fraction
  split
  · exact fun c hc => absurd hc List.not_mem_nil
  · exact Plain.cons (.inr (by decide)) (plain_of_digits hstrip)

theorem plain_exponentText (x : ℤ) : Plain (Double.exponentText x) := by
  have hds := digits_toDigits x.natAbs
  unfold Double.exponentText
  refine Plain.cons (.inr (by decide)) (Plain.cons ?_ (plain_of_digits ?_))
  · split <;> exact .inr (by decide)
  · split
    · exact List.forall_mem_cons.2 ⟨by decide, hds⟩
    · exact hds

theorem plain_printPosPrec (p n d : ℕ) : Plain (Double.printPosPrec p n d) := by
  simp only [Double.printPosPrec]
  have hds := digits_toDigits (Double.significand p n d).1
  have htake : ∀ k, Plain ((Nat.toDigits 10 (Double.significand p n d).1).take k) :=
    fun k => plain_of_digits fun c hc => hds c (List.mem_of_mem_take hc)
  have hdrop : ∀ k, Digits ((Nat.toDigits 10 (Double.significand p n d).1).drop k) :=
    fun k c hc => hds c (List.mem_of_mem_drop hc)
  split
  · exact ((htake 1).append (plain_fraction (hdrop 1))).append (plain_exponentText _)
  · split
    · exact (htake _).append (plain_fraction (hdrop _))
    · exact Plain.cons (.inl (by decide)) (plain_fraction ((digits_replicate _).append hds))

theorem plain_inf (b : Bool) : Plain (if b then ['-', 'i', 'n', 'f'] else ['i', 'n', 'f']) := by
  have hinf : ∀ c ∈ ['-', 'i', 'n', 'f'], IsPlain c := by
    intro c hc
    refine .inr ?_
    simp only [List.mem_cons, List.not_mem_nil, or_false] at hc ⊢
    tauto
  split
  · exact hinf
  · exact fun c hc => hinf c (List.mem_cons_of_mem _ hc)

/-- **The text of a number is plain**, in any style. -/
theorem plain_printPrec (p : ℕ) (x : Double) : Plain (x.printPrec p) := by
  cases x with
  | inf b =>
      cases b with
      | false => exact plain_inf false
      | true => exact plain_inf true
  | finite q =>
      simp only [Double.printPrec]
      split
      · exact plain_of_digits (digits_replicate 1)
      · exact plain_sign.append (plain_printPosPrec _ _ _)

theorem printPosPrec_ne_nil (p n d : ℕ) : Double.printPosPrec p n d ≠ [] := by
  obtain ⟨c, cs, hc⟩ := List.exists_cons_of_ne_nil
    (Nat.toDigits_ne_nil (n := (Double.significand p n d).1) (b := 10))
  simp only [Double.printPosPrec, hc]
  split
  · exact List.cons_ne_nil _ _
  · split
    · exact List.cons_ne_nil _ _
    · exact List.cons_ne_nil _ _

/-- A number has a text. -/
theorem Double.printPrec_ne_nil (p : ℕ) (x : Double) : x.printPrec p ≠ [] := by
  cases x with
  | inf b => cases b <;> exact List.cons_ne_nil _ _
  | finite q =>
      simp only [Double.printPrec]
      split
      · exact List.cons_ne_nil _ _
      · intro h
        exact printPosPrec_ne_nil _ _ _ (List.append_eq_nil_iff.1 h).2

theorem plain_printF (x : Double) : Plain x.printF := by
  cases x with
  | inf b =>
      cases b with
      | false => exact plain_inf false
      | true => exact plain_inf true
  | finite q =>
      simp only [Double.printF]
      exact (plain_sign.append (plain_of_digits (digits_toDigits _))).append
        (Plain.cons (.inr (by decide)) (plain_of_digits digits_zeroPad))

theorem plain_toString (x : ℤ) : Plain (toString x).toList := by
  rw [Int.toString_eq_repr, Int.repr_eq_if]
  split
  · rw [Nat.toList_repr]
    exact plain_of_digits (digits_toDigits _)
  · rw [String.toList_append, Nat.toList_repr]
    exact Plain.cons (.inr (by decide)) (plain_of_digits (digits_toDigits _))

/-! ## Bytes -/

/-- The bytes of a text. -/
def utf8 (cs : List Char) : List UInt8 := cs.flatMap String.utf8EncodeChar

/-- `'\n'`. -/
def NEWLINE : UInt8 := 10

/-- **A byte without its high bit** is a character of its own. -/
theorem ascii_mem_utf8EncodeChar {k : ℕ} (hk : k < 128) :
    UInt8.ofNat k ∈ String.utf8EncodeChar c ↔ c.toNat = k := by
  have hbyte : ∀ {n : ℕ}, n < 256 → (UInt8.ofNat k = UInt8.ofNat n ↔ n = k) := by
    intro n hn
    rw [← UInt8.toNat_inj, UInt8.toNat_ofNat_of_lt' hn,
      UInt8.toNat_ofNat_of_lt' (show k < 256 by omega)]
    exact eq_comm
  show _ ↔ c.val.toNat = k
  unfold String.utf8EncodeChar
  dsimp only
  split
  · rw [List.mem_singleton, hbyte (by omega)]
  -- the other bytes have their high bit
  split
  · rw [List.mem_cons, List.mem_singleton, hbyte (by omega), hbyte (by omega)]
    omega
  split
  · rw [List.mem_cons, List.mem_cons, List.mem_singleton, hbyte (by omega), hbyte (by omega),
      hbyte (by omega)]
    omega
  · rw [List.mem_cons, List.mem_cons, List.mem_cons, List.mem_singleton, hbyte (by omega),
      hbyte (by omega), hbyte (by omega), hbyte (by omega)]
    omega

theorem ascii_mem_utf8 {k : ℕ} (hk : k < 128) :
    UInt8.ofNat k ∈ utf8 cs ↔ ∃ c ∈ cs, c.toNat = k := by
  rw [utf8, List.mem_flatMap]
  simp only [ascii_mem_utf8EncodeChar hk]

/-- **A newline byte is a newline.** -/
theorem newline_mem_utf8 : NEWLINE ∈ utf8 cs ↔ '\n' ∈ cs := by
  have hc : ∀ c : Char, c.toNat = 10 ↔ c = '\n' := fun c => by
    rw [← Char.toNat_inj]
    rfl
  have hmem : NEWLINE ∈ utf8 cs ↔ ∃ c ∈ cs, c.toNat = 10 := ascii_mem_utf8 (show 10 < 128 by decide)
  rw [hmem]
  simp only [hc, exists_eq_right]

end Twstools
