import Twstools.Clib.Decimal
/-!
# What `strtol` reads

A `Numeral` is a text `strtol` takes as a number: white space, a sign, and
at least one digit. `strtol` reads the numeral a text begins with and stops
behind its digits (`Numeral.strtol_append`); a text that begins with none is
not read at all (`strtol_of_no_numeral`). So where it stops tells what was
there (`strtol_eq_iff`).
-/

namespace Twstools

/-- White space, a sign or none, and digits. -/
structure Numeral where
  space : List Char
  sign : List Char
  digits : List Char
  isSpace_space : ∀ c ∈ space, isSpace c = true
  isSign : sign = [] ∨ sign = ['+'] ∨ sign = ['-']
  digits_ne_nil : digits ≠ []
  isDigit_digits : ∀ c ∈ digits, c.isDigit = true

/-- The text does not go on with a digit. -/
def NoDigitAhead (s : List Char) : Prop := ∀ c ∈ s.head?, c.isDigit = false

theorem noDigitAhead_nil : NoDigitAhead [] := by intro c hc; cases hc

theorem noDigitAhead_cons {c : Char} {s : List Char} (h : c.isDigit = false) :
    NoDigitAhead (c :: s) := by
  intro c' hc'
  obtain rfl : c = c' := by simpa using hc'
  exact h

namespace Numeral

/-- The characters of a numeral. -/
def text (n : Numeral) : List Char := n.space ++ n.sign ++ n.digits

/-- The number it stands for. -/
def value (n : Numeral) : ℤ :=
  if n.sign = ['-'] then -(Nat.ofDigitChars 10 n.digits 0 : ℤ) else Nat.ofDigitChars 10 n.digits 0

variable {n n' : Numeral} {rest : List Char}

theorem text_ne_nil (n : Numeral) : n.text ≠ [] := by
  intro h
  have := (List.append_eq_nil_iff.1 h).2
  exact n.digits_ne_nil this

/-- What is behind the white space and the sign of a text that begins with
a numeral. -/
theorem splitSign_append (n : Numeral) (rest : List Char) :
    splitSign ((n.text ++ rest).dropWhile isSpace) =
      (decide (n.sign = ['-']), n.digits ++ rest) := by
  obtain ⟨d, ds, hd⟩ := List.exists_cons_of_ne_nil n.digits_ne_nil
  have hdig : d.isDigit = true := n.isDigit_digits d (by rw [hd]; exact List.mem_cons_self)
  have hskip : (n.text ++ rest).dropWhile isSpace =
      (n.sign ++ n.digits ++ rest).dropWhile isSpace := by
    rw [text, List.append_assoc, List.append_assoc,
      List.dropWhile_append_of_pos n.isSpace_space, ← List.append_assoc]
  rw [hskip]
  rcases n.isSign with hs | hs | hs
  · rw [hs, hd, List.nil_append, List.cons_append,
      List.dropWhile_cons_of_neg (by simp [(isDigit_ne hdig).1]), splitSign_of_digit hdig]
    simp
  · rw [hs, List.append_assoc, List.singleton_append, List.dropWhile_cons_of_neg (by decide)]
    rfl
  · rw [hs, List.append_assoc, List.singleton_append, List.dropWhile_cons_of_neg (by decide)]
    rfl

theorem takeWhile_digits (n : Numeral) (h : NoDigitAhead rest) :
    (n.digits ++ rest).takeWhile Char.isDigit = n.digits ∧
      (n.digits ++ rest).dropWhile Char.isDigit = rest := by
  rw [List.takeWhile_append_of_pos n.isDigit_digits, List.dropWhile_append_of_pos n.isDigit_digits]
  cases rest with
  | nil => simp
  | cons c cs =>
      have hc : ¬ c.isDigit = true := by simp [h c (by simp)]
      rw [List.takeWhile_cons_of_neg hc, List.dropWhile_cons_of_neg hc, List.append_nil]
      exact ⟨rfl, rfl⟩

/-- **A numeral is read** up to the end of its digits. -/
theorem strtol_append (n : Numeral) (h : NoDigitAhead rest) :
    strtol (n.text ++ rest) = (clampLong n.value, rest) := by
  obtain ⟨ht, hd⟩ := n.takeWhile_digits h
  simp only [strtol, n.splitSign_append rest, ht, hd, n.digits_ne_nil, if_false, value,
    decide_eq_true_eq]

end Numeral

/-- What is clamped to an `int` was one. -/
theorem clampLong_eq_of_inInt {x : ℤ} (h : InInt (clampLong x)) : clampLong x = x := by
  unfold InInt INT_MIN INT_MAX clampLong LONG_MIN LONG_MAX at h
  refine clampLong_eq ⟨?_, ?_⟩
  · unfold LONG_MIN
    omega
  · unfold LONG_MAX
    omega

/-- The sign `splitSign` takes off. -/
theorem exists_sign (t : List Char) : ∃ sign, t = sign ++ (splitSign t).2 ∧
    (sign = [] ∨ sign = ['+'] ∨ sign = ['-']) ∧ (splitSign t).1 = decide (sign = ['-']) := by
  unfold splitSign
  split
  · exact ⟨['-'], rfl, by simp, rfl⟩
  · exact ⟨['+'], rfl, by simp, rfl⟩
  · exact ⟨[], rfl, by simp, rfl⟩

/-- A text begins with a numeral, or `strtol` finds no digit. -/
theorem exists_numeral (s : List Char) :
    (∃ (n : Numeral) (rest : List Char), s = n.text ++ rest ∧ NoDigitAhead rest) ∨
      (splitSign (s.dropWhile isSpace)).2.takeWhile Char.isDigit = [] := by
  by_cases hd : (splitSign (s.dropWhile isSpace)).2.takeWhile Char.isDigit = []
  · exact .inr hd
  · obtain ⟨sign, ht, hsign, -⟩ := exists_sign (s.dropWhile isSpace)
    refine .inl ⟨⟨s.takeWhile isSpace, sign, _, fun c hc => List.mem_takeWhile_imp hc, hsign, hd,
      fun c hc => List.mem_takeWhile_imp hc⟩,
      (splitSign (s.dropWhile isSpace)).2.dropWhile Char.isDigit, ?_, fun c hc => ?_⟩
    · rw [Numeral.text, List.append_assoc, List.takeWhile_append_dropWhile, List.append_assoc, ← ht,
        List.takeWhile_append_dropWhile]
    · have := List.head?_dropWhile_not Char.isDigit (splitSign (s.dropWhile isSpace)).2
      rw [hc] at this
      simpa using this

/-- Without a digit nothing is read. -/
theorem strtol_of_no_digit {s : List Char}
    (h : (splitSign (s.dropWhile isSpace)).2.takeWhile Char.isDigit = []) :
    strtol s = (0, s) := by
  simp only [strtol, h, if_true]

/-- **A text that begins with no numeral** is not read. -/
theorem strtol_of_no_numeral {s : List Char} (h : ∀ (n : Numeral) rest, s ≠ n.text ++ rest) :
    strtol s = (0, s) := by
  rcases exists_numeral s with ⟨n, rest, hs, -⟩ | hd
  · exact absurd hs (h n rest)
  · exact strtol_of_no_digit hd

/-- **Where `strtol` stops** tells what it read: it stops short of the text
exactly behind a numeral no digit follows. -/
theorem strtol_eq_iff {s rest : List Char} {x : ℤ} (hne : rest ≠ s) : strtol s = (x, rest) ↔
    ∃ n : Numeral, s = n.text ++ rest ∧ NoDigitAhead rest ∧ x = clampLong n.value := by
  constructor
  · intro h
    rcases exists_numeral s with ⟨n, rest', rfl, hnd⟩ | hd
    · rw [n.strtol_append hnd] at h
      obtain ⟨hx, rfl⟩ := Prod.mk.inj h
      exact ⟨n, rfl, hnd, hx.symm⟩
    · rw [strtol_of_no_digit hd] at h
      exact absurd (Prod.mk.inj h).2.symm hne
  · rintro ⟨n, rfl, hnd, rfl⟩
    exact n.strtol_append hnd

end Twstools
