import Twstools.Clib.Digits
/-!
# Numbers in a fixed width

`%02d` and `%04d` put zeros before a number. Two numbers written in one
width are in the order of their texts (`lt_iff_ofDigitChars_lt`), which is
what `strcmp` goes by. With a digit missing they are not: a number written
short comes behind the next one written in full (`not_short_lt`).
-/

namespace Twstools

open Double (Digits digits_replicate digits_toDigits)

/-- `%0*d`: at least `w` digits. -/
def zeroPad (w n : ℕ) : List Char := (Nat.toDigits 10 n).leftpad w '0'

variable {w n m : ℕ} {ds ds' rest rest' : List Char} {c d : Char}

theorem digits_zeroPad : Digits (zeroPad w n) :=
  (digits_replicate _).append (digits_toDigits n)

@[simp] theorem ofDigitChars_zeroPad : Nat.ofDigitChars 10 (zeroPad w n) 0 = n := by
  rw [zeroPad, List.leftpad, Nat.ofDigitChars_append, Nat.ofDigitChars_replicate_zero,
    Nat.mul_zero, Nat.ofDigitChars_ten_toDigits]

theorem zeroPad_inj : zeroPad w n = zeroPad w m ↔ n = m := by
  refine ⟨fun h => ?_, fun h => h ▸ rfl⟩
  rw [← ofDigitChars_zeroPad (w := w) (n := n), h, ofDigitChars_zeroPad]

theorem length_zeroPad (hw : 0 < w) (h : n < 10 ^ w) : (zeroPad w n).length = w := by
  have := (Nat.length_toDigits_le_iff (by decide) hw).2 h
  rw [zeroPad, List.length_leftpad]
  omega

/-! ## Digits -/

/-- The value of a digit. -/
theorem isDigit_bounds (h : c.isDigit = true) : '0'.toNat ≤ c.toNat ∧ c.toNat ≤ '0'.toNat + 9 := by
  simp only [Char.isDigit, Bool.and_eq_true, decide_eq_true_eq] at h
  exact ⟨UInt32.le_iff_toNat_le.1 h.1, UInt32.le_iff_toNat_le.1 h.2⟩

theorem Digits.tail (h : Digits (c :: ds)) : c.isDigit = true ∧ Digits ds :=
  ⟨h c List.mem_cons_self, fun x hx => h x (List.mem_cons_of_mem _ hx)⟩

theorem ofDigitChars_cons_eq : Nat.ofDigitChars 10 (c :: ds) 0 =
    (c.toNat - '0'.toNat) * 10 ^ ds.length + Nat.ofDigitChars 10 ds 0 := by
  rw [Nat.ofDigitChars_cons, Nat.ofDigitChars_eq_ofDigitChars_zero]
  ring

/-- Digits stand for a number with no more of them. -/
theorem ofDigitChars_lt (h : Digits ds) : Nat.ofDigitChars 10 ds 0 < 10 ^ ds.length := by
  induction ds with
  | nil => simp
  | cons c ds ih =>
      obtain ⟨hc, hds⟩ := Digits.tail h
      have hlt := ih hds
      have hle : c.toNat - '0'.toNat ≤ 9 := by
        have := (isDigit_bounds hc).2
        omega
      rw [ofDigitChars_cons_eq, List.length_cons, pow_succ]
      have := Nat.mul_le_mul_right (10 ^ ds.length) hle
      omega

/-- A first digit decides, unless it is the same. -/
theorem mul_add_lt_iff {a b x y p : ℕ} (hx : x < p) (hy : y < p) :
    a * p + x < b * p + y ↔ a < b ∨ a = b ∧ x < y := by
  rcases Nat.lt_trichotomy a b with h | rfl | h
  · have := Nat.mul_le_mul_right p (Nat.succ_le_of_lt h)
    rw [Nat.succ_mul] at this
    omega
  · omega
  · have := Nat.mul_le_mul_right p (Nat.succ_le_of_lt h)
    rw [Nat.succ_mul] at this
    omega

/-- **The order of the texts** is the order of the numbers, in one width. -/
theorem lt_iff_ofDigitChars_lt (h : Digits ds) (h' : Digits ds') (hlen : ds.length = ds'.length) :
    ds < ds' ↔ Nat.ofDigitChars 10 ds 0 < Nat.ofDigitChars 10 ds' 0 := by
  induction ds generalizing ds' with
  | nil =>
      obtain rfl : ds' = [] := List.length_eq_zero_iff.1 hlen.symm
      simp
  | cons c ds ih =>
      obtain ⟨d, ds', rfl⟩ := List.exists_cons_of_length_eq_add_one hlen.symm
      obtain ⟨hc, hds⟩ := Digits.tail h
      obtain ⟨hd, hds'⟩ := Digits.tail h'
      have hlen' : ds.length = ds'.length := by simpa using hlen
      have hlt := ofDigitChars_lt hds
      have hlt' := ofDigitChars_lt hds'
      have hcd := isDigit_bounds hc
      have hdd := isDigit_bounds hd
      have hval : c < d ↔ c.toNat - '0'.toNat < d.toNat - '0'.toNat := by
        rw [Char.lt_def, UInt32.lt_iff_toNat_lt]
        show c.toNat < d.toNat ↔ _
        omega
      have heq : c = d ↔ c.toNat - '0'.toNat = d.toNat - '0'.toNat := by
        rw [← Char.toNat_inj]
        omega
      rw [hlen'] at hlt
      rw [List.cons_lt_cons_iff, ih hds hds' hlen', ofDigitChars_cons_eq, ofDigitChars_cons_eq,
        hlen', mul_add_lt_iff hlt hlt', hval, heq]

/-- The same number in the same width is the same text. -/
theorem eq_zeroPad (h : Digits ds) (hlen : ds.length = w) (hw : 0 < w) :
    ds = zeroPad w (Nat.ofDigitChars 10 ds 0) := by
  have hlt := ofDigitChars_lt h
  rw [hlen] at hlt
  have hlen' : ds.length = (zeroPad w (Nat.ofDigitChars 10 ds 0)).length := by
    rw [length_zeroPad hw hlt, hlen]
  have h₁ := lt_iff_ofDigitChars_lt h digits_zeroPad hlen'
  have h₂ := lt_iff_ofDigitChars_lt digits_zeroPad h hlen'.symm
  rw [ofDigitChars_zeroPad] at h₁ h₂
  refine List.le_antisymm (List.not_lt.1 fun hlt => ?_) (List.not_lt.1 fun hlt => ?_)
  · exact absurd (h₂.1 hlt) (Nat.lt_irrefl _)
  · exact absurd (h₁.1 hlt) (Nat.lt_irrefl _)

/-! ## What follows -/

/-- Texts of one length decide, unless they are the same. -/
theorem append_lt_append_iff (hlen : ds.length = ds'.length) :
    ds ++ rest < ds' ++ rest' ↔ ds < ds' ∨ ds = ds' ∧ rest < rest' := by
  induction ds generalizing ds' with
  | nil =>
      obtain rfl : ds' = [] := List.length_eq_zero_iff.1 hlen.symm
      simp
  | cons c ds ih =>
      obtain ⟨d, ds', rfl⟩ := List.exists_cons_of_length_eq_add_one hlen.symm
      have hlen' : ds.length = ds'.length := by simpa using hlen
      rw [List.cons_append, List.cons_append, List.cons_lt_cons_iff, List.cons_lt_cons_iff,
        ih hlen', List.cons.injEq]
      tauto

/-- A number of the full width goes by its value, whatever follows. -/
theorem append_lt_zeroPad_append_iff (h : Digits ds) (hlen : ds.length = w) (hw : 0 < w)
    (hn : n < 10 ^ w) : ds ++ rest < zeroPad w n ++ rest' ↔
      Nat.ofDigitChars 10 ds 0 < n ∨ Nat.ofDigitChars 10 ds 0 = n ∧ rest < rest' := by
  have hlen' : ds.length = (zeroPad w n).length := by rw [length_zeroPad hw hn, hlen]
  have heq : ds = zeroPad w n ↔ Nat.ofDigitChars 10 ds 0 = n := by
    refine ⟨fun h => by rw [h, ofDigitChars_zeroPad], fun hv => ?_⟩
    rw [← hv]
    exact eq_zeroPad h hlen hw
  rw [append_lt_append_iff hlen', lt_iff_ofDigitChars_lt h digits_zeroPad hlen',
    ofDigitChars_zeroPad, heq]

/-- The places of a shorter number, and those behind them. -/
theorem exists_zeroPad_append {k : ℕ} (hk : k < w) (hn : n < 10 ^ w) :
    ∃ a b, zeroPad w n = a ++ b ∧ a.length = k ∧ Digits a ∧ Digits b ∧ b ≠ [] ∧
      10 * Nat.ofDigitChars 10 a 0 ≤ n := by
  have hlenw : (zeroPad w n).length = w := length_zeroPad (by omega) hn
  obtain ⟨a, b, hab, ha⟩ : ∃ a b, zeroPad w n = a ++ b ∧ a.length = k :=
    ⟨_, _, (List.take_append_drop k _).symm, by rw [List.length_take]; omega⟩
  have hdig : Digits (a ++ b) := hab ▸ digits_zeroPad
  have hb : 1 ≤ b.length := by
    have := congrArg List.length hab
    rw [hlenw, List.length_append] at this
    omega
  refine ⟨a, b, hab, ha, fun c hc => hdig c (List.mem_append_left _ hc),
    fun c hc => hdig c (List.mem_append_right _ hc), List.ne_nil_of_length_pos hb, ?_⟩
  have hsum : Nat.ofDigitChars 10 (a ++ b) 0 = n := by rw [← hab, ofDigitChars_zeroPad]
  rw [Nat.ofDigitChars_append, Nat.ofDigitChars_eq_ofDigitChars_zero] at hsum
  have := Nat.mul_le_mul_right (Nat.ofDigitChars 10 a 0)
    (Nat.pow_le_pow_right (n := 10) (by decide) hb)
  omega

/-- **A number written short** comes behind the next one in the full width. -/
theorem not_short_lt (h : Digits ds) (hlen : ds.length < w) (hpos : 0 < Nat.ofDigitChars 10 ds 0) :
    ¬ ds ++ rest < zeroPad w (Nat.ofDigitChars 10 ds 0 + 1) ++ rest' := by
  have hvlt : Nat.ofDigitChars 10 ds 0 + 1 < 10 ^ w := by
    have hlt := ofDigitChars_lt h
    have : 10 ^ (ds.length + 1) ≤ 10 ^ w := Nat.pow_le_pow_right (by decide) hlen
    rw [pow_succ] at this
    omega
  obtain ⟨a, b, hab, ha, hda, -, -, hlow⟩ := exists_zeroPad_append hlen hvlt
  rw [hab, List.append_assoc, append_lt_append_iff ha.symm, lt_iff_ofDigitChars_lt h hda ha.symm]
  rintro (hlt | ⟨rfl, -⟩)
  · omega
  · omega

end Twstools
