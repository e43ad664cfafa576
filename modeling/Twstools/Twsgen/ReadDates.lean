import Twstools.Clib.Calendar
import Twstools.Clib.Strptime
import Twstools.Twsgen.Dates
/-!
# The texts that are dates

`ib_strptime` accepts three fields of digits, each in its own range, with
white space before any of them, and a time of day behind them or not
(`ibStrptime_eq_some`). The dates in full are among these
(`ibStrptime_text`, `ibStrptime_text_clock`).
-/

namespace Twstools

open Double (Digits)

namespace Tm

/-- The fields of the date are in the ranges `strptime` checks. -/
structure DateInRange (tm : Tm) : Prop where
  year : 0 ≤ tm.tm_year + 1900 ∧ tm.tm_year + 1900 ≤ 9999
  month : 1 ≤ tm.tm_mon + 1 ∧ tm.tm_mon + 1 ≤ 12
  day : 1 ≤ tm.tm_mday ∧ tm.tm_mday ≤ 31

/-- And those of the time of day. A minute may have two leap seconds. -/
structure ClockInRange (tm : Tm) : Prop where
  hour : 0 ≤ tm.tm_hour ∧ tm.tm_hour ≤ 23
  minute : 0 ≤ tm.tm_min ∧ tm.tm_min ≤ 59
  second : 0 ≤ tm.tm_sec ∧ tm.tm_sec ≤ 61

/-- The date of a `Tm` is this year, month and day. -/
structure HasDate (tm : Tm) (y m d : ℕ) : Prop where
  year : tm.tm_year + 1900 = y
  month : tm.tm_mon + 1 = m
  day : tm.tm_mday = d

variable {tm : Tm} {y m d : ℕ}

theorem hasDate_setDate : (tm.setDate y m d).HasDate y m d where
  year := Int.sub_add_cancel _ _
  month := Int.sub_add_cancel _ _
  day := rfl

theorem HasDate.dateInRange (h : tm.HasDate y m d) (hy : y ≤ 9999) (hm : 1 ≤ m ∧ m ≤ 12)
    (hd : 1 ≤ d ∧ d ≤ 31) : tm.DateInRange := by
  obtain ⟨hyear, hmonth, hday⟩ := h
  refine ⟨?_, ?_, ?_⟩ <;> omega

theorem clockInRange_zero : ({} : Tm).ClockInRange := ⟨by decide, by decide, by decide⟩

theorem ClockInRange.setDate (h : tm.ClockInRange) : (tm.setDate y m d).ClockInRange :=
  ⟨h.hour, h.minute, h.second⟩

theorem clockInRange_setClock {h mi se : ℕ} (hh : h ≤ 23) (hmi : mi ≤ 59) (hse : se ≤ 61) :
    (tm.setClock h mi se).ClockInRange where
  hour := ⟨Int.natCast_nonneg _, Int.ofNat_le.2 hh⟩
  minute := ⟨Int.natCast_nonneg _, Int.ofNat_le.2 hmi⟩
  second := ⟨Int.natCast_nonneg _, Int.ofNat_le.2 hse⟩

end Tm

variable {s : String} {cs rest : List Char} {tm : Tm} {e : CivilDate} {y m d : DateField}

/-- The whole text is read. -/
def wholeDate (fmt : List Conversion) (cs : List Char) : Option Tm :=
  (strptime cs fmt {}).bind fun r => if r.2 = [] then some r.1 else none

/-- The format of a date with a time. -/
def dateTimeFormat : List Conversion :=
  [.Y, .m, .d, .t, .H, .literal ':', .M, .literal ':', .S]

theorem ibStrptime_eq : ibStrptime s = (wholeDate [.Y, .m, .d] (c_str s).toList).or
    (wholeDate dateTimeFormat (c_str s).toList) := rfl

theorem wholeDate_eq_some {fmt : List Conversion} : wholeDate fmt cs = some tm ↔
    ∃ tm', scanFormat fmt cs {} = some (tm', []) ∧
      tm = { tm' with tm_wday := dayOfTheWeek tm' } := by
  unfold wholeDate
  rw [Option.bind_eq_some_iff]
  constructor
  · rintro ⟨⟨tm₁, rest₁⟩, hstr, h⟩
    obtain ⟨⟨tm₂, rest₂⟩, hscan, hstr⟩ := Option.bind_eq_some_iff.1 hstr
    obtain ⟨rfl, rfl⟩ := Prod.mk.inj (Option.some.inj hstr)
    split at h
    · rename_i hrest
      obtain rfl : rest₂ = [] := hrest
      exact ⟨tm₂, hscan, (Option.some.inj h).symm⟩
    · cases h
  · rintro ⟨tm', hscan, rfl⟩
    exact ⟨_, Option.bind_eq_some_iff.2 ⟨_, hscan, rfl⟩, if_pos rfl⟩

/-- **What is read as a date** begins with its three fields. -/
theorem wholeDate_spec {fmt : List Conversion} (hfmt : fmt = [.Y, .m, .d] ∨ fmt = dateTimeFormat)
    (h : wholeDate fmt cs = some tm) : ∃ (y m d : DateField) (rest : List Char),
      cs = y.text ++ (m.text ++ (d.text ++ rest)) ∧ ReadsDate y m d rest ∧
        tm.HasDate y.value m.value d.value ∧ tm.ClockInRange := by
  obtain ⟨tm', hscan, rfl⟩ := wholeDate_eq_some.1 h
  rcases hfmt with rfl | rfl
  · obtain ⟨y, m, d, rest, rfl, hread, hr⟩ := scanFormat_date.1 hscan
    obtain ⟨rfl, rfl⟩ := Prod.mk.inj (Option.some.inj hr)
    have hdate : (({} : Tm).setDate y.value m.value d.value).HasDate _ _ _ := Tm.hasDate_setDate
    have hclock := Tm.clockInRange_zero.setDate (y := y.value) (m := m.value) (d := d.value)
    exact ⟨y, m, d, [], rfl, hread, ⟨hdate.year, hdate.month, hdate.day⟩,
      ⟨hclock.hour, hclock.minute, hclock.second⟩⟩
  · obtain ⟨y, m, d, rest, rfl, hread, hr⟩ := scanFormat_date.1 hscan
    obtain ⟨ho, mi, se, rest', -, hc, hr⟩ := scanFormat_clock.1 hr
    obtain ⟨rfl, rfl⟩ := Prod.mk.inj hr
    have hdate : (({} : Tm).setDate y.value m.value d.value).HasDate _ _ _ := Tm.hasDate_setDate
    have hclock : ((({} : Tm).setDate y.value m.value d.value).setClock _ _ _).ClockInRange :=
      Tm.clockInRange_setClock hc.hour.le hc.minute.le hc.second.le
    exact ⟨y, m, d, rest, rfl, hread, ⟨hdate.year, hdate.month, hdate.day⟩,
      ⟨hclock.hour, hclock.minute, hclock.second⟩⟩

/-- **What `ib_strptime` accepts.** -/
theorem ibStrptime_eq_some (h : ibStrptime s = some tm) :
    ∃ (y m d : DateField) (rest : List Char),
      (c_str s).toList = y.text ++ (m.text ++ (d.text ++ rest)) ∧ ReadsDate y m d rest ∧
        tm.HasDate y.value m.value d.value ∧ tm.ClockInRange := by
  rw [ibStrptime_eq] at h
  rcases Option.or_eq_some_iff.1 h with h | ⟨-, h⟩
  · exact wholeDate_spec (.inl rfl) h
  · exact wholeDate_spec (.inr rfl) h

theorem ReadsDate.dateInRange (hread : ReadsDate y m d rest)
    (h : tm.HasDate y.value m.value d.value) : tm.DateInRange :=
  h.dateInRange hread.year.le ⟨hread.month.ge, hread.month.le⟩ ⟨hread.day.ge, hread.day.le⟩

/-! ## Dates in full -/

/-- No NUL is in a text of such characters. -/
theorem cString_ofList (h : ∀ c ∈ cs, c.toNat ≠ 0) : c_str (String.ofList cs) = String.ofList cs :=
  CString.iff_forall.2 (by rwa [String.toList_ofList])

theorem isDigit_toNat_ne_zero {c : Char} (h : c.isDigit = true) : c.toNat ≠ 0 := by
  have := (isDigit_bounds h).1
  have hzero : '0'.toNat = 48 := rfl
  omega

theorem CivilDate.digits_text : Digits e.text :=
  digits_zeroPad.append (digits_zeroPad.append digits_zeroPad)

theorem CivilDate.readsDate :
    ReadsDate (.full 4 e.year) (.full 2 e.month) (.full 2 e.day) rest where
  year := by
    have := e.year_le
    exact DateField.reads_full (by decide) (by omega) (Nat.zero_le _) this
  month := by
    have := e.month_le
    exact DateField.reads_full (by decide) (by omega) e.month_pos this
  day := by
    have := e.day_le_31
    exact DateField.reads_full (by decide) (by omega) e.day_pos this

/-- A date in full is read, and the format goes on behind it. -/
theorem scanFormat_text {fmt : List Conversion} {r : Tm × List Char}
    (h : scanFormat fmt rest (tm.setDate e.year e.month e.day) = some r) :
    scanFormat (.Y :: .m :: .d :: fmt) (e.text ++ rest) tm = some r := by
  refine scanFormat_date.2 ⟨_, _, _, rest, ?_, e.readsDate, ?_⟩
  · simp only [CivilDate.text, DateField.text_full, List.append_assoc]
  · simpa only [DateField.value_full] using h

/-- **A date in full is accepted.** -/
theorem ibStrptime_text (e : CivilDate) : (ibStrptime (String.ofList e.text)).isSome := by
  have hc := cString_ofList fun c hc => isDigit_toNat_ne_zero (e.digits_text c hc)
  have hscan : scanFormat [.Y, .m, .d] (e.text ++ []) {} = some (_, []) := scanFormat_text rfl
  rw [List.append_nil] at hscan
  rw [ibStrptime_eq, hc, String.toList_ofList, wholeDate_eq_some.2 ⟨_, hscan, rfl⟩]
  rfl

/-- Two digits are read up to what a field of them allows. -/
theorem reads_two {hi k : ℕ} (hk : k ≤ hi) (hhi : hi ≤ 99) :
    (DateField.full 2 k).Reads 0 hi 2 rest :=
  DateField.reads_full (by decide) (by omega) (Nat.zero_le _) hk

/-- White space is skipped up to a number. -/
theorem dropWhile_blanks (k : ℕ) {w x : ℕ} :
    (List.replicate k ' ' ++ (zeroPad w x ++ rest)).dropWhile isSpace = zeroPad w x ++ rest := by
  have hne : zeroPad w x ≠ [] := by
    intro h
    exact absurd (List.append_eq_nil_iff.1 h).2 Nat.toDigits_ne_nil
  obtain ⟨c, cs, hc⟩ := List.exists_cons_of_ne_nil hne
  have hdig : c.isDigit = true := digits_zeroPad c (by rw [hc]; exact List.mem_cons_self)
  rw [List.dropWhile_append_of_pos (by intro c hc; rw [List.eq_of_mem_replicate hc]; rfl), hc,
    List.cons_append, List.dropWhile_cons_of_neg (by simp [(isDigit_ne hdig).1])]

/-- **And so is one with a time of day**, blanks between them or none. -/
theorem ibStrptime_text_clock (e : CivilDate) (k : ℕ) {h mi se : ℕ} (hh : h ≤ 23) (hmi : mi ≤ 59)
    (hse : se ≤ 61) :
    (ibStrptime (String.ofList
      (e.text ++ (List.replicate k ' ' ++ clockText h mi se)))).isSome := by
  have hc : ∀ c ∈ e.text ++ (List.replicate k ' ' ++ clockText h mi se), c.toNat ≠ 0 := by
    have hdigits : ∀ {w x : ℕ}, ∀ c ∈ zeroPad w x, c.toNat ≠ 0 :=
      fun c hc => isDigit_toNat_ne_zero (digits_zeroPad c hc)
    intro c hc
    simp only [clockText, List.mem_append, List.mem_cons] at hc
    rcases hc with hc | hc | hc | rfl | hc | rfl | hc
    · exact isDigit_toNat_ne_zero (e.digits_text c hc)
    · rw [List.eq_of_mem_replicate hc]
      decide
    · exact hdigits c hc
    · decide
    · exact hdigits c hc
    · decide
    · exact hdigits c hc
  obtain ⟨tm', hscan⟩ : ∃ tm', scanFormat dateTimeFormat
      (e.text ++ (List.replicate k ' ' ++ clockText h mi se)) {} = some (tm', []) := by
    refine ⟨_, scanFormat_text (scanFormat_clock.2 ⟨.full 2 h, .full 2 mi, .full 2 se, [], ?_,
      ⟨reads_two hh (by decide), reads_two hmi (by decide), reads_two hse (by decide)⟩, rfl⟩)⟩
    rw [clockText, dropWhile_blanks]
    simp only [DateField.text_full, List.append_nil]
  rw [ibStrptime_eq, cString_ofList hc, String.toList_ofList, Option.isSome_or,
    wholeDate_eq_some.2 ⟨_, hscan, rfl⟩]
  exact Bool.or_true _

/-! ## What is no date -/

namespace DateField

variable {f : DateField} {lo hi n : ℕ}

/-- Digits have no white space among them. -/
theorem Reads.space_eq_nil (hf : f.Reads lo hi n rest) (h : Digits (f.text ++ cs)) :
    f.space = [] := by
  refine List.eq_nil_iff_forall_not_mem.2 fun c hc => ?_
  have hdig := h c (List.mem_append_left _ (List.mem_append_left _ hc))
  have hspace := hf.space c hc
  rw [(isDigit_ne hdig).1] at hspace
  cases hspace

/-- A field without white space begins with a digit. -/
theorem Reads.not_noDigitAhead (hf : f.Reads lo hi n rest) (hs : f.space = []) :
    ¬ NoDigitAhead (f.text ++ cs) := by
  obtain ⟨c, ds, hc⟩ := List.exists_cons_of_ne_nil hf.ne_nil
  have hdig : c.isDigit = true := hf.digits c (by rw [hc]; exact List.mem_cons_self)
  intro h
  have hhead := h c (by rw [text, hs, hc]; rfl)
  rw [hdig] at hhead
  cases hhead

/-- A year is read up to four digits, if there are so many. -/
theorem Reads.year_ends (hf : f.Reads lo 9999 4 rest) :
    f.digits.length = 4 ∨ NoDigitAhead rest := by
  rcases hf.ends with h | h | h
  · exact .inl h
  · -- three digits are less than a thousand
    have hlt := ofDigitChars_lt hf.digits
    have hlen := hf.length_le
    have hval : 10 ^ 3 ≤ f.value := by omega
    have hmore : ¬ f.digits.length ≤ 3 := by
      intro hle
      have := Nat.pow_le_pow_right (n := 10) (by decide) hle
      exact absurd (hlt.trans_le this) (Nat.not_lt.2 hval)
    exact .inl (by omega)
  · exact .inr h

end DateField

/-- A date without a time is its three fields. -/
theorem wholeDate_date (h : wholeDate [.Y, .m, .d] cs = some tm) :
    ∃ y m d : DateField, cs = y.text ++ (m.text ++ (d.text ++ [])) ∧ ReadsDate y m d [] := by
  obtain ⟨tm', hscan, -⟩ := wholeDate_eq_some.1 h
  obtain ⟨y, m, d, rest, rfl, hread, hr⟩ := scanFormat_date.1 hscan
  obtain ⟨-, rfl⟩ := Prod.mk.inj (Option.some.inj hr)
  exact ⟨y, m, d, rfl, hread⟩

/-- A time has colons in it. -/
theorem wholeDate_clock (h : wholeDate dateTimeFormat cs = some tm) : ':' ∈ cs := by
  obtain ⟨tm', hscan, -⟩ := wholeDate_eq_some.1 h
  obtain ⟨y, m, d, rest, rfl, -, hr⟩ := scanFormat_date.1 hscan
  obtain ⟨ho, mi, se, rest', hs, -, -⟩ := scanFormat_clock.1 hr
  have hmem : ':' ∈ rest.dropWhile isSpace := by
    rw [hs]
    exact List.mem_append_right _ List.mem_cons_self
  have := (List.dropWhile_suffix isSpace).subset hmem
  simp only [List.mem_append]
  tauto

/-- **Digits that are read as a date** are its fields, without anything
else. -/
theorem ibStrptime_digits (hs : Digits cs) (h : ibStrptime (String.ofList cs) = some tm) :
    ∃ y m d : DateField, cs = y.digits ++ (m.digits ++ d.digits) ∧ ReadsDate y m d [] ∧
      m.space = [] ∧ d.space = [] := by
  have hc := cString_ofList fun c hc => isDigit_toNat_ne_zero (hs c hc)
  rw [ibStrptime_eq, hc, String.toList_ofList] at h
  rcases Option.or_eq_some_iff.1 h with h | ⟨-, h⟩
  · obtain ⟨y, m, d, rfl, hread⟩ := wholeDate_date h
    have hm : Digits (m.text ++ (d.text ++ [])) := fun c hc => hs c (List.mem_append_right _ hc)
    have hd : Digits (d.text ++ []) := fun c hc => hm c (List.mem_append_right _ hc)
    have hy₀ := hread.year.space_eq_nil hs
    have hm₀ := hread.month.space_eq_nil hm
    have hd₀ := hread.day.space_eq_nil hd
    refine ⟨y, m, d, ?_, hread, hm₀, hd₀⟩
    simp only [DateField.text, hy₀, hm₀, hd₀, List.nil_append, List.append_nil]
  · have hcolon := hs _ (wholeDate_clock h)
    cases hcolon

/-- More than eight digits are none. -/
theorem ibStrptime_long (hs : Digits cs) (hlen : 8 < cs.length) :
    ibStrptime (String.ofList cs) = none := by
  rw [Option.eq_none_iff_forall_ne_some]
  intro tm h
  obtain ⟨y, m, d, rfl, hread, -, -⟩ := ibStrptime_digits hs h
  have hy := hread.year.length_le
  have hm := hread.month.length_le
  have hd := hread.day.length_le
  simp only [List.length_append] at hlen
  omega

/-- **A year and a month are none**: the first digit of the month cannot be
all of it, since another one could follow. -/
theorem ibStrptime_month {y m : ℕ} (hy : y ≤ 9999) (hm : m ≤ 12) :
    ibStrptime (String.ofList (zeroPad 4 y ++ zeroPad 2 m)) = none := by
  rw [Option.eq_none_iff_forall_ne_some]
  intro tm h
  obtain ⟨fy, fm, fd, hcs, hread, hm₀, hd₀⟩ :=
    ibStrptime_digits (digits_zeroPad.append digits_zeroPad) h
  have hlen₄ : (zeroPad 4 y).length = 4 := length_zeroPad (by decide) (by omega)
  have hlen₂ : (zeroPad 2 m).length = 2 := length_zeroPad (by decide) (by omega)
  have hyear : fy.digits.length = 4 := by
    rcases hread.year.year_ends with h | h
    · exact h
    · exact absurd h (hread.month.not_noDigitAhead hm₀)
  obtain ⟨-, hrest⟩ := List.append_inj hcs (hlen₄.trans hyear.symm)
  -- what is left are two digits for two fields
  have hsum := congrArg List.length hrest
  rw [hlen₂, List.length_append] at hsum
  have hpm := List.length_pos_iff.2 hread.month.ne_nil
  have hpd := List.length_pos_iff.2 hread.day.ne_nil
  have hval : 10 * fm.value + fd.value = m := by
    have hone : fd.digits.length = 1 := by omega
    have hv := congrArg (fun cs => Nat.ofDigitChars 10 cs 0) hrest
    simp only [ofDigitChars_zeroPad] at hv
    rw [Nat.ofDigitChars_append, Nat.ofDigitChars_eq_ofDigitChars_zero, hone] at hv
    exact hv.symm
  rcases hread.month.ends with h | h | h
  · omega
  · omega
  · exact hread.day.not_noDigitAhead hd₀ h

end Twstools
