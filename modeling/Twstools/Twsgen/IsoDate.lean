import Twstools.Twsgen.ReadDates
/-!
# Dates in standard format

`ib_date2iso` writes what `strptime` has read with the fields as they are.
`strptime` does not know how long a month is, and some C libraries do not
fill up the year, so what comes out is a date exactly if the month has the
day and the year its digits (`ib_date2iso_valid_iff`).
-/

namespace Twstools

open Double (Digits span_digits)

/-- A number in at least `w` digits, with its sign. -/
def fieldText (w : ℕ) (x : ℤ) : List Char :=
  (if x < 0 then ['-'] else []) ++ zeroPad w x.natAbs

/-- `strftime` with `%F`. Whether `%Y` fills up a year of less than four
digits (`pad`) depends on the C library. -/
def strftimeF (pad : Bool) (tm : Tm) : List Char :=
  fieldText (if pad then 4 else 1) (tm.tm_year + 1900) ++
    '-' :: (fieldText 2 (tm.tm_mon + 1) ++ '-' :: fieldText 2 tm.tm_mday)

/-- `strftime` with `%T`. -/
def strftimeT (tm : Tm) : List Char :=
  fieldText 2 tm.tm_hour ++ ':' :: (fieldText 2 tm.tm_min ++ ':' :: fieldText 2 tm.tm_sec)

/-- `ib_date2iso`. The buffer is large enough for the years `strptime`
reads. -/
def ibDate2iso (pad : Bool) (ibDate : String) : String :=
  let s := (c_str ibDate).toList
  match wholeDate [.Y, .m, .d] s with
  | some tm => String.ofList (strftimeF pad tm)
  | none =>
      match wholeDate dateTimeFormat s with
      | some tm => String.ofList (strftimeF pad tm ++ ' ' :: strftimeT tm)
      | none => ""

/-- Nothing, or a day that exists, alone or with a time of day. -/
def ValidIso (s : List Char) : Prop :=
  s = [] ∨ ∃ e : CivilDate, s = e.isoText ∨
    ∃ h mi se : ℕ, h ≤ 23 ∧ mi ≤ 59 ∧ se ≤ 61 ∧ s = e.isoText ++ ' ' :: clockText h mi se

/-- The month has the day. -/
def Tm.DayExists (tm : Tm) : Prop :=
  tm.tm_mday ≤ daysInMonth (tm.tm_year + 1900).toNat (tm.tm_mon + 1).toNat

/-- The year is written with four digits. -/
def Tm.FullYear (pad : Bool) (tm : Tm) : Prop := pad = true ∨ 1000 ≤ tm.tm_year + 1900

variable {pad : Bool} {s : String} {tm : Tm} {y m d w : ℕ} {t t' : List Char}

/-! ## What is written -/

theorem ibDate2iso_of_none (h : ibStrptime s = none) : ibDate2iso pad s = "" := by
  rw [ibStrptime_eq] at h
  obtain ⟨h₁, h₂⟩ := Option.or_eq_none_iff.1 h
  simp only [ibDate2iso, h₁, h₂]

theorem ibDate2iso_of_some (pad : Bool) (h : ibStrptime s = some tm) :
    (ibDate2iso pad s).toList = strftimeF pad tm ∨
      (ibDate2iso pad s).toList = strftimeF pad tm ++ ' ' :: strftimeT tm := by
  rw [ibStrptime_eq] at h
  rcases Option.or_eq_some_iff.1 h with h | ⟨hnone, h⟩
  · left
    simp only [ibDate2iso, h, String.toList_ofList]
  · right
    simp only [ibDate2iso, hnone, h, String.toList_ofList]

theorem fieldText_natCast (w n : ℕ) : fieldText w n = zeroPad w n := by
  rw [fieldText, if_neg (by omega), List.nil_append, Int.natAbs_natCast]

/-- The date is written in its fields. -/
theorem strftimeF_eq (h : tm.HasDate y m d) : strftimeF pad tm =
    zeroPad (if pad then 4 else 1) y ++ '-' :: (zeroPad 2 m ++ '-' :: zeroPad 2 d) := by
  rw [strftimeF, h.year, h.month, h.day, fieldText_natCast, fieldText_natCast, fieldText_natCast]

/-- And so is the time of day. -/
theorem strftimeT_eq (h : tm.ClockInRange) : ∃ ho mi se : ℕ, ho ≤ 23 ∧ mi ≤ 59 ∧ se ≤ 61 ∧
    strftimeT tm = clockText ho mi se := by
  obtain ⟨⟨hh₀, hh⟩, ⟨hm₀, hm⟩, hs₀, hs⟩ := h
  obtain ⟨ho, hho⟩ := Int.eq_ofNat_of_zero_le hh₀
  obtain ⟨mi, hmi⟩ := Int.eq_ofNat_of_zero_le hm₀
  obtain ⟨se, hse⟩ := Int.eq_ofNat_of_zero_le hs₀
  refine ⟨ho, mi, se, by omega, by omega, by omega, ?_⟩
  rw [strftimeT, hho, hmi, hse, fieldText_natCast, fieldText_natCast, fieldText_natCast, clockText]

/-! ## What it can be read as -/

/-- Digits end where something else begins. -/
theorem digits_append_inj {a b : List Char} (ha : Digits a) (hb : Digits b) (ht : NoDigitAhead t)
    (ht' : NoDigitAhead t') (h : a ++ t = b ++ t') : a = b ∧ t = t' := by
  have hends : ∀ {t : List Char}, NoDigitAhead t → ∀ c r, t = c :: r → c.isDigit = false :=
    fun ht c r hc => ht c (by rw [hc]; rfl)
  obtain ⟨ha₁, ha₂⟩ := span_digits ha (hends ht)
  obtain ⟨hb₁, hb₂⟩ := span_digits hb (hends ht')
  rw [h] at ha₁ ha₂
  exact ⟨ha₁.symm.trans hb₁, ha₂.symm.trans hb₂⟩

/-- A year without zeros before it has four digits from 1000 on. -/
theorem zeroPad_one_eq (hy : y ≤ 9999) : zeroPad 1 y = zeroPad 4 y ↔ 1000 ≤ y := by
  have hpad : ∀ {w k : ℕ}, (Nat.toDigits 10 y).length = k → w ≤ k →
      zeroPad w y = Nat.toDigits 10 y := by
    intro w k hk hw
    rw [zeroPad, List.leftpad, Nat.sub_eq_zero_of_le (by omega), List.replicate_zero,
      List.nil_append]
  have hpos : 0 < (Nat.toDigits 10 y).length := Nat.length_toDigits_pos
  have hlen := Nat.length_toDigits_le_iff (b := 10) (n := y) (k := 3) (by decide) (by decide)
  constructor
  · intro h
    have hfour := congrArg List.length h
    rw [hpad rfl hpos, length_zeroPad (by decide) (by omega)] at hfour
    have := mt hlen.2 (by omega)
    omega
  · intro h
    have hmore : ¬ (Nat.toDigits 10 y).length ≤ 3 := fun hle => by
      have := hlen.1 hle
      omega
    rw [hpad rfl hpos, hpad rfl (by omega)]

/-- **The fields can be told apart** in what is written. -/
theorem eq_of_strftimeF_append {e : CivilDate} (h : tm.HasDate y m d) (ht : NoDigitAhead t)
    (ht' : NoDigitAhead t') (heq : strftimeF pad tm ++ t = e.isoText ++ t') :
    zeroPad (if pad then 4 else 1) y = zeroPad 4 e.year ∧ m = e.month ∧ d = e.day := by
  have hdash : ∀ {r : List Char}, NoDigitAhead ('-' :: r) := noDigitAhead_cons (by decide)
  rw [strftimeF_eq h, CivilDate.isoText] at heq
  simp only [List.append_assoc, List.cons_append] at heq
  obtain ⟨hyear, heq⟩ := digits_append_inj digits_zeroPad digits_zeroPad hdash hdash heq
  obtain ⟨hmonth, heq⟩ := digits_append_inj digits_zeroPad digits_zeroPad hdash hdash
    (List.cons.inj heq).2
  obtain ⟨hday, -⟩ := digits_append_inj digits_zeroPad digits_zeroPad ht ht' (List.cons.inj heq).2
  exact ⟨hyear, zeroPad_inj.1 hmonth, zeroPad_inj.1 hday⟩

theorem fullYear_iff (h : tm.HasDate y m d) (hr : tm.DateInRange) :
    tm.FullYear pad ↔ zeroPad (if pad then 4 else 1) y = zeroPad 4 y := by
  have hy : y ≤ 9999 := by
    have := hr.year.2
    rw [h.year] at this
    omega
  unfold Tm.FullYear
  rw [h.year]
  cases pad with
  | true => simp
  | false =>
      simp only [Bool.false_eq_true, false_or, if_false, zeroPad_one_eq hy]
      omega

theorem dayExists_iff (h : tm.HasDate y m d) : tm.DayExists ↔ d ≤ daysInMonth y m := by
  unfold Tm.DayExists
  rw [h.year, h.month, h.day, Int.toNat_natCast, Int.toNat_natCast, Int.ofNat_le]

/-- **What is written is a date** exactly if the day exists and the year is
written in full. -/
theorem validIso_strftime_iff {u : List Char} (h : tm.HasDate y m d) (hr : tm.DateInRange)
    (hc : tm.ClockInRange)
    (hu : u = strftimeF pad tm ∨ u = strftimeF pad tm ++ ' ' :: strftimeT tm) :
    ValidIso u ↔ tm.DayExists ∧ tm.FullYear pad := by
  have hfull : tm.FullYear pad ↔ _ := fullYear_iff h hr
  have hday := dayExists_iff h
  have hspace : ∀ {r : List Char}, NoDigitAhead (' ' :: r) := noDigitAhead_cons (by decide)
  constructor
  · intro hv
    -- the text goes on with nothing, or with a space
    obtain ⟨t, hut, ht⟩ : ∃ t, u = strftimeF pad tm ++ t ∧ NoDigitAhead t := by
      rcases hu with rfl | rfl
      · exact ⟨[], (List.append_nil _).symm, noDigitAhead_nil⟩
      · exact ⟨_, rfl, hspace⟩
    obtain ⟨e, t', het, ht'⟩ : ∃ (e : CivilDate) (t' : List Char),
        u = e.isoText ++ t' ∧ NoDigitAhead t' := by
      rcases hv with hnil | ⟨e, he | ⟨ho, mi, se, -, -, -, he⟩⟩
      · rw [hut, strftimeF_eq h] at hnil
        simp at hnil
      · exact ⟨e, [], by rw [he, List.append_nil], noDigitAhead_nil⟩
      · exact ⟨e, _, he, hspace⟩
    obtain ⟨hyear, rfl, rfl⟩ := eq_of_strftimeF_append h ht ht' (hut.symm.trans het)
    have hye : y = e.year := by
      rw [← ofDigitChars_zeroPad (w := 4) (n := e.year), ← hyear, ofDigitChars_zeroPad]
    subst hye
    exact ⟨hday.2 e.day_le, hfull.2 hyear⟩
  · rintro ⟨hex, hyear⟩
    have hyr := hr.year.2
    have hm := hr.month
    have hd := hr.day.1
    rw [h.year] at hyr
    rw [h.month] at hm
    rw [h.day] at hd
    have hF : strftimeF pad tm = CivilDate.isoText
        ⟨y, m, d, by omega, by omega, by omega, by omega, hday.1 hex⟩ := by
      rw [strftimeF_eq h, hfull.1 hyear]
      rfl
    refine .inr ⟨⟨y, m, d, by omega, by omega, by omega, by omega, hday.1 hex⟩, ?_⟩
    rcases hu with rfl | rfl
    · exact .inl hF
    · obtain ⟨ho, mi, se, hho, hmi, hse, hT⟩ := strftimeT_eq hc
      exact .inr ⟨ho, mi, se, hho, hmi, hse, by rw [hF, hT]⟩

/-- A date that is read is written as one exactly then. -/
theorem validIso_of_some (h : ibStrptime s = some tm) :
    ValidIso (ibDate2iso pad s).toList ↔ tm.DayExists ∧ tm.FullYear pad := by
  obtain ⟨y, m, d, rest, -, hread, hdate, hclock⟩ := ibStrptime_eq_some h
  exact validIso_strftime_iff hdate (hread.dateInRange hdate) hclock (ibDate2iso_of_some pad h)

/-- **What `ib_date2iso` returns is a date**, or nothing, exactly if the day
`ib_strptime` reads exists, and the C library or the year itself sees to the
four digits of the year. -/
theorem ib_date2iso_valid_iff (pad : Bool) (s : String) : ValidIso (ibDate2iso pad s).toList ↔
    ∀ tm, ibStrptime s = some tm → tm.DayExists ∧ tm.FullYear pad := by
  rcases hs : ibStrptime s with _ | tm
  · rw [ibDate2iso_of_none hs]
    exact ⟨fun _ tm htm => absurd htm (by simp), fun _ => .inl rfl⟩
  · rw [validIso_of_some hs]
    exact ⟨fun h tm' htm' => Option.some.inj htm' ▸ h, fun h => h tm rfl⟩

/-- February has no day 31, but it is written, whatever the library does
with the year. -/
theorem february_31_written :
    (ibDate2iso false "20150231" = "2015-02-31" ∧ ibDate2iso true "20150231" = "2015-02-31") ∧
      ¬ ∃ pad : Bool, ValidIso (ibDate2iso pad "20150231").toList := by
  have hread : ibStrptime "20150231" =
      some { tm_mday := 31, tm_mon := 1, tm_year := 115, tm_wday := 2 } := by decide +kernel
  refine ⟨⟨by decide +kernel, by decide +kernel⟩, ?_⟩
  rintro ⟨pad, hvalid⟩
  obtain ⟨hday, -⟩ := (validIso_of_some hread).1 hvalid
  exact absurd hday (by unfold Tm.DayExists; decide)

end Twstools
