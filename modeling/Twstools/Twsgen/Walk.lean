import Twstools.Common.Weekdays
import Twstools.Twsgen.Dates
/-!
# The way back over the business days

`min_begin_date` jumps over full weeks and then goes back day by day, with
its own count of the day of the week. It comes to the day of the walk that
goes back one workday at a time (`backBusyDays_eq`), and its `tm_wday` is
right all along (`trueWeekday_tracked`). What it returns is the instant of
that day at the time of day of the end date, which is why some expiries
are found too early that are not.
-/

namespace Twstools

namespace Tm

/-- The day of a date. Day 0 is the first of January 1970. -/
def dayNumber (tm : Tm) : ℤ := daysBefore tm.tm_year tm.tm_mon + tm.tm_mday

/-- The seconds since midnight. -/
def secOfDay (tm : Tm) : ℤ := tm.tm_hour * 3600 + tm.tm_min * 60 + tm.tm_sec

/-- The same time on another day. -/
def onDay (tm : Tm) (D : ℤ) : Tm :=
  { tm with tm_mday := tm.tm_mday + (D - tm.dayNumber), tm_wday := weekday D }

/-- The day of the week is the date's. -/
def TrueWeekday (tm : Tm) : Prop := tm.tm_wday = dayOfTheWeek tm

variable {tm : Tm} {D D' : ℤ}

theorem timegm_eq (tm : Tm) : timegm tm = tm.dayNumber * 86400 + tm.secOfDay := by
  unfold timegm dayNumber secOfDay
  omega

theorem trueWeekday_iff : tm.TrueWeekday ↔ tm.tm_wday = weekday tm.dayNumber := Iff.rfl

@[simp] theorem dayNumber_onDay : (tm.onDay D).dayNumber = D := by
  unfold onDay dayNumber
  dsimp only
  omega

theorem trueWeekday_onDay : (tm.onDay D).TrueWeekday := by
  rw [trueWeekday_iff, dayNumber_onDay]
  rfl

@[simp] theorem onDay_onDay : (tm.onDay D).onDay D' = tm.onDay D' := by
  have h : (tm.onDay D).tm_mday + (D' - (tm.onDay D).dayNumber) =
      tm.tm_mday + (D' - tm.dayNumber) := by
    rw [dayNumber_onDay]
    show tm.tm_mday + (D - tm.dayNumber) + (D' - D) = _
    omega
  rw [onDay, h]
  rfl

/-- A change of the date by a number of days. -/
theorem onDay_of_eq {k w : ℤ} (hD : D = tm.dayNumber - k) (hw : w = weekday D) :
    { tm with tm_mday := tm.tm_mday - k, tm_wday := w } = tm.onDay D := by
  have h : tm.tm_mday + (D - tm.dayNumber) = tm.tm_mday - k := by omega
  rw [onDay, h, hw]

theorem TrueWeekday.onDay_self (h : tm.TrueWeekday) : tm.onDay tm.dayNumber = tm := by
  rw [← onDay_of_eq (k := 0) (by omega) (trueWeekday_iff.1 h), Int.sub_zero]

end Tm

variable {tm : Tm} {secs n : ℤ}

/-! ## The parts of the way -/

/-- **Day by day.** The loop goes back over the workdays. -/
theorem backDays_eq (k : ℕ) (h : tm.TrueWeekday) (hw : IsWorkday tm.dayNumber) :
    backDays k tm = tm.onDay (workdayBefore^[k] tm.dayNumber) := by
  induction k generalizing tm with
  | zero => exact h.onDay_self.symm
  | succ k ih =>
      have hstep : (if tm.tm_wday = 1 then { tm with tm_mday := tm.tm_mday - 3, tm_wday := 5 }
          else { tm with tm_mday := tm.tm_mday - 1, tm_wday := tm.tm_wday - 1 }) =
            tm.onDay (workdayBefore tm.dayNumber) := by
        have hday := workdayBefore_of_isWorkday hw
        have hwd := weekday_workdayBefore hw
        rw [← Tm.trueWeekday_iff.1 h] at hday hwd
        -- on a Monday the loop goes back over the weekend
        split
        · rename_i h1
          rw [if_pos h1] at hday hwd
          exact Tm.onDay_of_eq hday hwd.symm
        · rename_i h1
          rw [if_neg h1] at hday hwd
          exact Tm.onDay_of_eq hday hwd.symm
      rw [backDays, hstep, ih Tm.trueWeekday_onDay (by
        rw [Tm.dayNumber_onDay]
        exact isWorkday_lastWorkday _), Tm.onDay_onDay, Tm.dayNumber_onDay,
        Function.iterate_succ_apply]

/-- The weekend jumps to Friday. -/
def toFriday (tm : Tm) (minus_busy_days : ℤ) : Tm × ℤ :=
  if tm.tm_wday = 0 then
    ({ tm with tm_mday := tm.tm_mday - 2, tm_wday := 5 }, minus_busy_days - 1)
  else if tm.tm_wday = 6 then
    ({ tm with tm_mday := tm.tm_mday - 1, tm_wday := 5 }, minus_busy_days - 1)
  else (tm, minus_busy_days)

/-- The jump over full weeks. -/
def overWeeks (r : Tm × ℤ) : Tm := { r.1 with tm_mday := r.1.tm_mday - 7 * r.2.tdiv 5 }

theorem backBusyDays_parts : backBusyDays tm secs =
    backDays ((toFriday tm (secs.tdiv 86400)).2.tmod 5).toNat
      (overWeeks (toFriday tm (secs.tdiv 86400))) := rfl

theorem toFriday_eq (h : tm.TrueWeekday) : toFriday tm n =
    (tm.onDay (lastWorkday tm.dayNumber), if IsWorkday tm.dayNumber then n else n - 1) := by
  rw [Tm.trueWeekday_iff] at h
  have hsun : weekday tm.dayNumber = 0 → weekday (tm.dayNumber - 2) = 5 := by
    unfold weekday
    omega
  have hsat : weekday tm.dayNumber = 6 → weekday (tm.dayNumber - 1) = 5 := by
    unfold weekday
    omega
  unfold toFriday lastWorkday
  rw [h]
  split
  · rename_i h0
    rw [if_neg fun hw : IsWorkday _ => hw.1 h0, Tm.onDay_of_eq rfl (hsun h0).symm]
  split
  · rename_i h6
    rw [if_neg fun hw : IsWorkday _ => hw.2 h6, Tm.onDay_of_eq rfl (hsat h6).symm]
  · rename_i h0 h6
    have hw : IsWorkday tm.dayNumber := ⟨h0, h6⟩
    rw [if_pos hw, Tm.TrueWeekday.onDay_self (Tm.trueWeekday_iff.2 h)]

theorem overWeeks_eq (h : tm.TrueWeekday) :
    overWeeks (tm, n) = tm.onDay (tm.dayNumber - 7 * n.tdiv 5) := by
  refine Tm.onDay_of_eq rfl ?_
  rw [weekday_sub_week]
  exact h

/-- Full weeks and the days left are the days. -/
theorem backDays_overWeeks (h : tm.TrueWeekday) (hw : IsWorkday tm.dayNumber) (hn : -1 ≤ n) :
    backDays (n.tmod 5).toNat (overWeeks (tm, n)) =
      tm.onDay (workdayBefore^[n.toNat] tm.dayNumber) := by
  have hw' : IsWorkday (tm.dayNumber - 7 * n.tdiv 5) := by
    rw [IsWorkday, weekday_sub_week]
    exact hw
  rw [overWeeks_eq h, backDays_eq _ Tm.trueWeekday_onDay (by rwa [Tm.dayNumber_onDay]),
    Tm.onDay_onDay, Tm.dayNumber_onDay]
  congr 1
  rcases Int.lt_or_le n 0 with hneg | hpos
  · -- a weekend without a day to use up
    obtain rfl : n = -1 := by omega
    have hdiv : Int.tdiv (-1) 5 = 0 := rfl
    have hmod : (Int.tmod (-1) 5).toNat = 0 := rfl
    rw [hmod, hdiv, Int.mul_zero, Int.sub_zero]
    rfl
  · obtain ⟨k, rfl⟩ := Int.eq_ofNat_of_zero_le hpos
    rw [Int.tmod_eq_emod_of_nonneg hpos, Int.tdiv_eq_ediv_of_nonneg hpos, Int.toNat_natCast,
      iterate_eq hw k]
    norm_cast

/-- **The way back is the walk.** -/
theorem backBusyDays_eq (h : tm.TrueWeekday) (hs : 0 ≤ secs) : backBusyDays tm secs =
    tm.onDay (businessWalk tm.dayNumber (secs / 86400).toNat) := by
  have hn : 0 ≤ secs / 86400 := Int.ediv_nonneg hs (by omega)
  rw [backBusyDays_parts, Int.tdiv_eq_ediv_of_nonneg hs, toFriday_eq h]
  set n := secs / 86400
  have hlast : IsWorkday (tm.onDay (lastWorkday tm.dayNumber)).dayNumber := by
    rw [Tm.dayNumber_onDay]
    exact isWorkday_lastWorkday _
  rw [backDays_overWeeks Tm.trueWeekday_onDay hlast (by split <;> omega), Tm.onDay_onDay,
    Tm.dayNumber_onDay, businessWalk]
  by_cases hw : IsWorkday tm.dayNumber
  · rw [if_pos hw, if_pos hw, lastWorkday_of_isWorkday hw]
  · have hpred : (n - 1).toNat = n.toNat - 1 := by omega
    rw [if_neg hw, if_neg hw, hpred]

/-! ## What is read -/

/-- No field of the time of day is negative. -/
def Tm.ClockOk (tm : Tm) : Prop := 0 ≤ tm.tm_hour ∧ 0 ≤ tm.tm_min ∧ 0 ≤ tm.tm_sec

theorem getNumber_nonneg {lo hi k : ℕ} {cs rest : List Char} {val : ℤ}
    (h : getNumber lo hi k cs = some (val, rest)) : 0 ≤ val := by
  unfold getNumber at h
  dsimp only at h
  split at h
  · split at h
    · obtain ⟨rfl, -⟩ := Prod.mk.inj (Option.some.inj h)
      exact Int.natCast_nonneg _
    · cases h
  · cases h

theorem scanFormat_clockOk {fmt : List Conversion} {cs rest : List Char} {tm' : Tm}
    (h : scanFormat fmt cs tm = some (tm', rest)) (hok : tm.ClockOk) : tm'.ClockOk := by
  obtain ⟨hh, hm, hs⟩ := hok
  induction fmt generalizing cs tm with
  | nil =>
      obtain ⟨rfl, -⟩ := Prod.mk.inj (Option.some.inj h)
      exact ⟨hh, hm, hs⟩
  | cons c fmt ih =>
      cases c with
      | t => exact ih h hh hm hs
      | literal c =>
          rw [scanFormat] at h
          split at h
          · exact ih h hh hm hs
          · cases h
      -- the conversions of the date leave the clock as it is
      | Y | m | d =>
          obtain ⟨⟨val, cs'⟩, -, h⟩ := Option.bind_eq_some_iff.1 h
          exact ih h hh hm hs
      | H =>
          obtain ⟨⟨val, cs'⟩, hval, h⟩ := Option.bind_eq_some_iff.1 h
          exact ih h (getNumber_nonneg hval) hm hs
      | M =>
          obtain ⟨⟨val, cs'⟩, hval, h⟩ := Option.bind_eq_some_iff.1 h
          exact ih h hh (getNumber_nonneg hval) hs
      | S =>
          obtain ⟨⟨val, cs'⟩, hval, h⟩ := Option.bind_eq_some_iff.1 h
          exact ih h hh hm (getNumber_nonneg hval)

/-- **A date that is read** has its true day of the week, and no time before
midnight. -/
theorem ibStrptime_spec {s : String} (h : ibStrptime s = some tm) :
    tm.TrueWeekday ∧ 0 ≤ tm.secOfDay := by
  have hread : ∀ {cs : List Char} {fmt : List Conversion},
      ((strptime cs fmt {}).bind fun r => if r.2 = [] then some r.1 else none) = some tm →
        tm.TrueWeekday ∧ 0 ≤ tm.secOfDay := by
    intro cs fmt hr
    obtain ⟨⟨tm₁, rest⟩, hstr, hr⟩ := Option.bind_eq_some_iff.1 hr
    obtain ⟨⟨tm₂, rest₂⟩, hscan, hstr⟩ := Option.bind_eq_some_iff.1 hstr
    obtain ⟨rfl, rfl⟩ := Prod.mk.inj (Option.some.inj hstr)
    split at hr
    · obtain rfl := Option.some.inj hr
      obtain ⟨hh, hm, hs⟩ := scanFormat_clockOk hscan ⟨le_rfl, le_rfl, le_rfl⟩
      refine ⟨rfl, ?_⟩
      unfold Tm.secOfDay
      dsimp only
      omega
    · cases hr
  rcases Option.or_eq_some_iff.1 h with h | ⟨-, h⟩
  · exact hread h
  · exact hread h

/-- An accepted duration is not negative. -/
theorem ibDuration2secs_nonneg {dur : String} (h : ibDuration2secs dur = .ok secs)
    (hacc : secs ≠ -1) : 0 ≤ secs := by
  have hunit : ∀ {c : Char} {u : ℤ}, unitSeconds c = some u → 0 ≤ u := by
    intro c u hu
    unfold unitSeconds at hu
    split at hu <;> cases hu <;> decide
  unfold ibDuration2secs at h
  dsimp only at h
  obtain ⟨space, -, h⟩ := Exec.bind_eq_ok.1 h
  split at h
  · exact absurd (Except.ok.inj h).symm hacc
  obtain ⟨last, -, h⟩ := Exec.bind_eq_ok.1 h
  split at h
  · exact absurd (Except.ok.inj h).symm hacc
  · rename_i u hu
    split at h
    · exact absurd (Except.ok.inj h).symm hacc
    split at h
    · exact absurd (Except.ok.inj h).symm hacc
    · rename_i hval
      rw [← Except.ok.inj h]
      exact Int.mul_nonneg (by omega) (hunit hu)

/-! ## The begin date -/

variable {mktime : Tm → ℤ} {localDay : ℤ → ℤ} {s dur expiry : String} {te : Tm}

/-- **What `min_begin_date` returns**: the time of day of the end date on
the day of the walk. -/
theorem minBeginDate_eq_ok {t : ℤ} (he : ibStrptime s = some tm)
    (hd : ibDuration2secs dur = .ok secs) (hacc : secs ≠ -1) :
    minBeginDate mktime s dur = .ok t ↔
      mktime (({ tm with tm_isdst := -1 } : Tm).onDay
        (businessWalk tm.dayNumber (secs / 86400).toNat)) ≠ -1 ∧
      t = mktime (({ tm with tm_isdst := -1 } : Tm).onDay
        (businessWalk tm.dayNumber (secs / 86400).toNat)) := by
  have hwd : ({ tm with tm_isdst := -1 } : Tm).TrueWeekday := (ibStrptime_spec he).1
  have hday : ({ tm with tm_isdst := -1 } : Tm).dayNumber = tm.dayNumber := rfl
  unfold minBeginDate
  simp only [he, hd, Exec.ok_bind, if_neg hacc,
    backBusyDays_eq hwd (ibDuration2secs_nonneg hd hacc), hday]
  rw [Exec.bind_eq_ok]
  constructor
  · rintro ⟨_, hne, ht⟩
    exact ⟨Exec.ensure_eq_ok.1 hne, (Except.ok.inj ht).symm⟩
  · rintro ⟨hne, rfl⟩
    exact ⟨(), Exec.ensure_eq_ok.2 hne, rfl⟩

/-- `mktime` in a zone that is `off` seconds ahead of UTC. -/
def mktimeAt (off : ℤ) (tm : Tm) : ℤ := timegm tm - off

/-- **When only useless expiries are skipped.** An expiry that is not before
the calendar day of the end date less the duration is kept exactly when its
midnight is not before the time of day of the end date on the day of the
walk, and neither of the two is the time `-1`. -/
theorem skipExpiry_useless_iff (off : ℤ) (he : ibStrptime s = some tm)
    (hd : ibDuration2secs dur = .ok secs) (hacc : secs ≠ -1) (hx : ibStrptime expiry = some te)
    (hmid : te.secOfDay = 0) :
    ((timegm tm - secs) / 86400 ≤ te.dayNumber →
      ∃ t, minBeginDate (mktimeAt off) s dur = .ok t ∧
        skipExpiry (mktimeAt off) expiry t = .ok false) ↔
    ((timegm tm - secs) / 86400 ≤ te.dayNumber →
      businessWalk tm.dayNumber (secs / 86400).toNat * 86400 + tm.secOfDay ≤
          te.dayNumber * 86400 ∧
        businessWalk tm.dayNumber (secs / 86400).toNat * 86400 + tm.secOfDay ≠ off - 1 ∧
        te.dayNumber * 86400 ≠ off - 1) := by
  refine imp_congr_right fun _ => ?_
  set B := businessWalk tm.dayNumber (secs / 86400).toNat with hB
  have hbegin : mktimeAt off (({ tm with tm_isdst := -1 } : Tm).onDay B) =
      B * 86400 + tm.secOfDay - off := by
    rw [mktimeAt, Tm.timegm_eq, Tm.dayNumber_onDay]
    rfl
  have hexpiry : mktimeAt off { te with tm_isdst := -1 } = te.dayNumber * 86400 - off := by
    rw [mktimeAt, Tm.timegm_eq, show ({ te with tm_isdst := -1 } : Tm).secOfDay = 0 from hmid,
      Int.add_zero]
    rfl
  have hne : expiry ≠ "" := by
    rintro rfl
    rw [ibStrptime_empty] at hx
    cases hx
  simp only [minBeginDate_eq_ok he hd hacc, ← hB, hbegin, skipExpiry, if_neg hne, hx, hexpiry,
    Exec.bind_eq_ok, Exec.ensure_eq_ok]
  constructor
  · rintro ⟨t, ⟨hb, rfl⟩, -, hxne, hskip⟩
    have hskip := Except.ok.inj hskip
    rw [decide_eq_false_iff_not] at hskip
    omega
  · rintro ⟨hle, hb, hxne⟩
    refine ⟨_, ⟨by omega, rfl⟩, (), by omega, ?_⟩
    rw [Exec.pure_eq_ok, decide_eq_false (by omega)]

/-- A contract that expires on the day after the walk's is kept. -/
theorem skipExpiry_useless_kept : ∃ t,
    minBeginDate (mktimeAt 0) "20150107 15:00:00" "1 D" = .ok t ∧
      skipExpiry (mktimeAt 0) "20150107" t = .ok false := by
  have he : ibStrptime "20150107 15:00:00" =
      some { tm_hour := 15, tm_mday := 7, tm_mon := 0, tm_year := 115, tm_wday := 3 } := by
    decide +kernel
  have hd : ibDuration2secs "1 D" = .ok 86400 := by decide +kernel
  have hx : ibStrptime "20150107" =
      some { tm_mday := 7, tm_mon := 0, tm_year := 115, tm_wday := 3 } := by decide +kernel
  exact (skipExpiry_useless_iff 0 he hd (by decide) hx (by decide)).2
    (fun _ => by decide +kernel) (by decide +kernel)

/-- **A contract is skipped on the very day its data begins**: one business
day before an afternoon, the expiry is midnight of that day. -/
theorem skipExpiry_useful_skipped : ∃ t,
    minBeginDate (mktimeAt 0) "20150107 15:00:00" "1 D" = .ok t ∧
      skipExpiry (mktimeAt 0) "20150106" t = .ok true ∧
      ((ibStrptime "20150107 15:00:00").map fun tm => (timegm tm - 86400) / 86400) =
        (ibStrptime "20150106").map Tm.dayNumber := by
  refine ⟨1420556400, ?_, ?_, ?_⟩ <;> decide +kernel

end Twstools
