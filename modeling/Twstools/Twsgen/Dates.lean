import Twstools.Clib.Time
import Twstools.Xml.Node
import Twstools.Assertion
/-!
# The dates of generated jobs

`twsgen` leaves out contracts that expired before the data of a job begins.
`minBeginDate` goes back from the end date over the business days of the
duration, and `skipExpiry` compares the expiry with it. Both call `mktime`
and take `-1` for an error.
-/

namespace Twstools

/-- `ib_strptime`: a date, or a date with a time. -/
def ibStrptime (ib_datetime : String) : Option Tm :=
  let s := (c_str ib_datetime).toList
  let whole (r : Tm × List Char) : Option Tm := if r.2 = [] then some r.1 else none
  ((strptime s [.Y, .m, .d] {}).bind whole).or
    ((strptime s [.Y, .m, .d, .t, .H, .literal ':', .M, .literal ':', .S] {}).bind whole)

/-- The seconds of the unit of a duration. -/
def unitSeconds : Char → Option ℤ
  | 'S' => some 1
  | 'D' => some 86400
  | 'W' => some (86400 * 7)
  | 'M' => some (86400 * 30)
  | 'Y' => some (86400 * 365)
  | _ => none

/-- The character at an index of a C string. The one behind the last is the
NUL. -/
def charAt (s : List Char) (i : ℤ) : Exec Assertion Char :=
  deref (if 0 ≤ i then (s ++ ['\x00'])[i.toNat]? else none)

/-- `ib_duration2secs`. The length is kept in an `int`, and the character two
before the end is read first, whether there is one or not. -/
def ibDuration2secs (dur : String) : Exec Assertion ℤ := do
  let _dur := (c_str dur).toList
  let len := toInt _dur.length
  let space ← charAt _dur (len - 2)
  if space ≠ ' ' then pure (-1)
  else do
    let last ← charAt _dur (len - 1)
    match unitSeconds last with
    | none => pure (-1)
    | some unit =>
        let (val, tmp) := strtol _dur
        -- `tmp` points to the space
        if (_dur.length : ℤ) - tmp.length ≠ len - 2 then pure (-1)
        else if val < 0 ∨ INT_MAX / unit < val then pure (-1)
        else pure (val * unit)

/-- The days of a week that are left, one at a time. -/
def backDays : ℕ → Tm → Tm
  | 0, tm => tm
  | n + 1, tm =>
      backDays n <|
        -- monday jumps to friday
        if tm.tm_wday = 1 then { tm with tm_mday := tm.tm_mday - 3, tm_wday := 5 }
        else { tm with tm_mday := tm.tm_mday - 1, tm_wday := tm.tm_wday - 1 }

/-- The way back in `min_begin_date`. The weekend jumps to friday, then
there are full weeks and the rest of a week. -/
def backBusyDays (tm : Tm) (secs : ℤ) : Tm :=
  let minus_busy_days := secs.tdiv 86400
  let (tm, minus_busy_days) :=
    if tm.tm_wday = 0 then
      ({ tm with tm_mday := tm.tm_mday - 2, tm_wday := 5 }, minus_busy_days - 1)
    else if tm.tm_wday = 6 then
      ({ tm with tm_mday := tm.tm_mday - 1, tm_wday := 5 }, minus_busy_days - 1)
    else (tm, minus_busy_days)
  backDays (minus_busy_days.tmod 5).toNat
    { tm with tm_mday := tm.tm_mday - 7 * minus_busy_days.tdiv 5 }

section

variable (mktime : Tm → ℤ)

/-- `min_begin_date`. -/
def minBeginDate («end» dur : String) : Exec Assertion ℤ :=
  match ibStrptime «end» with
  | none => pure 0
  | some tm => do
      let secs ← ibDuration2secs dur
      if secs = -1 then pure 0
      else
        let t_begin := mktime (backBusyDays { tm with tm_isdst := -1 } secs)
        ensure (t_begin ≠ -1) .minBeginDateTime
        pure t_begin

/-- `skip_expiry`. -/
def skipExpiry (expiry : String) (t_before : ℤ) : Exec Assertion Bool :=
  if expiry = "" then pure false
  else
    match ibStrptime expiry with
    | none => .error (.assertion .skipExpiryParse)
    | some tm => do
        let t_expiry := mktime { tm with tm_isdst := -1 }
        ensure (t_expiry ≠ -1) .skipExpiryTime
        pure (t_expiry < t_before)

/-! ## When the dates are found -/

end

variable {mktime : Tm → ℤ} {s dur expiry : String} {t : ℤ}

theorem charAt_eq_ok {s : List Char} {i : ℤ} {c : Char} :
    charAt s i = .ok c ↔ 0 ≤ i ∧ (s ++ ['\x00'])[i.toNat]? = some c := by
  unfold charAt
  rw [Exec.deref_eq_ok]
  split
  · rename_i hi
    simp [hi]
  · rename_i hi
    simp [hi]

/-- An index in the string. -/
theorem charAt_of_lt {s : List Char} {i : ℤ} (h0 : 0 ≤ i) (h : i < s.length) :
    ∃ c, s[i.toNat]? = some c ∧ charAt s i = .ok c := by
  have hlt : i.toNat < s.length := by omega
  refine ⟨s[i.toNat], List.getElem?_eq_getElem hlt, charAt_eq_ok.2 ⟨h0, ?_⟩⟩
  rw [List.getElem?_append_left hlt, List.getElem?_eq_getElem hlt]

/-- A length as an `int` is not too large. -/
theorem toInt_length_le (s : List Char) : toInt s.length ≤ s.length := by
  refine toInt_le ?_
  unfold INT_MIN
  omega

/-- A duration is read when there are two characters to look at. -/
theorem ibDuration2secs_ok_iff : (∃ secs, ibDuration2secs dur = .ok secs) ↔
    2 ≤ toInt (c_str dur).length := by
  rw [← String.length_toList]
  have hlen := toInt_length_le (c_str dur).toList
  constructor
  · rintro ⟨secs, h⟩
    obtain ⟨space, hspace, -⟩ := Exec.bind_eq_ok.1 h
    have := (charAt_eq_ok.1 hspace).1
    omega
  · intro h
    obtain ⟨space, -, hspace⟩ := charAt_of_lt (s := (c_str dur).toList)
      (i := toInt (c_str dur).toList.length - 2) (by omega) (by omega)
    obtain ⟨last, -, hlast⟩ := charAt_of_lt (s := (c_str dur).toList)
      (i := toInt (c_str dur).toList.length - 1) (by omega) (by omega)
    unfold ibDuration2secs
    simp only [hspace, hlast, Exec.ok_bind]
    repeat' split
    all_goals exact ⟨_, rfl⟩

/-- No text is no date. -/
theorem ibStrptime_empty : ibStrptime "" = none := by decide +kernel

/-- A second before 1970 is a time like any other, but not for
`min_begin_date`, and a duration of one character has nothing two before
its end. -/
example : minBeginDate timegm "19691231 23:59:59" "1 S" =
      .error (.assertion .minBeginDateTime) ∧
    minBeginDate timegm "19691231 23:59:58" "1 S" = .ok (-2) ∧
    minBeginDate timegm "20150105" "1" = .error .badAccess := by decide +kernel

end Twstools
