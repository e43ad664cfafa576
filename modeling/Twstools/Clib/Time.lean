import Twstools.Clib.Decimal
/-!
# Dates in C strings

A broken-down time is a `Tm`. `strptime` reads one from a text, as far as
the formats of the program go: numbers may have white space and leading
zeros in front of them, and take as many digits as their field allows. The
day of the week is computed from the date. `mktime` depends on the time
zone, so it is a parameter wherever it is called; `timegm` is what it does
in a zone without offset.
-/

namespace Twstools

/-- `struct tm`, without the day of the year. `memset` to zero makes `{}`. -/
structure Tm where
  tm_sec : ℤ := 0
  tm_min : ℤ := 0
  tm_hour : ℤ := 0
  tm_mday : ℤ := 0
  tm_mon : ℤ := 0
  tm_year : ℤ := 0
  tm_wday : ℤ := 0
  tm_isdst : ℤ := 0
  deriving DecidableEq

/-- The days from the first of January 1970 to the day before the first of
the month, in the Gregorian calendar. The year begins in March here, so
that the leap day is its last one. -/
def daysBefore (tm_year tm_mon : ℤ) : ℤ :=
  let month := (tm_mon + 10) % 12
  let year := tm_year + 1900 + (tm_mon + 10) / 12 - 1
  365 * year + year / 4 - year / 100 + year / 400 + (153 * month + 2) / 5 - 719469

/-- `timegm`: the seconds since 1970, in a zone without offset. The fields
may be out of their ranges. -/
def timegm (tm : Tm) : ℤ :=
  (daysBefore tm.tm_year tm.tm_mon + tm.tm_mday) * 86400 + tm.tm_hour * 3600 + tm.tm_min * 60 +
    tm.tm_sec

/-- The day of the week, from the date; the first of January 1970 was a
Thursday. glibc counts otherwise in January and February of the year 0. -/
def dayOfTheWeek (tm : Tm) : ℤ := (daysBefore tm.tm_year tm.tm_mon + tm.tm_mday + 4) % 7

/-! ## Reading -/

/-- What a format of `strptime` is made of. -/
inductive Conversion where
  | Y | m | d | H | M | S
  /-- `%t`, any white space. -/
  | t
  | literal (c : Char)
  deriving DecidableEq

/-- The digits of a number: at most `n`, and as long as another one could
still give a value that is allowed. -/
def takeNumber (hi : ℕ) : ℕ → ℕ → List Char → ℕ × List Char
  | n + 1, val, c :: cs =>
      if c.isDigit ∧ val * 10 ≤ hi then takeNumber hi n (val * 10 + (c.toNat - '0'.toNat)) cs
      else (val, c :: cs)
  | _, val, cs => (val, cs)

/-- A number with at least one digit, in its range. -/
def getNumber (lo hi n : ℕ) (s : List Char) : Option (ℤ × List Char) :=
  let s := s.dropWhile isSpace
  if s.head?.any Char.isDigit then
    let (val, rest) := takeNumber hi n 0 s
    if lo ≤ val ∧ val ≤ hi then some (val, rest) else none
  else none

/-- The part of `strptime` that goes through the format. -/
def scanFormat : List Conversion → List Char → Tm → Option (Tm × List Char)
  | [], s, tm => some (tm, s)
  | .t :: fmt, s, tm => scanFormat fmt (s.dropWhile isSpace) tm
  | .literal c :: fmt, s, tm => if s.head? = some c then scanFormat fmt s.tail tm else none
  | .Y :: fmt, s, tm => do
      let (val, s) ← getNumber 0 9999 4 s
      scanFormat fmt s { tm with tm_year := val - 1900 }
  | .m :: fmt, s, tm => do
      let (val, s) ← getNumber 1 12 2 s
      scanFormat fmt s { tm with tm_mon := val - 1 }
  | .d :: fmt, s, tm => do
      let (val, s) ← getNumber 1 31 2 s
      scanFormat fmt s { tm with tm_mday := val }
  | .H :: fmt, s, tm => do
      let (val, s) ← getNumber 0 23 2 s
      scanFormat fmt s { tm with tm_hour := val }
  | .M :: fmt, s, tm => do
      let (val, s) ← getNumber 0 59 2 s
      scanFormat fmt s { tm with tm_min := val }
  | .S :: fmt, s, tm => do
      let (val, s) ← getNumber 0 61 2 s
      scanFormat fmt s { tm with tm_sec := val }

/-- `strptime`, for a format with a date: what is not read yet, and the time
with the day of the week. -/
def strptime (s : List Char) (fmt : List Conversion) (tm : Tm) : Option (Tm × List Char) := do
  let (tm, rest) ← scanFormat fmt s tm
  pure ({ tm with tm_wday := dayOfTheWeek tm }, rest)

/-- The last second before 1970 is the time `-1`. -/
example : (strptime "19691231 23:59:59".toList
    [.Y, .m, .d, .t, .H, .literal ':', .M, .literal ':', .S] {}).map
      (fun r => (timegm r.1, r.1.tm_wday)) = some (-1, 3) := by decide +kernel

end Twstools
