import Twstools.Clib.Decimal
import Mathlib.Data.Rat.Defs
/-!
# Floating point numbers, as far as text files see them

A double is an exact rational, or an infinity. `printG10` is `printf`'s
`%.10g`: ten significant digits, rounded half to even, without trailing
zeros, in the exponent style below `10⁻⁴` and from `10¹⁰` on. `atof` reads
a decimal number exactly and gives an infinity above `DBL_MAX`. A value
prints exactly when reading its text gives it back.
-/

namespace Twstools

/-- A double without its rounding: rationals are exact. NaN does not occur
in the files. -/
inductive Double where
  | finite (q : ℚ)
  | inf (negative : Bool)
  deriving DecidableEq

namespace Double

instance : OfNat Double n := ⟨.finite n⟩

instance : Neg Double where
  neg
    | .finite q => .finite (-q)
    | .inf b => .inf !b

instance : Inhabited Double := ⟨0⟩

/-- The largest finite double, `(2 - 2⁻⁵²) · 2¹⁰²³`. -/
def DBL_MAX : ℚ := (2 ^ 1024 - 2 ^ 971 : ℕ)

/-- `m · 10 ^ e`. -/
def scale (m : ℕ) (e : ℤ) : ℚ :=
  if 0 ≤ e then (m * 10 ^ e.toNat : ℕ) else mkRat m (10 ^ (-e).toNat)

/-! ## Writing -/

/-- The exponent `X` with `10 ^ X ≤ n / d < 10 ^ (X + 1)`, for `n ≠ 0`. -/
def exponent10 (n d : ℕ) : ℤ :=
  let x : ℤ := (Nat.toDigits 10 n).length - (Nat.toDigits 10 d).length
  if scale 1 x ≤ mkRat n d then x else x - 1

/-- Rounding to the nearest integer, ties to even. -/
def roundHalfEven (n d : ℕ) : ℕ :=
  let q := n / d
  let r := n % d
  if 2 * r < d then q else if d < 2 * r then q + 1 else q + q % 2

/-- The ten significant digits of `n / d`, as a number, and the exponent
of the first of them. Rounding up may add a digit. -/
def significand10 (n d : ℕ) : ℕ × ℤ :=
  let x := exponent10 n d
  let s := mkRat n d * scale 1 (9 - x)
  let m := roundHalfEven s.num.natAbs s.den
  if m = 10 ^ 10 then (10 ^ 9, x + 1) else (m, x)

/-- Zeros at the end go, as `%g` has it. -/
def stripZeros (cs : List Char) : List Char :=
  (cs.reverse.dropWhile (· = '0')).reverse

/-- The decimal point and what follows it, unless that is nothing. -/
def fraction (cs : List Char) : List Char :=
  match stripZeros cs with
  | [] => []
  | ds => '.' :: ds

/-- An exponent as `%e` writes it: a sign and at least two digits. -/
def exponentText (x : ℤ) : List Char :=
  let ds := Nat.toDigits 10 x.natAbs
  'e' :: (if x < 0 then '-' else '+') :: (if ds.length < 2 then '0' :: ds else ds)

/-- `%.10g` of a positive number. -/
def printPos (n d : ℕ) : List Char :=
  let (m, x) := significand10 n d
  let ds := Nat.toDigits 10 m
  if x < -4 ∨ 10 ≤ x then ds.take 1 ++ fraction (ds.drop 1) ++ exponentText x
  else if 0 ≤ x then ds.take (x.toNat + 1) ++ fraction (ds.drop (x.toNat + 1))
  else '0' :: fraction (List.replicate ((-x).toNat - 1) '0' ++ ds)

/-- `snprintf(tmp, sizeof(tmp), "%.10g", x)`. -/
def printG10 : Double → String
  | .finite q =>
      if q = 0 then "0"
      else String.ofList ((if q < 0 then ['-'] else []) ++ printPos q.num.natAbs q.den)
  | .inf false => "inf"
  | .inf true => "-inf"

/-! ## Reading -/

/-- The exponent after a mantissa: `e`, a sign and digits, or nothing. -/
def readExponent : List Char → ℤ
  | c :: cs =>
      if c = 'e' ∨ c = 'E' then
        let (neg, ds) := splitSign cs
        let x : ℤ := Nat.ofDigitChars 10 (ds.takeWhile Char.isDigit) 0
        if neg then -x else x
      else 0
  | [] => 0

/-- The digits of a mantissa, before and after the point, and the rest. -/
def splitMantissa (cs : List Char) : List Char × List Char × List Char :=
  let whole := cs.takeWhile Char.isDigit
  match cs.dropWhile Char.isDigit with
  | '.' :: rest => (whole, rest.takeWhile Char.isDigit, rest.dropWhile Char.isDigit)
  | rest => (whole, [], rest)

/-- An unsigned decimal number. -/
def readPos (cs : List Char) : ℚ :=
  let (whole, frac, rest) := splitMantissa cs
  scale (Nat.ofDigitChars 10 (whole ++ frac) 0) (readExponent rest - frac.length)

/-- `atof`, for decimal texts and infinities: hexadecimal texts and `nan` are
left out, and a number just above `DBL_MAX` is not rounded down to it. -/
def atof (s : String) : Double :=
  let (neg, cs) := splitSign (s.toList.dropWhile isSpace)
  if cs.take 3 = ['i', 'n', 'f'] then .inf neg
  else
    let q := readPos cs
    if DBL_MAX < q then .inf neg else .finite (if neg then -q else q)

/-- The value is not changed by writing it with `%.10g` and reading the
text. -/
def PrintsExactly (x : Double) : Prop := atof (printG10 x) = x

instance (x : Double) : Decidable (PrintsExactly x) := inferInstanceAs (Decidable (_ = _))

end Double

end Twstools
