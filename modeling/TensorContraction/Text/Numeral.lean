import TensorContraction.Text.Cut

/-!
# Numerals

Exports hold two kinds of numerals.  *Integers* are signed runs of digits within
the range of a signed 64-bit word.  *Decimals* may have a point and an exponent
introduced by one of the letters `E`, `e`, `D`, `d`; they are read exactly, as
rational numbers, so that a factor never suffers from rounding.  A decimal scaled
by more than 4096 powers of ten either way is refused, since its digits could not
be kept.  Only ASCII digits count.

## Main definitions

* `integer?` — reads an integer.
* `decimal?` — reads a decimal.
* `ratioText` — writes a rational number in lowest terms.
-/

namespace TensorContraction.Text

/-! ### Digits and signs -/

/-- Splits an optional sign off; the flag tells whether it was a minus. -/
def signed : List Char → Bool × List Char
  | '-' :: cs => (true, cs)
  | '+' :: cs => (false, cs)
  | cs => (false, cs)

/-- The number a run of digits stands for; a run without a digit is no number. -/
def natural? (cs : List Char) : Option Nat :=
  if !cs.isEmpty && cs.all (·.isDigit) then some (Nat.ofDigitChars 10 cs 0) else none

/-- A magnitude with its sign. -/
def withSign (negative : Bool) (n : Nat) : Int := if negative then -n else n

/-! ### Integers -/

/-- The least integer an export can hold. -/
def minInteger : Int := -0x8000000000000000

/-- The greatest integer an export can hold. -/
def maxInteger : Int := 0x7FFFFFFFFFFFFFFF

/-- Reads an integer: an optional sign, at least one digit, and a value in
range. -/
def integer? (cs : List Char) : Option Int := do
  let (negative, digits) := signed cs
  let value := withSign negative (← natural? digits)
  if minInteger ≤ value ∧ value ≤ maxInteger then some value else none

/-! ### Decimals -/

/-- Whether a character introduces an exponent. -/
def isExponentMark (c : Char) : Bool := c == 'E' || c == 'e' || c == 'D' || c == 'd'

/-- The greatest number of decimal places a decimal is moved by, either way. -/
def maxScale : Nat := 4096

/-- The rational number `n · 10 ^ scale`. -/
def scaled (n : Int) : Int → Rat
  | .ofNat k => (n * Nat.pow 10 k : Int)
  | .negSucc k => mkRat n (Nat.pow 10 (k + 1))

/-- Cuts a decimal into its mantissa and its exponent, which is zero where none is
written. -/
def exponent? (cs : List Char) : Option (List Char × Int) :=
  match cut? isExponentMark cs with
  | none => some (cs, 0)
  | some (mantissa, digits) => (integer? digits).map fun e => (mantissa, e)

/-- Reads a decimal: an optional sign, digits with an optional point among them or
at either end, and an optional exponent. -/
def decimal? (cs : List Char) : Option Rat := do
  let (mantissa, exponent) ← exponent? cs
  let (negative, digits) := signed mantissa
  let (whole, fraction) := (cut? (· == '.') digits).getD (digits, [])
  let n ← natural? (whole ++ fraction)
  let scale := exponent - fraction.length
  if scale.natAbs ≤ maxScale then some (scaled (withSign negative n) scale) else none

/-! ### Writing numbers -/

/-- An integer in decimal digits. -/
def integerText : Int → String
  | .ofNat n => toString n
  | .negSucc n => "-" ++ toString (n + 1)

/-- A rational number in lowest terms; the denominator of an integer is left
out. -/
def ratioText (q : Rat) : String :=
  if q.den = 1 then integerText q.num else integerText q.num ++ "/" ++ toString q.den

end TensorContraction.Text
