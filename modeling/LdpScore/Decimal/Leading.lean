/-!
# Numbers at the front of a text

A value in LDP is often a number with something after it.  `leadingInteger?` and
`leadingDecimal?` read the longest front of a text that is a number, and leave
the rest alone.  Integers are limited to 64 bits with sign; a number beyond them
cannot be read.
-/

namespace LdpScore.Decimal

def minInteger : Int := -0x8000000000000000

def maxInteger : Int := 0x7fffffffffffffff

/-- Takes one sign off the front of a text; `true` means that it was a minus. -/
def splitSign : List Char → Bool × List Char
  | '-' :: rest => (true, rest)
  | '+' :: rest => (false, rest)
  | unsigned => (false, unsigned)

/-- The number that a list of digits writes. -/
def digitsValue (digits : List Char) : Nat :=
  Nat.ofDigitChars 10 digits 0

def signed (negative : Bool) (magnitude : Nat) : Int :=
  if negative then -(magnitude : Int) else magnitude

/-- An integer, if it is within the limits. -/
def withinLimits? (value : Int) : Option Int :=
  if minInteger ≤ value ∧ value ≤ maxInteger then some value else none

/-- The integer that the longest front of the form `[+-]digits` writes. -/
def leadingInteger? (text : List Char) : Option Int :=
  let (negative, unsigned) := splitSign text
  let digits := unsigned.takeWhile Char.isDigit
  if digits.isEmpty then none
  else withinLimits? (signed negative (digitsValue digits))

/-- The integer that the whole text writes. -/
def integer? (text : List Char) : Option Int :=
  let (_, unsigned) := splitSign text
  if unsigned.all Char.isDigit then leadingInteger? text else none

/-- A decimal fraction `± digits / 10 ^ places`. -/
structure Fraction where
  negative : Bool
  /-- All digits, read as one integer. -/
  digits : Nat
  /-- How many of the digits stand after the point. -/
  places : Nat
deriving DecidableEq, Repr

/-- The decimal that the longest front of the form `[+-]digits[.digits]` writes;
at least one digit must stand before or after the point. -/
def leadingDecimal? (text : List Char) : Option Fraction :=
  let (negative, unsigned) := splitSign text
  let whole := unsigned.takeWhile Char.isDigit
  let fraction := match unsigned.dropWhile Char.isDigit with
    | '.' :: rest => rest.takeWhile Char.isDigit
    | _ => []
  if whole.isEmpty && fraction.isEmpty then none
  else some ⟨negative, digitsValue (whole ++ fraction), fraction.length⟩

end LdpScore.Decimal
