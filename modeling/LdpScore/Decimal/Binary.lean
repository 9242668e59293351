import LdpScore.Decimal.Leading
import LdpScore.Decimal.Power

/-!
# Binary floating point formats

A binary format stores a sign, an exponent and a fraction.  `Format.round` gives
the stored pattern of the value nearest to a quotient, with ties going to the
even fraction, in exact integer arithmetic; `Format.decode` is its inverse on
finite patterns.  `single` and `double` are the two formats that scores use.
-/

namespace LdpScore.Decimal

/-- A binary floating point format with its two widths. -/
structure Format where
  fractionBits : Nat
  exponentBits : Nat
deriving DecidableEq, Repr

namespace Format

/-- The format of 32 bits. -/
def single : Format := ⟨23, 8⟩

/-- The format of 64 bits. -/
def double : Format := ⟨52, 11⟩

/-- The exponent of the unit in the last place of the smallest values. -/
def leastExponent (format : Format) : Int :=
  2 - (powerOfTwo (format.exponentBits - 1) : Int) - format.fractionBits

def infinity (format : Format) : Nat :=
  (powerOfTwo format.exponentBits - 1) * powerOfTwo format.fractionBits

def signBit (format : Format) : Nat :=
  powerOfTwo (format.fractionBits + format.exponentBits)

/-- The quotient of two numbers rounded to an integer, ties to even. -/
def divideToEven (numerator denominator : Nat) : Nat :=
  let quotient := numerator / denominator
  let double := 2 * (numerator % denominator)
  if double < denominator ∨ (double = denominator ∧ quotient % 2 = 0) then quotient
  else quotient + 1

/-- The greatest `e` with `2 ^ e ≤ numerator / denominator`, for positive numbers. -/
def floorLog (numerator denominator : Nat) : Int :=
  let guess : Int := (Nat.log2 numerator : Int) - Nat.log2 denominator
  let reached :=
    if guess < 0 then denominator ≤ numerator * powerOfTwo guess.natAbs
    else denominator * powerOfTwo guess.natAbs ≤ numerator
  if reached then guess else guess - 1

/-- The pattern of the non-negative value nearest to a quotient. -/
def round (format : Format) (numerator denominator : Nat) : Nat :=
  if numerator = 0 then 0
  else
    let unit := max (floorLog numerator denominator - format.fractionBits) format.leastExponent
    let significand :=
      if unit < 0 then divideToEven (numerator * powerOfTwo unit.natAbs) denominator
      else divideToEven numerator (denominator * powerOfTwo unit.natAbs)
    let exponentField := (unit - format.leastExponent).toNat * powerOfTwo format.fractionBits
    min (exponentField + significand) format.infinity

/-- The pattern of the value nearest to a decimal fraction. -/
def ofFraction (format : Format) (fraction : Fraction) : Nat :=
  (if fraction.negative then format.signBit else 0) +
    format.round fraction.digits (powerOfTen fraction.places)

/-- A finite value `± significand · 2 ^ exponent`. -/
structure Finite where
  negative : Bool
  significand : Nat
  exponent : Int
  /-- Whether the next smaller magnitude is only half as far away as the next
  greater one. -/
  narrowBelow : Bool
deriving DecidableEq, Repr

/-- What a pattern stands for. -/
inductive Value where
  | finite (value : Finite)
  | infinite (negative : Bool)
  | notANumber
deriving DecidableEq, Repr

def decode (format : Format) (pattern : Nat) : Value :=
  let negative := format.signBit ≤ pattern
  let magnitude := pattern % format.signBit
  let stored := magnitude / powerOfTwo format.fractionBits
  let fraction := magnitude % powerOfTwo format.fractionBits
  if format.infinity < magnitude then .notANumber
  else if format.infinity = magnitude then .infinite negative
  else if stored = 0 then .finite ⟨negative, fraction, format.leastExponent, false⟩
  else .finite ⟨negative, powerOfTwo format.fractionBits + fraction,
    format.leastExponent + (stored - 1 : Nat), fraction = 0 && 1 < stored⟩

end Format

/-- The single precision value nearest to a decimal fraction. -/
def Fraction.toFloat32 (fraction : Fraction) : Float32 :=
  Float32.ofBits (UInt32.ofNat (Format.single.ofFraction fraction))

/-- The double precision value nearest to a decimal fraction. -/
def Fraction.toFloat (fraction : Fraction) : Float :=
  Float.ofBits (UInt64.ofNat (Format.double.ofFraction fraction))

/-- The double precision value that is the same as a single precision one. -/
def widen (value : Float32) : Float :=
  .ofModel (.pack (match value.toModel.unpack with
    | .finite sign significand exponent _ => .round .binary64 sign significand exponent
    | special => special))

/-- The single precision value of the number at the front of a text. -/
def leadingReal? (text : List Char) : Option Float32 :=
  (leadingDecimal? text).map Fraction.toFloat32

end LdpScore.Decimal
