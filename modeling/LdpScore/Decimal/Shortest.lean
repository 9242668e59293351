import LdpScore.Decimal.Binary

/-!
# The shortest decimal text of a floating point value

Among the decimals that read back as a given value, `shortest` chooses one with
the fewest digits, and among those the one nearest to the value; of two equally
near the greater.  `Layout` says how digits are set out as text.
-/

namespace LdpScore.Decimal

/-- A positive decimal `digits · 10 ^ exponent`. -/
structure Digits where
  digits : Nat
  exponent : Int
deriving DecidableEq, Repr

/-- The quotient `2 ^ power · factor · 10 ^ (- tens)` as numerator and denominator. -/
def scaled (factor : Nat) (power tens : Int) : Nat × Nat :=
  let numerator := factor * (if 0 ≤ power then powerOfTwo power.natAbs else 1)
  let denominator := if 0 ≤ power then 1 else powerOfTwo power.natAbs
  if 0 ≤ tens then (numerator, denominator * powerOfTen tens.natAbs)
  else (numerator * powerOfTen tens.natAbs, denominator)

/-- Whether the decimal `count · 10 ^ tens` reads back as the given value. -/
def readsBack (value : Format.Finite) (tens : Int) (count : Nat) : Bool :=
  -- All bounds are measured in quarters of the unit in the last place.
  let below := 4 * value.significand - (if value.narrowBelow then 1 else 2)
  let above := 4 * value.significand + 2
  let (lowTop, lowBottom) := scaled below (value.exponent - 2) tens
  let (highTop, highBottom) := scaled above (value.exponent - 2) tens
  if value.significand % 2 = 0 then
    lowTop ≤ count * lowBottom && count * highBottom ≤ highTop
  else lowTop < count * lowBottom && count * highBottom < highTop

/-- The nearest multiple of `10 ^ tens` that reads back as the given value. -/
def onGrid? (value : Format.Finite) (tens : Int) : Option Nat :=
  let (top, bottom) := scaled value.significand value.exponent tens
  let lower := top / bottom
  let upper := lower + 1
  let upperIsNearer := (2 * lower + 1) * bottom ≤ 2 * top
  let lowerReads := readsBack value tens lower
  let upperReads := readsBack value tens upper
  if upperReads && (upperIsNearer || !lowerReads) then some upper
  else if lowerReads then some lower
  else none

/-- How many digits the integer part of `top / bottom` has; a value below one has
a count of zero or less. -/
def wholeDigits (top bottom : Nat) : Int :=
  if bottom ≤ top then ((Nat.toDigits 10 (top / bottom)).length : Int)
  else
    -- The count of leading zeros after the point, found from the inverse.
    let zeros := (Nat.toDigits 10 ((bottom - 1) / top)).length
    1 - (zeros : Int)

def search (value : Format.Finite) (whole : Int) : Nat → Nat → Digits
  | _, 0 => ⟨value.significand, 0⟩
  | count, fuel + 1 =>
      match onGrid? value (whole - count) with
      | some digits => ⟨digits, whole - count⟩
      | none => search value whole (count + 1) fuel

/-- Moves trailing zeros from the digits into the exponent. -/
def stripZeros : Nat → Digits → Digits
  | 0, digits => digits
  | fuel + 1, ⟨digits, exponent⟩ =>
      if digits ≠ 0 ∧ digits % 10 = 0 then stripZeros fuel ⟨digits / 10, exponent + 1⟩
      else ⟨digits, exponent⟩

/-- The fewest digits that read back as a value other than zero. -/
def shortest (value : Format.Finite) : Digits :=
  let (top, bottom) := scaled value.significand value.exponent 0
  stripZeros 20 (search value (wholeDigits top bottom) 1 17)

/-- How a number is set out as text. -/
structure Layout where
  /-- The magnitudes `10 ^ n` from which a number is written with a decimal point
  alone: the lower end is included, the upper is not.  Beyond them an exponent is
  written. -/
  positional : Option (Int × Int)
  /-- Whether a whole number is written with a point and a zero after it. -/
  pointZero : Bool
deriving DecidableEq, Repr

namespace Layout

/-- Digits with a decimal point and no exponent. -/
def point (layout : Layout) (digits : List Char) (exponent : Int) : List Char :=
  if 0 ≤ exponent then
    digits ++ List.replicate exponent.natAbs '0' ++ (if layout.pointZero then ['.', '0'] else [])
  else
    let places := exponent.natAbs
    let padded := List.replicate (places + 1 - digits.length) '0' ++ digits
    padded.take (padded.length - places) ++ ['.'] ++ padded.drop (padded.length - places)

/-- Digits with one digit before the point and an exponent. -/
def scientific (digits : List Char) (power : Int) : List Char :=
  let mantissa := match digits with
    | [] => ['0']
    | [single] => [single]
    | first :: rest => first :: '.' :: rest
  mantissa ++ ['e'] ++ (toString power).toList

def write (layout : Layout) : Format.Value → String
  | .notANumber => "NaN"
  | .infinite negative => if negative then "-inf" else "inf"
  | .finite value =>
      let magnitude :=
        if value.significand = 0 then layout.point ['0'] 0
        else
          let found := shortest value
          let digits := Nat.toDigits 10 found.digits
          let power := found.exponent + digits.length - 1
          let isPositional := match layout.positional with
            | none => true
            | some (low, high) => low ≤ power && power < high
          if isPositional then layout.point digits found.exponent else scientific digits power
      String.ofList (if value.negative then '-' :: magnitude else magnitude)

end Layout

end LdpScore.Decimal
