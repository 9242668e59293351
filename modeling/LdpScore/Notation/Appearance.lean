import LdpScore.Text.Hexadecimal

/-!
# Appearance

Colors, curves and the properties that every visible object shares.
-/

namespace LdpScore

/-- A color with its opacity. -/
structure Color where
  red : Nat
  green : Nat
  blue : Nat
  /-- Opacity, 255 for opaque. -/
  alpha : Nat
deriving DecidableEq, Repr, Inhabited

namespace Color

/-- A component of two characters: two hexadecimal digits, or a plus sign and one. -/
def component? (first second : Char) : Option Nat :=
  if first = '+' then Text.hexDigit? second
  else match Text.hexDigit? first, Text.hexDigit? second with
    | some high, some low => some (16 * high + low)
    | _, _ => none

/-- Reads `#rrggbb` or `#rrggbbaa`. -/
def ofText? : List Char → Option Color
  | ['#', r₁, r₂, g₁, g₂, b₁, b₂] => do
      some ⟨← component? r₁ r₂, ← component? g₁ g₂, ← component? b₁ b₂, 255⟩
  | ['#', r₁, r₂, g₁, g₂, b₁, b₂, a₁, a₂] => do
      some ⟨← component? r₁ r₂, ← component? g₁ g₂, ← component? b₁ b₂, ← component? a₁ a₂⟩
  | _ => none

end Color

/-- A point of the page. -/
structure Point where
  x : Float32 := 0
  y : Float32 := 0
deriving DecidableEq, Repr, Inhabited

/-- A curve with its ends and control points. -/
structure Bezier where
  start : Point := {}
  finish : Point := {}
  startControl : Point := {}
  finishControl : Point := {}
deriving DecidableEq, Repr, Inhabited

/-- What every visible object has. -/
structure Appearance where
  /-- The staff, counted from zero. -/
  staff : Nat := 0
  isVisible : Bool := true
  /-- Its color, if it is not the usual one. -/
  color : Option Color := none
  dx : Float32 := 0
  dy : Float32 := 0
deriving DecidableEq, Repr, Inhabited

end LdpScore
