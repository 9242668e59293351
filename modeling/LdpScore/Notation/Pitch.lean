/-!
# Pitch names

A pitch is written as accidentals, a step letter and an octave digit, such as
`c4`, `+f5` or `=-b3`.
-/

namespace LdpScore

/-- The steps of the scale. -/
inductive Step where
  | c | d | e | f | g | a | b
deriving DecidableEq, Repr, Inhabited

namespace Step

def ofLetter? : Char → Option Step
  | 'c' => some .c
  | 'd' => some .d
  | 'e' => some .e
  | 'f' => some .f
  | 'g' => some .g
  | 'a' => some .a
  | 'b' => some .b
  | _ => none

def letter : Step → Char
  | .c => 'c'
  | .d => 'd'
  | .e => 'e'
  | .f => 'f'
  | .g => 'g'
  | .a => 'a'
  | .b => 'b'

def label : Step → String
  | .c => "C"
  | .d => "D"
  | .e => "E"
  | .f => "F"
  | .g => "G"
  | .a => "A"
  | .b => "B"

end Step

/-- The accidentals of a pitch. -/
inductive Accidentals where
  | none
  | sharp
  | flat
  | natural
  | doubleSharp
  | sharpSharp
  | flatFlat
  | naturalFlat
  | naturalSharp
deriving DecidableEq, Repr, Inhabited

namespace Accidentals

/-- The accidentals that stand before a step letter. -/
def ofPrefix? : List Char → Option Accidentals
  | [] => some .none
  | ['+'] => some .sharp
  | ['-'] => some .flat
  | ['='] => some .natural
  | ['x'] => some .doubleSharp
  | ['+', '+'] => some .sharpSharp
  | ['-', '-'] => some .flatFlat
  | ['=', '-'] => some .naturalFlat
  | ['=', '+'] => some .naturalSharp
  | _ => Option.none

/-- How accidentals are written before a step letter. -/
def spelling : Accidentals → List Char
  | .none => []
  | .sharp => ['+']
  | .flat => ['-']
  | .natural => ['=']
  | .doubleSharp => ['x']
  | .sharpSharp => ['+', '+']
  | .flatFlat => ['-', '-']
  | .naturalFlat => ['=', '-']
  | .naturalSharp => ['=', '+']

def label : Accidentals → String
  | .none => "None"
  | .sharp => "Sharp"
  | .flat => "Flat"
  | .natural => "Natural"
  | .doubleSharp => "DoubleSharp"
  | .sharpSharp => "SharpSharp"
  | .flatFlat => "FlatFlat"
  | .naturalFlat => "NaturalFlat"
  | .naturalSharp => "NaturalSharp"

end Accidentals

/-- A pitch. -/
structure Pitch where
  step : Step
  /-- The octave, one decimal digit. -/
  octave : Nat
  accidentals : Accidentals
deriving DecidableEq, Repr, Inhabited

namespace Pitch

/-- Reads a pitch name from its end: octave, step, accidentals. -/
def ofText? (text : List Char) : Option Pitch :=
  match text.reverse with
  | octave :: letter :: before =>
      if octave.isDigit then
        match Step.ofLetter? letter, Accidentals.ofPrefix? before.reverse with
        | some step, some accidentals => some ⟨step, octave.toNat - '0'.toNat, accidentals⟩
        | _, _ => none
      else none
  | _ => none

/-- Middle C, the pitch of a note whose pitch cannot be read. -/
def middleC : Pitch := ⟨.c, 4, .none⟩

end Pitch

end LdpScore
