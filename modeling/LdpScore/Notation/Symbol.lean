/-!
# Symbols and their names

The closed vocabularies of LDP: clefs, keys, barlines and the like.  Each has a
function `ofName?` that reads the names by which LDP text refers to its members,
and those that appear in listings have a function `label`.
-/

namespace LdpScore

/-- Clefs.  The octave clefs sound higher or lower than written. -/
inductive Clef where
  | g2
  | f4
  | f3
  | f5
  | c1
  | c2
  | c3
  | c4
  | c5
  | g1
  | percussion
  | g2OctaveUp
  | g2OctaveDown
  | f4OctaveUp
  | f4OctaveDown
  | g2TwoOctavesUp
  | g2TwoOctavesDown
  | f4TwoOctavesUp
  | f4TwoOctavesDown
deriving DecidableEq, Repr, Inhabited

namespace Clef

def ofName? : String → Option Clef
  | "G" | "trebble" => some .g2
  | "F4" | "F" | "bass" => some .f4
  | "F3" => some .f3
  | "F5" => some .f5
  | "C1" => some .c1
  | "C2" => some .c2
  | "C3" => some .c3
  | "C4" => some .c4
  | "C5" => some .c5
  | "G1" => some .g1
  | "percussion" => some .percussion
  | "8_G" => some .g2OctaveUp
  | "G_8" => some .g2OctaveDown
  | "8_F4" => some .f4OctaveUp
  | "F4_8" => some .f4OctaveDown
  | "15_G" => some .g2TwoOctavesUp
  | "G_15" => some .g2TwoOctavesDown
  | "15_F4" => some .f4TwoOctavesUp
  | "F4_15" => some .f4TwoOctavesDown
  | _ => none

def label : Clef → String
  | .g2 => "G2"
  | .f4 => "F4"
  | .f3 => "F3"
  | .f5 => "F5"
  | .c1 => "C1"
  | .c2 => "C2"
  | .c3 => "C3"
  | .c4 => "C4"
  | .c5 => "C5"
  | .g1 => "G1"
  | .percussion => "Percussion"
  | .g2OctaveUp => "G2OctaveUp"
  | .g2OctaveDown => "G2OctaveDown"
  | .f4OctaveUp => "F4OctaveUp"
  | .f4OctaveDown => "F4OctaveDown"
  | .g2TwoOctavesUp => "G2TwoOctavesUp"
  | .g2TwoOctavesDown => "G2TwoOctavesDown"
  | .f4TwoOctavesUp => "F4TwoOctavesUp"
  | .f4TwoOctavesDown => "F4TwoOctavesDown"

end Clef

/-- Key signatures, major and minor. -/
inductive Key where
  | cMajor
  | gMajor
  | dMajor
  | aMajor
  | eMajor
  | bMajor
  | fSharpMajor
  | cSharpMajor
  | cFlatMajor
  | gFlatMajor
  | dFlatMajor
  | aFlatMajor
  | eFlatMajor
  | bFlatMajor
  | fMajor
  | aMinor
  | eMinor
  | bMinor
  | fSharpMinor
  | cSharpMinor
  | gSharpMinor
  | dSharpMinor
  | aSharpMinor
  | aFlatMinor
  | eFlatMinor
  | bFlatMinor
  | fMinor
  | cMinor
  | gMinor
  | dMinor
deriving DecidableEq, Repr, Inhabited

namespace Key

/-- The key with a given name: capitals for major, small letters for minor. -/
def ofName? : String → Option Key
  | "C" => some .cMajor
  | "G" => some .gMajor
  | "D" => some .dMajor
  | "A" => some .aMajor
  | "E" => some .eMajor
  | "B" => some .bMajor
  | "F+" => some .fSharpMajor
  | "C+" => some .cSharpMajor
  | "C-" => some .cFlatMajor
  | "G-" => some .gFlatMajor
  | "D-" => some .dFlatMajor
  | "A-" => some .aFlatMajor
  | "E-" => some .eFlatMajor
  | "B-" => some .bFlatMajor
  | "F" => some .fMajor
  | "a" => some .aMinor
  | "e" => some .eMinor
  | "b" => some .bMinor
  | "f+" => some .fSharpMinor
  | "c+" => some .cSharpMinor
  | "g+" => some .gSharpMinor
  | "d+" => some .dSharpMinor
  | "a+" => some .aSharpMinor
  | "a-" => some .aFlatMinor
  | "e-" => some .eFlatMinor
  | "b-" => some .bFlatMinor
  | "f" => some .fMinor
  | "c" => some .cMinor
  | "g" => some .gMinor
  | "d" => some .dMinor
  | _ => none

def label : Key → String
  | .cMajor => "C"
  | .gMajor => "G"
  | .dMajor => "D"
  | .aMajor => "A"
  | .eMajor => "E"
  | .bMajor => "B"
  | .fSharpMajor => "FSharp"
  | .cSharpMajor => "CSharp"
  | .cFlatMajor => "CFlat"
  | .gFlatMajor => "GFlat"
  | .dFlatMajor => "DFlat"
  | .aFlatMajor => "AFlat"
  | .eFlatMajor => "EFlat"
  | .bFlatMajor => "BFlat"
  | .fMajor => "F"
  | .aMinor => "AMinor"
  | .eMinor => "EMinor"
  | .bMinor => "BMinor"
  | .fSharpMinor => "FSharpMinor"
  | .cSharpMinor => "CSharpMinor"
  | .gSharpMinor => "GSharpMinor"
  | .dSharpMinor => "DSharpMinor"
  | .aSharpMinor => "ASharpMinor"
  | .aFlatMinor => "AFlatMinor"
  | .eFlatMinor => "EFlatMinor"
  | .bFlatMinor => "BFlatMinor"
  | .fMinor => "FMinor"
  | .cMinor => "CMinor"
  | .gMinor => "GMinor"
  | .dMinor => "DMinor"

/-- How many sharps a key has; flats count as negative. -/
def fifths : Key → Int
  | .cMajor | .aMinor => 0
  | .gMajor | .eMinor => 1
  | .dMajor | .bMinor => 2
  | .aMajor | .fSharpMinor => 3
  | .eMajor | .cSharpMinor => 4
  | .bMajor | .gSharpMinor => 5
  | .fSharpMajor | .dSharpMinor => 6
  | .cSharpMajor | .aSharpMinor => 7
  | .fMajor | .dMinor => -1
  | .bFlatMajor | .gMinor => -2
  | .eFlatMajor | .cMinor => -3
  | .aFlatMajor | .fMinor => -4
  | .dFlatMajor | .bFlatMinor => -5
  | .gFlatMajor | .eFlatMinor => -6
  | .cFlatMajor | .aFlatMinor => -7

def isMajor : Key → Bool
  | .cMajor | .gMajor | .dMajor | .aMajor | .eMajor | .bMajor | .fSharpMajor | .cSharpMajor
  | .cFlatMajor | .gFlatMajor | .dFlatMajor | .aFlatMajor | .eFlatMajor | .bFlatMajor
  | .fMajor => true
  | _ => false

end Key

/-- Barlines. -/
inductive BarlineStyle where
  | simple
  | double
  | start
  | finish
  | endRepetition
  | startRepetition
  | doubleRepetition
deriving DecidableEq, Repr, Inhabited

namespace BarlineStyle

def ofName? : String → Option BarlineStyle
  | "simple" => some .simple
  | "double" => some .double
  | "start" => some .start
  | "end" => some .finish
  | "endRepetition" => some .endRepetition
  | "startRepetition" => some .startRepetition
  | "doubleRepetition" => some .doubleRepetition
  | _ => none

/-- How often the music before a barline is repeated. -/
def repeats : BarlineStyle → Nat
  | .endRepetition | .doubleRepetition => 1
  | _ => 0

end BarlineStyle

/-- How a time signature is shown. -/
inductive TimeStyle where
  | normal
  | common
  | cut
  | singleNumber
deriving DecidableEq, Repr, Inhabited

/-- The style of time signature with a given name. -/
def TimeStyle.ofName? : String → Option TimeStyle
  | "normal" => some .normal
  | "common" => some .common
  | "cut" => some .cut
  | "single-number" => some .singleNumber
  | _ => none

/-- The size of a symbol. -/
inductive SymbolSize where
  | cue
  | full
  | large
deriving DecidableEq, Repr, Inhabited

def SymbolSize.ofName? : String → Option SymbolSize
  | "cue" => some .cue
  | "full" => some .full
  | "large" => some .large
  | _ => none

/-- The direction of a stem. -/
inductive Stem where
  | default
  | up
  | down
deriving DecidableEq, Repr, Inhabited

/-- The direction of stem with a given name. -/
def Stem.ofName? : String → Option Stem
  | "default" => some .default
  | "up" => some .up
  | "down" => some .down
  | _ => none

/-- On which side of the staff a mark stands. -/
inductive Placement where
  | default
  | above
  | below
deriving DecidableEq, Repr, Inhabited

def Placement.ofName? : String → Option Placement
  | "default" => some .default
  | "above" => some .above
  | "below" => some .below
  | _ => none

/-- The alignment of a text on the page. -/
inductive Alignment where
  | left
  | center
  | right
deriving DecidableEq, Repr, Inhabited

def Alignment.ofName? : String → Option Alignment
  | "left" => some .left
  | "center" => some .center
  | "right" => some .right
  | _ => none

/-- A choice that may be left open. -/
inductive YesNo where
  | default
  | yes
  | no
deriving DecidableEq, Repr, Inhabited

/-- Which counts of a tuplet are shown. -/
inductive NumberDisplay where
  | actual
  | both
  | none
deriving DecidableEq, Repr, Inhabited

/-- The display of counts with a given name. -/
def NumberDisplay.ofName? : String → Option NumberDisplay
  | "actual" => some .actual
  | "both" => some .both
  | "none" => some .none
  | _ => Option.none

/-- Fermatas. -/
inductive FermataSymbol where
  | normal
  | short
  | long
  | veryShort
  | veryLong
  | henzeShort
  | henzeLong
deriving DecidableEq, Repr, Inhabited

def FermataSymbol.ofName? : String → Option FermataSymbol
  | "normal" => some .normal
  | "short" => some .short
  | "long" => some .long
  | "very-short" => some .veryShort
  | "very-long" => some .veryLong
  | "henze-short" => some .henzeShort
  | "henze-long" => some .henzeLong
  | _ => none

def dynamicsMarks : List String :=
  ["p", "m", "f", "r", "s", "z", "n", "pppppp", "ppppp", "pppp", "ppp", "pp", "mp", "mf", "pf",
   "ff", "fff", "ffff", "fffff", "ffffff", "fp", "fz", "sf", "sfp", "sfpp", "sfz", "sfzp", "sffz",
   "rf", "rfz"]

end LdpScore
