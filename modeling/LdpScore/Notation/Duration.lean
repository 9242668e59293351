/-!
# Durations

Durations are measured in time units; a quarter note lasts 64 of them.  A note
type may be lengthened by dots and modified by tuplets.
-/

namespace LdpScore

/-- The types of note, from the longest. -/
inductive NoteType where
  | longa
  | breve
  | whole
  | half
  | quarter
  | eighth
  | sixteenth
  | thirtySecond
  | sixtyFourth
  | hundredTwentyEighth
  | twoHundredFiftySixth
deriving DecidableEq, Repr, Inhabited

namespace NoteType

def ofLetter? : Char → Option NoteType
  | 'l' => some .longa
  | 'b' => some .breve
  | 'w' => some .whole
  | 'h' => some .half
  | 'q' => some .quarter
  | 'e' => some .eighth
  | 's' => some .sixteenth
  | 't' => some .thirtySecond
  | 'i' => some .sixtyFourth
  | 'o' => some .hundredTwentyEighth
  | 'f' => some .twoHundredFiftySixth
  | _ => none

def letter : NoteType → Char
  | .longa => 'l'
  | .breve => 'b'
  | .whole => 'w'
  | .half => 'h'
  | .quarter => 'q'
  | .eighth => 'e'
  | .sixteenth => 's'
  | .thirtySecond => 't'
  | .sixtyFourth => 'i'
  | .hundredTwentyEighth => 'o'
  | .twoHundredFiftySixth => 'f'

/-- How many time units an undotted note lasts. -/
def units : NoteType → Float
  | .longa => 1024
  | .breve => 512
  | .whole => 256
  | .half => 128
  | .quarter => 64
  | .eighth => 32
  | .sixteenth => 16
  | .thirtySecond => 8
  | .sixtyFourth => 4
  | .hundredTwentyEighth => 2
  | .twoHundredFiftySixth => 1

/-- How deep notes of a type are beamed: eighths at level 0.  Notes of a quarter
and longer have no beams. -/
def beamLevel? : NoteType → Option Nat
  | .eighth => some 0
  | .sixteenth => some 1
  | .thirtySecond => some 2
  | .sixtyFourth => some 3
  | .hundredTwentyEighth => some 4
  | .twoHundredFiftySixth => some 5
  | _ => none

end NoteType

/-- A note type with dots. -/
structure NoteValue where
  type : NoteType
  /-- How many dots follow it, at most 255. -/
  dots : Nat := 0
deriving DecidableEq, Repr, Inhabited

namespace NoteValue

/-- Adds to `total` one half of `last` for the next dot, and so on. -/
def addDots : Nat → Float → Float → Float
  | 0, _, total => total
  | dots + 1, last, total => addDots dots (last / 2) (total + last / 2)

/-- How many time units a dotted note lasts: each dot adds half of what was added
before it. -/
def units (value : NoteValue) : Float :=
  addDots value.dots value.type.units value.type.units

/-- Reads a note letter followed by at most 255 dots. -/
def ofText? : List Char → Option NoteValue
  | [] => none
  | letter :: dots =>
      match NoteType.ofLetter? letter with
      | some type =>
          if dots.all (· == '.') && dots.length < 256 then some ⟨type, dots.length⟩ else none
      | none => none

def spelling (value : NoteValue) : List Char :=
  value.type.letter :: List.replicate value.dots '.'

end NoteValue

/-- The greatest count in a time modification. -/
def maxCount : Nat := 0xffffffff

/-- In a tuplet, `actual` notes take the time of `normal` ones. -/
structure TimeModification where
  /-- How many notes would normally take the time. -/
  normal : Nat
  actual : Nat
deriving DecidableEq, Repr, Inhabited

namespace TimeModification

/-- The product of two counts, limited to the greatest count. -/
def multiply (left right : Nat) : Nat :=
  min (left * right) maxCount

/-- The modification of a note that is inside two tuplets. -/
def combine (inner outer : TimeModification) : TimeModification :=
  ⟨multiply inner.normal outer.normal, multiply inner.actual outer.actual⟩

/-- The factor that a modification applies to durations; a count of zero means
that there is no modification. -/
def ratio (modification : TimeModification) : Float :=
  if modification.actual = 0 ∨ modification.normal = 0 then 1
  else modification.normal.toFloat / modification.actual.toFloat

end TimeModification

end LdpScore
