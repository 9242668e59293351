/-!
# Beam levels

A beam has up to six levels, one for each halving of the note value.  At each
level a note begins, continues or ends the beam there, or carries a hook.
-/

namespace LdpScore

/-- What happens to a beam at one level of one note. -/
inductive BeamMark where
  | none
  | start
  | continue
  | finish
  | forward
  | backward
deriving DecidableEq, Repr, Inhabited

def maxBeamLevels : Nat := 6

/-- The marks of one note at every level. -/
abbrev BeamLevels := Vector BeamMark maxBeamLevels

namespace BeamMark

def ofChar? : Char → Option BeamMark
  | '+' => some .start
  | '=' => some .continue
  | '-' => some .finish
  | 'f' => some .forward
  | 'b' => some .backward
  | _ => Option.none

/-- The character that writes a mark; no mark has none. -/
def char? : BeamMark → Option Char
  | .none => Option.none
  | .start => some '+'
  | .continue => some '='
  | .finish => some '-'
  | .forward => some 'f'
  | .backward => some 'b'

end BeamMark

namespace BeamLevels

def empty : BeamLevels := Vector.replicate maxBeamLevels .none

/-- The given marks at the first levels and none at the rest. -/
def ofList (marks : List BeamMark) : BeamLevels :=
  Vector.ofFn fun level => marks.getD level .none

/-- Reads one to six characters, one for each level from the first. -/
def ofText? (text : List Char) : Option BeamLevels :=
  if text.isEmpty || maxBeamLevels < text.length then none
  else (text.mapM BeamMark.ofChar?).map ofList

def main (levels : BeamLevels) : BeamMark :=
  levels.get ⟨0, by decide⟩

/-- Whether only the main level has a mark. -/
def isMainOnly (levels : BeamLevels) : Bool :=
  levels.toList.tail.all (· == .none)

end BeamLevels

end LdpScore
