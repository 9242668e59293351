import LdpScore.Source.Position

/-!
# Places as an editor shows them

An editor counts lines and columns from one, and it knows more line breaks than
LDP text does: among others a carriage return, alone or before a line feed.
-/

namespace LdpScore

/-- A place in a file as an editor shows it. -/
structure Place where
  file : String
  /-- The line, counted from one. -/
  line : Nat
  /-- The column, counted from one. -/
  column : Nat
deriving DecidableEq, Repr

namespace Place

def isLineBreak (character : Char) : Bool :=
  character == '\r' || character == '\n' || character == '\x0b' || character == '\x0c' ||
    character == '\u0085' || character == '\u2028' || character == '\u2029'

/-- Whether a character ends a line when `rest` follows it.  A carriage return
before a line feed leaves that to the line feed. -/
def endsLine (character : Char) (rest : List Char) : Bool :=
  isLineBreak character && !(character == '\r' && rest.head? == some '\n')

/-- The line and column after some more characters, at most as many as `offset`
says. -/
def lineColumn (line column : Nat) : Nat → List Char → Nat × Nat
  | 0, _ => (line, column)
  | _, [] => (line, column)
  | offset + 1, first :: rest =>
      if endsLine first rest then lineColumn (line + 1) 1 offset rest
      else lineColumn line (column + 1) offset rest

/-- The start of a location in a source text; nothing for what stands in no file. -/
def ofLocation? (source : String) (location : Location) : Option Place :=
  if location.file.isEmpty then none
  else
    let (line, column) := lineColumn 1 1 location.start source.toList
    some ⟨location.file, line, column⟩

/-- A place as `file:line:column`. -/
def describe (place : Place) : String :=
  s!"{place.file}:{place.line}:{place.column}"

end Place

end LdpScore
