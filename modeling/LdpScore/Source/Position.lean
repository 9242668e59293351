/-!
# Positions and locations in a source text

A `Position` is what a reader knows about its place in a text: how many
characters lie before it, how many of them are line breaks, and where the
current line began.  A `Location` is a stretch of the text together with the
line on which it starts.  Offsets count characters and lines count from zero; a
human reader sees both counted from one.
-/

namespace LdpScore

/-- A place in a source text. -/
structure Position where
  /-- How many characters lie before this place. -/
  offset : Nat := 0
  /-- How many line breaks lie before this place. -/
  line : Nat := 0
  /-- The offset just after the last of those line breaks. -/
  lineStart : Nat := 0
deriving DecidableEq, Repr, Inhabited

namespace Position

/-- The place just after one more character. -/
def next (position : Position) (character : Char) : Position :=
  if character = '\n' then
    { offset := position.offset + 1, line := position.line + 1,
      lineStart := position.offset + 1 }
  else { position with offset := position.offset + 1 }

/-- The place just after some more characters. -/
def skip (position : Position) (characters : List Char) : Position :=
  characters.foldl next position

@[simp]
theorem next_offset (position : Position) (character : Char) :
    (position.next character).offset = position.offset + 1 := by
  unfold next
  split <;> rfl

@[simp]
theorem skip_nil (position : Position) : position.skip [] = position := rfl

@[simp]
theorem skip_cons (position : Position) (first : Char) (rest : List Char) :
    position.skip (first :: rest) = (position.next first).skip rest := rfl

theorem skip_append (position : Position) (front back : List Char) :
    position.skip (front ++ back) = (position.skip front).skip back := by
  simp [skip, List.foldl_append]

/-- Passing over some characters moves the offset by their number. -/
theorem skip_offset (position : Position) (characters : List Char) :
    (position.skip characters).offset = position.offset + characters.length := by
  induction characters generalizing position with
  | nil => simp
  | cons first rest ih =>
      rw [skip_cons, ih, next_offset, List.length_cons]
      omega

end Position

/-- A stretch of a source file and the line on which it starts. -/
structure Location where
  file : String
  start : Nat
  /-- The offset just after the last character. -/
  stop : Nat
  line : Nat
  /-- The offset of the first character within its line. -/
  lineOffset : Nat
deriving DecidableEq, Repr, Inhabited

namespace Location

/-- The location of what stands in no file at all. -/
def nowhere : Location := ⟨"", 0, 0, 0, 0⟩

/-- The stretch that begins at `position` and ends before the offset `stop`. -/
def between (file : String) (position : Position) (stop : Nat) : Location where
  file := file
  start := position.offset
  stop := stop
  line := position.line
  lineOffset := position.offset - position.lineStart

/-- The stretch from the start of `first` to whichever of the two ends later. -/
def upTo (first last : Location) : Location :=
  { first with stop := max first.stop last.stop }

/-- The place where a location starts, as a reader counts it. -/
def describe (location : Location) : String :=
  s!"at {location.file}:{location.line + 1}:{location.lineOffset + 1}"

end Location

end LdpScore
