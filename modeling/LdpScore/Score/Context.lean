import LdpScore.Score.Clock
import LdpScore.Score.Content

/-!
# The context of an analysis

What an element means depends on those before it: the version of the score, the
current staff and voice, the clefs and key in force, the time, the last note.
`Context` holds all that is carried from element to element.  Each instrument
starts afresh, apart from the score version and how tuplets are shown.
-/

namespace LdpScore

/-- What is carried from element to element. -/
structure Context where
  /-- The version of the score, as `100 * major + minor`. -/
  version : Nat := 106
  /-- The current staff, counted from zero. -/
  staff : Nat := 0
  staves : Nat := 1
  voice : Int := 1
  /-- The clefs that were set, the last one first, with their staves. -/
  clefs : List (Nat × Clef) := []
  key : Option Key := none
  time : Option (Nat × Nat) := none
  instruments : Nat := 0
  clock : Clock Float := .initial
  lastNote : Option Handle := none
  tupletBracket : YesNo := .default
  tupletNumber : NumberDisplay := .actual
  /-- The placements of lyrics that were set, the last one first, with their
  lines. -/
  lyricPlacements : List (Int × Placement) := []
deriving DecidableEq, Repr

namespace Context

/-- The version of a score that does not give a valid one. -/
def defaultVersion : Nat := 106

/-- Forgets what belongs to the instrument before. -/
def startInstrument (context : Context) : Context :=
  { context with
    staff := 0
    staves := 1
    voice := 1
    clefs := []
    key := none
    time := none
    instruments := context.instruments + 1
    clock := .initial
    lastNote := none
    lyricPlacements := [] }

def currentInstrument? (context : Context) : Option Nat :=
  if context.instruments = 0 then none else some (context.instruments - 1)

def clef? (context : Context) (staff : Nat) : Option Clef :=
  context.clefs.lookup staff

def setClef (context : Context) (staff : Nat) (clef : Clef) : Context :=
  { context with clefs := (staff, clef) :: context.clefs }

/-- The key in force on a staff of the instrument. -/
def keyOn? (context : Context) (staff : Nat) : Option Key :=
  if staff < context.staves then context.key else none

/-- The placement of the lyrics of a line: below, unless it was set. -/
def lyricPlacement (context : Context) (line : Int) : Placement :=
  (context.lyricPlacements.lookup line).getD .below

/-- Sets the placement of the lyrics of a line. -/
def setLyricPlacement (context : Context) (line : Int) (placement : Placement) : Context :=
  { context with lyricPlacements := (line, placement) :: context.lyricPlacements }

def onset (context : Context) : Float :=
  context.clock.cursor

end Context

end LdpScore
