/-!
# The clock of an instrument

Music is placed in time by a cursor that moves forward with every note and rest.
Within a measure the cursor may go back, so that several voices share the
measure; a barline ends the measure at the furthest time that any of them has
reached.

The clock works on any kind of time that can be added, subtracted and compared.
-/

namespace LdpScore

/-- Three marks in time. -/
structure Clock (Time : Type) where
  cursor : Time
  measureStart : Time
  /-- The furthest time reached in the measure. -/
  measureEnd : Time
deriving DecidableEq, Repr

namespace Clock

variable {Time : Type}

def initial [OfNat Time 0] : Clock Time := ⟨0, 0, 0⟩

def advance [Add Time] [LT Time] [DecidableLT Time] (clock : Clock Time) (duration : Time) :
    Clock Time :=
  let cursor := clock.cursor + duration
  { clock with
    cursor := cursor
    measureEnd := if clock.measureEnd < cursor then cursor else clock.measureEnd }

/-- Moves back by a duration, but not before the measure. -/
def goBack [Sub Time] [LT Time] [DecidableLT Time] (clock : Clock Time) (duration : Time) :
    Clock Time :=
  let cursor := clock.cursor - duration
  { clock with cursor := if clock.measureStart < cursor then cursor else clock.measureStart }

/-- Moves back to the start of the measure. -/
def goToMeasureStart (clock : Clock Time) : Clock Time :=
  { clock with cursor := clock.measureStart }

/-- Moves forward to the furthest time reached in the measure. -/
def goToMeasureEnd (clock : Clock Time) : Clock Time :=
  { clock with cursor := clock.measureEnd }

/-- Ends the measure at the furthest time reached in it. -/
def endMeasure (clock : Clock Time) : Clock Time :=
  { clock with cursor := clock.measureEnd, measureStart := clock.measureEnd }

end Clock

end LdpScore
