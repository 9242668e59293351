import LdpScore.Relation.Beam
import LdpScore.Relation.Slur
import LdpScore.Relation.Tie
import LdpScore.Relation.Tuplet

/-!
# Relations that are still open

`Pending` gathers everything that waits for a later note or rest.  When an
instrument or the whole text ends, `Pending.clear` gives all of it up.
-/

namespace LdpScore

/-- Everything that waits for a later note or rest. -/
structure Pending where
  ties : List TiePoint := []
  /-- The legacy tie. -/
  legacyTie : Option LegacyTie := none
  slurs : List SlurPoint := []
  beams : List BeamPoint := []
  /-- The notes and rests of the legacy beam. -/
  legacyBeam : List BeamPoint := []
  tuplets : List TupletPoint := []
deriving DecidableEq, Repr

namespace Pending

def reportAll (pending : Pending) (draft : Draft) : Draft :=
  let draft := Pairing.clear .tie pending.ties draft
  let draft := LegacyTie.clear pending.legacyTie draft
  let draft := Pairing.clear .slur pending.slurs draft
  let draft := Pairing.clear .beam pending.beams draft
  let draft := LegacyBeam.clear pending.legacyBeam draft
  Pairing.clear .tuplet pending.tuplets draft

def clear (pending : Pending) (draft : Draft) : Pending × Draft :=
  ({}, pending.reportAll draft)

end Pending

end LdpScore
