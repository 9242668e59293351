import LdpScore.Relation.Autobeam
import LdpScore.Relation.Pairing

/-!
# Beams

Numbered beams are paired by their correlation numbers.  If none of their marks
is below the main level, all marks are computed from the note values.  A legacy
beam takes every note and rest from its start to its end, and its marks are
always computed.
-/

namespace LdpScore

/-- A descriptor of a beam. -/
structure BeamPoint where
  number : Int
  levels : BeamLevels
  noteRest : Handle
  location : Location
deriving DecidableEq, Repr

/-- A beam starts or stops where its main level does. -/
def BeamMark.phase : BeamMark → Phase
  | .start => .start
  | .finish => .stop
  | _ => .continue

instance : Descriptor BeamPoint where
  endpoint point := ⟨point.number, point.levels.main.phase, point.noteRest, point.location⟩

namespace Beam

def create (chain : List BeamPoint) (draft : Draft) : Handle × Draft :=
  let (beam, draft) := draft.create (.beam [])
  (beam, chain.foldl
    (fun draft point => draft.includeMember beam point.noteRest (.beam point.levels)) draft)

/-- Creates the beam of a chain and computes its marks, if that is asked for. -/
def linkChain (chain : List BeamPoint) (isAutomatic : Bool) (draft : Draft) : Draft :=
  let (beam, draft) := create chain draft
  if isAutomatic then draft.mapModel fun model => model.autobeam beam else draft

/-- Offers a descriptor to the numbered beams that are waiting. -/
def add (pending : List BeamPoint) (point : BeamPoint) (draft : Draft) : List BeamPoint × Draft :=
  let (chain, rest, draft) := Pairing.add .beam pending point draft
  match chain with
  | some chain => (rest, linkChain chain (chain.all fun point => point.levels.isMainOnly) draft)
  | none => (rest, draft)

end Beam

namespace LegacyBeam

/-- Ends the legacy beam that is open. -/
def close (pending : List BeamPoint) (point : BeamPoint) (draft : Draft) : List BeamPoint × Draft :=
  ([], Beam.linkChain (pending ++ [point]) true draft)

/-- Gives up the legacy beam that is open. -/
def clear (pending : List BeamPoint) (draft : Draft) : Draft :=
  match pending with
  | [] => draft
  | start :: _ => draft.report start.location .unmatchedLegacyBeam

end LegacyBeam

end LdpScore
