import LdpScore.Relation.Pairing

/-!
# Slurs

A slur joins the note where it starts and the note where it stops.  The points
where it continues only keep it waiting.
-/

namespace LdpScore

/-- A descriptor of a slur. -/
structure SlurPoint where
  number : Int
  phase : Phase
  bezier : Option Bezier := none
  color : Option Color := none
  note : Handle
  location : Location
deriving DecidableEq, Repr

instance : Descriptor SlurPoint where
  endpoint point := ⟨point.number, point.phase, point.note, point.location⟩

namespace Slur

/-- Makes the note of a descriptor a member of a slur, unless the slur only
continues there. -/
def includePoint (slur : Handle) (draft : Draft) (point : SlurPoint) : Draft :=
  match point.phase with
  | .continue => draft
  | .start => draft.includeMember slur point.note (.slur true point.bezier)
  | .stop => draft.includeMember slur point.note (.slur false point.bezier)

/-- Creates the slur of a chain, with the number of its end and the color of its
start. -/
def linkChain (chain : List SlurPoint) (draft : Draft) : Draft :=
  match chain.head?, chain.getLast? with
  | some start, some finish =>
      let (slur, draft) := draft.create (.slur finish.number start.color [])
      chain.foldl (includePoint slur) draft
  | _, _ => draft

/-- Offers a descriptor to the slurs that are waiting. -/
def add (pending : List SlurPoint) (point : SlurPoint) (draft : Draft) : List SlurPoint × Draft :=
  let (chain, rest, draft) := Pairing.add .slur pending point draft
  match chain with
  | some chain => (rest, linkChain chain draft)
  | none => (rest, draft)

end Slur

end LdpScore
