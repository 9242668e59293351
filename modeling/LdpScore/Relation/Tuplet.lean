import LdpScore.Relation.Pairing

/-!
# Tuplets

A tuplet is paired by its correlation number, and every note and rest between its
start and its stop is a member.  It modifies the durations of its members; where
tuplets are nested, the modifications multiply.
-/

namespace LdpScore

/-- A descriptor of a tuplet. -/
structure TupletPoint where
  number : Int
  phase : Phase
  actual : Nat
  /-- How many notes would normally take its time. -/
  normal : Nat
  bracket : YesNo
  display : NumberDisplay
  noteRest : Handle
  location : Location
deriving DecidableEq, Repr

instance : Descriptor TupletPoint where
  endpoint point := ⟨point.number, point.phase, point.noteRest, point.location⟩

/-- The modification that a tuplet applies. -/
def TupletPoint.modification (point : TupletPoint) : TimeModification :=
  ⟨point.normal, point.actual⟩

namespace Tuplet

/-- The normal count that goes with an actual count, where there is a usual one. -/
def defaultNormal? : Nat → Option Nat
  | 2 => some 3
  | 3 => some 2
  | 4 => some 6
  | 5 => some 6
  | _ => none

/-- The starts of the tuplets that are open, outermost first. -/
def openStarts (pending : List TupletPoint) : List TupletPoint :=
  pending.filter fun point => point.phase == .start

def isOpen (pending : List TupletPoint) : Bool :=
  !(openStarts pending).isEmpty

/-- The number of the tuplet that was opened last. -/
def innermostOpen? (pending : List TupletPoint) : Option Int :=
  (openStarts pending).getLast?.map TupletPoint.number

/-- The factor that all open tuplets together apply to durations. -/
def openRatio (pending : List TupletPoint) : Float :=
  (openStarts pending).foldl (fun product point => product * point.modification.ratio) 1

/-- Makes a note or rest a member of every open tuplet. -/
def join (pending : List TupletPoint) (noteRest : Handle) (location : Location) :
    List TupletPoint :=
  pending ++ (openStarts pending).map fun start =>
    { start with phase := .continue, noteRest := noteRest, location := location }

/-- The modification of a note or rest that joins one more tuplet.  A modification
that the text gives itself stays. -/
def modify (modification : TimeModification) (noteRest : NoteRest) : NoteRest :=
  if noteRest.isModificationExplicit then noteRest
  else
    { noteRest with
      timeModification := some (match noteRest.timeModification with
        | some inner => inner.combine modification
        | none => modification) }

/-- Makes a note or rest a member of a tuplet and modifies its duration. -/
def includePoint (tuplet : Handle) (modification : TimeModification) (draft : Draft)
    (point : TupletPoint) : Draft :=
  (draft.includeMember tuplet point.noteRest .tuplet).mapModel fun model =>
    model.modifyNoteRest point.noteRest (modify modification)

/-- Creates the tuplet of a chain, with the counts of its start. -/
def linkChain (chain : List TupletPoint) (draft : Draft) : Draft :=
  match chain with
  | [] => draft
  | start :: _ =>
      let (tuplet, draft) :=
        draft.create (.tuplet start.actual start.normal start.bracket start.display [])
      chain.foldl (includePoint tuplet start.modification) draft

/-- Offers a descriptor to the tuplets that are waiting. -/
def add (pending : List TupletPoint) (point : TupletPoint) (draft : Draft) :
    List TupletPoint × Draft :=
  let (chain, rest, draft) := Pairing.add .tuplet pending point draft
  match chain with
  | some chain => (rest, linkChain chain draft)
  | none => (rest, draft)

end Tuplet

end LdpScore
