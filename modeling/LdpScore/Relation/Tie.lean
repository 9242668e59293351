import LdpScore.Relation.Pairing

/-!
# Ties

A tie joins two notes of the same voice, staff and pitch.  Numbered ties are
paired by their correlation numbers.  A legacy tie has no number: it waits for
the next note of its voice, and comes to nothing if that note cannot be tied.
-/

namespace LdpScore

/-- A descriptor of a tie. -/
structure TiePoint where
  number : Int
  isStart : Bool
  bezier : Option Bezier := none
  color : Option Color := none
  note : Handle
  location : Location
deriving DecidableEq, Repr

instance : Descriptor TiePoint where
  endpoint point :=
    ⟨point.number, if point.isStart then .start else .stop, point.note, point.location⟩

namespace Tie

/-- Whether two notes have the same voice, staff and pitch. -/
def compatible (first second : Note) : Bool :=
  first.noteRest.voice == second.noteRest.voice &&
    first.noteRest.appearance.staff == second.noteRest.appearance.staff &&
    first.pitch == second.pitch

/-- Whether the notes at two handles can be tied. -/
def canTie (model : Model) (first second : Handle) : Bool :=
  match model.note? first, model.note? second with
  | some a, some b => compatible a b
  | _, _ => false

/-- Whether there are notes of one voice at two handles. -/
def sameVoice (model : Model) (first second : Handle) : Bool :=
  match model.note? first, model.note? second with
  | some a, some b => a.noteRest.voice == b.noteRest.voice
  | _, _ => false

/-- One end of a tie. -/
structure End where
  note : Handle
  bezier : Option Bezier := none
deriving DecidableEq, Repr

def minNumber : Int := -0x80000000

def maxNumber : Int := 0x7fffffff

/-- The number of a tie that has none of its own: its id, as far as that goes. -/
def numberOfId (id : Int) : Int :=
  if minNumber ≤ id ∧ id ≤ maxNumber then id else maxNumber

/-- Creates a tie between two notes.  Without a number the tie is numbered after
its own id. -/
def link (start finish : End) (number : Option Int) (color : Option Color) (draft : Draft) :
    Draft :=
  let tieNumber := match number with
    | some given => given
    | none => numberOfId draft.ids.next.1
  let (tie, draft) := draft.create (.tie tieNumber color [])
  let draft := draft.includeMember tie start.note (.tie true start.bezier)
  let draft := draft.includeMember tie finish.note (.tie false finish.bezier)
  draft.mapModel fun model =>
    (model.modifyNote start.note fun note => { note with tieNext := some tie }).modifyNote
      finish.note fun note => { note with tiePrevious := some tie }

/-- Ties the ends of a chain, if they can be tied. -/
def linkChain (chain : List TiePoint) (draft : Draft) : Draft :=
  match chain with
  | start :: next :: rest =>
      let finish := (next :: rest).getLast (by simp)
      if canTie draft.model start.note finish.note then
        link ⟨start.note, start.bezier⟩ ⟨finish.note, finish.bezier⟩ (some start.number)
          start.color draft
      else draft.report finish.location (.incompatibleTie finish.number)
  | _ => draft

/-- Offers a descriptor to the numbered ties that are waiting. -/
def add (pending : List TiePoint) (point : TiePoint) (draft : Draft) : List TiePoint × Draft :=
  let (chain, rest, draft) := Pairing.add .tie pending point draft
  match chain with
  | some chain => (rest, linkChain chain draft)
  | none => (rest, draft)

end Tie

/-- The start of a legacy tie. -/
structure LegacyTie where
  note : Handle
  location : Location
deriving DecidableEq, Repr

namespace LegacyTie

/-- Offers a note as the end of the legacy tie that is waiting.  Notes of other
voices are passed over. -/
def offer (pending : Option LegacyTie) (note : Handle) (draft : Draft) :
    Option LegacyTie × Draft :=
  match pending with
  | none => (none, draft)
  | some tie =>
      if Tie.canTie draft.model tie.note note then
        (none, Tie.link ⟨tie.note, none⟩ ⟨note, none⟩ none none draft)
      else if Tie.sameVoice draft.model tie.note note then
        (none, draft.report tie.location .unmatchedLegacyTie)
      else (some tie, draft)

/-- Starts a legacy tie at a note, which may be the end of the one before. -/
def start (pending : Option LegacyTie) (note : Handle) (location : Location) (draft : Draft) :
    Option LegacyTie × Draft :=
  (some ⟨note, location⟩, (offer pending note draft).2)

/-- Gives up the legacy tie that is waiting. -/
def clear (pending : Option LegacyTie) (draft : Draft) : Draft :=
  match pending with
  | some tie => draft.report tie.location .unmatchedLegacyTie
  | none => draft

end LegacyTie

end LdpScore
