import LdpScore.Score.Model

/-!
# Automatic beaming

The marks of a beam follow from its note values.  At each level a note joins the
neighbours that are beamed as deep; a note without such a neighbour carries a
hook.  Rests in the beam are left alone.
-/

namespace LdpScore.Autobeam

/-- The deepest beam level of a note; `-1` for a note without beams. -/
def depth (note : Note) : Int :=
  match note.noteRest.value.type.beamLevel? with
  | some level => level
  | none => -1

/-- The direction of a hook in the middle of a beam: that of the first shallower
level that begins or ends there, and backward if there is none. -/
def hookDirection : List BeamMark → BeamMark
  | [] => .backward
  | .start :: _ => .forward
  | .forward :: _ => .forward
  | .finish :: _ => .backward
  | .backward :: _ => .backward
  | _ :: deeper => hookDirection deeper

/-- The mark of a note at one level.  `previous` and `next` are the depths of its
neighbours in the beam, and `shallower` are its marks at the levels before. -/
def mark (previous : Option Int) (current : Int) (next : Option Int) (shallower : List BeamMark)
    (level : Int) : BeamMark :=
  if current < level then .none
  else
    match previous, next with
    | none, _ => if next.getD (-1) < level then .forward else .start
    | some before, none => if before < level then .backward else .finish
    | some before, some after =>
        if before < level then
          if after < level then hookDirection shallower else .start
        else if after < level then .finish
        else .continue

/-- The marks of a note at the levels from the first, up to a number of them. -/
def marks (previous : Option Int) (current : Int) (next : Option Int) : Nat → List BeamMark
  | 0 => []
  | level + 1 =>
      let shallower := marks previous current next level
      shallower ++ [mark previous current next shallower level]

/-- The marks of all notes of a beam, given their depths and that of the note
before them. -/
def marksOf (previous : Option Int) : List Int → List BeamLevels
  | [] => []
  | current :: rest =>
      BeamLevels.ofList (marks previous current rest.head? maxBeamLevels) ::
        marksOf (some current) rest

/-- Gives marks to every membership of one object. -/
def setLevels (members : Members) (assignment : Handle × BeamLevels) : Members :=
  members.map fun (member, role) =>
    if member = assignment.1 then (member, .beam assignment.2) else (member, role)

/-- The notes among some members, in order. -/
def notesOf (model : Model) (members : Members) : List (Handle × Note) :=
  members.filterMap fun (member, _) => (model.note? member).map fun note => (member, note)

/-- The members of a beam with their marks computed anew.  A beam with fewer than
two notes stays as it is. -/
def beamed (model : Model) (members : Members) : Members :=
  let notes := notesOf model members
  if notes.length < 2 then members
  else
    let levels := marksOf none (notes.map fun entry => depth entry.2)
    ((notes.map Prod.fst).zip levels).foldl setLevels members

end Autobeam

/-- Computes the marks of the notes in a beam anew. -/
def Model.autobeam (model : Model) (beam : Handle) : Model :=
  model.modifyContent beam (Content.mapMembers (Autobeam.beamed model))

end LdpScore
