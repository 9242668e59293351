import LdpScore.Score.Content

/-!
# The score model

A model is an arena of objects addressed by handles.  An object of the tree has
at most one parent and lists its children; a relation has neither and lists its
members, and every member lists the relations that it belongs to.  All changes
go through `appendChild` and `includeMember`, which keep both sides in step.
-/

namespace LdpScore

/-- An object of a score with its place among the others. -/
structure Object where
  id : Int
  content : Content
  parent : Option Handle := none
  /-- The objects below it, in order. -/
  children : List Handle := []
  /-- The relations it belongs to, in order of joining. -/
  relations : List Handle := []
deriving DecidableEq, Repr

/-- A score with all its objects. -/
structure Model where
  /-- The objects in the order of their creation. -/
  objects : Array Object := #[]
  /-- The object that stands for the whole text. -/
  root : Option Handle := none
deriving DecidableEq, Repr

namespace Model

def size (model : Model) : Nat :=
  model.objects.size

/-- All handles in order. -/
def handles (model : Model) : List Handle :=
  List.range model.size

def get? (model : Model) (handle : Handle) : Option Object :=
  model.objects[handle]?

def content? (model : Model) (handle : Handle) : Option Content :=
  (model.get? handle).map Object.content

def parent? (model : Model) (handle : Handle) : Option Handle :=
  (model.get? handle).bind Object.parent

def children (model : Model) (handle : Handle) : List Handle :=
  match model.get? handle with
  | some object => object.children
  | none => []

/-- The relations that an object belongs to. -/
def relations (model : Model) (handle : Handle) : List Handle :=
  match model.get? handle with
  | some object => object.relations
  | none => []

def note? (model : Model) (handle : Handle) : Option Note :=
  (model.content? handle).bind Content.note?

def noteRest? (model : Model) (handle : Handle) : Option NoteRest :=
  (model.content? handle).bind Content.noteRest?

/-- The appearance of the object at a handle. -/
def appearance? (model : Model) (handle : Handle) : Option Appearance :=
  (model.content? handle).bind Content.appearance?

/-- The members of the relation at a handle. -/
def members? (model : Model) (handle : Handle) : Option Members :=
  (model.content? handle).bind Content.members?

/-! ## Changes -/

/-- A new object; its handle is the size of the model before. -/
def add (model : Model) (id : Int) (content : Content) : Model :=
  { model with objects := model.objects.push { id := id, content := content } }

/-- Makes an object stand for the whole text. -/
def setRoot (model : Model) (root : Handle) : Model :=
  { model with root := some root }

def modify (model : Model) (handle : Handle) (change : Object → Object) : Model :=
  { model with objects := model.objects.modify handle change }

/-- Changes what the object at a handle is. -/
def modifyContent (model : Model) (handle : Handle) (change : Content → Content) : Model :=
  model.modify handle fun object => { object with content := change object.content }

def modifyNote (model : Model) (handle : Handle) (change : Note → Note) : Model :=
  model.modifyContent handle (Content.mapNote change)

def modifyNoteRest (model : Model) (handle : Handle) (change : NoteRest → NoteRest) : Model :=
  model.modifyContent handle (Content.mapNoteRest change)

/-- Takes an object away from its parent's children. -/
def detach (model : Model) (child : Handle) : Model :=
  match model.parent? child with
  | some previous =>
      model.modify previous fun object =>
        { object with children := object.children.filter (· != child) }
  | none => model

/-- Moves an object under a parent, as its last child. -/
def appendChild (model : Model) (parent child : Handle) : Model :=
  let moved := (model.detach child).modify child fun object =>
    { object with parent := some parent }
  moved.modify parent fun object => { object with children := object.children ++ [child] }

/-- Makes an object the last member of a relation.  If the handle is not that of
a relation, nothing changes. -/
def includeMember (model : Model) (relation member : Handle) (role : Role) : Model :=
  match model.members? relation with
  | some _ =>
      let joined := model.modifyContent relation
        (Content.mapMembers fun members => members ++ [(member, role)])
      joined.modify member fun object => { object with relations := object.relations ++ [relation] }
  | none => model

/-! ## Searches -/

def find? (model : Model) (id : Int) : Option Handle :=
  model.handles.find? fun handle => (model.get? handle).any fun object => object.id == id

/-- All objects of a kind, by its name in a listing. -/
def findAll (model : Model) (name : String) : List Handle :=
  model.handles.filter fun handle => (model.content? handle).any fun content => content.name == name

def notes (model : Model) : List Handle :=
  model.handles.filter fun handle => (model.note? handle).isSome

/-- The first relation of a kind that an object belongs to. -/
def findRelation? (model : Model) (member : Handle) (name : String) : Option Handle :=
  (model.relations member).find? fun relation =>
    (model.content? relation).any fun content => content.name == name

/-- The marks of an object in its first beam. -/
def beamLevels? (model : Model) (member : Handle) : Option BeamLevels :=
  match (model.findRelation? member "beam").bind model.members? with
  | some members =>
      members.findSome? fun (handle, role) =>
        match role with
        | .beam levels => if handle = member then some levels else none
        | _ => none
  | none => none

/-- The child of a score that holds the option with a given name. -/
def optionHandle? (model : Model) (score : Handle) (name : String) : Option Handle :=
  (model.children score).find? fun child =>
    ((model.content? child).bind Content.option?).any fun option => option.1 == name

def scoreOption? (model : Model) (score : Handle) (name : String) : Option OptionValue :=
  (((model.optionHandle? score name).bind model.content?).bind Content.option?).map Prod.snd

/-- Visits a stack of objects and what is below them, at most as many objects as
the budget says. -/
def visit (model : Model) : Nat → List Handle → List Handle
  | 0, _ => []
  | _ + 1, [] => []
  | budget + 1, current :: stack => current :: visit model budget (model.children current ++ stack)

/-- All objects below an object, each before those below it.  In a tree no object
is visited twice, so the number of objects is budget enough. -/
def descendants (model : Model) (handle : Handle) : List Handle :=
  model.visit model.size (model.children handle)

end Model

end LdpScore
