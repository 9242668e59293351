import LdpScore.Diagnostic
import LdpScore.Score.IdPool
import LdpScore.Score.Model

/-!
# A score in the making

While a text is analysed, three things grow: the model, the set of ids that have
been handed out, and the list of diagnostics.
-/

namespace LdpScore

/-- A score in the making. -/
structure Draft where
  model : Model := {}
  ids : IdPool := {}
  /-- What was reported so far, in order. -/
  diagnostics : Array Diagnostic := #[]

namespace Draft

def report (draft : Draft) (location : Location) (problem : Problem) : Draft :=
  { draft with diagnostics := draft.diagnostics.push ⟨problem, location⟩ }

def mapModel (draft : Draft) (change : Model → Model) : Draft :=
  { draft with model := change draft.model }

/-- Creates an object under a generated id. -/
def create (draft : Draft) (content : Content) : Handle × Draft :=
  let (id, ids) := draft.ids.next
  (draft.model.size, { draft with model := draft.model.add id content, ids := ids })

/-- Hands out an id.  If the one that is asked for is taken, that is reported at
the given location. -/
def assignId (draft : Draft) (wanted : Option Int) (location : Location) : Int × Draft :=
  let (grant, ids) := draft.ids.assign wanted
  match grant with
  | .granted id => (id, { draft with ids := ids })
  | .replaced id => (id, { draft with ids := ids }.report location .idTaken)

/-- Adds an object that text at the given location describes, below a parent if
there is one. -/
def addObject (draft : Draft) (wanted : Option Int) (location : Location)
    (parent : Option Handle) (content : Content) : Handle × Draft :=
  let (id, draft) := draft.assignId wanted location
  let handle := draft.model.size
  (handle, draft.mapModel fun model =>
    match parent with
    | some parent => (model.add id content).appendChild parent handle
    | none => model.add id content)

/-- Makes an object the last member of a relation. -/
def includeMember (draft : Draft) (relation member : Handle) (role : Role) : Draft :=
  draft.mapModel fun model => model.includeMember relation member role

end Draft

end LdpScore
