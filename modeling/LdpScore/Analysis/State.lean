import LdpScore.Node
import LdpScore.Relation.Pending
import LdpScore.Score.Context

/-!
# The state of an analysis

An analysis walks over a tree of elements and builds a model.  Problems never end
it: each is reported, and the analysis goes on with a default value, without the
child at fault, or without the element.

Every analyser reads the children of its element from left to right.  What it has
not read yet is a list of nodes; reading from it hands back the rest.
-/

namespace LdpScore

/-- The state of an analysis. -/
structure Analysis where
  draft : Draft := {}
  /-- What is carried from element to element. -/
  context : Context := {}
  /-- The relations that are still open. -/
  pending : Pending := {}

/-- A step of an analysis. -/
abbrev Analyser := StateM Analysis

namespace Analyser

/-! ## Access to the state -/

def context : Analyser Context := do
  return (← get).context

def model : Analyser Model := do
  return (← get).draft.model

/-- The relations that are still open. -/
def pending : Analyser Pending := do
  return (← get).pending

def modifyContext (change : Context → Context) : Analyser Unit :=
  modify fun state => { state with context := change state.context }

def modifyModel (change : Model → Model) : Analyser Unit :=
  modify fun state => { state with draft := state.draft.mapModel change }

/-- Changes the relations that are still open, and the draft with them. -/
def settle (change : Pending → Draft → Pending × Draft) : Analyser Unit :=
  modify fun state =>
    let (pending, draft) := change state.pending state.draft
    { state with pending := pending, draft := draft }

/-- Gives up all relations that are still open. -/
def clearPending : Analyser Unit :=
  settle Pending.clear

/-! ## Reports -/

def report (location : Location) (problem : Problem) : Analyser Unit :=
  modify fun state => { state with draft := state.draft.report location problem }

/-- Reports a child that is not possible where it stands. -/
def reportMisplaced (child : Node) : Analyser Unit :=
  report child.location (.misplaced child.describe)

/-- Reports a mandatory child that is missing. -/
def reportMissing (parent : Node) (kind : ElementKind) : Analyser Unit :=
  report parent.location (.missingElement parent.name kind)

/-- Reports that an element has children after all of those that it can have. -/
def reportExtra (node : Node) : List Node → Analyser Unit
  | [] => pure ()
  | extra :: _ => report node.location (.tooManyParameters node.name extra.describe)

/-! ## Objects -/

/-- Adds the object of an element to the model, below its anchor if it has one.
An id that the element asks for is kept unless it is taken. -/
def addObject (node : Node) (anchor : Option Handle) (content : Content) : Analyser Handle :=
  modifyGet fun state =>
    let (handle, draft) := state.draft.addObject node.id? node.location anchor content
    (handle, { state with draft := draft })

/-! ## Children -/

/-- Takes the first child if it has a given kind. -/
def take? (kind : ElementKind) : List Node → Option Node × List Node
  | [] => (none, [])
  | first :: rest => if first.is kind then (some first, rest) else (none, first :: rest)

/-- Takes the first child if it has a given kind, and reports it missing if not. -/
def mandatory (parent : Node) (kind : ElementKind) (children : List Node) :
    Analyser (Option Node × List Node) := do
  let (found, rest) := take? kind children
  if found.isNone then
    reportMissing parent kind
  return (found, rest)

/-- Analyses a child that may be missing. -/
def analyseOptional (analyser : Node → Analyser Unit) : Option Node → Analyser Unit
  | some child => analyser child
  | none => pure ()

/-- Analyses every child for which there is an analyser and reports the others. -/
def analyseEach (analyserOf : ElementKind → Option (Node → Analyser Unit)) :
    List Node → Analyser Unit
  | [] => pure ()
  | child :: rest => do
      match child.kind?.bind analyserOf with
      | some analyser => analyser child
      | none => reportMisplaced child
      analyseEach analyserOf rest

end Analyser

end LdpScore
