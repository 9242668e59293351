import LdpScore.Decimal.Leading
import LdpScore.Diagnostic
import LdpScore.Node

/-!
# From tokens to a tree

Reading a tree is a pushdown automaton.  Its state is what has been read so far:
the elements that are open, innermost first, each with the children it has
already.  `State.step` consumes one token, and `State.finish` says what the end
of the tokens means in each state.

A tag `name#id` gives an element its id.  A tag whose id cannot be read is
reported, and its element has none.  The label `noVisible` stands for the element
`(visible no)`.
-/

namespace LdpScore.Node

/-- How many elements may be nested. -/
def maxDepth : Nat := 255

/-- The part of a tag before the first `#`, and the part after it if there is one. -/
def splitTag (tag : List Char) : List Char × Option (List Char) :=
  match tag.dropWhile (· != '#') with
  | [] => (tag, none)
  | _ :: id => (tag.takeWhile (· != '#'), some id)

/-- Reads an id, which must not be negative. -/
def readId? (id : List Char) : Option Int :=
  match Decimal.integer? id with
  | some number => if 0 ≤ number then some number else none
  | none => none

/-- The name that a tag gives to its element. -/
def tagName (tag : String) : String :=
  String.ofList (splitTag tag.toList).1

/-- The id that a tag gives to its element. -/
def tagId? (tag : String) : Option Int :=
  (splitTag tag.toList).2.bind readId?

/-- Whether a tag has an id that cannot be read. -/
def hasBadId (tag : String) : Bool :=
  match (splitTag tag.toList).2 with
  | some id => (readId? id).isNone
  | none => false

def ofLabel (text : String) (location : Location) : Node :=
  if text = "noVisible" then element "visible" none [leaf .label "no" location] location
  else leaf .label text location

/-- An element that is open. -/
structure Frame where
  name : String
  id : Option Int
  opened : Location
  /-- The children it has so far, the last one first. -/
  reversed : List Node
deriving Repr

namespace Frame

def add (frame : Frame) (child : Node) : Frame :=
  { frame with reversed := child :: frame.reversed }

/-- The element, ended by a closing parenthesis. -/
def close (frame : Frame) (closed : Location) : Node :=
  element frame.name frame.id frame.reversed.reverse (frame.opened.upTo closed)

end Frame

/-- What has been read so far. -/
inductive State where
  | start
  /-- An opening parenthesis, inside the given open elements. -/
  | opened (location : Location) (outer : List Frame)
  /-- The inside of an element, inside the given open elements. -/
  | inside (frame : Frame) (outer : List Frame)
  | done (root : Node)
deriving Repr

namespace State

/-- One more child of the innermost element that is open. -/
def leave (node : Node) : List Frame → State
  | [] => done node
  | frame :: outer => inside (frame.add node) outer

/-- What one token does to what has been read. -/
def step (state : State) (token : LexedToken) : Except SyntaxError State :=
  match state with
  | start =>
      match token.result with
      | .ok .parenLeft => .ok (opened token.location [])
      | .ok _ => .error (.unexpectedToken .openParenthesis token.location)
      | .error error => .error (.lexical error .openParenthesis token.location)
  | opened location outer =>
      match token.result with
      | .ok (.label tag) => .ok (inside ⟨tagName tag, tagId? tag, location, []⟩ outer)
      | .ok _ => .error (.unexpectedToken .elementName token.location)
      | .error error => .error (.lexical error .elementName token.location)
  | inside frame outer =>
      match token.result with
      | .ok .parenLeft =>
          if maxDepth ≤ outer.length + 1 then .error (.tooDeep token.location)
          else .ok (opened token.location (frame :: outer))
      | .ok .parenRight => .ok (leave (frame.close token.location) outer)
      | .ok (.label text) => .ok (inside (frame.add (ofLabel text token.location)) outer)
      | .ok (.number text) => .ok (inside (frame.add (leaf .number text token.location)) outer)
      | .ok (.quoted text) => .ok (inside (frame.add (leaf .string text token.location)) outer)
      | .error error => .error (.lexical error .closeParenthesis token.location)
  | done _ =>
      match token.result with
      | .ok .parenRight => .error (.unbalancedParenthesis token.location)
      | .ok _ => .error (.unexpectedToken .endOfFile token.location)
      | .error error => .error (.lexical error .endOfFile token.location)

/-- The problem that one token brings to light without stopping the reader. -/
def problems (state : State) (token : LexedToken) : List Diagnostic :=
  match state, token.result with
  | opened _ _, .ok (.label tag) =>
      if hasBadId tag then [⟨.badId tag, token.location⟩] else []
  | _, _ => []

/-- What the end of the tokens means after what has been read. -/
def finish (lastLocation : Location) : State → Except SyntaxError Node
  | start => .error (.unexpectedEndOfFile .openParenthesis lastLocation)
  | opened _ _ => .error (.unexpectedEndOfFile .elementName lastLocation)
  | inside _ _ => .error (.unexpectedEndOfFile .closeParenthesis lastLocation)
  | done root => .ok root

end State

/-- The outcome of reading a tree. -/
structure Reading where
  /-- The tree, or why there is none. -/
  result : Except SyntaxError Node
  /-- What was reported on the way, in order. -/
  diagnostics : Array Diagnostic

/-- Reads on from a state.  `lastLocation` is where the last token stood. -/
def readFrom (state : State) (diagnostics : Array Diagnostic) (lastLocation : Location) :
    List LexedToken → Reading
  | [] => ⟨state.finish lastLocation, diagnostics⟩
  | token :: rest =>
      match state.step token with
      | .ok next => readFrom next (diagnostics ++ state.problems token) token.location rest
      | .error error => ⟨.error error, diagnostics⟩

/-- Reads a tree from all of the tokens. -/
def read (tokens : List LexedToken) : Reading :=
  readFrom .start #[] Location.nowhere tokens

end LdpScore.Node
