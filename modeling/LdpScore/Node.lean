import LdpScore.Source.Position
import LdpScore.ElementKind

/-!
# The tree of elements

LDP text reads as a tree: an element has a name, perhaps an id, and children in
order; a leaf is a label, a number or a string.  `Node.toLdp` writes a tree back
as text.
-/

namespace LdpScore

/-- The kinds of leaf. -/
inductive LeafKind where
  | label
  | number
  | string
deriving DecidableEq, Repr, Inhabited

/-- The kind of element that a kind of leaf is counted as. -/
def LeafKind.elementKind : LeafKind → ElementKind
  | .label => .label
  | .number => .number
  | .string => .string

/-- A tree of elements and leaves. -/
inductive Node where
  | leaf (kind : LeafKind) (text : String) (location : Location)
  | element (name : String) (id : Option Int) (children : List Node) (location : Location)
deriving Repr, Inhabited

namespace Node

def location : Node → Location
  | leaf _ _ location => location
  | element _ _ _ location => location

def line (node : Node) : Nat :=
  node.location.line

/-- The name of a node; a leaf is named after its kind. -/
def name : Node → String
  | leaf kind _ _ => kind.elementKind.name
  | element name _ _ _ => name

/-- The kind of a node, if its name is known. -/
def kind? : Node → Option ElementKind
  | leaf kind _ _ => some kind.elementKind
  | element name _ _ _ => ElementKind.ofName? name

def is (node : Node) (kind : ElementKind) : Bool :=
  node.kind? == some kind

def id? : Node → Option Int
  | leaf _ _ _ => none
  | element _ id _ _ => id

def text? : Node → Option String
  | leaf _ text _ => some text
  | element _ _ _ _ => none

/-- The text of a leaf, and no text for an element. -/
def text (node : Node) : String :=
  node.text?.getD ""

def children : Node → List Node
  | leaf _ _ _ => []
  | element _ _ children _ => children

def isLeaf : Node → Bool
  | leaf _ _ _ => true
  | element _ _ _ _ => false

/-- How a diagnostic refers to a node: labels are shown with their text. -/
def describe (node : Node) : String :=
  if node.is .label then "label:" ++ node.text else node.name

mutual

def toLdp : Node → String
  | leaf .string text _ => "\"" ++ text ++ "\""
  | leaf _ text _ => text
  | element name id children _ =>
      let tag := match id with
        | some number => name ++ "#" ++ toString number
        | none => name
      "(" ++ tag ++ childrenToLdp children ++ ")"

/-- Children as LDP text, each after a space. -/
def childrenToLdp : List Node → String
  | [] => ""
  | first :: rest => " " ++ first.toLdp ++ childrenToLdp rest

end

mutual

/-- All nodes of a tree with their depths, each node before its children. -/
def preorder (depth : Nat) : Node → List (Nat × Node)
  | leaf kind text location => [(depth, leaf kind text location)]
  | element name id children location =>
      (depth, element name id children location) :: childrenPreorder (depth + 1) children

/-- All nodes below a list of siblings, in the same order. -/
def childrenPreorder (depth : Nat) : List Node → List (Nat × Node)
  | [] => []
  | first :: rest => first.preorder depth ++ childrenPreorder depth rest

end

end Node

end LdpScore
