import LdpScore.Analysis.Value

/-!
# Colors, curves and print options

The options that say how an object is shown: its staff, visibility, color and
displacement.  Print options end at the first child that is none of them.
-/

namespace LdpScore.Analyser

/-- A color; none if it cannot be read. -/
def analyseColor (node : Node) : Analyser (Option Color) := do
  match node.children.head?.bind fun child => Color.ofText? child.text.toList with
  | some color =>
      reportExtra node node.children.tail
      return some color
  | none =>
      report node.location .invalidColor
      return none

/-- The coordinate of a curve that an element sets. -/
def coordinate? : ElementKind → Option (Bezier → Float32 → Bezier)
  | .startX => some fun bezier x => { bezier with start := { bezier.start with x := x } }
  | .startY => some fun bezier y => { bezier with start := { bezier.start with y := y } }
  | .endX => some fun bezier x => { bezier with finish := { bezier.finish with x := x } }
  | .endY => some fun bezier y => { bezier with finish := { bezier.finish with y := y } }
  | .ctrol1X =>
      some fun bezier x => { bezier with startControl := { bezier.startControl with x := x } }
  | .ctrol1Y =>
      some fun bezier y => { bezier with startControl := { bezier.startControl with y := y } }
  | .ctrol2X =>
      some fun bezier x => { bezier with finishControl := { bezier.finishControl with x := x } }
  | .ctrol2Y =>
      some fun bezier y => { bezier with finishControl := { bezier.finishControl with y := y } }
  | _ => none

/-- Reads the coordinates of a curve, each from its element. -/
def readCoordinates (bezier : Bezier) : List Node → Analyser Bezier
  | [] => pure bezier
  | child :: rest => do
      match child.kind?.bind coordinate? with
      | some setCoordinate =>
          let value ← match child.children.head? with
            | some value => realValue value
            | none => pure 0
          readCoordinates (setCoordinate bezier value) rest
      | none =>
          reportMisplaced child
          readCoordinates bezier rest

def analyseBezier (node : Node) : Analyser Bezier :=
  readCoordinates {} node.children

def displacement (property : Node) : Analyser Float32 := do
  match ← propertyValue property .number with
  | some value => realValue value
  | none => return 0

/-- Reads print options until the first other child. -/
def printOptions (appearance : Appearance) : List Node → Analyser (Appearance × List Node)
  | [] => pure (appearance, [])
  | child :: rest => do
      match child.kind? with
      | some .visible =>
          match ← propertyValue child .label with
          | some value =>
              let isVisible ← boolValue value true
              printOptions { appearance with isVisible := isVisible } rest
          | none => printOptions appearance rest
      | some .color =>
          let color ← analyseColor child
          printOptions { appearance with color := color } rest
      | some .dx =>
          let dx ← displacement child
          printOptions { appearance with dx := dx } rest
      | some .dy =>
          let dy ← displacement child
          printOptions { appearance with dy := dy } rest
      | _ => return (appearance, child :: rest)

/-- Reads the number of an element that sets the staff, and makes it the current
one. -/
def staffProperty (property : Node) : Analyser Unit := do
  match ← propertyValue property .number with
  | some value =>
      match staff? value.text with
      | some staff => modifyContext fun context => { context with staff := staff }
      | none =>
          report value.location (.invalidStaffNumber value.text)
          modifyContext fun context => { context with staff := 0 }
  | none => modifyContext fun context => { context with staff := 0 }

/-- Reads the staff, if it is given, as a label or as an element. -/
def staffChoice (children : List Node) : Analyser (List Node) := do
  match take? .label children with
  | (some label, rest) =>
      if label.text.toList.head? = some 'p' then staffLabel label else reportMisplaced label
      return rest
  | (none, _) =>
      match take? .staffNumber children with
      | (some property, rest) =>
          staffProperty property
          return rest
      | (none, _) => return children

/-- Reads the staff and then print options. -/
def staffOptions (appearance : Appearance) (children : List Node) :
    Analyser (Appearance × List Node) := do
  let rest ← staffChoice children
  let staff := (← context).staff
  printOptions { appearance with staff := staff } rest

def textLocation (appearance : Appearance) : List Node → Analyser Appearance
  | [] => pure appearance
  | child :: rest => do
      match child.kind? with
      | some .dx =>
          let dx ← displacement child
          textLocation { appearance with dx := dx } rest
      | some .dy =>
          let dy ← displacement child
          textLocation { appearance with dy := dy } rest
      | _ =>
          reportMisplaced child
          textLocation appearance rest

end LdpScore.Analyser
