import LdpScore.Analysis.Appearance

/-!
# Descriptors of relations

The elements of relations do not become objects.  They give descriptors to the
note or rest that carries them, and without one they give nothing.
-/

namespace LdpScore.Analyser

/-- The correlation number of a tie or slur; zero if it is missing. -/
def curveNumber (node : Node) (children : List Node) : Analyser (Int × List Node) := do
  match ← mandatory node .number children with
  | (some number, rest) => return (← numberValue number 0, rest)
  | (none, rest) => return (0, rest)

/-- The curve and the color of a tie or slur, where they are given in that order. -/
def curveAppearance (children : List Node) : Analyser (Option Bezier × Option Color) := do
  let (bezierNode, rest) := take? .bezier children
  let bezier ← match bezierNode with
    | some node => some <$> analyseBezier node
    | none => pure none
  let color ← match (take? .color rest).1 with
    | some node => analyseColor node
    | none => pure none
  return (bezier, color)

/-- The text of the first child, if that is a label. -/
def labelText? (children : List Node) : Option String :=
  (take? .label children).1.map Node.text

def analyseTie (node : Node) (anchor : Option Handle) : Analyser (Option TiePoint) := do
  let (number, rest) ← curveNumber node node.children
  let isStart? := match labelText? rest with
    | some "start" => some true
    | some "stop" => some false
    | _ => none
  match isStart? with
  | none =>
      report node.location .invalidTieType
      return none
  | some isStart =>
      let (bezier, color) ← curveAppearance rest.tail
      return anchor.map fun note => ⟨number, isStart, bezier, color, note, node.location⟩

def analyseSlur (node : Node) (anchor : Option Handle) : Analyser (Option SlurPoint) := do
  let (number, rest) ← curveNumber node node.children
  let phase? := match labelText? rest with
    | some "start" => some Phase.start
    | some "continue" => some Phase.continue
    | some "stop" => some Phase.stop
    | _ => none
  match phase? with
  | none =>
      report node.location .invalidSlurType
      return none
  | some phase =>
      let (bezier, color) ← curveAppearance rest.tail
      return anchor.map fun note => ⟨number, phase, bezier, color, note, node.location⟩

def analyseBeam (node : Node) (anchor : Option Handle) : Analyser (Option BeamPoint) := do
  match take? .number node.children with
  | (none, _) =>
      report node.location .invalidBeamNumber
      return none
  | (some numberNode, rest) =>
      let number ← numberValue numberNode 0
      match (labelText? rest).bind fun text => BeamLevels.ofText? text.toList with
      | none =>
          report node.location .invalidBeamType
          return none
      | some levels =>
          return anchor.map fun noteRest => ⟨number, levels, noteRest, node.location⟩

/-- The last version of scores whose tuplets have no numbers. -/
def lastVersionWithoutTupletNumbers : Nat := 107

def tupletDisplay (bracket : YesNo) (display : NumberDisplay) :
    List Node → Analyser (YesNo × NumberDisplay)
  | [] => pure (bracket, display)
  | child :: rest => do
      match child.kind? with
      | some .label =>
          if child.text = "noBracket" then tupletDisplay .no display rest
          else
            reportMisplaced child
            tupletDisplay bracket display rest
      | some .displayBracket =>
          match ← propertyValue child .label with
          | some value =>
              let bracket ← yesNoValue value
              tupletDisplay bracket display rest
          | none => tupletDisplay bracket display rest
      | some .displayNumber =>
          match ← propertyValue child .label with
          | some value =>
              match NumberDisplay.ofName? value.text with
              | some display => tupletDisplay bracket display rest
              | none =>
                  reportMisplaced value
                  tupletDisplay bracket .actual rest
          | none => tupletDisplay bracket display rest
      | _ =>
          reportMisplaced child
          tupletDisplay bracket display rest

/-- The correlation number of a tuplet.  It counts only in versions of scores
whose tuplets have numbers; in others it is zero. -/
def tupletNumber (children : List Node) : Analyser (Int × List Node) := do
  match take? .number children with
  | (some node, rest) =>
      let value ← numberValue node 0
      let version := (← context).version
      return (if lastVersionWithoutTupletNumbers < version then value else 0, rest)
  | (none, rest) => return (0, rest)

/-- The counts of a tuplet, actual and normal; nothing if one cannot be found. -/
def tupletCounts (node : Node) (children : List Node) :
    Analyser (Option (Nat × Nat) × List Node) := do
  match take? .number children with
  | (none, rest) =>
      report node.location .missingActualNotes
      return (none, rest)
  | (some actualNode, rest) =>
      let actual ← countValue actualNode 0
      let (normal, rest) ← match take? .number rest with
        | (some normalNode, rest) => do
            let normal ← countValue normalNode 0
            pure (normal, rest)
        | (none, rest) => pure ((Tuplet.defaultNormal? actual).getD 0, rest)
      if normal = 0 then
        report node.location .missingNormalNotes
        return (none, rest)
      else return (some (actual, normal), rest)

/-- A descriptor of a tuplet.  The display options of a start also hold for the
tuplets after it. -/
def analyseTuplet (node : Node) (anchor : Option Handle) : Analyser (Option TupletPoint) := do
  let initial ← context
  let (number, rest) ← tupletNumber node.children
  match labelText? rest with
  | some "+" =>
      match ← tupletCounts node rest.tail with
      | (none, _) => return none
      | (some (actual, normal), rest) =>
          let (bracket, display) ← tupletDisplay initial.tupletBracket initial.tupletNumber rest
          modifyContext fun context =>
            { context with tupletBracket := bracket, tupletNumber := display }
          return anchor.map fun noteRest =>
            ⟨number, .start, actual, normal, bracket, display, noteRest, node.location⟩
  | some "-" =>
      return anchor.map fun noteRest =>
        ⟨number, .stop, 0, 0, initial.tupletBracket, initial.tupletNumber, noteRest,
          node.location⟩
  | _ =>
      report node.location .invalidTupletType
      return none

/-- A time modification: the note lasts `top / bottom` of its written value. -/
def analyseTimeModification (node : Node) : Analyser (Option TimeModification) := do
  match ← mandatory node .number node.children with
  | (none, _) => return none
  | (some topNode, rest) =>
      let top ← countValue topNode 1
      match ← mandatory node .number rest with
      | (none, _) => return none
      | (some bottomNode, rest) =>
          let bottom ← countValue bottomNode 1
          reportExtra node rest
          return some ⟨top, bottom⟩

end LdpScore.Analyser
