import LdpScore.Analysis.NoteRest

/-!
# Staff objects

Chords, clefs, keys, time signatures, barlines, cursor moves and a few directions:
everything but notes and rests that stands in music data.
-/

namespace LdpScore.Analyser

/-- A value with a closed vocabulary, if the next child is a label.  An unknown
name is reported and replaced by the usual value. -/
def optionalName {Value : Type} (usual : Value) (ofName? : String → Option Value)
    (problem : Node → Location × Problem) (children : List Node) :
    Analyser (Value × List Node) := do
  match take? .label children with
  | (none, rest) => return (usual, rest)
  | (some label, rest) =>
      match ofName? label.text with
      | some value => return (value, rest)
      | none =>
          let (location, problem) := problem label
          report location problem
          return (usual, rest)

/-- Reads a label that is either a certain word or misplaced. -/
def optionalWord (word : String) (children : List Node) : Analyser (Bool × List Node) := do
  match take? .label children with
  | (none, rest) => return (false, rest)
  | (some label, rest) =>
      if label.text = word then return (true, rest)
      else
        reportMisplaced label
        return (false, rest)

/-- The children of a chord after its first note.  All of them sound together with
it. -/
def chordNotes (anchor : Option Handle) : List Node → Analyser Unit
  | [] => pure ()
  | child :: rest => do
      if child.is .note then
        let _ ← analyseNoteRest .chordNote child anchor
      else reportMisplaced child
      chordNotes anchor rest

/-- The children of a chord.  Returns its first note. -/
def chordChildren (anchor : Option Handle) : List Node → Analyser (Option Handle)
  | [] => pure none
  | child :: rest => do
      if child.is .note then
        let base ← analyseNoteRest .note child anchor
        chordNotes anchor rest
        return some base
      else
        reportMisplaced child
        chordChildren anchor rest

/-- A chord; nothing if it has fewer than two notes. -/
def analyseChord (node : Node) (anchor : Option Handle) : Analyser (Option Handle) := do
  let base ← chordChildren anchor node.children
  let model ← model
  return (base.bind model.note?).bind Note.chord

/-- Adds a staff object and the texts attached to it. -/
def addStaffObject (node : Node) (anchor : Option Handle) (content : Content)
    (children : List Node) : Analyser Handle := do
  let handle ← addObject node anchor content
  analyseEach (textAnalyser? handle) children
  return handle

/-- Reads the size of a symbol, if the next child gives it. -/
def optionalSize (node : Node) (children : List Node) : Analyser (SymbolSize × List Node) := do
  match take? .symbolSize children with
  | (none, rest) => return (.full, rest)
  | (some property, rest) =>
      let value := firstText property
      match SymbolSize.ofName? value with
      | some size => return (size, rest)
      | none =>
          report node.location (.invalidSymbolSize value)
          return (.full, rest)

def analyseClef (node : Node) (anchor : Option Handle) : Analyser Handle := do
  let (clef, rest) ← optionalName .g2 Clef.ofName?
    (fun label => (label.location, .unknownClef label.text)) node.children
  let (size, rest) ← optionalSize node rest
  let (appearance, rest) ← staffOptions {} rest
  modifyContext fun context => context.setClef appearance.staff clef
  addStaffObject node anchor (.clef clef size appearance) rest

/-- A key signature, which applies to every staff of the instrument. -/
def analyseKey (node : Node) (anchor : Option Handle) : Analyser Handle := do
  let (key, rest) ← optionalName .cMajor Key.ofName?
    (fun label => (label.location, .unknownKey label.text)) node.children
  let (appearance, rest) ← staffOptions {} rest
  modifyContext fun context => { context with key := some key }
  addStaffObject node anchor (.keySignature key appearance) rest

def timeCount (node : Node) (default : Nat) (children : List Node) :
    Analyser (Nat × List Node) := do
  match ← mandatory node .number children with
  | (some number, rest) => return (← countValue number default, rest)
  | (none, rest) => return (default, rest)

/-- The counts of a time signature, top and bottom. -/
def timeCounts (node : Node) (style : TimeStyle) (children : List Node) :
    Analyser (Nat × Nat × List Node) := do
  match style with
  | .common => return (4, 4, children)
  | .cut => return (2, 2, children)
  | .singleNumber =>
      let (top, rest) ← timeCount node 2 children
      return (top, 0, rest)
  | .normal =>
      let (top, rest) ← timeCount node 2 children
      let (bottom, rest) ← timeCount node 4 rest
      return (top, bottom, rest)

def analyseTime (node : Node) (anchor : Option Handle) : Analyser Handle := do
  let (style, rest) ← optionalName .normal TimeStyle.ofName?
    (fun label => (node.location, .invalidTimeStyle label.text)) node.children
  let (top, bottom, rest) ← timeCounts node style rest
  let (appearance, rest) ← staffOptions {} rest
  modifyContext fun context => { context with time := some (top, bottom) }
  addStaffObject node anchor (.timeSignature style top bottom appearance) rest

/-- A barline, which ends the measure. -/
def analyseBarline (node : Node) (anchor : Option Handle) : Analyser Handle := do
  let (style, rest) ← optionalName .simple BarlineStyle.ofName?
    (fun label => (label.location, .unknownBarline label.text)) node.children
  let (isMiddle, rest) ← optionalWord "middle" rest
  let (appearance, rest) ← staffOptions {} rest
  let handle ← addStaffObject node anchor
    (.barline style isMiddle style.repeats appearance) rest
  modifyContext fun context => { context with clock := context.clock.endMeasure }
  return handle

/-! ## Moves of the time cursor -/

/-- The shift that a label gives, or why it gives none. -/
def labelShift (isForward : Bool) (text : String) : Except Problem TimeShift :=
  match text, isForward with
  | "start", false => .ok .toStart
  | "start", true => .error .forwardToStart
  | "end", true => .ok .toEnd
  | "end", false => .error .backToEnd
  | text, _ =>
      match NoteValue.ofText? text.toList with
      | some value => .ok (.by value.units)
      | none => .error (.unknownShift text)

/-- Reads the shift of a cursor move; nothing if there is none that can be
followed. -/
def readShift (isForward : Bool) (node : Node) : Analyser (Option TimeShift × List Node) := do
  match node.children with
  | [] =>
      report node.location (.unknownShift node.name)
      return (none, [])
  | child :: rest =>
      if child.is .label then
        match labelShift isForward child.text with
        | .ok shift => return (some shift, rest)
        | .error problem =>
            report child.location problem
            return (none, rest)
      else if child.is .number then
        let amount ← realValue child
        if amount < 0 then
          report child.location .negativeShift
          return (none, rest)
        else return (some (.by (Decimal.widen amount)), rest)
      else
        report child.location (.unknownShift child.name)
        return (none, rest)

/-- The clock after a cursor move. -/
def TimeShift.apply (isForward : Bool) (shift : TimeShift) (clock : Clock Float) : Clock Float :=
  match shift with
  | .toStart => clock.goToMeasureStart
  | .toEnd => clock.goToMeasureEnd
  | .by units => if isForward then clock.advance units else clock.goBack units

/-- A move of the time cursor; nothing if it cannot be followed. -/
def analyseShift (isForward : Bool) (node : Node) (anchor : Option Handle) :
    Analyser (Option Handle) := do
  match ← readShift isForward node with
  | (none, _) => return none
  | (some shift, rest) =>
      reportExtra node rest
      modifyContext fun context =>
        { context with clock := TimeShift.apply isForward shift context.clock }
      return some (← addObject node anchor (.goBackForward isForward shift))

/-! ## Directions -/

/-- A spacer; nothing if its width is missing. -/
def analyseSpacer (node : Node) (anchor : Option Handle) : Analyser (Option Handle) := do
  match take? .number node.children with
  | (none, _) =>
      report node.location .missingSpacerWidth
      return none
  | (some number, rest) =>
      let width ← realValue number
      let (appearance, rest) ← staffOptions {} rest
      let handle ← addObject node anchor (.spacer width appearance)
      analyseEach (attachmentAnalyser? handle) rest
      return some handle

/-- A break after which a new system starts. -/
def analyseNewSystem (node : Node) (anchor : Option Handle) : Analyser Handle := do
  reportExtra node node.children
  addObject node anchor .systemBreak

/-- Reads a metronome mark; nothing if it is not complete. -/
def readMetronome (node : Node) (children : List Node) :
    Analyser (Option MetronomeMark × List Node) := do
  match take? .label children with
  | (some label, rest) =>
      let value ← noteValue label
      match take? .number rest with
      | (some number, rest) =>
          let ticks ← integerValue number 60
          return (some (.noteTicks value ticks), rest)
      | (none, _) =>
          match take? .label rest with
          | (some right, rest) =>
              let other ← noteValue right
              return (some (.noteNote value other), rest)
          | (none, _) =>
              report node.location .incompleteMetronome
              return (none, rest)
  | (none, _) =>
      match take? .number children with
      | (some number, rest) =>
          let ticks ← integerValue number 60
          return (some (.ticks ticks), rest)
      | (none, _) =>
          report node.location .missingMetronome
          return (none, children)

/-- A metronome mark.  One that is not complete is replaced by 60 ticks, and the
rest of the element is left unread. -/
def analyseMetronome (node : Node) (anchor : Option Handle) : Analyser Handle := do
  match ← readMetronome node node.children with
  | (none, _) => addObject node anchor (.metronome (.ticks 60) false {})
  | (some mark, rest) =>
      let (hasParenthesis, rest) ← optionalWord "parenthesis" rest
      addMark node anchor rest (.metronome mark hasParenthesis)

/-- The analyser of an element that stands in music data. -/
def staffObjectAnalyser? (anchor : Option Handle) (kind : ElementKind) :
    Option (Node → Analyser (Option Handle)) :=
  match kind with
  | .note => some fun node => some <$> analyseNoteRest .note node anchor
  | .chordNote => some fun node => some <$> analyseNoteRest .chordNote node anchor
  | .rest => some fun node => some <$> analyseNoteRest .rest node anchor
  | .chord => some fun node => analyseChord node anchor
  | .clef => some fun node => some <$> analyseClef node anchor
  | .key => some fun node => some <$> analyseKey node anchor
  | .time => some fun node => some <$> analyseTime node anchor
  | .barline => some fun node => some <$> analyseBarline node anchor
  | .goBack => some fun node => analyseShift false node anchor
  | .goForward => some fun node => analyseShift true node anchor
  | .spacer => some fun node => analyseSpacer node anchor
  | .newSystem => some fun node => some <$> analyseNewSystem node anchor
  | .metronome => some fun node => some <$> analyseMetronome node anchor
  | .text => some fun node => analyseText node anchor
  | _ => none

end LdpScore.Analyser
