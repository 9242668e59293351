import LdpScore.Analysis.ScoreOption
import LdpScore.Analysis.StaffObject

/-!
# Documents, scores and instruments

Everything above the music data.  A document has a content of blocks: paragraphs,
headings, texts and scores.  A score has titles, options and instruments, and
nothing is carried from one instrument into the next.
-/

namespace LdpScore

def validVersions : List (String × Nat) :=
  [("1.5", 105), ("1.6", 106), ("1.7", 107), ("2.0", 200), ("2.1", 201)]

/-- The number of a version: `100 * major + minor`. -/
def versionNumber? (version : String) : Option Nat :=
  validVersions.lookup version

def versionText (version : Nat) : String :=
  s!"{version / 100}.{version % 100}"

namespace Analyser

/-! ## Texts of a document -/

/-- A text item; nothing if its string is missing. -/
def analyseTextItem (node : Node) (anchor : Option Handle) : Analyser (Option Handle) := do
  match ← mandatory node .string node.children with
  | (none, _) => return none
  | (some text, rest) =>
      reportExtra node rest
      return some (← addObject node anchor (.textItem text.text))

/-- The analyser of what stands in a line of text. -/
def inlineAnalyser? (anchor : Handle) (kind : ElementKind) : Option (Node → Analyser Unit) :=
  match kind with
  | .textItem => some fun node => discard (analyseTextItem node (some anchor))
  | .string => some fun node => discard (addObject node (some anchor) (.textItem node.text))
  | _ => none

def analyseParagraph (node : Node) (anchor : Option Handle) : Analyser Handle := do
  let handle ← addObject node anchor .paragraph
  analyseEach (inlineAnalyser? handle) node.children
  return handle

/-- The level of a heading; the first one if its number is missing. -/
def headingLevel : Option Node → Analyser Int
  | some number => integerValue number 1
  | none => return 1

def analyseHeading (node : Node) (anchor : Option Handle) : Analyser Handle := do
  let (number, rest) ← mandatory node .number node.children
  let level ← headingLevel number
  let handle ← addObject node anchor (.heading level)
  analyseEach (inlineAnalyser? handle) rest
  return handle

/-- Reads the alignment of a title, if the next child is a label. -/
def optionalAlignment (children : List Node) : Analyser (Alignment × List Node) := do
  match take? .label children with
  | (some label, rest) => return (← alignmentValue label, rest)
  | (none, rest) => return (.left, rest)

/-- A title; nothing if its string is missing. -/
def analyseTitle (node : Node) (anchor : Option Handle) : Analyser (Option Handle) := do
  let (alignment, rest) ← optionalAlignment node.children
  match ← mandatory node .string rest with
  | (none, _) => return none
  | (some text, rest) =>
      let appearance ← textLocation {} rest
      return some (← addObject node anchor (.title text.text alignment appearance))

/-! ## Instruments -/

def analyseMusicData (node : Node) (anchor : Option Handle) : Analyser Handle := do
  let handle ← addObject node anchor .musicData
  let analyserOf := fun kind =>
    (staffObjectAnalyser? (some handle) kind).map fun analyser node => discard (analyser node)
  analyseEach analyserOf node.children
  return handle

/-- Reads how many staves an instrument has. -/
def analyseStaves (node : Node) : Analyser Unit := do
  let value := firstText node
  match Decimal.leadingInteger? value.toList with
  | some staves =>
      if 1 ≤ staves then modifyContext fun context => { context with staves := staves.toNat }
      else
        report node.location (.invalidStaves value)
        modifyContext fun context => { context with staves := 1 }
  | none =>
      report node.location (.invalidStaves value)
      modifyContext fun context => { context with staves := 1 }

/-- Adds the text of a name, if the next child is one, and returns it. -/
def optionalText (kind : ElementKind) (anchor : Handle) (children : List Node) :
    Analyser (Option String × List Node) := do
  match take? kind children with
  | (none, rest) => return (none, rest)
  | (some node, rest) =>
      let handle ← analyseText node (some anchor)
      let model ← model
      let text := match handle.bind model.content? with
        | some (.scoreText text _) => some text
        | _ => none
      return (text, rest)

/-- Reads what an instrument says before its music data and returns the rest. -/
def instrumentHead (instrument : Handle) (children : List Node) : Analyser (List Node) := do
  let (name, rest) ← optionalText .instrumentName instrument children
  let (abbreviation, rest) ← optionalText .abbreviation instrument rest
  let (stavesNode, rest) := take? .staves rest
  analyseOptional analyseStaves stavesNode
  let staves := (← context).staves
  modifyModel fun model =>
    model.modifyContent instrument fun _ => .instrument name abbreviation staves
  return rest

/-- An instrument.  What was open before it is given up. -/
def analyseInstrument (node : Node) (anchor : Option Handle) : Analyser Handle := do
  clearPending
  modifyContext Context.startInstrument
  let handle ← addObject node anchor (.instrument none none 1)
  let rest ← instrumentHead handle node.children
  let (musicData, rest) ← mandatory node .musicData rest
  analyseOptional (fun music => discard (analyseMusicData music (some handle))) musicData
  reportExtra node rest
  return handle

/-! ## Scores -/

def analyseVersion (node : Node) : Analyser Unit := do
  let version := firstText node
  match versionNumber? version with
  | some number => modifyContext fun context => { context with version := number }
  | none =>
      report node.location (.invalidVersion version)
      modifyContext fun context => { context with version := Context.defaultVersion }

/-- Analyses the titles at the front of some children and returns the rest. -/
def leadingTitles (score : Handle) : List Node → Analyser (List Node)
  | [] => pure []
  | child :: rest => do
      if child.is .title then
        discard (analyseTitle child (some score))
        leadingTitles score rest
      else return child :: rest

/-- Analyses the options at the front of some children and returns the rest. -/
def leadingOptions (score : Handle) : List Node → Analyser (List Node)
  | [] => pure []
  | child :: rest => do
      if child.is .option then
        discard (analyseOption child (some score))
        leadingOptions score rest
      else return child :: rest

/-- The analyser of an instrument of a score. -/
def instrumentAnalyser? (anchor : Handle) (kind : ElementKind) : Option (Node → Analyser Unit) :=
  if kind = .instrument then some fun node => discard (analyseInstrument node (some anchor))
  else none

/-- Reads what a score says before its instruments and returns the rest. -/
def scoreHead (node : Node) (score : Handle) : Analyser (List Node) := do
  let (versionNode, rest) ← mandatory node .version node.children
  analyseOptional analyseVersion versionNode
  let version := versionText (← context).version
  let (languageNode, rest) := take? .language rest
  modifyModel fun model =>
    model.modifyContent score fun _ => .score version (languageNode.map firstText)
  let rest ← leadingTitles score rest
  let (cursor, rest) := take? .cursor rest
  analyseOptional (fun cursor => report cursor.location .obsoleteCursor) cursor
  leadingOptions score rest

/-- Reports an instrument missing if no children are left. -/
def requireInstrument (node : Node) : List Node → Analyser Unit
  | [] => reportMissing node .instrument
  | _ :: _ => pure ()

def analyseScore (node : Node) (anchor : Option Handle) : Analyser Handle := do
  modifyContext fun context => { context with version := Context.defaultVersion }
  let handle ← addObject node anchor (.score "" none)
  let rest ← scoreHead node handle
  requireInstrument node rest
  analyseEach (instrumentAnalyser? handle) rest
  return handle

/-! ## Documents -/

def blockAnalyser? (anchor : Handle) (kind : ElementKind) : Option (Node → Analyser Unit) :=
  match kind with
  | .score => some fun node => discard (analyseScore node (some anchor))
  | .paragraph => some fun node => discard (analyseParagraph node (some anchor))
  | .heading => some fun node => discard (analyseHeading node (some anchor))
  | .textItem => some fun node => discard (analyseTextItem node (some anchor))
  | _ => none

def analyseContent (node : Node) (anchor : Option Handle) : Analyser Handle := do
  let handle ← addObject node anchor .body
  analyseEach (blockAnalyser? handle) node.children
  return handle

/-- A document; nothing if it has no version. -/
def analyseDocument (node : Node) (anchor : Option Handle) : Analyser (Option Handle) := do
  match ← mandatory node .version node.children with
  | (none, _) => return none
  | (some version, rest) =>
      let (language, rest) := take? .language rest
      let handle ← addObject node anchor (.document (firstText version) (language.map firstText))
      let (content, rest) ← mandatory node .content rest
      analyseOptional (fun content => discard (analyseContent content (some handle))) content
      reportExtra node rest
      return some handle

end Analyser

end LdpScore
