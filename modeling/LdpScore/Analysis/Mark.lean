import LdpScore.Analysis.Appearance

/-!
# Marks and texts

Articulations, dynamics, fermatas, texts and lyrics.  They are attached to the
object that anchors them.
-/

namespace LdpScore.Analyser

/-- A placement, if the next child is a label. -/
def optionalPlacement (children : List Node) : Analyser (Placement × List Node) := do
  match take? .label children with
  | (some label, rest) => return (← placementValue label .above, rest)
  | (none, rest) => return (.default, rest)

/-- Reads print options up to the end of an element and adds its object. -/
def addMark (node : Node) (anchor : Option Handle) (children : List Node)
    (content : Appearance → Content) : Analyser Handle := do
  let (appearance, rest) ← printOptions {} children
  reportExtra node rest
  addObject node anchor (content appearance)

def analyseArticulation (kind : ElementKind) (node : Node) (anchor : Option Handle) :
    Analyser Handle := do
  let (placement, rest) ← optionalPlacement node.children
  addMark node anchor rest (.articulation kind placement)

/-- A dynamics mark; nothing if the mark is missing or unknown. -/
def analyseDynamics (node : Node) (anchor : Option Handle) : Analyser (Option Handle) := do
  match ← mandatory node .string node.children with
  | (none, _) => return none
  | (some mark, rest) =>
      if dynamicsMarks.contains mark.text then
        let (placement, rest) ← optionalPlacement rest
        return some (← addMark node anchor rest (.dynamics mark.text placement))
      else
        report node.location (.unsupportedDynamics mark.text)
        return none

/-- The symbol and placement of a fermata.  A first label that is neither is
reported, and the label after it is still read as a placement. -/
def fermataLabels (node : Node) (children : List Node) :
    Analyser (FermataSymbol × Placement × List Node) := do
  match take? .label children with
  | (none, rest) => return (.normal, .default, rest)
  | (some label, rest) =>
      match FermataSymbol.ofName? label.text with
      | some symbol =>
          let (placement, rest) ← optionalPlacement rest
          return (symbol, placement, rest)
      | none =>
          if label.text = "above" then return (.normal, .above, rest)
          else if label.text = "below" then return (.normal, .below, rest)
          else if (take? .label rest).1.isSome then
            let (placement, rest) ← optionalPlacement rest
            report node.location (.unsupportedSymbol label.text)
            return (.normal, placement, rest)
          else
            report node.location (.unsupportedParameter label.text)
            return (.normal, .default, rest)

def analyseFermata (node : Node) (anchor : Option Handle) : Analyser Handle := do
  let (symbol, placement, rest) ← fermataLabels node node.children
  addMark node anchor rest (.fermata symbol placement)

/-- A text; nothing if its string is missing. -/
def analyseText (node : Node) (anchor : Option Handle) : Analyser (Option Handle) := do
  match ← mandatory node .string node.children with
  | (none, _) => return none
  | (some text, rest) =>
      let appearance ← textLocation {} rest
      return some (← addObject node anchor (.scoreText text.text appearance))

/-- The strings at the front of some children. -/
def leadingStrings : List Node → List String × List Node
  | [] => ([], [])
  | child :: rest =>
      if child.is .string then
        let (others, rest) := leadingStrings rest
        (child.text :: others, rest)
      else ([], child :: rest)

/-- What stands between the syllables of a lyric and its print options. -/
structure LyricOptions where
  hasHyphen : Bool := false
  /-- Whether a line is drawn under the notes that follow. -/
  hasMelisma : Bool := false
  /-- The placement, if it is given. -/
  placement : Option Placement := none
deriving DecidableEq, Repr

/-- Reads the label after the syllables of a lyric: a hyphen or a placement. -/
def lyricLabel (children : List Node) : Analyser (LyricOptions × List Node) := do
  match take? .label children with
  | (none, rest) => return ({}, rest)
  | (some label, rest) =>
      match label.text with
      | "-" => return ({ hasHyphen := true }, rest)
      | "above" => return ({ placement := some .above }, rest)
      | "below" => return ({ placement := some .below }, rest)
      | value =>
          report label.location (.unknownLyricParameter value)
          return ({}, rest)

/-- Reads what stands between the syllables of a lyric and its print options. -/
def lyricOptions (children : List Node) : Analyser (LyricOptions × List Node) := do
  let (options, rest) ← lyricLabel children
  if options.placement.isSome then return (options, rest)
  else
    let (melisma, rest) := take? .melisma rest
    let options := { options with hasMelisma := melisma.isSome }
    match take? .label rest with
    | (some label, rest) =>
        let placement ← placementValue label .below
        return ({ options with placement := some placement }, rest)
    | (none, rest) => return (options, rest)

/-- Reads the line of a lyric; it is the first one if none is given. -/
def lyricLine (children : List Node) : Analyser (Int × List Node) := do
  match take? .number children with
  | (some label, rest) =>
      let line ← integerValue label 1
      return (line, rest)
  | (none, rest) => return (1, rest)

/-- The placement of a lyric.  One that is given holds for the later lyrics of the
same line too. -/
def choosePlacement (line : Int) : Option Placement → Analyser Placement
  | some placement => do
      modifyContext fun context => context.setLyricPlacement line placement
      return placement
  | none => do
      return (← context).lyricPlacement line

/-- A lyric; nothing if it has no syllables or its anchor is no note. -/
def analyseLyric (node : Node) (anchor : Option Handle) : Analyser (Option Handle) := do
  let current ← model
  let note := anchor.filter fun handle => (current.note? handle).isSome
  let (line, rest) ← lyricLine node.children
  let (syllables, rest) := leadingStrings rest
  if syllables.isEmpty then
    report node.location .missingSyllable
    return none
  else
    let (options, rest) ← lyricOptions rest
    let placement ← choosePlacement line options.placement
    let (appearance, rest) ← printOptions {} rest
    reportExtra node rest
    match note with
    | some note =>
        let content := Content.lyric line syllables options.hasHyphen options.hasMelisma
          placement appearance
        return some (← addObject node (some note) content)
    | none =>
        report node.location .detachedLyric
        return none

/-- The analyser of an attachment of a note, rest or spacer. -/
def attachmentAnalyser? (anchor : Handle) (kind : ElementKind) : Option (Node → Analyser Unit) :=
  if kind = .fermata then some fun node => discard (analyseFermata node (some anchor))
  else if kind = .dynamics then some fun node => discard (analyseDynamics node (some anchor))
  else if kind = .text then some fun node => discard (analyseText node (some anchor))
  else if ElementKind.articulations.contains kind then
    some fun node => discard (analyseArticulation kind node (some anchor))
  else none

/-- The analyser of an attachment of any other staff object: only texts. -/
def textAnalyser? (anchor : Handle) (kind : ElementKind) : Option (Node → Analyser Unit) :=
  if kind = .text then some fun node => discard (analyseText node (some anchor)) else none

end LdpScore.Analyser
