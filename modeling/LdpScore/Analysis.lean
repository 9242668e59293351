import LdpScore.Analysis.Document
import LdpScore.Node.Reader
import LdpScore.Token.Lexer

/-!
# Analysis of LDP text

`Analyser.analyseNode` analyses any element, `analyse` a whole tree, and
`analyseSource` a text.  Only text that is not well formed is an error; every other
problem is a diagnostic, and there is a model all the same.
-/

namespace LdpScore

/-- What the analysis of one element gives. -/
inductive Analysed where
  | object (handle : Handle)
  | tie (point : TiePoint)
  | slur (point : SlurPoint)
  | beam (point : BeamPoint)
  | tuplet (point : TupletPoint)
  | timeModification (modification : TimeModification)
  | color (color : Color)
  | bezier (bezier : Bezier)
  | nothing
deriving DecidableEq, Repr

namespace Analysed

/-- What an analysis gives when it may give nothing. -/
def ofOption {Value : Type} (wrap : Value → Analysed) : Option Value → Analysed
  | some value => wrap value
  | none => nothing

end Analysed

namespace Analyser

/-- Analyses an element of a known kind.  Leaves and properties have no analysis. -/
def analyserOf? (kind : ElementKind) (anchor : Option Handle) : Option (Node → Analyser Analysed) :=
  match kind with
  | .document => some fun node => .ofOption .object <$> analyseDocument node anchor
  | .version => some fun node => do
      analyseVersion node
      return .nothing
  | .language => some fun _ => pure .nothing
  | .content => some fun node => .object <$> analyseContent node anchor
  | .paragraph => some fun node => .object <$> analyseParagraph node anchor
  | .heading => some fun node => .object <$> analyseHeading node anchor
  | .textItem => some fun node => .ofOption .object <$> analyseTextItem node anchor
  | .score => some fun node => .object <$> analyseScore node anchor
  | .title => some fun node => .ofOption .object <$> analyseTitle node anchor
  | .option => some fun node => .ofOption .object <$> analyseOption node anchor
  | .cursor => some fun _ => pure .nothing
  | .instrument => some fun node => .object <$> analyseInstrument node anchor
  | .instrumentName => some fun node => .ofOption .object <$> analyseText node anchor
  | .abbreviation => some fun node => .ofOption .object <$> analyseText node anchor
  | .staves => some fun node => do
      analyseStaves node
      return .nothing
  | .musicData => some fun node => .object <$> analyseMusicData node anchor
  | .tie => some fun node => .ofOption .tie <$> analyseTie node anchor
  | .slur => some fun node => .ofOption .slur <$> analyseSlur node anchor
  | .beam => some fun node => .ofOption .beam <$> analyseBeam node anchor
  | .tuplet => some fun node => .ofOption .tuplet <$> analyseTuplet node anchor
  | .timeModification => some fun node =>
      .ofOption .timeModification <$> analyseTimeModification node
  | .color => some fun node => .ofOption .color <$> analyseColor node
  | .bezier => some fun node => .bezier <$> analyseBezier node
  | .fermata => some fun node => .object <$> analyseFermata node anchor
  | .dynamics => some fun node => .ofOption .object <$> analyseDynamics node anchor
  | .lyric => some fun node => .ofOption .object <$> analyseLyric node anchor
  | kind =>
      if ElementKind.articulations.contains kind then
        some fun node => .object <$> analyseArticulation kind node anchor
      else
        (staffObjectAnalyser? anchor kind).map fun analyser node =>
          .ofOption .object <$> analyser node

/-- Analyses an element below an anchor, if there is one. -/
def analyseNode (node : Node) (anchor : Option Handle) : Analyser Analysed := do
  match node.kind?.bind fun kind => analyserOf? kind anchor with
  | some analyser => analyser node
  | none =>
      report node.location (.missingAnalyser node.name)
      return .nothing

/-- Analyses a whole tree.  Its object, if it has one, becomes the root. -/
def analyseRoot (root : Node) : Analyser Unit := do
  match ← analyseNode root none with
  | .object handle => modifyModel fun model => model.setRoot handle
  | _ => pure ()
  clearPending

end Analyser

/-- The model of a tree, and what was reported about it. -/
def analyse (root : Node) : Model × Array Diagnostic :=
  let (_, state) := (Analyser.analyseRoot root).run {}
  (state.draft.model, state.draft.diagnostics)

/-- The outcome of analysing a text. -/
structure SourceAnalysis where
  /-- The model, or why there is none. -/
  result : Except SyntaxError Model
  /-- What was reported, in order. -/
  diagnostics : Array Diagnostic

def analyseSource (source file : String) : SourceAnalysis :=
  let reading := Node.read (Token.lex source file)
  match reading.result with
  | .error error => ⟨.error error, reading.diagnostics⟩
  | .ok root =>
      let (model, diagnostics) := analyse root
      ⟨.ok model, reading.diagnostics ++ diagnostics⟩

end LdpScore
