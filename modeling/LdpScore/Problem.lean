import LdpScore.ElementKind

/-!
# Problems

A problem is something wrong in well-formed LDP text that does not stop the
analysis.  Each constructor of `Problem` is one cause; `Problem.message` words it
for a reader.
-/

namespace LdpScore

/-- The relations that are closed by matching correlation numbers. -/
inductive PairedRelation where
  | tie
  | slur
  | beam
  | tuplet
deriving DecidableEq, Repr, Inhabited

namespace PairedRelation

/-- The relation in the middle of a sentence. -/
def word : PairedRelation → String
  | .tie => "tie"
  | .slur => "slur"
  | .beam => "beam"
  | .tuplet => "tuplet"

/-- The relation at the start of a sentence. -/
def title : PairedRelation → String
  | .tie => "Tie"
  | .slur => "Slur"
  | .beam => "Beam"
  | .tuplet => "Tuplet"

end PairedRelation

/-- What may be wrong in well-formed LDP text. -/
inductive Problem where
  -- Elements and their parameters
  | badId (tag : String)
  | idTaken
  | missingAnalyser (name : String)
  | missingElement (parent : String) (kind : ElementKind)
  | misplaced (description : String)
  | tooManyParameters (element extra : String)
  -- Values
  | invalidInteger (value : String) (default : Int)
  | invalidReal (value : String)
  | invalidBoolean (value : String) (default : Bool)
  | invalidYesNo (value : String)
  | unknownPlacement (value replacement : String)
  | invalidAlignment (value : String)
  | unknownNoteValue (value : String)
  | invalidStaffLabel (value : String)
  | invalidStaffNumber (value : String)
  | invalidVoiceLabel (value : String)
  -- Documents, scores and instruments
  | invalidVersion (version : String)
  | obsoleteCursor
  | invalidStaves (value : String)
  | missingOptionValue (name : String)
  | unknownOption (name : String)
  | invalidOptionValue (name : String)
  -- Staff objects
  | unknownClef (name : String)
  | invalidSymbolSize (name : String)
  | unknownKey (name : String)
  | invalidTimeStyle (name : String)
  | unknownBarline (name : String)
  | forwardToStart
  | backToEnd
  | unknownShift (value : String)
  | negativeShift
  | missingSpacerWidth
  | incompleteMetronome
  | missingMetronome
  -- Attached marks
  | unsupportedDynamics (mark : String)
  | unsupportedSymbol (name : String)
  | unsupportedParameter (name : String)
  | missingSyllable
  | unknownLyricParameter (value : String)
  | detachedLyric
  -- Notes and rests
  | unknownPitch (value : String)
  | invalidStem (value : String)
  | invalidAbbreviation (value : String)
  | tupletAlreadyOpen
  | beamTooLong
  | beamAlreadyOpen
  | beamNotOpen
  -- Descriptors of relations
  | invalidTieType
  | invalidSlurType
  | invalidBeamNumber
  | invalidBeamType
  | invalidTupletType
  | missingActualNotes
  | missingNormalNotes
  | invalidColor
  -- Pairing of relations
  | alreadyOnElement (relation : PairedRelation) (line : Nat)
  | alreadyStarted (relation : PairedRelation) (line : Nat)
  | neverStarted (relation : PairedRelation) (number : Int)
  | neverEnded (relation : PairedRelation) (number : Int)
  | incompatibleTie (number : Int)
  | unmatchedLegacyTie
  | unmatchedLegacyBeam
deriving DecidableEq, Repr, Inhabited

namespace Problem

def message : Problem → String
  | badId tag => s!"Bad id in name '{tag}'."
  | idTaken => "Value for id already exists. Ignored."
  | missingAnalyser name => s!"Missing analyser for element '{name}'. Node ignored."
  | missingElement parent kind => s!"{parent}: missing mandatory element '{kind.name}'."
  | misplaced description =>
      s!"Element '{description}' unknown or not possible here. Ignored."
  | tooManyParameters element extra =>
      s!"Element '{element}': too many parameters. Extra parameters from '{extra}' " ++
        "have been ignored."
  | invalidInteger value default => s!"Invalid integer number '{value}'. Replaced by '{default}'."
  | invalidReal value => s!"Invalid real number '{value}'. Replaced by '0'."
  | invalidBoolean value default =>
      let replacement := if default then "1" else "0"
      s!"Invalid boolean value '{value}'. Replaced by '{replacement}'."
  | invalidYesNo value => s!"Invalid yes/no value '{value}'. Replaced by default."
  | unknownPlacement value replacement =>
      s!"Unknown value '{value}' for <placement>. Replaced by '{replacement}'."
  | invalidAlignment value => s!"Invalid alignment value '{value}'. Assumed 'center'."
  | unknownNoteValue value => s!"Unknown note/rest duration '{value}'. Replaced by 'q'."
  | invalidStaffLabel value => s!"Invalid staff 'p{value}'. Replaced by 'p1'."
  | invalidStaffNumber value => s!"Invalid staff '{value}'. Replaced by 'p1'."
  | invalidVoiceLabel value => s!"Invalid voice 'v{value}'. Replaced by 'v1'."
  | invalidVersion version => s!"Invalid score version '{version}'. Version 1.6 assumed."
  | obsoleteCursor =>
      "'cursor' in score is obsolete. Now must be in 'lenmusdoc' element. Ignored."
  | invalidStaves value => s!"Invalid value '{value}' for staves. Replaced by 1."
  | missingOptionValue name => s!"Missing value for option '{name}'. Option ignored."
  | unknownOption name => s!"Invalid option '{name}'. Option ignored."
  | invalidOptionValue name => s!"Invalid value for option '{name}'. Option ignored."
  | unknownClef name => s!"Unknown clef type '{name}'. Assumed 'G'."
  | invalidSymbolSize name => s!"Invalid symbol size '{name}'. 'full' size assumed."
  | unknownKey name => s!"Unknown key '{name}'. Assumed 'C'."
  | invalidTimeStyle name => s!"Time signature: invalid type '{name}'. 'normal' assumed."
  | unknownBarline name => s!"Unknown barline type '{name}'. 'simple' barline assumed."
  | forwardToStart =>
      "Element 'goFwd' has an incoherent value: go forward to start?. Element ignored."
  | backToEnd =>
      "Element 'goBack' has an incoherent value: go backwards to end?. Element ignored."
  | unknownShift value => s!"Unknown duration '{value}'. Element ignored."
  | negativeShift => "Negative value for element 'goFwd/goBack'. Element ignored."
  | missingSpacerWidth => "Missing width for spacer. Spacer ignored."
  | incompleteMetronome => "Error in metronome parameters. Replaced by '(metronome 60)'."
  | missingMetronome => "Missing metronome parameters. Replaced by '(metronome 60)'."
  | unsupportedDynamics mark => s!"Dynamics string '{mark}' not supported. <dyn> ignored."
  | unsupportedSymbol name => s!"Symbol '{name}' not supported. Ignored."
  | unsupportedParameter name => s!"Parameter '{name}' not supported. Ignored."
  | missingSyllable => "<lyric>: Missing syllable text. <lyric> ignored."
  | unknownLyricParameter value => s!"<lyric>: Unknown parameter '{value}'. Ignored."
  | detachedLyric => "<lyric> is not attached to a note. It will be ignored."
  | unknownPitch value => s!"Unknown note pitch '{value}'. Replaced by 'c4'."
  | invalidStem value => s!"Invalid value '{value}' for stem type. Default stem asigned."
  | invalidAbbreviation value => s!"Invalid parameter '{value}'. Ignored."
  | tupletAlreadyOpen =>
      "Requesting to start a tuplet but there is already an open tuplet. Tuplet ignored."
  | beamTooLong => "Requesting beaming a note longer than eighth. Beam ignored."
  | beamAlreadyOpen =>
      "Requesting to start a beam (g+) but there is already an open beam. Beam ignored."
  | beamNotOpen =>
      "Requesting to end a beam (g-) but there is no matching g+. Beam ignored."
  | invalidTieType => "Missing or invalid tie type. Tie ignored."
  | invalidSlurType => "Missing or invalid slur type. Slur ignored."
  | invalidBeamNumber => "Missing or invalid beam number. Beam ignored."
  | invalidBeamType => "Missing or invalid beam type. Beam ignored."
  | invalidTupletType => "Missing or invalid tuplet type. Tuplet ignored."
  | missingActualNotes => "Tuplet: missing or invalid actual notes number. Tuplet ignored."
  | missingNormalNotes => "Tuplet: Missing or invalid normal notes number. Tuplet ignored."
  | invalidColor => "Missing or invalid color value. Must be #rrggbbaa. Color ignored."
  | alreadyOnElement relation line =>
      s!"A {relation.word} with the same number is already defined for this element in " ++
        s!"line {line}. This {relation.word} will be ignored."
  | alreadyStarted relation line =>
      s!"This {relation.word} has the same number than that defined in line {line}. " ++
        s!"This {relation.word} will be ignored."
  | neverStarted relation number =>
      s!"No 'start/continue' elements for {relation.word} number {number}. " ++
        s!"{relation.title} ignored."
  | neverEnded relation number =>
      s!"No 'end' element for {relation.word} number {number}. {relation.title} ignored."
  | incompatibleTie number =>
      "Requesting to tie notes of different voice or pitch. " ++
        s!"Tie number {number} will be ignored."
  | unmatchedLegacyTie => "No note found to match old syntax tie. Tie ignored."
  | unmatchedLegacyBeam => "No matching 'g-' element for 'g+'. Beam ignored."

end Problem

end LdpScore
