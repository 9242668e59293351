import LdpScore.ElementKind
import LdpScore.Notation.Appearance
import LdpScore.Notation.BeamLevels
import LdpScore.Notation.Duration
import LdpScore.Notation.Pitch
import LdpScore.Notation.Symbol

/-!
# What a score consists of

`Content` lists the kinds of object in a score, from whole documents down to
single marks, with what each of them records.  Objects are referred to by
handles, which count objects in the order of their creation.

Most objects stand in a tree.  Ties, slurs, beams, tuplets and chords do not:
they list their members instead.
-/

namespace LdpScore

/-- The number of an object in the order of creation, from zero. -/
abbrev Handle := Nat

/-- What notes and rests have in common. -/
structure NoteRest where
  value : NoteValue
  voice : Int := 1
  /-- When it starts, in time units from the start of its instrument. -/
  onset : Float := 0
  timeModification : Option TimeModification := none
  /-- Whether the text gives that modification itself. -/
  isModificationExplicit : Bool := false
  appearance : Appearance := {}
deriving DecidableEq, Repr

/-- How many time units a note or rest lasts. -/
def NoteRest.duration (noteRest : NoteRest) : Float :=
  noteRest.value.units * (noteRest.timeModification.map TimeModification.ratio).getD 1

/-- A note. -/
structure Note where
  noteRest : NoteRest
  /-- Its pitch, unless it has none. -/
  pitch : Option Pitch
  stem : Stem := .default
  tieNext : Option Handle := none
  tiePrevious : Option Handle := none
  chord : Option Handle := none
deriving DecidableEq, Repr

/-- What a relation records about one of its members. -/
inductive Role where
  | tie (isStart : Bool) (bezier : Option Bezier)
  | slur (isStart : Bool) (bezier : Option Bezier)
  | beam (levels : BeamLevels)
  | tuplet
  | chord
deriving DecidableEq, Repr

/-- The members of a relation with their roles, in order. -/
abbrev Members := List (Handle × Role)

/-- The value of a score option. -/
inductive OptionValue where
  | bool (value : Bool)
  | long (value : Int)
  | float (value : Float32)
deriving DecidableEq, Repr

/-- Where the time cursor is moved. -/
inductive TimeShift where
  | toStart
  | toEnd
  | by (units : Float)
deriving DecidableEq, Repr

/-- A metronome mark. -/
inductive MetronomeMark where
  | ticks (perMinute : Int)
  | noteTicks (note : NoteValue) (perMinute : Int)
  | noteNote (left right : NoteValue)
deriving DecidableEq, Repr

/-- What an object of a score is. -/
inductive Content where
  | document (version : String) (language : Option String)
  | body
  | paragraph
  | heading (level : Int)
  | textItem (text : String)
  | score (version : String) (language : Option String)
  | title (text : String) (alignment : Alignment) (appearance : Appearance)
  | scoreOption (name : String) (value : OptionValue)
  | instrument (name abbreviation : Option String) (staves : Nat)
  | musicData
  | note (note : Note)
  | rest (rest : NoteRest)
  | clef (clef : Clef) (size : SymbolSize) (appearance : Appearance)
  | keySignature (key : Key) (appearance : Appearance)
  | timeSignature (style : TimeStyle) (top bottom : Nat) (appearance : Appearance)
  | barline (style : BarlineStyle) (isMiddle : Bool) (repeats : Nat) (appearance : Appearance)
  | goBackForward (isForward : Bool) (shift : TimeShift)
  | spacer (width : Float32) (appearance : Appearance)
  | systemBreak
  | metronome (mark : MetronomeMark) (hasParenthesis : Bool) (appearance : Appearance)
  | articulation (kind : ElementKind) (placement : Placement) (appearance : Appearance)
  | fermata (symbol : FermataSymbol) (placement : Placement) (appearance : Appearance)
  | dynamics (mark : String) (placement : Placement) (appearance : Appearance)
  | scoreText (text : String) (appearance : Appearance)
  | lyric (number : Int) (syllables : List String) (hasHyphen hasMelisma : Bool)
      (placement : Placement) (appearance : Appearance)
  | chord (members : Members)
  | tie (number : Int) (color : Option Color) (members : Members)
  | slur (number : Int) (color : Option Color) (members : Members)
  | beam (members : Members)
  | tuplet (actual normal : Nat) (bracket : YesNo) (number : NumberDisplay) (members : Members)
deriving DecidableEq, Repr

namespace Content

/-- The name of a kind of object in a listing. -/
def name : Content → String
  | document _ _ => "document"
  | body => "content"
  | paragraph => "paragraph"
  | heading _ => "heading"
  | textItem _ => "text-item"
  | score _ _ => "score"
  | title _ _ _ => "title"
  | scoreOption _ _ => "option"
  | instrument _ _ _ => "instrument"
  | musicData => "music-data"
  | note _ => "note"
  | rest _ => "rest"
  | clef _ _ _ => "clef"
  | keySignature _ _ => "key-signature"
  | timeSignature _ _ _ _ => "time-signature"
  | barline _ _ _ _ => "barline"
  | goBackForward _ _ => "go-back-fwd"
  | spacer _ _ => "spacer"
  | systemBreak => "system-break"
  | metronome _ _ _ => "metronome"
  | articulation _ _ _ => "articulation"
  | fermata _ _ _ => "fermata"
  | dynamics _ _ _ => "dynamics"
  | scoreText _ _ => "score-text"
  | lyric _ _ _ _ _ _ => "lyric"
  | chord _ => "chord"
  | tie _ _ _ => "tie"
  | slur _ _ _ => "slur"
  | beam _ => "beam"
  | tuplet _ _ _ _ _ => "tuplet"

/-- The note, if an object is one. -/
def note? : Content → Option Note
  | note it => some it
  | _ => none

/-- Changes an object if it is a note. -/
def mapNote (change : Note → Note) : Content → Content
  | note it => .note (change it)
  | other => other

def noteRest? : Content → Option NoteRest
  | note it => some it.noteRest
  | rest it => some it
  | _ => none

/-- Changes an object if it is a note or rest. -/
def mapNoteRest (change : NoteRest → NoteRest) : Content → Content
  | note it => .note { it with noteRest := change it.noteRest }
  | rest it => .rest (change it)
  | other => other

/-- How an object is shown, if it is visible at all. -/
def appearance? : Content → Option Appearance
  | note it => some it.noteRest.appearance
  | rest it => some it.appearance
  | title _ _ appearance => some appearance
  | clef _ _ appearance => some appearance
  | keySignature _ appearance => some appearance
  | timeSignature _ _ _ appearance => some appearance
  | barline _ _ _ appearance => some appearance
  | spacer _ appearance => some appearance
  | metronome _ _ appearance => some appearance
  | articulation _ _ appearance => some appearance
  | fermata _ _ appearance => some appearance
  | dynamics _ _ appearance => some appearance
  | scoreText _ appearance => some appearance
  | lyric _ _ _ _ _ appearance => some appearance
  | _ => none

def mapAppearance (change : Appearance → Appearance) : Content → Content
  | note it =>
      .note { it with noteRest := { it.noteRest with appearance := change it.noteRest.appearance } }
  | rest it => .rest { it with appearance := change it.appearance }
  | title text alignment appearance => title text alignment (change appearance)
  | clef kind size appearance => clef kind size (change appearance)
  | keySignature key appearance => keySignature key (change appearance)
  | timeSignature style top bottom appearance => timeSignature style top bottom (change appearance)
  | barline style isMiddle repeats appearance => barline style isMiddle repeats (change appearance)
  | spacer width appearance => spacer width (change appearance)
  | metronome mark hasParenthesis appearance => metronome mark hasParenthesis (change appearance)
  | articulation kind placement appearance => articulation kind placement (change appearance)
  | fermata symbol placement appearance => fermata symbol placement (change appearance)
  | dynamics mark placement appearance => dynamics mark placement (change appearance)
  | scoreText text appearance => scoreText text (change appearance)
  | lyric number syllables hasHyphen hasMelisma placement appearance =>
      lyric number syllables hasHyphen hasMelisma placement (change appearance)
  | other => other

/-- The members of an object, if it is a relation. -/
def members? : Content → Option Members
  | chord members => some members
  | tie _ _ members => some members
  | slur _ _ members => some members
  | beam members => some members
  | tuplet _ _ _ _ members => some members
  | _ => none

/-- Changes the members of an object if it is a relation. -/
def mapMembers (change : Members → Members) : Content → Content
  | chord members => chord (change members)
  | tie number color members => tie number color (change members)
  | slur number color members => slur number color (change members)
  | beam members => beam (change members)
  | tuplet actual normal bracket number members =>
      tuplet actual normal bracket number (change members)
  | other => other

/-- The name and value of an object, if it is a score option. -/
def option? : Content → Option (String × OptionValue)
  | scoreOption name value => some (name, value)
  | _ => none

end Content

end LdpScore
