/-!
# Kinds of element

Every element of LDP has a name, and the names that LDP knows are listed here.
Three kinds are not elements but leaves: labels, numbers and strings.  The order
of the list is the order in which alternatives are shown to a reader.
-/

namespace LdpScore

/-- The kinds of element and leaf that LDP knows. -/
inductive ElementKind where
  | label
  | number
  | string
  | document
  | version
  | language
  | content
  | paragraph
  | heading
  | textItem
  | score
  | title
  | option
  | cursor
  | instrument
  | instrumentName
  | abbreviation
  | staves
  | musicData
  | note
  | chordNote
  | rest
  | chord
  | clef
  | key
  | time
  | barline
  | goBack
  | goForward
  | spacer
  | newSystem
  | metronome
  | tie
  | slur
  | beam
  | tuplet
  | timeModification
  | stem
  | voice
  | staffNumber
  | visible
  | color
  | dx
  | dy
  | symbolSize
  | displayBracket
  | displayNumber
  | bezier
  | startX
  | startY
  | endX
  | endY
  | ctrol1X
  | ctrol1Y
  | ctrol2X
  | ctrol2Y
  | fermata
  | dynamics
  | text
  | lyric
  | melisma
  | accent
  | legatoDuro
  | marccato
  | marccatoLegato
  | marccatoStaccato
  | marccatoStaccatissimo
  | mezzoStaccato
  | mezzoStaccatissimo
  | staccato
  | staccatoDuro
  | staccatissimoDuro
  | staccatissimo
  | tenuto
  | stress
  | unstress
deriving DecidableEq, Repr

namespace ElementKind

/-- All kinds in order. -/
def all : List ElementKind :=
  [.label, .number, .string, .document, .version, .language, .content, .paragraph, .heading,
   .textItem, .score, .title, .option, .cursor, .instrument, .instrumentName, .abbreviation,
   .staves, .musicData, .note, .chordNote, .rest, .chord, .clef, .key, .time, .barline, .goBack,
   .goForward, .spacer, .newSystem, .metronome, .tie, .slur, .beam, .tuplet, .timeModification,
   .stem, .voice, .staffNumber, .visible, .color, .dx, .dy, .symbolSize, .displayBracket,
   .displayNumber, .bezier, .startX, .startY, .endX, .endY, .ctrol1X, .ctrol1Y, .ctrol2X,
   .ctrol2Y, .fermata, .dynamics, .text, .lyric, .melisma, .accent, .legatoDuro, .marccato,
   .marccatoLegato, .marccatoStaccato, .marccatoStaccatissimo, .mezzoStaccato,
   .mezzoStaccatissimo, .staccato, .staccatoDuro, .staccatissimoDuro, .staccatissimo, .tenuto,
   .stress, .unstress]

/-- The name by which LDP text refers to a kind. -/
def name : ElementKind → String
  | .label => "label"
  | .number => "number"
  | .string => "string"
  | .document => "lenmusdoc"
  | .version => "vers"
  | .language => "language"
  | .content => "content"
  | .paragraph => "para"
  | .heading => "heading"
  | .textItem => "txt"
  | .score => "score"
  | .title => "title"
  | .option => "opt"
  | .cursor => "cursor"
  | .instrument => "instrument"
  | .instrumentName => "name"
  | .abbreviation => "abbrev"
  | .staves => "staves"
  | .musicData => "musicData"
  | .note => "n"
  | .chordNote => "na"
  | .rest => "r"
  | .chord => "chord"
  | .clef => "clef"
  | .key => "key"
  | .time => "time"
  | .barline => "barline"
  | .goBack => "goBack"
  | .goForward => "goFwd"
  | .spacer => "spacer"
  | .newSystem => "newSystem"
  | .metronome => "metronome"
  | .tie => "tie"
  | .slur => "slur"
  | .beam => "beam"
  | .tuplet => "t"
  | .timeModification => "tm"
  | .stem => "stem"
  | .voice => "voice"
  | .staffNumber => "staffNum"
  | .visible => "visible"
  | .color => "color"
  | .dx => "dx"
  | .dy => "dy"
  | .symbolSize => "symbolSize"
  | .displayBracket => "displayBracket"
  | .displayNumber => "displayNumber"
  | .bezier => "bezier"
  | .startX => "start-x"
  | .startY => "start-y"
  | .endX => "end-x"
  | .endY => "end-y"
  | .ctrol1X => "ctrol1-x"
  | .ctrol1Y => "ctrol1-y"
  | .ctrol2X => "ctrol2-x"
  | .ctrol2Y => "ctrol2-y"
  | .fermata => "fermata"
  | .dynamics => "dyn"
  | .text => "text"
  | .lyric => "lyric"
  | .melisma => "melisma"
  | .accent => "accent"
  | .legatoDuro => "legato-duro"
  | .marccato => "marccato"
  | .marccatoLegato => "marccato-legato"
  | .marccatoStaccato => "marccato-staccato"
  | .marccatoStaccatissimo => "marccato-staccatissimo"
  | .mezzoStaccato => "mezzo-staccato"
  | .mezzoStaccatissimo => "mezzo-staccatissimo"
  | .staccato => "staccato"
  | .staccatoDuro => "staccato-duro"
  | .staccatissimoDuro => "staccatissimo-duro"
  | .staccatissimo => "staccatissimo"
  | .tenuto => "tenuto"
  | .stress => "stress"
  | .unstress => "unstress"

def ofName? (name : String) : Option ElementKind :=
  all.find? fun kind => kind.name == name

/-- Marks of articulation on a note or rest. -/
def articulations : List ElementKind :=
  [.accent, .legatoDuro, .marccato, .marccatoLegato, .marccatoStaccato, .marccatoStaccatissimo,
   .mezzoStaccato, .mezzoStaccatissimo, .staccato, .staccatoDuro, .staccatissimoDuro,
   .staccatissimo, .tenuto, .stress, .unstress]

/-- What may be attached to a note, a rest or a spacer. -/
def attachments : List ElementKind :=
  [.fermata, .dynamics, .text] ++ articulations

/-- What may stand in music data. -/
def musicDataContent : List ElementKind :=
  [.note, .chordNote, .rest, .chord, .clef, .key, .time, .barline, .goBack, .goForward, .spacer,
   .newSystem, .metronome, .text]

/-- What may stand in the content of a document. -/
def blocks : List ElementKind :=
  [.paragraph, .heading, .textItem, .score]

end ElementKind

end LdpScore
