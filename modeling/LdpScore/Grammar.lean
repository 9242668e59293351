import LdpScore.ElementKind

/-!
# The grammar of elements

Each element has a row of slots, one per position of its parameters.  A slot says
what it expects and how often.  `Grammar.entries` lists the grammar of every
element, and `Entry.describe` shows one entry as a production.
-/

namespace LdpScore.Grammar

/-- What a slot expects. -/
inductive Expectation where
  | label
  | number
  | string
  | color
  | yesNo
  | element (kind : ElementKind)
  | oneOf (kinds : List ElementKind)
deriving DecidableEq, Repr

/-- How often a slot is filled. -/
inductive Cardinality where
  | one
  | zeroOrOne
  | oneOrMore
  | zeroOrMore
deriving DecidableEq, Repr

/-- One position of the parameters of an element.  A repeated slot of
alternatives takes every remaining child; a repeated slot of one element ends at
the first other child. -/
structure Slot where
  name : String
  expectation : Expectation
  cardinality : Cardinality
deriving DecidableEq, Repr

/-- The grammar of one element. -/
structure Entry where
  kind : ElementKind
  slots : List Slot
  /-- Whether the element is analysed on its own.  A property has no analysis;
  the element around it reads it in place. -/
  isAnalysed : Bool
deriving DecidableEq, Repr

/-! ## Slots that several elements share -/

/-- A single child element, named by its own name. -/
def child (kind : ElementKind) (cardinality : Cardinality) : Slot :=
  ⟨kind.name, .element kind, cardinality⟩

/-- Visibility, color and displacement. -/
def printOptions : Slot :=
  ⟨"printOptions", .oneOf [.visible, .color, .dx, .dy], .zeroOrMore⟩

/-- The staff as a label such as `p2`. -/
def staffLabel : Slot :=
  ⟨"staff", .label, .zeroOrOne⟩

def staffNumber : Slot :=
  child .staffNumber .zeroOrOne

/-- The slots that end every staff object but notes and rests. -/
def staffObjectEnd (attachments : List ElementKind) : List Slot :=
  [staffLabel, staffNumber, printOptions, ⟨"attachments", .oneOf attachments, .zeroOrMore⟩]

def noteRestEnd : List Slot :=
  [⟨"noteRestOptions", .oneOf [.beam, .tuplet, .timeModification, .voice], .zeroOrMore⟩,
   staffNumber, printOptions, ⟨"attachments", .oneOf ElementKind.attachments, .zeroOrMore⟩]

def noteSlots : List Slot :=
  [⟨"pitch", .label, .one⟩, ⟨"duration", .label, .one⟩, ⟨"abbreviation", .label, .zeroOrMore⟩,
   ⟨"noteOptions", .oneOf [.tie, .slur, .stem, .lyric], .zeroOrMore⟩] ++ noteRestEnd

def curveSlots : List Slot :=
  [⟨"number", .number, .one⟩, ⟨"type", .label, .one⟩, child .bezier .zeroOrOne,
   child .color .zeroOrOne]

def shiftSlots : List Slot :=
  [⟨"shift", .oneOf [.label, .number], .one⟩]

def placedSlots : List Slot :=
  [⟨"placement", .label, .zeroOrOne⟩, printOptions]

def singleNumber : List Slot :=
  [⟨"number", .number, .one⟩]

def singleLabel : List Slot :=
  [⟨"value", .label, .one⟩]

def singleString : List Slot :=
  [⟨"text", .string, .one⟩]

def yesNo : List Slot :=
  [⟨"value", .yesNo, .one⟩]

def texts : Slot :=
  ⟨"text", .oneOf [.string, .textItem], .zeroOrMore⟩

/-! ## All elements -/

def entries : List Entry :=
  [⟨.document, [child .version .one, child .language .zeroOrOne, child .content .one], true⟩,
   ⟨.version, singleNumber, true⟩,
   ⟨.language, singleLabel, true⟩,
   ⟨.content, [⟨"block", .oneOf [.paragraph, .heading, .textItem, .score], .zeroOrMore⟩], true⟩,
   ⟨.paragraph, [texts], true⟩,
   ⟨.heading, [⟨"level", .number, .one⟩, texts], true⟩,
   ⟨.textItem, singleString, true⟩,
   ⟨.score,
    [child .version .one, child .language .zeroOrOne, child .title .zeroOrMore,
     child .cursor .zeroOrOne, child .option .zeroOrMore,
     ⟨"instrument", .oneOf [.instrument], .oneOrMore⟩], true⟩,
   ⟨.title,
    [⟨"alignment", .label, .zeroOrOne⟩, ⟨"text", .string, .one⟩, child .dx .zeroOrOne,
     child .dy .zeroOrOne], true⟩,
   ⟨.option, [⟨"name", .label, .one⟩, ⟨"value", .oneOf [.label, .number, .string], .one⟩], true⟩,
   ⟨.cursor, [], true⟩,
   ⟨.instrument,
    [child .instrumentName .zeroOrOne, child .abbreviation .zeroOrOne, child .staves .zeroOrOne,
     child .musicData .one], true⟩,
   ⟨.instrumentName, singleString, true⟩,
   ⟨.abbreviation, singleString, true⟩,
   ⟨.staves, singleNumber, true⟩,
   ⟨.musicData, [⟨"staffobj", .oneOf ElementKind.musicDataContent, .zeroOrMore⟩], true⟩,
   ⟨.note, noteSlots, true⟩,
   ⟨.chordNote, noteSlots, true⟩,
   ⟨.rest,
    [⟨"duration", .label, .one⟩, ⟨"abbreviation", .label, .zeroOrMore⟩] ++ noteRestEnd, true⟩,
   ⟨.chord, [⟨"note", .oneOf [.note], .oneOrMore⟩], true⟩,
   ⟨.clef, [⟨"type", .label, .zeroOrOne⟩, child .symbolSize .zeroOrOne] ++ staffObjectEnd [.text],
    true⟩,
   ⟨.key, ⟨"type", .label, .zeroOrOne⟩ :: staffObjectEnd [.text], true⟩,
   ⟨.time,
    [⟨"type", .label, .zeroOrOne⟩, ⟨"top", .number, .one⟩, ⟨"bottom", .number, .one⟩] ++
      staffObjectEnd [.text], true⟩,
   ⟨.barline,
    [⟨"type", .label, .zeroOrOne⟩, ⟨"middle", .label, .zeroOrOne⟩] ++ staffObjectEnd [.text], true⟩,
   ⟨.goBack, shiftSlots, true⟩,
   ⟨.goForward, shiftSlots, true⟩,
   ⟨.spacer, ⟨"width", .number, .one⟩ :: staffObjectEnd ElementKind.attachments, true⟩,
   ⟨.newSystem, [], true⟩,
   ⟨.metronome,
    [⟨"noteType", .label, .zeroOrOne⟩, ⟨"value", .oneOf [.label, .number], .one⟩,
     ⟨"parenthesis", .label, .zeroOrOne⟩, printOptions], true⟩,
   ⟨.tie, curveSlots, true⟩,
   ⟨.slur, curveSlots, true⟩,
   ⟨.beam, [⟨"number", .number, .one⟩, ⟨"type", .label, .one⟩], true⟩,
   ⟨.tuplet,
    [⟨"number", .number, .zeroOrOne⟩, ⟨"type", .label, .one⟩, ⟨"actual", .number, .zeroOrOne⟩,
     ⟨"normal", .number, .zeroOrOne⟩,
     ⟨"tupletOptions", .oneOf [.label, .displayBracket, .displayNumber], .zeroOrMore⟩], true⟩,
   ⟨.timeModification, [⟨"top", .number, .one⟩, ⟨"bottom", .number, .one⟩], true⟩,
   ⟨.color, [⟨"value", .color, .one⟩], true⟩,
   ⟨.bezier,
    [⟨"point", .oneOf [.startX, .startY, .endX, .endY, .ctrol1X, .ctrol1Y, .ctrol2X, .ctrol2Y],
      .zeroOrMore⟩], true⟩,
   ⟨.stem, singleLabel, false⟩,
   ⟨.voice, singleNumber, false⟩,
   ⟨.staffNumber, singleNumber, false⟩,
   ⟨.visible, yesNo, false⟩,
   ⟨.dx, singleNumber, false⟩,
   ⟨.dy, singleNumber, false⟩,
   ⟨.symbolSize, singleLabel, false⟩,
   ⟨.displayBracket, yesNo, false⟩,
   ⟨.displayNumber, singleLabel, false⟩,
   ⟨.startX, singleNumber, false⟩,
   ⟨.startY, singleNumber, false⟩,
   ⟨.endX, singleNumber, false⟩,
   ⟨.endY, singleNumber, false⟩,
   ⟨.ctrol1X, singleNumber, false⟩,
   ⟨.ctrol1Y, singleNumber, false⟩,
   ⟨.ctrol2X, singleNumber, false⟩,
   ⟨.ctrol2Y, singleNumber, false⟩,
   ⟨.melisma, [], false⟩,
   ⟨.fermata,
    [⟨"symbol", .label, .zeroOrOne⟩, ⟨"placement", .label, .zeroOrOne⟩, printOptions], true⟩,
   ⟨.dynamics,
    [⟨"mark", .string, .one⟩, ⟨"placement", .label, .zeroOrOne⟩, printOptions], true⟩,
   ⟨.text, [⟨"text", .string, .one⟩, ⟨"location", .oneOf [.dx, .dy], .zeroOrMore⟩], true⟩,
   ⟨.lyric,
    [⟨"line", .number, .zeroOrOne⟩, ⟨"syllable", .string, .oneOrMore⟩,
     ⟨"hyphen", .label, .zeroOrOne⟩, child .melisma .zeroOrOne,
     ⟨"placement", .label, .zeroOrOne⟩, printOptions], true⟩] ++
  ElementKind.articulations.map fun kind => ⟨kind, placedSlots, true⟩

/-- The grammar of an element.  Leaves have none. -/
def entry? (kind : ElementKind) : Option Entry :=
  entries.find? fun entry => entry.kind == kind

/-- The grammar of the element with a given name. -/
def lookup? (name : String) : Option Entry :=
  (ElementKind.ofName? name).bind entry?

/-! ## Productions -/

def Cardinality.suffix : Cardinality → String
  | .one => ""
  | .zeroOrOne => "?"
  | .oneOrMore => "+"
  | .zeroOrMore => "*"

def Slot.describe (slot : Slot) : String :=
  let inner := match slot.expectation with
    | .label => slot.name ++ ":label"
    | .number => slot.name ++ ":number"
    | .string => slot.name ++ ":string"
    | .color => slot.name ++ ":#rrggbbaa"
    | .yesNo => slot.name ++ ":yes|no"
    | .element kind => "(" ++ kind.name ++ ")"
    | .oneOf kinds => "\x7b" ++ "|".intercalate (kinds.map ElementKind.name) ++ "\x7d"
  inner ++ slot.cardinality.suffix

/-- The production of an element, on one line. -/
def Entry.describe (entry : Entry) : String :=
  "(" ++ " ".intercalate (entry.kind.name :: entry.slots.map Slot.describe) ++ ")"

end LdpScore.Grammar
