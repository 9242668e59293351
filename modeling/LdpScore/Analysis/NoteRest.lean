import LdpScore.Analysis.Descriptor
import LdpScore.Analysis.Mark

/-!
# Notes and rests

A note or rest is placed in time, its descriptors are offered to the relations
that are open, and its attachments are added below it.  Legacy abbreviations stand
among its labels: `l` starts a tie, `g+` and `g-` delimit a beam, `tN` and `t-`
delimit a tuplet.
-/

namespace LdpScore.Analyser

/-- What kind of note or rest an element is. -/
inductive Flavor where
  | note
  /-- A note that sounds together with the one before. -/
  | chordNote
  | rest
deriving DecidableEq, Repr

/-- What the options of a note or rest ask for.  Of several descriptors of one
kind the last one counts. -/
structure Decorations where
  tie : Option TiePoint := none
  slur : Option SlurPoint := none
  beam : Option BeamPoint := none
  tuplet : Option TupletPoint := none
  timeModification : Option TimeModification := none
  /-- The label of a legacy tie. -/
  legacyTie : Option Node := none
  /-- The label of a legacy beam. -/
  legacyBeam : Option Node := none
  /-- The label of a legacy tuplet. -/
  legacyTuplet : Option Node := none

/-! ## Reading the children -/

/-- A pitch; an asterisk means that the note has none. -/
def pitchValue (label : Node) : Analyser (Option Pitch) := do
  if label.text = "*" then return none
  else
    match Pitch.ofText? label.text.toList with
    | some pitch => return some pitch
    | none =>
        report label.location (.unknownPitch label.text)
        return some .middleC

/-- Reads the pitch of a note.  A rest has none. -/
def readPitch (flavor : Flavor) (node : Node) (children : List Node) :
    Analyser (Option Pitch × List Node) := do
  match flavor with
  | .rest => return (none, children)
  | _ =>
      match ← mandatory node .label children with
      | (some label, rest) => return (← pitchValue label, rest)
      | (none, rest) => return (none, rest)

/-- Reads the written value of a note or rest. -/
def readNoteValue (node : Node) (children : List Node) : Analyser (NoteValue × List Node) := do
  match ← mandatory node .label children with
  | (some label, rest) => return (← noteValue label, rest)
  | (none, rest) => return (⟨.quarter, 0⟩, rest)

/-- Reads the labels after the written value. -/
def abbreviations (flavor : Flavor) (decorations : Decorations) :
    List Node → Analyser (Decorations × List Node)
  | [] => pure (decorations, [])
  | label :: rest =>
      if label.is .label then
        match label.text.toList.head? with
        | some 'l' =>
            if flavor = .rest then do
              reportMisplaced label
              abbreviations flavor decorations rest
            else abbreviations flavor { decorations with legacyTie := some label } rest
        | some 'g' => abbreviations flavor { decorations with legacyBeam := some label } rest
        | some 't' => abbreviations flavor { decorations with legacyTuplet := some label } rest
        | some 'v' => do
            voiceLabel label
            abbreviations flavor decorations rest
        | some 'p' => do
            staffLabel label
            abbreviations flavor decorations rest
        | _ => do
            reportMisplaced label
            abbreviations flavor decorations rest
      else pure (decorations, label :: rest)

def stemValue (property : Node) : Analyser Stem := do
  match ← propertyValue property .label with
  | none => return .default
  | some value =>
      match value.text with
      | "up" => return .up
      | "down" => return .down
      | other =>
          report value.location (.invalidStem other)
          return .default

/-- Reads the direction of the stem of a note. -/
def stemProperty (note : Handle) (property : Node) : Analyser Unit := do
  let stem ← stemValue property
  modifyModel fun model => model.modifyNote note fun it => { it with stem := stem }

/-- Reads the options that only notes have, until the first other child. -/
def noteOptions (note : Handle) (decorations : Decorations) :
    List Node → Analyser (Decorations × List Node)
  | [] => pure (decorations, [])
  | child :: rest => do
      match child.kind? with
      | some .tie =>
          let point ← analyseTie child (some note)
          noteOptions note { decorations with tie := point <|> decorations.tie } rest
      | some .slur =>
          let point ← analyseSlur child (some note)
          noteOptions note { decorations with slur := point <|> decorations.slur } rest
      | some .stem =>
          stemProperty note child
          noteOptions note decorations rest
      | some .lyric =>
          let _ ← analyseLyric child (some note)
          noteOptions note decorations rest
      | _ => return (decorations, child :: rest)

/-- Reads the voice of a note or rest, which becomes the current one. -/
def voiceProperty (noteRest : Handle) (property : Node) : Analyser Unit := do
  let current := (← context).voice
  let voice ← match ← propertyValue property .number with
    | some value => numberValue value current
    | none => pure current
  modifyContext fun context => { context with voice := voice }
  modifyModel fun model =>
    model.modifyNoteRest noteRest fun it => { it with voice := voice }

/-- Reads the options that notes and rests share, until the first other child. -/
def noteRestOptions (noteRest : Handle) (decorations : Decorations) :
    List Node → Analyser (Decorations × List Node)
  | [] => pure (decorations, [])
  | child :: rest => do
      match child.kind? with
      | some .tuplet =>
          let point ← analyseTuplet child (some noteRest)
          noteRestOptions noteRest { decorations with tuplet := point <|> decorations.tuplet } rest
      | some .timeModification =>
          let modification ← analyseTimeModification child
          noteRestOptions noteRest
            { decorations with timeModification := modification <|> decorations.timeModification }
            rest
      | some .beam =>
          let point ← analyseBeam child (some noteRest)
          noteRestOptions noteRest { decorations with beam := point <|> decorations.beam } rest
      | some .voice =>
          voiceProperty noteRest child
          noteRestOptions noteRest decorations rest
      | _ => return (decorations, child :: rest)

/-! ## Settling the relations -/

/-- Settles the legacy tie of a note: the note may end the one that waits, and with
a label it starts the next one. -/
def settleLegacyTie (label : Option Node) (note : Handle) : Analyser Unit :=
  settle fun pending draft =>
    let (legacyTie, draft) := match label with
      | some label => LegacyTie.start pending.legacyTie note label.location draft
      | none => LegacyTie.offer pending.legacyTie note draft
    ({ pending with legacyTie := legacyTie }, draft)

/-- Settles the ties of a note, first the legacy ones. -/
def settleTies (note : Handle) (decorations : Decorations) : Analyser Unit := do
  settleLegacyTie decorations.legacyTie note
  match decorations.tie with
  | some point =>
      settle fun pending draft =>
        let (ties, draft) := Tie.add pending.ties point draft
        ({ pending with ties := ties }, draft)
  | none => pure ()

/-- Offers a descriptor to the tuplets that are open. -/
def settleTuplet (point : TupletPoint) : Analyser Unit :=
  settle fun pending draft =>
    let (tuplets, draft) := Tuplet.add pending.tuplets point draft
    ({ pending with tuplets := tuplets }, draft)

/-- Makes a note or rest a member of every tuplet that is open. -/
def joinTuplets (noteRest : Handle) (location : Location) : Analyser Unit :=
  settle fun pending draft =>
    ({ pending with tuplets := Tuplet.join pending.tuplets noteRest location }, draft)

/-- The factor that the open tuplets apply to durations. -/
def openRatio : Analyser Float := do
  return Tuplet.openRatio (← pending).tuplets

/-- The counts that a legacy tuplet label gives, actual and normal; a normal count
of zero stands for the usual one. -/
def legacyCounts? : List Char → Option (Nat × Nat)
  | [_, actual] =>
      if actual.isDigit then some (actual.toNat - '0'.toNat, 0) else none
  | [_, actual, '/', normal] =>
      if actual.isDigit && normal.isDigit then
        some (actual.toNat - '0'.toNat, normal.toNat - '0'.toNat)
      else none
  | _ => none

/-- The descriptor that a legacy tuplet label gives. -/
def legacyTuplet (label : Node) (phase : Phase) (number : Int) (actual normal : Nat)
    (noteRest : Handle) : Analyser TupletPoint := do
  let context ← context
  return ⟨number, phase, actual, normal, context.tupletBracket, context.tupletNumber, noteRest,
    label.location⟩

/-- Settles the label of a legacy tuplet.  Returns the factor that applies to the
duration of the note or rest. -/
def settleLegacyTuplet (label : Node) (noteRest : Handle) : Analyser Float := do
  let characters := label.text.toList
  if characters.tail = ['-'] then
    let ratio ← openRatio
    let number := (Tuplet.innermostOpen? (← pending).tuplets).getD 0
    let point ← legacyTuplet label .stop number 0 0 noteRest
    settleTuplet point
    return ratio
  else
    match legacyCounts? characters with
    | none =>
        report label.location (.invalidAbbreviation label.text)
        openRatio
    | some (actual, normal) =>
        if Tuplet.isOpen (← pending).tuplets then
          report label.location .tupletAlreadyOpen
          openRatio
        else
          let normal := if normal = 0 then (Tuplet.defaultNormal? actual).getD 0 else normal
          let point ← legacyTuplet label .start 0 actual normal noteRest
          settleTuplet point
          openRatio

/-- Settles the descriptor of a tuplet and makes the note or rest a member of the
tuplets around it.  Returns the factor that applies to its duration. -/
def settleTuplets (point : Option TupletPoint) (noteRest : Handle) (node : Node) :
    Analyser Float := do
  match point with
  | some point =>
      match point.phase with
      | .stop =>
          let ratio ← openRatio
          settleTuplet point
          joinTuplets noteRest node.location
          return ratio
      | _ =>
          joinTuplets noteRest node.location
          settleTuplet point
          openRatio
  | none =>
      joinTuplets noteRest node.location
      openRatio

/-- The factor of the tuplets of a note or rest, after they have been settled. -/
def tupletFactor (decorations : Decorations) (noteRest : Handle) (node : Node) :
    Analyser Float := do
  match decorations.legacyTuplet with
  | some label => settleLegacyTuplet label noteRest
  | none => settleTuplets decorations.tuplet noteRest node

/-- Makes a note or rest a member of the legacy beam. -/
def joinLegacyBeam (noteRest : Handle) (location : Location) : Analyser Unit :=
  settle fun pending draft =>
    ({ pending with
        legacyBeam := pending.legacyBeam ++ [⟨0, BeamLevels.empty, noteRest, location⟩] }, draft)

/-- Ends the legacy beam with a note or rest. -/
def closeLegacyBeam (noteRest : Handle) (location : Location) : Analyser Unit :=
  settle fun pending draft =>
    let (legacyBeam, draft) :=
      LegacyBeam.close pending.legacyBeam ⟨0, BeamLevels.empty, noteRest, location⟩ draft
    ({ pending with legacyBeam := legacyBeam }, draft)

/-- Settles the label of a legacy beam.  Without one, a note or rest that has no
numbered beam belongs to the legacy beam that is open. -/
def settleLegacyBeam (decorations : Decorations) (noteRest : Handle) (type : NoteType)
    (node : Node) : Analyser Unit := do
  let isOpen := !(← pending).legacyBeam.isEmpty
  match decorations.legacyBeam with
  | some label =>
      match label.text.toList.tail with
      | ['+'] =>
          if type.beamLevel?.isNone then report label.location .beamTooLong
          else
            if isOpen then
              report label.location .beamAlreadyOpen
            joinLegacyBeam noteRest label.location
      | ['-'] =>
          if isOpen then closeLegacyBeam noteRest label.location
          else report label.location .beamNotOpen
      | _ => report label.location (.invalidAbbreviation label.text)
  | none =>
      if decorations.beam.isNone && isOpen then
        joinLegacyBeam noteRest node.location

/-- Settles the beams of a note or rest, first the legacy one. -/
def settleBeams (decorations : Decorations) (noteRest : Handle) (type : NoteType) (node : Node) :
    Analyser Unit := do
  settleLegacyBeam decorations noteRest type node
  match decorations.beam with
  | some point =>
      settle fun pending draft =>
        let (beams, draft) := Beam.add pending.beams point draft
        ({ pending with beams := beams }, draft)
  | none => pure ()

def settleSlur (decorations : Decorations) : Analyser Unit := do
  match decorations.slur with
  | some point =>
      settle fun pending draft =>
        let (slurs, draft) := Slur.add pending.slurs point draft
        ({ pending with slurs := slurs }, draft)
  | none => pure ()

/-- The chord of a note, which is created with that note alone if there is none. -/
def chordOf (base : Handle) (draft : Draft) : Handle × Draft :=
  match (draft.model.note? base).bind Note.chord with
  | some chord => (chord, draft)
  | none =>
      let (chord, draft) := draft.create (.chord [])
      let draft := draft.includeMember chord base .chord
      (chord, draft.mapModel fun model =>
        model.modifyNote base fun it => { it with chord := some chord })

/-- Puts a note into the chord of another one. -/
def joinChord (base note : Handle) (draft : Draft) : Draft :=
  let (chord, draft) := chordOf base draft
  (draft.includeMember chord note .chord).mapModel fun model =>
    model.modifyNote note fun it => { it with chord := some chord }

/-! ## The whole element -/

/-- The object of a note or rest before its options have been read. -/
def noteRestContent (flavor : Flavor) (value : NoteValue) (pitch : Option Pitch) : Content :=
  match flavor with
  | .rest => .rest { value := value }
  | _ => .note { noteRest := { value := value }, pitch := pitch }

/-- Gives a note or rest the current staff and voice. -/
def placeInVoice (noteRest : Handle) : Analyser Unit := do
  let context ← context
  modifyModel fun model => model.modifyNoteRest noteRest fun it =>
    { it with
      voice := context.voice
      appearance := { it.appearance with staff := context.staff } }

def readOptions (flavor : Flavor) (noteRest : Handle) (decorations : Decorations)
    (children : List Node) : Analyser (Decorations × List Node) := do
  match flavor with
  | .rest => noteRestOptions noteRest decorations children
  | _ =>
      let (decorations, rest) ← noteOptions noteRest decorations children
      noteRestOptions noteRest decorations rest

/-- Reads how a note or rest is shown, and places it in time: at the onset of the
note it sounds with, or else at the cursor. -/
def placeInTime (noteRest : Handle) (base : Option Handle) (children : List Node) :
    Analyser (List Node) := do
  let before := ((← model).noteRest? noteRest).map NoteRest.appearance
  let (appearance, rest) ← staffOptions (before.getD {}) children
  let cursor := (← context).onset
  let onset := ((base.bind (← model).noteRest?).map NoteRest.onset).getD cursor
  modifyModel fun model => model.modifyNoteRest noteRest fun it =>
    { it with appearance := appearance, onset := onset }
  return rest

def applyModification (noteRest : Handle) : Option TimeModification → Analyser Unit
  | some modification =>
      modifyModel fun model => model.modifyNoteRest noteRest fun it =>
        { it with timeModification := some modification, isModificationExplicit := true }
  | none => pure ()

/-- Adds a note or rest with all that its element says, and what is attached to
it.  Nothing is joined yet. -/
def addNoteRest (flavor : Flavor) (node : Node) (anchor base : Option Handle) :
    Analyser (Handle × NoteValue × Decorations) := do
  let (pitch, rest) ← readPitch flavor node node.children
  let (value, rest) ← readNoteValue node rest
  let handle ← addObject node anchor (noteRestContent flavor value pitch)
  let (decorations, rest) ← abbreviations flavor {} rest
  placeInVoice handle
  let (decorations, rest) ← readOptions flavor handle decorations rest
  let rest ← placeInTime handle base rest
  analyseEach (attachmentAnalyser? handle) rest
  return (handle, value, decorations)

/-- Joins a note with the one it sounds with, or else moves the cursor past it. -/
def joinOrAdvance (base : Option Handle) (noteRest : Handle) (duration : Float) :
    Analyser Unit :=
  match base with
  | some base => settle fun pending draft => (pending, joinChord base noteRest draft)
  | none =>
      modifyContext fun context => { context with clock := context.clock.advance duration }

/-- Settles all relations of a note or rest but its chord.  Returns the factor that
its tuplets apply to its duration. -/
def settleRelations (flavor : Flavor) (node : Node) (noteRest : Handle) (type : NoteType)
    (decorations : Decorations) : Analyser Float := do
  if flavor ≠ .rest then
    settleTies noteRest decorations
  applyModification noteRest decorations.timeModification
  let factor ← tupletFactor decorations noteRest node
  settleBeams decorations noteRest type node
  settleSlur decorations
  return factor

/-- Settles the relations of a note or rest, places it among the others and makes
a note the last one. -/
def settleNoteRest (flavor : Flavor) (node : Node) (base : Option Handle) (noteRest : Handle)
    (value : NoteValue) (decorations : Decorations) : Analyser Unit := do
  let tupletFactor ← settleRelations flavor node noteRest value.type decorations
  let factor := (decorations.timeModification.map TimeModification.ratio).getD tupletFactor
  joinOrAdvance base noteRest (value.units * factor)
  if flavor ≠ .rest then
    modifyContext fun context => { context with lastNote := some noteRest }

/-- A note, chord note or rest.  A chord note without a note before it is a note of
its own. -/
def analyseNoteRest (flavor : Flavor) (node : Node) (anchor : Option Handle) :
    Analyser Handle := do
  let lastNote := (← context).lastNote
  let base := if flavor = .chordNote then lastNote else none
  let (handle, value, decorations) ← addNoteRest flavor node anchor base
  settleNoteRest flavor node base handle value decorations
  return handle

end LdpScore.Analyser
