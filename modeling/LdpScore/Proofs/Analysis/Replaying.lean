import LdpScore.Proofs.Analysis.Repeating
import LdpScore.Proofs.Analysis.Settling

/-!
# The same music at another site

What stands in music data becomes the same objects wherever the instrument stands.
The steps that build objects match: they are given the same object up to later
handles, and they return the same one.
-/

namespace LdpScore.Analyser

variable {site : Site}

/-! ## Marks and texts -/

theorem matches_addMark
    (node : Node) (anchor : Option Handle) (children : List Node)
    {content : Appearance → Content}
    (plain : ∀ appearance,
      (content appearance).shift site.base = content appearance) :
    MatchesObject site (addMark node anchor children content)
      (addMark node (anchor.map (site.base + ·)) children content) := by
  refine (repeats_printOptions {} children).then fun result => ?_
  refine (repeats_reportExtra node result.2).then fun _ => ?_
  exact matches_addObject node anchor (plain _)

theorem matches_analyseArticulation
    (kind : ElementKind) (node : Node) (anchor : Option Handle) :
    MatchesObject site (analyseArticulation kind node anchor)
      (analyseArticulation kind node (anchor.map (site.base + ·))) :=
  (repeats_optionalPlacement node.children).then fun result =>
    matches_addMark node anchor result.2 fun _ => rfl

/-- An object that is returned as one that may be missing. -/
theorem MatchesObject.some
    {alone within : Analyser Handle} (object : MatchesObject site alone within) :
    MatchesOption site (some <$> alone) (some <$> within) :=
  Matches.map object fun _ _ later => congrArg Option.some later

theorem matches_analyseDynamics (node : Node) (anchor : Option Handle) :
    MatchesOption site (analyseDynamics node anchor)
      (analyseDynamics node (anchor.map (site.base + ·))) := by
  rw [analyseDynamics, analyseDynamics]
  refine (repeats_mandatory node .string node.children).then fun result => ?_
  rcases result with ⟨_ | mark, rest⟩
  · exact .pure rfl
  · dsimp only
    split
    · refine (repeats_optionalPlacement rest).then fun result => ?_
      exact (matches_addMark node anchor result.2 fun _ => rfl).bind
        fun _ _ later => .pure (congrArg some later)
    · exact (repeats_report _ _).then fun _ => .pure rfl

theorem matches_analyseFermata (node : Node) (anchor : Option Handle) :
    MatchesObject site (analyseFermata node anchor)
      (analyseFermata node (anchor.map (site.base + ·))) :=
  (repeats_fermataLabels node node.children).then fun result =>
    matches_addMark node anchor result.2.2 fun _ => rfl

theorem matches_analyseText (node : Node) (anchor : Option Handle) :
    MatchesOption site (analyseText node anchor)
      (analyseText node (anchor.map (site.base + ·))) := by
  rw [analyseText, analyseText]
  refine (repeats_mandatory node .string node.children).then fun result => ?_
  rcases result with ⟨_ | text, rest⟩
  · exact .pure rfl
  · refine (repeats_textLocation {} rest).then fun appearance => ?_
    exact (matches_addObject node anchor rfl).bind
      fun _ _ later => .pure (congrArg some later)

theorem matches_analyseLyric (node : Node) (anchor : Option Handle) :
    MatchesOption site (analyseLyric node anchor)
      (analyseLyric node (anchor.map (site.base + ·))) := by
  rw [analyseLyric, analyseLyric]
  refine matches_model.bind fun alone within echoes => ?_
  -- The anchor is a note further on if and only if it is one alone.
  have sameNote : (anchor.map (site.base + ·)).filter
      (fun handle => (within.note? handle).isSome) =
        (anchor.filter fun handle => (alone.note? handle).isSome).map
          (site.base + ·) := by
    cases anchor with
    | none => rfl
    | some handle =>
        simp only [Option.map_some, Option.filter_some, echoes.note?,
          Option.isSome_map]
        split <;> rfl
  rw [sameNote]
  generalize anchor.filter (fun handle => (alone.note? handle).isSome) = note
  refine (repeats_lyricLine node.children).then fun result => ?_
  dsimp only
  split
  · exact (repeats_report _ _).then fun _ => .pure rfl
  · refine (repeats_lyricOptions _).then fun options => ?_
    refine (repeats_choosePlacement _ _).then fun placement => ?_
    refine (repeats_printOptions _ _).then fun shown => ?_
    refine (repeats_reportExtra _ _).then fun _ => ?_
    cases note with
    | none => exact (repeats_report _ _).then fun _ => .pure rfl
    | some note =>
        exact (matches_addObject node (some note) rfl).bind
          fun _ _ later => .pure (congrArg some later)

theorem matchEach_attachmentAnalyser? (anchor : Handle) :
    MatchEach site (attachmentAnalyser? anchor)
      (attachmentAnalyser? (site.base + anchor)) := by
  intro kind
  unfold attachmentAnalyser?
  split
  · exact .some fun child =>
      (matches_analyseFermata child (some anchor)).discard
  · split
    · exact .some fun child =>
        (matches_analyseDynamics child (some anchor)).discard
    · split
      · exact .some fun child =>
          (matches_analyseText child (some anchor)).discard
      · split
        · exact .some fun child =>
            (matches_analyseArticulation kind child (some anchor)).discard
        · exact .none

theorem matchEach_textAnalyser? (anchor : Handle) :
    MatchEach site (textAnalyser? anchor)
      (textAnalyser? (site.base + anchor)) := by
  intro kind
  unfold textAnalyser?
  split
  · exact .some fun child => (matches_analyseText child (some anchor)).discard
  · exact .none

/-! ## Options of notes and rests -/

/-- The descriptors of a later note or rest. -/
def Decorations.shift (base : Handle) (decorations : Decorations) :
    Decorations :=
  { decorations with
    tie := decorations.tie.map (TiePoint.shift base)
    slur := decorations.slur.map (SlurPoint.shift base)
    beam := decorations.beam.map (BeamPoint.shift base)
    tuplet := decorations.tuplet.map (TupletPoint.shift base) }

/-- Two steps return the same descriptors, carried by a later note or rest, and
the same children. -/
abbrev MatchesOptions
    (site : Site) (alone within : Analyser (Decorations × List Node)) : Prop :=
  Matches site alone within fun result later =>
    later = (result.1.shift site.base, result.2)

/-- Labels are read alike, whatever descriptors there are. -/
theorem matches_abbreviations
    (flavor : Flavor) (decorations : Decorations) (children : List Node) :
    MatchesOptions site (abbreviations flavor decorations children)
      (abbreviations flavor (decorations.shift site.base) children) := by
  induction children generalizing decorations with
  | nil => exact .pure rfl
  | cons label rest induction =>
      rw [abbreviations, abbreviations]
      split
      · split
        · split
          · exact (repeats_reportMisplaced label).then fun _ =>
              induction decorations
          · exact induction { decorations with legacyTie := some label }
        · exact induction { decorations with legacyBeam := some label }
        · exact induction { decorations with legacyTuplet := some label }
        · exact (repeats_voiceLabel label).then fun _ => induction decorations
        · exact (repeats_staffLabel label).then fun _ => induction decorations
        · exact (repeats_reportMisplaced label).then fun _ =>
            induction decorations
      · exact .pure rfl

theorem matches_stemProperty (note : Handle) (property : Node) :
    Matches site (stemProperty note property)
      (stemProperty (site.base + note) property) Eq := by
  refine (repeats_stemValue property).then fun stem => ?_
  exact matches_modifyModel fun _ _ echoes =>
    echoes.modifyNote note fun _ => rfl

theorem matches_noteOptions
    (note : Handle) (decorations : Decorations) (children : List Node) :
    MatchesOptions site (noteOptions note decorations children)
      (noteOptions (site.base + note) (decorations.shift site.base)
        children) := by
  induction children generalizing decorations with
  | nil => exact .pure rfl
  | cons child rest induction =>
      rw [noteOptions, noteOptions]
      split
      · refine (matches_analyseTie child (some note)).bind ?_
        rintro point _ rfl
        refine Eq.mp ?_ (induction
          { decorations with tie := point <|> decorations.tie })
        cases point <;> rfl
      · refine (matches_analyseSlur child (some note)).bind ?_
        rintro point _ rfl
        refine Eq.mp ?_ (induction
          { decorations with slur := point <|> decorations.slur })
        cases point <;> rfl
      · exact (matches_stemProperty note child).bind fun _ _ _ =>
          induction decorations
      · exact (matches_analyseLyric child (some note)).bind fun _ _ _ =>
          induction decorations
      · exact .pure rfl

theorem matches_voiceProperty (noteRest : Handle) (property : Node) :
    Matches site (voiceProperty noteRest property)
      (voiceProperty (site.base + noteRest) property) Eq := by
  rw [voiceProperty, voiceProperty]
  refine matches_context.bind ?_
  rintro settings _ ⟨instruments, rfl⟩
  refine (repeats_propertyValue property .number).then fun value => ?_
  have voiced : ∀ voice : Int,
      Matches site
        (do
          modifyContext fun context => { context with voice := voice }
          modifyModel fun model => model.modifyNoteRest noteRest fun it =>
            { it with voice := voice })
        (do
          modifyContext fun context => { context with voice := voice }
          modifyModel fun model =>
            model.modifyNoteRest (site.base + noteRest) fun it =>
              { it with voice := voice }) Eq :=
    fun voice => (repeats_setVoice voice).then fun _ =>
      matches_modifyNoteRest noteRest _
  cases value with
  | none => exact voiced settings.voice
  | some value => exact (repeats_numberValue value _).then voiced

theorem matches_noteRestOptions
    (noteRest : Handle) (decorations : Decorations) (children : List Node) :
    MatchesOptions site (noteRestOptions noteRest decorations children)
      (noteRestOptions (site.base + noteRest) (decorations.shift site.base)
        children) := by
  induction children generalizing decorations with
  | nil => exact .pure rfl
  | cons child rest induction =>
      rw [noteRestOptions, noteRestOptions]
      split
      · refine (matches_analyseTuplet child (some noteRest)).bind ?_
        rintro point _ rfl
        refine Eq.mp ?_ (induction
          { decorations with tuplet := point <|> decorations.tuplet })
        cases point <;> rfl
      · refine (repeats_analyseTimeModification child).then
          fun modification => ?_
        exact induction
          { decorations with
            timeModification :=
              modification <|> decorations.timeModification }
      · refine (matches_analyseBeam child (some noteRest)).bind ?_
        rintro point _ rfl
        refine Eq.mp ?_ (induction
          { decorations with beam := point <|> decorations.beam })
        cases point <;> rfl
      · exact (matches_voiceProperty noteRest child).bind fun _ _ _ =>
          induction decorations
      · exact .pure rfl

theorem matches_readOptions
    (flavor : Flavor) (noteRest : Handle) (decorations : Decorations)
    (children : List Node) :
    MatchesOptions site (readOptions flavor noteRest decorations children)
      (readOptions flavor (site.base + noteRest)
        (decorations.shift site.base) children) := by
  have both : MatchesOptions site
      (do
        let result ← noteOptions noteRest decorations children
        noteRestOptions noteRest result.1 result.2)
      (do
        let result ← noteOptions (site.base + noteRest)
          (decorations.shift site.base) children
        noteRestOptions (site.base + noteRest) result.1 result.2) := by
    refine (matches_noteOptions noteRest decorations children).bind ?_
    rintro result _ rfl
    exact matches_noteRestOptions noteRest result.1 result.2
  cases flavor with
  | rest => exact matches_noteRestOptions noteRest decorations children
  | note => exact both
  | chordNote => exact both

theorem matches_placeInVoice (noteRest : Handle) :
    Matches site (placeInVoice noteRest)
      (placeInVoice (site.base + noteRest)) Eq := by
  refine matches_context.bind ?_
  rintro settings _ ⟨instruments, rfl⟩
  exact matches_modifyNoteRest noteRest _

theorem matches_placeInTime
    (noteRest : Handle) (base : Option Handle) (children : List Node) :
    Matches site (placeInTime noteRest base children)
      (placeInTime (site.base + noteRest) (base.map (site.base + ·))
        children) Eq := by
  rw [placeInTime, placeInTime]
  refine matches_model.bind fun alone within echoes => ?_
  rw [echoes.noteRest?]
  refine (repeats_staffOptions _ children).then fun result => ?_
  refine matches_context.bind ?_
  rintro settings _ ⟨instruments, rfl⟩
  refine matches_model.bind fun alone within echoes => ?_
  have sameBase : (base.map (site.base + ·)).bind within.noteRest? =
      base.bind alone.noteRest? := by
    cases base with
    | none => rfl
    | some base => exact echoes.noteRest? base
  dsimp only
  rw [sameBase]
  exact (matches_modifyNoteRest noteRest _).bind fun _ _ _ => .pure rfl

theorem matches_applyModification
    (noteRest : Handle) (modification : Option TimeModification) :
    Matches site (applyModification noteRest modification)
      (applyModification (site.base + noteRest) modification) Eq := by
  cases modification with
  | none => exact .pure rfl
  | some modification => exact matches_modifyNoteRest noteRest _

theorem noteRestContent_shift
    (base : Handle) (flavor : Flavor) (value : NoteValue)
    (pitch : Option Pitch) :
    (noteRestContent flavor value pitch).shift base =
      noteRestContent flavor value pitch := by
  cases flavor <;> rfl

theorem matches_addNoteRest
    (flavor : Flavor) (node : Node) (anchor base : Option Handle) :
    Matches site (addNoteRest flavor node anchor base)
      (addNoteRest flavor node (anchor.map (site.base + ·))
        (base.map (site.base + ·)))
      fun result later => later =
        (site.base + result.1, result.2.1, result.2.2.shift site.base) := by
  rw [addNoteRest, addNoteRest]
  refine (repeats_readPitch flavor node node.children).then fun pitched => ?_
  refine (repeats_readNoteValue node pitched.2).then fun valued => ?_
  refine (matches_addObject node anchor
    (noteRestContent_shift _ _ _ _)).bind ?_
  rintro handle _ rfl
  refine (matches_abbreviations flavor {} valued.2).bind ?_
  rintro labelled _ rfl
  refine (matches_placeInVoice handle).bind fun _ _ _ => ?_
  refine (matches_readOptions flavor handle labelled.1 labelled.2).bind ?_
  rintro options _ rfl
  refine (matches_placeInTime handle base options.2).bind ?_
  rintro rest _ rfl
  exact (matches_analyseEach (matchEach_attachmentAnalyser? handle) rest).bind
    fun _ _ _ => .pure rfl

/-! ## Settling the relations -/

theorem matches_settleLegacyTie (label : Option Node) (note : Handle) :
    Matches site (settleLegacyTie label note)
      (settleLegacyTie label (site.base + note)) Eq := by
  refine matches_settle fun pending alone within echoes => ?_
  have offered := LegacyTie.echoes_offer pending.legacyTie note echoes
  cases label with
  | some label => exact ⟨rfl, offered.draft⟩
  | none =>
      refine ⟨?_, offered.draft⟩
      exact congrArg (fun legacyTie =>
        { pending.shift site.base with legacyTie := legacyTie }) offered.value

theorem matches_settleTies (note : Handle) (decorations : Decorations) :
    Matches site (settleTies note decorations)
      (settleTies (site.base + note) (decorations.shift site.base)) Eq := by
  refine (matches_settleLegacyTie decorations.legacyTie note).bind
    fun _ _ _ => ?_
  have isShifted : (decorations.shift site.base).tie =
      decorations.tie.map (TiePoint.shift site.base) := rfl
  rw [isShifted]
  cases decorations.tie with
  | none => exact .pure rfl
  | some point =>
      refine matches_settle fun pending alone within echoes => ?_
      have added := Tie.echoes_add pending.ties point echoes
      refine ⟨?_, added.draft⟩
      exact congrArg (fun ties => { pending.shift site.base with ties := ties })
        added.value

theorem matches_settleTuplet (point : TupletPoint) :
    Matches site (settleTuplet point)
      (settleTuplet (point.shift site.base)) Eq := by
  refine matches_settle fun pending alone within echoes => ?_
  have added := Tuplet.echoes_add pending.tuplets point echoes
  refine ⟨?_, added.draft⟩
  exact congrArg (fun tuplets =>
    { pending.shift site.base with tuplets := tuplets }) added.value

theorem matches_joinTuplets (noteRest : Handle) (location : Location) :
    Matches site (joinTuplets noteRest location)
      (joinTuplets (site.base + noteRest) location) Eq := by
  refine matches_settle fun pending alone within echoes => ⟨?_, echoes⟩
  exact congrArg (fun tuplets =>
    { pending.shift site.base with tuplets := tuplets })
    (Tuplet.join_shift site.base pending.tuplets noteRest location)

theorem repeats_openRatio : Repeats site openRatio := by
  refine matches_pending.bind ?_
  rintro pending _ rfl
  exact .pure (Tuplet.openRatio_shift site.base pending.tuplets).symm

theorem matches_legacyTuplet
    (label : Node) (phase : Phase) (number : Int) (actual normal : Nat)
    (noteRest : Handle) :
    Matches site (legacyTuplet label phase number actual normal noteRest)
      (legacyTuplet label phase number actual normal (site.base + noteRest))
      fun point later => later = point.shift site.base := by
  refine matches_context.bind ?_
  rintro settings _ ⟨instruments, rfl⟩
  exact .pure rfl

theorem matches_settleLegacyTuplet (label : Node) (noteRest : Handle) :
    Matches site (settleLegacyTuplet label noteRest)
      (settleLegacyTuplet label (site.base + noteRest)) Eq := by
  unfold settleLegacyTuplet
  dsimp only
  split
  · refine repeats_openRatio.then fun ratio => ?_
    refine matches_pending.bind ?_
    rintro pending _ rfl
    have innermost := Tuplet.innermostOpen?_shift site.base pending.tuplets
    simp only [Pending.shift, innermost]
    refine (matches_legacyTuplet _ _ _ _ _ _).bind ?_
    rintro point _ rfl
    exact (matches_settleTuplet point).bind fun _ _ _ => .pure rfl
  · split
    · exact (repeats_report _ _).then fun _ => repeats_openRatio
    · refine matches_pending.bind ?_
      rintro pending _ rfl
      have isOpen := Tuplet.isOpen_shift site.base pending.tuplets
      simp only [Pending.shift, isOpen]
      split
      · exact (repeats_report _ _).then fun _ => repeats_openRatio
      · refine (matches_legacyTuplet _ _ _ _ _ _).bind ?_
        rintro point _ rfl
        exact (matches_settleTuplet point).bind fun _ _ _ => repeats_openRatio

theorem matches_settleTuplets
    (point : Option TupletPoint) (noteRest : Handle) (node : Node) :
    Matches site (settleTuplets point noteRest node)
      (settleTuplets (point.map (TupletPoint.shift site.base))
        (site.base + noteRest) node) Eq := by
  have joined : Matches site _ _ Eq := matches_joinTuplets noteRest node.location
  cases point with
  | none => exact joined.bind fun _ _ _ => repeats_openRatio
  | some point =>
      have offered : Matches site _ _ Eq := matches_settleTuplet point
      unfold settleTuplets
      dsimp only [Option.map_some, TupletPoint.shift]
      split
      · refine repeats_openRatio.then fun ratio => ?_
        exact offered.bind fun _ _ _ => joined.bind fun _ _ _ => .pure rfl
      · exact joined.bind fun _ _ _ => offered.bind fun _ _ _ =>
          repeats_openRatio

theorem matches_tupletFactor
    (decorations : Decorations) (noteRest : Handle) (node : Node) :
    Matches site (tupletFactor decorations noteRest node)
      (tupletFactor (decorations.shift site.base) (site.base + noteRest)
        node) Eq := by
  unfold tupletFactor
  dsimp only [Decorations.shift]
  cases decorations.legacyTuplet with
  | some label => exact matches_settleLegacyTuplet label noteRest
  | none => exact matches_settleTuplets decorations.tuplet noteRest node

theorem matches_joinLegacyBeam (noteRest : Handle) (location : Location) :
    Matches site (joinLegacyBeam noteRest location)
      (joinLegacyBeam (site.base + noteRest) location) Eq := by
  refine matches_settle fun pending alone within echoes => ⟨?_, echoes⟩
  simp [Pending.shift, BeamPoint.shift]

theorem matches_closeLegacyBeam (noteRest : Handle) (location : Location) :
    Matches site (closeLegacyBeam noteRest location)
      (closeLegacyBeam (site.base + noteRest) location) Eq := by
  refine matches_settle fun pending alone within echoes => ?_
  have closed := LegacyBeam.echoes_close pending.legacyBeam
    ⟨0, BeamLevels.empty, noteRest, location⟩ echoes
  refine ⟨?_, closed.draft⟩
  exact congrArg (fun legacyBeam =>
    { pending.shift site.base with legacyBeam := legacyBeam }) closed.value

theorem matches_settleLegacyBeam
    (decorations : Decorations) (noteRest : Handle) (type : NoteType)
    (node : Node) :
    Matches site (settleLegacyBeam decorations noteRest type node)
      (settleLegacyBeam (decorations.shift site.base) (site.base + noteRest)
        type node) Eq := by
  unfold settleLegacyBeam
  refine matches_pending.bind ?_
  rintro pending _ rfl
  simp only [Decorations.shift, Pending.shift, List.isEmpty_map,
    Option.isNone_map]
  split
  · split
    · split
      · exact repeats_report _ _
      · split
        · exact (repeats_report _ _).then fun _ =>
            matches_joinLegacyBeam noteRest _
        · exact matches_joinLegacyBeam noteRest _
    · split
      · exact matches_closeLegacyBeam noteRest _
      · exact repeats_report _ _
    · exact repeats_report _ _
  · split
    · exact matches_joinLegacyBeam noteRest _
    · exact .pure rfl

theorem matches_settleBeams
    (decorations : Decorations) (noteRest : Handle) (type : NoteType)
    (node : Node) :
    Matches site (settleBeams decorations noteRest type node)
      (settleBeams (decorations.shift site.base) (site.base + noteRest)
        type node) Eq := by
  refine (matches_settleLegacyBeam decorations noteRest type node).bind
    fun _ _ _ => ?_
  dsimp only [Decorations.shift]
  cases decorations.beam with
  | none => exact .pure rfl
  | some point =>
      refine matches_settle fun pending alone within echoes => ?_
      have added := Beam.echoes_add pending.beams point echoes
      refine ⟨?_, added.draft⟩
      exact congrArg (fun beams =>
        { pending.shift site.base with beams := beams }) added.value

theorem matches_settleSlur (decorations : Decorations) :
    Matches site (settleSlur decorations)
      (settleSlur (decorations.shift site.base)) Eq := by
  unfold settleSlur
  dsimp only [Decorations.shift]
  cases decorations.slur with
  | none => exact .pure rfl
  | some point =>
      refine matches_settle fun pending alone within echoes => ?_
      have added := Slur.echoes_add pending.slurs point echoes
      refine ⟨?_, added.draft⟩
      exact congrArg (fun slurs =>
        { pending.shift site.base with slurs := slurs }) added.value

theorem matches_joinOrAdvance
    (base : Option Handle) (noteRest : Handle) (duration : Float) :
    Matches site (joinOrAdvance base noteRest duration)
      (joinOrAdvance (base.map (site.base + ·)) (site.base + noteRest)
        duration) Eq := by
  cases base with
  | none => exact repeats_modifyContext (fun _ _ _ => rfl) fun _ => rfl
  | some base =>
      rw [Option.map_some, joinOrAdvance, joinOrAdvance]
      exact matches_settle fun pending alone within echoes =>
        ⟨rfl, echoes_joinChord base noteRest echoes⟩

theorem matches_settleRelations
    (flavor : Flavor) (node : Node) (noteRest : Handle) (type : NoteType)
    (decorations : Decorations) :
    Matches site (settleRelations flavor node noteRest type decorations)
      (settleRelations flavor node (site.base + noteRest) type
        (decorations.shift site.base)) Eq := by
  have groups : Matches site (settleGroups node noteRest type decorations)
      (settleGroups node (site.base + noteRest) type
        (decorations.shift site.base)) Eq := by
    refine (matches_applyModification noteRest _).bind fun _ _ _ => ?_
    refine (matches_tupletFactor decorations noteRest node).bind ?_
    rintro factor _ rfl
    refine (matches_settleBeams decorations noteRest type node).bind
      fun _ _ _ => ?_
    exact (matches_settleSlur decorations).bind fun _ _ _ => .pure rfl
  rw [settleRelations_eq, settleRelations_eq]
  split
  · exact groups
  · exact (matches_settleTies noteRest decorations).bind fun _ _ _ => groups

theorem matches_settleNoteRest
    (flavor : Flavor) (node : Node) (base : Option Handle) (noteRest : Handle)
    (value : NoteValue) (decorations : Decorations) :
    Matches site (settleNoteRest flavor node base noteRest value decorations)
      (settleNoteRest flavor node (base.map (site.base + ·))
        (site.base + noteRest) value (decorations.shift site.base)) Eq := by
  refine (matches_settleRelations flavor node noteRest value.type
    decorations).bind ?_
  rintro factor _ rfl
  refine (matches_joinOrAdvance base noteRest _).bind fun _ _ _ => ?_
  split
  · refine matches_modifyContext ?_
    rintro settings _ ⟨instruments, rfl⟩
    exact ⟨instruments, rfl⟩
  · exact .pure rfl

/-- A note or rest is the same wherever its instrument stands. -/
theorem matches_analyseNoteRest
    (flavor : Flavor) (node : Node) (anchor : Option Handle) :
    MatchesObject site (analyseNoteRest flavor node anchor)
      (analyseNoteRest flavor node (anchor.map (site.base + ·))) := by
  refine matches_context.bind ?_
  rintro settings _ ⟨instruments, rfl⟩
  have sameBase : (if flavor = .chordNote then
      settings.lastNote.map (site.base + ·) else none) =
        (if flavor = .chordNote then settings.lastNote else none).map
          (site.base + ·) := by
    split <;> rfl
  dsimp only
  rw [sameBase]
  refine (matches_addNoteRest flavor node anchor _).bind ?_
  rintro result _ rfl
  exact (matches_settleNoteRest flavor node _ result.1 result.2.1
    result.2.2).bind fun _ _ _ => .pure rfl

/-! ## Staff objects -/

theorem matches_chordNotes (anchor : Option Handle) (children : List Node) :
    Matches site (chordNotes anchor children)
      (chordNotes (anchor.map (site.base + ·)) children) Eq := by
  induction children with
  | nil => exact .pure rfl
  | cons child rest induction =>
      rw [chordNotes, chordNotes]
      split
      · exact (matches_analyseNoteRest .chordNote child anchor).bind
          fun _ _ _ => induction
      · exact (repeats_reportMisplaced child).then fun _ => induction

theorem matches_chordChildren (anchor : Option Handle) (children : List Node) :
    MatchesOption site (chordChildren anchor children)
      (chordChildren (anchor.map (site.base + ·)) children) := by
  induction children with
  | nil => exact .pure rfl
  | cons child rest induction =>
      rw [chordChildren, chordChildren]
      split
      · refine (matches_analyseNoteRest .note child anchor).bind ?_
        rintro base _ rfl
        exact (matches_chordNotes anchor rest).bind fun _ _ _ => .pure rfl
      · exact (repeats_reportMisplaced child).then fun _ => induction

theorem matches_analyseChord (node : Node) (anchor : Option Handle) :
    MatchesOption site (analyseChord node anchor)
      (analyseChord node (anchor.map (site.base + ·))) := by
  refine (matches_chordChildren anchor node.children).bind ?_
  rintro base _ rfl
  refine matches_model.bind fun alone within echoes => .pure ?_
  cases base with
  | none => rfl
  | some base =>
      simp only [Option.map_some, Option.bind_some, echoes.note?]
      cases alone.note? base <;> rfl

theorem matches_addStaffObject
    (node : Node) (anchor : Option Handle) {content : Content}
    (plain : content.shift site.base = content) (children : List Node) :
    MatchesObject site (addStaffObject node anchor content children)
      (addStaffObject node (anchor.map (site.base + ·)) content children) := by
  refine (matches_addObject node anchor plain).bind ?_
  rintro handle _ rfl
  exact (matches_analyseEach (matchEach_textAnalyser? handle) children).bind
    fun _ _ _ => .pure rfl

theorem matches_analyseClef (node : Node) (anchor : Option Handle) :
    MatchesObject site (analyseClef node anchor)
      (analyseClef node (anchor.map (site.base + ·))) := by
  refine (repeats_optionalName _ _ _ node.children).then fun clef => ?_
  refine (repeats_optionalSize node clef.2).then fun size => ?_
  refine (repeats_staffOptions {} size.2).then fun result => ?_
  refine Repeats.then ?_ fun _ => matches_addStaffObject node anchor rfl _
  exact repeats_modifyContext (fun _ _ _ => rfl) fun _ => rfl

theorem matches_analyseKey (node : Node) (anchor : Option Handle) :
    MatchesObject site (analyseKey node anchor)
      (analyseKey node (anchor.map (site.base + ·))) := by
  refine (repeats_optionalName _ _ _ node.children).then fun key => ?_
  refine (repeats_staffOptions {} key.2).then fun result => ?_
  refine Repeats.then ?_ fun _ => matches_addStaffObject node anchor rfl _
  exact repeats_modifyContext (fun _ _ _ => rfl) fun _ => rfl

theorem matches_analyseTime (node : Node) (anchor : Option Handle) :
    MatchesObject site (analyseTime node anchor)
      (analyseTime node (anchor.map (site.base + ·))) := by
  refine (repeats_optionalName _ _ _ node.children).then fun style => ?_
  refine (repeats_timeCounts node style.1 style.2).then fun counts => ?_
  refine (repeats_staffOptions {} counts.2.2).then fun result => ?_
  refine Repeats.then ?_ fun _ => matches_addStaffObject node anchor rfl _
  exact repeats_modifyContext (fun _ _ _ => rfl) fun _ => rfl

theorem matches_analyseBarline (node : Node) (anchor : Option Handle) :
    MatchesObject site (analyseBarline node anchor)
      (analyseBarline node (anchor.map (site.base + ·))) := by
  refine (repeats_optionalName _ _ _ node.children).then fun style => ?_
  refine (repeats_optionalWord _ style.2).then fun word => ?_
  refine (repeats_staffOptions {} word.2).then fun result => ?_
  refine (matches_addStaffObject node anchor rfl result.2).bind
    fun _ _ later => ?_
  refine Repeats.then ?_ fun _ => .pure later
  exact repeats_modifyContext (fun _ _ _ => rfl) fun _ => rfl

theorem matches_analyseShift
    (isForward : Bool) (node : Node) (anchor : Option Handle) :
    MatchesOption site (analyseShift isForward node anchor)
      (analyseShift isForward node (anchor.map (site.base + ·))) := by
  refine (repeats_readShift isForward node).then fun result => ?_
  rcases result with ⟨_ | shift, rest⟩
  · exact .pure rfl
  · refine (repeats_reportExtra node rest).then fun _ => ?_
    refine Repeats.then ?_ fun _ => (matches_addObject node anchor rfl).bind
      fun _ _ later => .pure (congrArg some later)
    exact repeats_modifyContext (fun _ _ _ => rfl) fun _ => rfl

theorem matches_analyseSpacer (node : Node) (anchor : Option Handle) :
    MatchesOption site (analyseSpacer node anchor)
      (analyseSpacer node (anchor.map (site.base + ·))) := by
  rw [analyseSpacer, analyseSpacer]
  rcases take? .number node.children with ⟨_ | number, rest⟩
  · exact (repeats_report _ _).then fun _ => .pure rfl
  · refine (repeats_realValue number).then fun width => ?_
    refine (repeats_staffOptions {} rest).then fun result => ?_
    refine (matches_addObject node anchor rfl).bind ?_
    rintro handle _ rfl
    exact (matches_analyseEach (matchEach_attachmentAnalyser? handle)
      result.2).bind fun _ _ _ => .pure rfl

theorem matches_analyseNewSystem (node : Node) (anchor : Option Handle) :
    MatchesObject site (analyseNewSystem node anchor)
      (analyseNewSystem node (anchor.map (site.base + ·))) :=
  (repeats_reportExtra node node.children).then fun _ =>
    matches_addObject node anchor rfl

theorem matches_analyseMetronome (node : Node) (anchor : Option Handle) :
    MatchesObject site (analyseMetronome node anchor)
      (analyseMetronome node (anchor.map (site.base + ·))) := by
  refine (repeats_readMetronome node node.children).then fun result => ?_
  rcases result with ⟨_ | mark, rest⟩
  · exact matches_addObject node anchor rfl
  · refine (repeats_optionalWord _ rest).then fun word => ?_
    exact matches_addMark node anchor word.2 fun _ => rfl

/-- Whatever stands in music data is the same wherever its instrument stands. -/
theorem matches_staffObjectAnalyser?
    (anchor : Option Handle) (kind : ElementKind) :
    Option.Rel
      (fun analyser analyser' =>
        ∀ child, MatchesOption site (analyser child) (analyser' child))
      (staffObjectAnalyser? anchor kind)
      (staffObjectAnalyser? (anchor.map (site.base + ·)) kind) := by
  unfold staffObjectAnalyser?
  split
  · exact .some fun child => (matches_analyseNoteRest _ child anchor).some
  · exact .some fun child => (matches_analyseNoteRest _ child anchor).some
  · exact .some fun child => (matches_analyseNoteRest _ child anchor).some
  · exact .some fun child => matches_analyseChord child anchor
  · exact .some fun child => (matches_analyseClef child anchor).some
  · exact .some fun child => (matches_analyseKey child anchor).some
  · exact .some fun child => (matches_analyseTime child anchor).some
  · exact .some fun child => (matches_analyseBarline child anchor).some
  · exact .some fun child => matches_analyseShift _ child anchor
  · exact .some fun child => matches_analyseShift _ child anchor
  · exact .some fun child => matches_analyseSpacer child anchor
  · exact .some fun child => (matches_analyseNewSystem child anchor).some
  · exact .some fun child => (matches_analyseMetronome child anchor).some
  · exact .some fun child => matches_analyseText child anchor
  · exact .none

/-! ## Instruments -/

theorem matches_analyseMusicData (node : Node) (anchor : Option Handle) :
    MatchesObject site (analyseMusicData node anchor)
      (analyseMusicData node (anchor.map (site.base + ·))) := by
  refine (matches_addObject node anchor rfl).bind ?_
  rintro handle _ rfl
  refine (matches_analyseEach (fun kind => ?_) node.children).bind
    fun _ _ _ => .pure rfl
  have matching := @matches_staffObjectAnalyser? site (some handle) kind
  simp only [Option.map_some] at matching
  generalize staffObjectAnalyser? (some handle) kind = first,
    staffObjectAnalyser? (some (site.base + handle)) kind = second
    at matching ⊢
  cases matching with
  | none => exact .none
  | some matching => exact .some fun child => (matching child).discard

theorem matches_optionalText
    (kind : ElementKind) (anchor : Handle) (children : List Node) :
    Matches site (optionalText kind anchor children)
      (optionalText kind (site.base + anchor) children) Eq := by
  unfold optionalText
  rcases take? kind children with ⟨_ | node, rest⟩
  · exact .pure rfl
  · refine (matches_analyseText node (some anchor)).bind ?_
    rintro handle _ rfl
    refine matches_model.bind fun alone within echoes => .pure ?_
    cases handle with
    | none => rfl
    | some handle =>
        have contents := echoes.content? handle
        simp only [Option.map_some, Option.bind_some]
        generalize alone.content? handle = old, within.content? _ = new
          at contents
        cases contents with
        | none => rfl
        | @some old _ content =>
            obtain ⟨id, other, content⟩ := content
            cases content with
            | shifted => cases old <;> rfl
            | numbered => rfl

theorem matches_instrumentHead (instrument : Handle) (children : List Node) :
    Matches site (instrumentHead instrument children)
      (instrumentHead (site.base + instrument) children) Eq := by
  refine (matches_optionalText .instrumentName instrument children).bind ?_
  rintro name _ rfl
  refine (matches_optionalText .abbreviation instrument name.2).bind ?_
  rintro abbreviation _ rfl
  refine (matches_analyseOptional (fun child => repeats_analyseStaves child)
    _).bind fun _ _ _ => ?_
  refine matches_context.bind ?_
  rintro settings _ ⟨instruments, rfl⟩
  refine (matches_modifyModel fun _ _ echoes =>
    echoes.modifyContent instrument fun _ => ?_).bind fun _ _ _ => .pure rfl
  exact .shifted (.instrument name.1 abbreviation.1 settings.staves)

/-- What an instrument reads once its object has been added. -/
def instrumentBody (node : Node) (instrument : Handle) : Analyser Unit := do
  let rest ← instrumentHead instrument node.children
  let (musicData, rest) ← mandatory node .musicData rest
  analyseOptional (fun music => discard (analyseMusicData music (some instrument)))
    musicData
  reportExtra node rest

theorem matches_instrumentBody (node : Node) (instrument : Handle) :
    Matches site (instrumentBody node instrument)
      (instrumentBody node (site.base + instrument)) Eq := by
  refine (matches_instrumentHead instrument node.children).bind ?_
  rintro rest _ rfl
  refine (repeats_mandatory node .musicData rest).then fun result => ?_
  refine (matches_analyseOptional (fun music =>
    (matches_analyseMusicData music (some instrument)).discard) _).bind
      fun _ _ _ => ?_
  exact repeats_reportExtra node result.2

end LdpScore.Analyser
