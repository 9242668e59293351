import LdpScore.Proofs.Analysis.Growing

/-!
# From notes to documents

A note or rest grows with what is attached to it before its relations are settled,
which leaves the trees alone.  Above the music each element grows with its children
in turn.  Only an option that is declared again changes an older object, and a
chord has no object of its own in the trees.
-/

namespace LdpScore.Analyser

variable {anchor : Option Handle}

/-! ## Settling the relations of a note or rest -/

section Settling

variable (noteRest : Handle) (decorations : Decorations)

theorem keeping_settleTies :
    Keeps (settleTies noteRest decorations) := by
  rw [settleTies]
  have legacy : Keeps (settleLegacyTie decorations.legacyTie noteRest) := by
    refine keeping_settle fun pending draft => ?_
    cases decorations.legacyTie <;> exact LegacyTie.keepsTrees_offer ..
  refine legacy.bind fun _ _ => ?_
  cases decorations.tie with
  | none => exact .pure trivial
  | some point =>
      refine keeping_settle fun pending draft => ?_
      rw [Tie.add_eq_settleWith]
      exact Pairing.keepsTrees_settleWith Tie.keepsTrees_linkChain ..

theorem keeping_settleTuplet (point : TupletPoint) :
    Keeps (settleTuplet point) := by
  refine keeping_settle fun pending draft => ?_
  rw [Tuplet.add_eq_settleWith]
  exact Pairing.keepsTrees_settleWith Tuplet.keepsTrees_linkChain ..

theorem keeping_joinTuplets (location : Location) :
    Keeps (joinTuplets noteRest location) :=
  keeping_settle fun _ draft => .refl draft.model

theorem keeping_settleLegacyTuplet (label : Node) :
    Keeps (settleLegacyTuplet label noteRest) := by
  rw [settleLegacyTuplet]
  dsimp only
  split
  · refine .read reads_openRatio fun ratio => ?_
    refine .read reads_pending fun pending => ?_
    refine .read (quiet_legacyTuplet _ _ _ _ _ noteRest) fun point => ?_
    exact (keeping_settleTuplet point).bind fun _ _ => .pure trivial
  · split
    · exact .read (reads_report _ (by simp)) fun _ => .of_quiet reads_openRatio
    · refine .read reads_pending fun pending => ?_
      split
      · exact .read (reads_report _ (by simp)) fun _ =>
          .of_quiet reads_openRatio
      · refine .read (quiet_legacyTuplet _ _ _ _ _ noteRest) fun point => ?_
        exact (keeping_settleTuplet point).bind fun _ _ =>
          .of_quiet reads_openRatio

theorem keeping_settleTuplets (point : Option TupletPoint) (node : Node) :
    Keeps (settleTuplets point noteRest node) := by
  have joins := keeping_joinTuplets noteRest node.location
  unfold settleTuplets
  cases point with
  | none => exact joins.bind fun _ _ => .of_quiet reads_openRatio
  | some point =>
      have settles := keeping_settleTuplet point
      dsimp only
      split
      · refine .read reads_openRatio fun ratio => ?_
        refine settles.bind fun _ _ => joins.bind fun _ _ => ?_
        exact .pure trivial
      · refine joins.bind fun _ _ => settles.bind fun _ _ => ?_
        exact .of_quiet reads_openRatio

theorem keeping_tupletFactor (node : Node) :
    Keeps (tupletFactor decorations noteRest node) := by
  rw [tupletFactor]
  split
  · exact keeping_settleLegacyTuplet noteRest _
  · exact keeping_settleTuplets noteRest _ node

theorem keeping_settleLegacyBeam (type : NoteType) (node : Node) :
    Keeps (settleLegacyBeam decorations noteRest type node) := by
  have joined : ∀ location, Keeps (joinLegacyBeam noteRest location) :=
    fun _ => keeping_settle fun _ draft => .refl draft.model
  have closed : ∀ location, Keeps (closeLegacyBeam noteRest location) :=
    fun _ => keeping_settle fun _ _ => Beam.keepsTrees_linkChain ..
  have reported : ∀ {location problem}, problem ≠ .idTaken →
      Keeps (report location problem) :=
    fun other => .of_quiet (reads_report _ other)
  rw [settleLegacyBeam]
  refine .read reads_pending fun pending => ?_
  dsimp only
  split
  · split
    · split
      · exact reported (by simp)
      · split
        · exact .read (reads_report _ (by simp)) fun _ => joined _
        · exact joined _
    · split
      · exact closed _
      · exact reported (by simp)
    · exact reported (by simp)
  · split
    · exact joined _
    · exact .pure trivial

theorem keeping_settleBeams (type : NoteType) (node : Node) :
    Keeps (settleBeams decorations noteRest type node) := by
  rw [settleBeams]
  refine (keeping_settleLegacyBeam noteRest decorations type node).bind fun _ _ => ?_
  cases decorations.beam with
  | none => exact .pure trivial
  | some point =>
      refine keeping_settle fun pending draft => ?_
      rw [Beam.add_eq_settleWith]
      exact Pairing.keepsTrees_settleWith
        (fun _ _ => Beam.keepsTrees_linkChain ..) ..

theorem keeping_settleSlur : Keeps (settleSlur decorations) := by
  rw [settleSlur]
  cases decorations.slur with
  | none => exact .pure trivial
  | some point =>
      refine keeping_settle fun pending draft => ?_
      rw [Slur.add_eq_settleWith]
      exact Pairing.keepsTrees_settleWith Slur.keepsTrees_linkChain ..

theorem keeping_settleRelations
    (flavor : Flavor) (node : Node) (type : NoteType) :
    Keeps (settleRelations flavor node noteRest type decorations) := by
  have others : Keeps (do
      applyModification noteRest decorations.timeModification
      let factor ← tupletFactor decorations noteRest node
      settleBeams decorations noteRest type node
      settleSlur decorations
      return factor) := by
    have modified :
        Keeps (applyModification noteRest decorations.timeModification) := by
      cases decorations.timeModification with
      | none => exact .pure trivial
      | some modification => exact keeping_modifyNoteRest noteRest _
    refine modified.bind fun _ _ => ?_
    refine (keeping_tupletFactor noteRest decorations node).bind fun factor _ => ?_
    refine (keeping_settleBeams noteRest decorations type node).bind fun _ _ => ?_
    exact (keeping_settleSlur decorations).bind fun _ _ => .pure trivial
  rw [settleRelations]
  split
  · exact (keeping_settleTies noteRest decorations).bind fun _ _ => others
  · exact others

theorem keeping_settleNoteRest
    (flavor : Flavor) (node : Node) (base : Option Handle) (value : NoteValue) :
    Keeps (settleNoteRest flavor node base noteRest value decorations) := by
  have joined : ∀ duration, Keeps (joinOrAdvance base noteRest duration) := by
    intro duration
    unfold joinOrAdvance
    cases base with
    | none => exact keeping_modifyContext _
    | some base => exact keeping_settle fun _ => keepsTrees_joinChord base noteRest
  rw [settleNoteRest]
  refine (keeping_settleRelations noteRest decorations flavor node _).bind
    fun factor _ => ?_
  refine (joined _).bind fun _ _ => ?_
  split
  · exact keeping_modifyContext _
  · exact .pure trivial

end Settling

/-! ## The elements of notes and rests -/

section NoteRest

variable {noteRest : Handle}

theorem keeping_placeInVoice : Keeps (placeInVoice noteRest) := by
  rw [placeInVoice]
  exact .read reads_context fun _ => keeping_modifyNoteRest noteRest _

theorem keeping_voiceProperty (property : Node) :
    Keeps (voiceProperty noteRest property) := by
  have placed : ∀ voice, Keeps (do
      modifyContext fun context => { context with voice := voice }
      modifyModel fun model =>
        model.modifyNoteRest noteRest fun it => { it with voice := voice }) :=
    fun voice => (keeping_modifyContext _).bind fun _ _ =>
      keeping_modifyNoteRest noteRest _
  rw [voiceProperty]
  refine .read reads_context fun context => ?_
  refine .read (reads_propertyValue _ _) fun value => ?_
  cases value with
  | none => exact placed context.voice
  | some number => exact .read (reads_numberValue _ _) fun voice => placed voice

theorem keeping_stemProperty (property : Node) :
    Keeps (stemProperty noteRest property) := by
  rw [stemProperty]
  refine .read (reads_stemValue _) fun stem => ?_
  exact keeping_modifyModel fun model => .modifyNote model noteRest _

/-- Only lyrics grow while the options of a note are read. -/
theorem growing_noteOptions (decorations : Decorations) (children : List Node) :
    GrowingAny (some noteRest) (noteOptions noteRest decorations children) := by
  induction children generalizing decorations with
  | nil => exact .pure trivial
  | cons child rest induction =>
      rw [noteOptions]
      split
      · exact .read (quiet_analyseTie child _) fun point => induction _
      · exact .read (quiet_analyseSlur child _) fun point => induction _
      · exact .keep (keeping_stemProperty child) fun _ => induction _
      · exact (growing_analyseLyric child).any.seq fun _ => induction _
      · exact .pure trivial

theorem keeping_noteRestOptions
    (decorations : Decorations) (children : List Node) :
    Keeps (noteRestOptions noteRest decorations children) := by
  induction children generalizing decorations with
  | nil => exact .pure trivial
  | cons child rest induction =>
      rw [noteRestOptions]
      split
      · exact .read (quiet_analyseTuplet child _) fun point => induction _
      · exact .read (reads_analyseTimeModification child) fun _ => induction _
      · exact .read (quiet_analyseBeam child _) fun point => induction _
      · exact (keeping_voiceProperty child).bind fun _ _ => induction _
      · exact .pure trivial

theorem growing_readOptions
    (flavor : Flavor) (decorations : Decorations) (children : List Node) :
    GrowingAny (some noteRest)
      (readOptions flavor noteRest decorations children) := by
  have shared : ∀ decorations children, GrowingAny (some noteRest)
      (noteRestOptions noteRest decorations children) :=
    fun _ _ => .of_keeping (keeping_noteRestOptions _ _) fun _ _ => trivial
  have both : GrowingAny (some noteRest) (do
      let result ← noteOptions noteRest decorations children
      noteRestOptions noteRest result.1 result.2) :=
    (growing_noteOptions decorations children).seq fun result => shared _ _
  cases flavor with
  | rest => exact shared decorations children
  | note => exact both
  | chordNote => exact both

theorem keeping_placeInTime (base : Option Handle) (children : List Node) :
    Keeps (placeInTime noteRest base children) := by
  rw [placeInTime]
  refine .read reads_model fun model => ?_
  refine .read (quiet_staffOptions _ _) fun result => ?_
  refine .read reads_context fun context => ?_
  refine .read reads_model fun model => ?_
  exact (keeping_modifyNoteRest noteRest _).bind fun _ _ => .pure trivial

end NoteRest

theorem growing_addNoteRest
    (flavor : Flavor) (node : Node) (base : Option Handle) :
    Growing anchor (addNoteRest flavor node anchor base) fun result tops =>
      tops = [result.1] := by
  rw [addNoteRest]
  refine .read (quiet_readPitch flavor node _) fun pitch => ?_
  refine .read (quiet_readNoteValue node _) fun value => ?_
  have noRelation := (isFresh_noteRestContent flavor value.1 pitch.1).members?
  refine .branch noRelation fun handle => ?_
  refine .read (quiet_abbreviations (Decorations.areOf_empty flavor handle) _)
    fun labels => ?_
  refine .keep keeping_placeInVoice fun _ => ?_
  refine (growing_readOptions flavor _ _).bind fun options _ _ => ?_
  refine .keep (keeping_placeInTime base _) fun rest => ?_
  exact (Growing.analyseEach (fun _ _ node known =>
    growing_attachment known node) _).bind fun _ _ _ => .pure rfl

theorem growing_analyseNoteRest (flavor : Flavor) (node : Node) :
    GrowingOne anchor (analyseNoteRest flavor node anchor) := by
  rw [analyseNoteRest]
  refine .read reads_context fun context => ?_
  refine (growing_addNoteRest flavor node _).bind ?_
  rintro ⟨handle, value, decorations⟩ _ rfl
  exact .keep (keeping_settleNoteRest handle decorations flavor node _ value)
    fun _ => .pure rfl

/-! ## Music data -/

theorem growing_chordNotes (children : List Node) :
    GrowingAny anchor (chordNotes anchor children) := by
  induction children with
  | nil => exact .pure trivial
  | cons child rest induction =>
      rw [chordNotes]
      split
      · exact (growing_analyseNoteRest .chordNote child).any.seq
          fun _ => induction
      · exact .read (reads_reportMisplaced child) fun _ => induction

theorem growing_chordChildren (children : List Node) :
    GrowingAny anchor (chordChildren anchor children) := by
  induction children with
  | nil => exact .pure trivial
  | cons child rest induction =>
      rw [chordChildren]
      split
      · refine (growing_analyseNoteRest .note child).any.seq fun base => ?_
        exact (growing_chordNotes rest).seq fun _ => .pure trivial
      · exact .read (reads_reportMisplaced child) fun _ => induction

theorem growing_analyseChord (node : Node) :
    GrowingAny anchor (analyseChord node anchor) := by
  rw [analyseChord]
  refine (growing_chordChildren node.children).seq fun base => ?_
  exact .read reads_model fun model => .pure trivial

/-- Everything that stands in music data but a chord becomes one tree. -/
theorem growing_staffObject
    {kind : ElementKind} {analyser : Node → Analyser (Option Handle)}
    (known : staffObjectAnalyser? anchor kind = some analyser) (node : Node) :
    Growing anchor (analyser node) fun result tops =>
      kind ≠ .chord → tops = result.toList := by
  have one : ∀ {action : Analyser Handle}, GrowingOne anchor action →
      Growing anchor (some <$> action) fun result tops =>
        kind ≠ .chord → tops = result.toList :=
    fun growing => growing.map fun _ _ isTop _ => isTop
  have atMostOne : ∀ {action : Analyser (Option Handle)},
      GrowingAtMostOne anchor action → Growing anchor action
        fun result tops => kind ≠ .chord → tops = result.toList :=
    fun growing => growing.mono fun _ _ isTop _ => isTop
  unfold staffObjectAnalyser? at known
  split at known <;> cases known
  · exact one (growing_analyseNoteRest .note node)
  · exact one (growing_analyseNoteRest .chordNote node)
  · exact one (growing_analyseNoteRest .rest node)
  · exact (growing_analyseChord node).mono fun _ _ _ other => absurd rfl other
  · exact one (growing_analyseClef node)
  · exact one (growing_analyseKey node)
  · exact one (growing_analyseTime node)
  · exact one (growing_analyseBarline node)
  · exact atMostOne (growing_analyseShift false node)
  · exact atMostOne (growing_analyseShift true node)
  · exact atMostOne (growing_analyseSpacer node)
  · exact one (growing_analyseNewSystem node)
  · exact one (growing_analyseMetronome node)
  · exact atMostOne (growing_analyseText node)

theorem growing_analyseMusicData (node : Node) :
    GrowingOne anchor (analyseMusicData node anchor) := by
  rw [analyseMusicData]
  refine .branch rfl fun handle => ?_
  refine (Growing.analyseEach ?_ _).bind fun _ _ _ => .pure rfl
  intro kind analyser node known
  obtain ⟨given, isKnown, rfl⟩ := Option.map_eq_some_iff.mp known
  exact (growing_staffObject isKnown node).discard

/-! ## Texts of a document and of a score -/

theorem growing_analyseTextItem (node : Node) :
    GrowingAtMostOne anchor (analyseTextItem node anchor) := by
  rw [analyseTextItem]
  refine .read (quiet_mandatory _ _ _) fun result => ?_
  rcases result with ⟨_ | text, rest⟩
  · exact .pure rfl
  · refine .read (reads_reportExtra _ _) fun _ => ?_
    exact .branch rfl fun _ => .pure rfl

theorem growing_inline
    {handle : Handle} {kind : ElementKind} {analyser : Node → Analyser Unit}
    (known : inlineAnalyser? handle kind = some analyser) (node : Node) :
    GrowingAny (some handle) (analyser node) := by
  unfold inlineAnalyser? at known
  split at known <;> cases known
  · exact (growing_analyseTextItem node).discard
  · exact (growing_addObject node rfl).discard

theorem growing_analyseParagraph (node : Node) :
    GrowingOne anchor (analyseParagraph node anchor) := by
  rw [analyseParagraph]
  refine .branch rfl fun handle => ?_
  exact (Growing.analyseEach (fun _ _ node known =>
    growing_inline known node) _).bind fun _ _ _ => .pure rfl

theorem growing_analyseHeading (node : Node) :
    GrowingOne anchor (analyseHeading node anchor) := by
  rw [analyseHeading]
  refine .read (quiet_mandatory _ _ _) fun result => ?_
  refine .read (reads_headingLevel _) fun level => ?_
  refine .branch rfl fun handle => ?_
  exact (Growing.analyseEach (fun _ _ node known =>
    growing_inline known node) _).bind fun _ _ _ => .pure rfl

theorem growing_analyseTitle (node : Node) :
    GrowingAtMostOne anchor (analyseTitle node anchor) := by
  rw [analyseTitle]
  refine .read (reads_optionalAlignment _) fun result => ?_
  refine .read (quiet_mandatory _ _ _) fun result => ?_
  rcases result with ⟨_ | text, rest⟩
  · exact .pure rfl
  · refine .read (reads_textLocation _ _) fun appearance => ?_
    exact .branch rfl fun _ => .pure rfl

/-- An option is added, or the one that is there below the anchor is changed. -/
theorem growing_analyseOption (node : Node) :
    Growing anchor (analyseOption node anchor) fun result tops =>
      anchor = none → tops = result.toList := by
  rw [analyseOption]
  refine .read (reads_readOption _) fun result => ?_
  rcases result with _ | ⟨name, value⟩
  · exact .pure fun _ => rfl
  · refine .readModel fun before isAnchor => ?_
    rcases isOption : anchor.bind fun score =>
        before.draft.model.optionHandle? score name with _ | option
    · have added : GrowingAtMostOne anchor (do
          return some (← addObject node anchor (.scoreOption name value))) :=
        .branch rfl fun _ => .pure rfl
      exact (added.mono fun _ _ isTop _ => isTop) before isAnchor
    · obtain ⟨score, isScore, found⟩ := Option.bind_eq_some_iff.mp isOption
      obtain ⟨old, oldValue, isContent⟩ := exists_option_of_optionHandle? found
      have isElement : before.draft.model.isElement option := by
        rw [Model.isElement, isContent]
        rfl
      have keeps : Model.KeepsTrees before.draft.model
          (before.draft.model.modifyContent option fun _ =>
            .scoreOption name value) :=
        .replaceContent isElement rfl
      refine ⟨[], keeps.grows anchor, fun noAnchor => ?_⟩
      rw [noAnchor] at isScore
      cases isScore

/-! ## Instruments -/

/-- The anchor is replaced by something else that stands in a tree. -/
theorem growing_replaceContent
    {handle : Handle} {content : Content} (noRelation : content.members? = none) :
    GrowingAny (some handle)
      (modifyModel fun model => model.modifyContent handle fun _ => content) :=
  fun _ isAnchor => ⟨[], (Model.KeepsTrees.replaceContent
    (isAnchor handle rfl) noRelation).grows _, trivial⟩

theorem growing_optionalText
    {handle : Handle} (kind : ElementKind) (children : List Node) :
    GrowingAny (some handle) (optionalText kind handle children) := by
  rw [optionalText]
  rcases take? kind children with ⟨_ | node, rest⟩
  · exact .pure trivial
  · refine (growing_analyseText node).any.seq fun result => ?_
    exact .read reads_model fun model => .pure trivial

theorem growing_instrumentHead {handle : Handle} (children : List Node) :
    GrowingAny (some handle) (instrumentHead handle children) := by
  rw [instrumentHead]
  refine (growing_optionalText .instrumentName children).seq fun name => ?_
  refine (growing_optionalText .abbreviation _).seq fun abbreviation => ?_
  dsimp only
  refine .read (reads_analyseOptional reads_analyseStaves _) fun _ => ?_
  refine .read reads_context fun context => ?_
  exact (growing_replaceContent rfl).seq fun _ => .pure trivial

theorem growing_analyseOptional
    {analyser : Node → Analyser Unit}
    (each : ∀ node, GrowingAny anchor (analyser node)) (node : Option Node) :
    GrowingAny anchor (analyseOptional analyser node) := by
  cases node with
  | none => exact .pure trivial
  | some node => exact each node

theorem growing_analyseInstrument (node : Node) :
    GrowingOne anchor (analyseInstrument node anchor) := by
  rw [analyseInstrument]
  refine .keep keeping_clearPending fun _ => ?_
  refine .keep (keeping_modifyContext _) fun _ => ?_
  refine .branch rfl fun handle => ?_
  refine (growing_instrumentHead node.children).bind fun rest _ _ => ?_
  refine .read (quiet_mandatory _ _ _) fun result => ?_
  refine (growing_analyseOptional (fun music =>
    (growing_analyseMusicData music).discard) _).bind fun _ _ _ => ?_
  exact .read (reads_reportExtra _ _) fun _ => .pure rfl

/-! ## Scores -/

section Score

variable {score : Handle}

theorem growing_leadingTitles (children : List Node) :
    GrowingAny (some score) (leadingTitles score children) := by
  induction children with
  | nil => exact .pure trivial
  | cons child rest induction =>
      rw [leadingTitles]
      split
      · exact (growing_analyseTitle child).discard.seq fun _ => induction
      · exact .pure trivial

theorem growing_leadingOptions (children : List Node) :
    GrowingAny (some score) (leadingOptions score children) := by
  induction children with
  | nil => exact .pure trivial
  | cons child rest induction =>
      rw [leadingOptions]
      split
      · exact (growing_analyseOption child).discard.seq fun _ => induction
      · exact .pure trivial

theorem growing_scoreHead (node : Node) :
    GrowingAny (some score) (scoreHead node score) := by
  rw [scoreHead]
  refine .read (quiet_mandatory _ _ _) fun result => ?_
  refine .read (reads_analyseOptional reads_analyseVersion _) fun _ => ?_
  refine .read reads_context fun context => ?_
  dsimp only
  refine (growing_replaceContent rfl).seq fun _ => ?_
  refine (growing_leadingTitles _).seq fun titled => ?_
  refine .read (reads_analyseOptional
    (fun cursor => reads_report cursor.location (by simp)) _) fun _ => ?_
  exact growing_leadingOptions _

theorem growing_instrument
    {kind : ElementKind} {analyser : Node → Analyser Unit}
    (known : instrumentAnalyser? score kind = some analyser) (node : Node) :
    GrowingAny (some score) (analyser node) := by
  unfold instrumentAnalyser? at known
  split at known <;> cases known
  exact (growing_analyseInstrument node).discard

end Score

theorem growing_analyseScore (node : Node) :
    GrowingOne anchor (analyseScore node anchor) := by
  rw [analyseScore]
  refine .keep (keeping_modifyContext _) fun _ => ?_
  refine .branch rfl fun handle => ?_
  refine (growing_scoreHead node).bind fun rest _ _ => ?_
  refine .read (reads_requireInstrument _ _) fun _ => ?_
  exact (Growing.analyseEach (fun _ _ node known =>
    growing_instrument known node) _).bind fun _ _ _ => .pure rfl

/-! ## Documents -/

theorem growing_block
    {handle : Handle} {kind : ElementKind} {analyser : Node → Analyser Unit}
    (known : blockAnalyser? handle kind = some analyser) (node : Node) :
    GrowingAny (some handle) (analyser node) := by
  unfold blockAnalyser? at known
  split at known <;> cases known
  · exact (growing_analyseScore node).discard
  · exact (growing_analyseParagraph node).discard
  · exact (growing_analyseHeading node).discard
  · exact (growing_analyseTextItem node).discard

theorem growing_analyseContent (node : Node) :
    GrowingOne anchor (analyseContent node anchor) := by
  rw [analyseContent]
  refine .branch rfl fun handle => ?_
  exact (Growing.analyseEach (fun _ _ node known =>
    growing_block known node) _).bind fun _ _ _ => .pure rfl

theorem growing_analyseDocument (node : Node) :
    GrowingAtMostOne anchor (analyseDocument node anchor) := by
  rw [analyseDocument]
  refine .read (quiet_mandatory _ _ _) fun result => ?_
  rcases result with ⟨_ | version, rest⟩
  · exact .pure rfl
  · dsimp only
    refine .branch rfl fun handle => ?_
    refine .read (quiet_mandatory _ _ _) fun result => ?_
    refine (growing_analyseOptional (fun content =>
      (growing_analyseContent content).discard) _).bind fun _ _ _ => ?_
    exact .read (reads_reportExtra _ _) fun _ => .pure rfl

end LdpScore.Analyser
