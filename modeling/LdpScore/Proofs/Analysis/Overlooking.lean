import LdpScore.Proofs.Analysis.Adjusting
import LdpScore.Proofs.Analysis.Branching
import LdpScore.Proofs.Score.Landmark

/-!
# Parts of an analysis that overlook the landmarks

Almost all of an analysis adds no score, option, instrument or lyric, changes none
and reports nothing about options.  Nor does it forget where the lyrics of a line
are placed.  Such a part of an analysis is `Overlooking`, whatever the state before
it.  It is made of others that are, and `simp` puts them together.
-/

namespace LdpScore

/-- The landmarks and what is remembered of the lyrics stay the same. -/
structure Analysis.Overlooks (before after : Analysis) : Prop where
  draft : before.draft.Overlooks after.draft
  placements : after.context.lyricPlacements = before.context.lyricPlacements

namespace Analysis.Overlooks

variable {first middle last : Analysis}

theorem refl (state : Analysis) : Overlooks state state :=
  ⟨.refl state.draft, rfl⟩

theorem trans
    (earlier : Overlooks first middle) (later : Overlooks middle last) :
    Overlooks first last :=
  ⟨earlier.draft.trans later.draft, later.placements.trans earlier.placements⟩

end Analysis.Overlooks

attribute [simp] Problem.isAboutOption

namespace Analyser

variable {Value Result : Type}

/-- A step that leaves the landmarks and what is remembered of the lyrics as they
are. -/
def Overlooking (action : Analyser Value) : Prop :=
  ∀ before, Ensures action before fun _ after => before.Overlooks after

/-! ## Elementary steps -/

@[simp]
theorem overlooking_pure (value : Value) :
    Overlooking (pure value : Analyser Value) :=
  fun before => .refl before

@[simp]
theorem Overlooking.bind
    {action : Analyser Result} {next : Result → Analyser Value}
    (first : Overlooking action) (second : ∀ result, Overlooking (next result)) :
    Overlooking (action >>= next) := by
  intro before
  apply (first before).bind
  intro result middle earlier
  exact (second result middle).mono fun _ _ later => earlier.trans later

@[simp]
theorem overlooking_map_iff
    {action : Analyser Result} {change : Result → Value} :
    Overlooking (change <$> action) ↔ Overlooking action :=
  .rfl

theorem Overlooking.discard
    {action : Analyser Value} (overlooking : Overlooking action) :
    Overlooking (discard action) :=
  overlooking

@[simp]
theorem overlooking_ite_iff
    {condition : Prop} [Decidable condition] {first second : Analyser Value} :
    Overlooking (if condition then first else second) ↔
      (condition → Overlooking first) ∧ (¬ condition → Overlooking second) := by
  split
  · rename_i holds
    simp [holds]
  · rename_i fails
    simp [fails]

@[simp]
theorem overlooking_context : Overlooking context :=
  fun before => .refl before

@[simp]
theorem overlooking_model : Overlooking model :=
  fun before => .refl before

@[simp]
theorem overlooking_pending : Overlooking pending :=
  fun before => .refl before

theorem overlooking_modifyContext
    {change : Context → Context}
    (same : ∀ context, (change context).lyricPlacements = context.lyricPlacements) :
    Overlooking (modifyContext change) :=
  fun before => ⟨.refl before.draft, same before.context⟩

theorem overlooking_report
    (location : Location) {problem : Problem}
    (other : problem.isAboutOption = false) :
    Overlooking (report location problem) :=
  fun before => ⟨.report before.draft location other, rfl⟩

@[simp]
theorem overlooking_report_iff {location : Location} {problem : Problem} :
    Overlooking (report location problem) ↔ problem.isAboutOption = false := by
  refine ⟨fun overlooking => ?_, overlooking_report location⟩
  have same : [⟨problem, location⟩].filter
      (fun diagnostic : Diagnostic => diagnostic.problem.isAboutOption) = [] :=
    (overlooking {}).draft.reports
  simpa using List.filter_eq_nil_iff.mp same

@[simp]
theorem overlooking_reportMisplaced (child : Node) :
    Overlooking (reportMisplaced child) :=
  overlooking_report _ rfl

@[simp]
theorem overlooking_reportMissing (parent : Node) (kind : ElementKind) :
    Overlooking (reportMissing parent kind) :=
  overlooking_report _ rfl

@[simp]
theorem overlooking_reportExtra (node : Node) (rest : List Node) :
    Overlooking (reportExtra node rest) := by
  cases rest with
  | nil => exact overlooking_pure ()
  | cons extra rest => exact overlooking_report _ rfl

@[simp]
theorem overlooking_mandatory
    (parent : Node) (kind : ElementKind) (children : List Node) :
    Overlooking (mandatory parent kind children) := by
  rw [mandatory]
  rcases take? kind children with ⟨_ | found, rest⟩ <;> simp

theorem overlooking_addObject
    (node : Node) (anchor : Option Handle) {content : Content}
    (other : content.isLandmark = false) :
    Overlooking (addObject node anchor content) :=
  fun before => ⟨before.draft.overlooks_addObject _ _ _ other, rfl⟩

theorem overlooking_modifyNoteRest
    (handle : Handle) (change : NoteRest → NoteRest) :
    Overlooking (modifyModel fun model => model.modifyNoteRest handle change) :=
  fun before => ⟨.modifyNoteRest before.draft handle change, rfl⟩

theorem overlooking_settle
    {change : Pending → Draft → Pending × Draft}
    (overlooks : ∀ pending draft, Draft.Overlooks draft (change pending draft).2) :
    Overlooking (settle change) :=
  fun before => ⟨overlooks before.pending before.draft, rfl⟩

theorem Overlooking.analyseEach
    {analyserOf : ElementKind → Option (Node → Analyser Unit)}
    (each : ∀ kind analyser node, analyserOf kind = some analyser →
      Overlooking (analyser node))
    (children : List Node) :
    Overlooking (analyseEach analyserOf children) := by
  induction children with
  | nil => exact overlooking_pure ()
  | cons child rest induction =>
      rw [Analyser.analyseEach]
      split
      · rename_i analyser isAnalyser
        obtain ⟨kind, _, known⟩ := Option.bind_eq_some_iff.mp isAnalyser
        exact (each kind analyser child known).bind fun _ => induction
      · exact (overlooking_reportMisplaced child).bind fun _ => induction

theorem Overlooking.optional
    {analyser : Node → Analyser Unit}
    (each : ∀ child, Overlooking (analyser child)) (child : Option Node) :
    Overlooking (analyseOptional analyser child) := by
  cases child with
  | none => exact overlooking_pure ()
  | some child => exact each child

/-! ## Values of leaves -/

@[simp]
theorem overlooking_integerValue (node : Node) (default : Int) :
    Overlooking (integerValue node default) := by
  rw [integerValue]
  split <;> simp

@[simp]
theorem overlooking_numberValue (node : Node) (default : Int) :
    Overlooking (numberValue node default) := by
  rw [numberValue, boundedValue]
  split <;> simp

@[simp]
theorem overlooking_countValue (node : Node) (default : Nat) :
    Overlooking (countValue node default) := by
  rw [countValue, boundedValue]
  split <;> simp

@[simp]
theorem overlooking_realValue (node : Node) : Overlooking (realValue node) := by
  rw [realValue]
  split <;> simp

@[simp]
theorem overlooking_boolValue (node : Node) (default : Bool) :
    Overlooking (boolValue node default) := by
  rw [boolValue]
  split <;> simp

@[simp]
theorem overlooking_yesNoValue (node : Node) : Overlooking (yesNoValue node) := by
  rw [yesNoValue]
  split <;> simp

@[simp]
theorem overlooking_placementValue (node : Node) (fallback : Placement) :
    Overlooking (placementValue node fallback) := by
  unfold placementValue
  split <;> simp

@[simp]
theorem overlooking_alignmentValue (node : Node) :
    Overlooking (alignmentValue node) := by
  rw [alignmentValue]
  split <;> simp

@[simp]
theorem overlooking_noteValue (node : Node) : Overlooking (noteValue node) := by
  rw [noteValue]
  split <;> simp

@[simp]
theorem overlooking_staffLabel (node : Node) : Overlooking (staffLabel node) := by
  have set : ∀ staff, Overlooking (modifyContext fun context =>
      { context with staff := staff }) :=
    fun _ => overlooking_modifyContext fun _ => rfl
  unfold staffLabel
  dsimp only
  split <;> simp [set]

@[simp]
theorem overlooking_voiceLabel (node : Node) : Overlooking (voiceLabel node) := by
  have set : ∀ voice, Overlooking (modifyContext fun context =>
      { context with voice := voice }) :=
    fun _ => overlooking_modifyContext fun _ => rfl
  unfold voiceLabel
  dsimp only
  split <;> simp [set]

@[simp]
theorem overlooking_propertyValue (property : Node) (kind : ElementKind) :
    Overlooking (propertyValue property kind) := by
  rw [propertyValue]
  cases property.children.head? <;> simp

/-! ## How objects are shown -/

@[simp]
theorem overlooking_analyseColor (node : Node) : Overlooking (analyseColor node) := by
  rw [analyseColor]
  split <;> simp

@[simp]
theorem overlooking_readCoordinates (bezier : Bezier) (children : List Node) :
    Overlooking (readCoordinates bezier children) := by
  induction children generalizing bezier with
  | nil => exact overlooking_pure bezier
  | cons child rest induction =>
      rw [readCoordinates]
      split
      · cases child.children.head? <;> simp [induction]
      · simp [induction]

@[simp]
theorem overlooking_analyseBezier (node : Node) : Overlooking (analyseBezier node) :=
  overlooking_readCoordinates {} node.children

@[simp]
theorem overlooking_displacement (property : Node) :
    Overlooking (displacement property) := by
  refine (overlooking_propertyValue property .number).bind fun value => ?_
  cases value <;> simp

@[simp]
theorem overlooking_printOptions (appearance : Appearance) (children : List Node) :
    Overlooking (printOptions appearance children) := by
  induction children generalizing appearance with
  | nil => exact overlooking_pure _
  | cons child rest induction =>
      rw [printOptions]
      split
      · refine (overlooking_propertyValue child .label).bind fun value => ?_
        cases value <;> simp [induction]
      all_goals simp [induction]

@[simp]
theorem overlooking_staffProperty (property : Node) :
    Overlooking (staffProperty property) := by
  have set : ∀ staff, Overlooking (modifyContext fun context =>
      { context with staff := staff }) :=
    fun _ => overlooking_modifyContext fun _ => rfl
  refine (overlooking_propertyValue property .number).bind fun value => ?_
  cases value with
  | none => simp [set]
  | some value =>
      dsimp only
      split <;> simp [set]

@[simp]
theorem overlooking_staffChoice (children : List Node) :
    Overlooking (staffChoice children) := by
  rw [staffChoice]
  rcases take? .label children with ⟨_ | label, rest⟩
  · rcases take? .staffNumber children with ⟨_ | property, rest⟩ <;> simp
  · simp

@[simp]
theorem overlooking_staffOptions (appearance : Appearance) (children : List Node) :
    Overlooking (staffOptions appearance children) := by
  rw [staffOptions]
  simp

@[simp]
theorem overlooking_textLocation (appearance : Appearance) (children : List Node) :
    Overlooking (textLocation appearance children) := by
  induction children generalizing appearance with
  | nil => exact overlooking_pure _
  | cons child rest induction =>
      rw [textLocation]
      split <;> simp [induction]

/-! ## Marks and texts -/

variable {anchor : Option Handle}

@[simp]
theorem overlooking_optionalPlacement (children : List Node) :
    Overlooking (optionalPlacement children) := by
  rw [optionalPlacement]
  rcases take? .label children with ⟨_ | label, rest⟩ <;> simp

theorem overlooking_addMark
    (node : Node) (children : List Node) {content : Appearance → Content}
    (other : ∀ appearance, (content appearance).isLandmark = false) :
    Overlooking (addMark node anchor children content) := by
  rw [addMark]
  simp [overlooking_addObject node anchor (other _)]

@[simp]
theorem overlooking_analyseArticulation (kind : ElementKind) (node : Node) :
    Overlooking (analyseArticulation kind node anchor) := by
  refine (overlooking_optionalPlacement _).bind fun result => ?_
  exact overlooking_addMark node _ fun _ => rfl

@[simp]
theorem overlooking_analyseDynamics (node : Node) :
    Overlooking (analyseDynamics node anchor) := by
  refine (overlooking_mandatory _ _ _).bind fun result => ?_
  rcases result with ⟨_ | mark, rest⟩
  · exact overlooking_pure none
  · have added : ∀ placement rest, Overlooking
        (addMark node anchor rest (.dynamics mark.text placement)) :=
      fun _ rest => overlooking_addMark node rest fun _ => rfl
    simp [added]

@[simp]
theorem overlooking_fermataLabels (node : Node) (children : List Node) :
    Overlooking (fermataLabels node children) := by
  rw [fermataLabels]
  rcases take? .label children with ⟨_ | label, rest⟩
  · simp
  · dsimp only
    split <;> simp

@[simp]
theorem overlooking_analyseFermata (node : Node) :
    Overlooking (analyseFermata node anchor) := by
  refine (overlooking_fermataLabels _ _).bind fun result => ?_
  exact overlooking_addMark node _ fun _ => rfl

@[simp]
theorem overlooking_analyseText (node : Node) :
    Overlooking (analyseText node anchor) := by
  refine (overlooking_mandatory _ _ _).bind fun result => ?_
  rcases result with ⟨_ | text, rest⟩
  · exact overlooking_pure none
  · have added : ∀ appearance, Overlooking
        (addObject node anchor (.scoreText text.text appearance)) :=
      fun _ => overlooking_addObject node anchor rfl
    simp [added]

@[simp]
theorem overlooking_lyricLine (children : List Node) :
    Overlooking (lyricLine children) := by
  rw [lyricLine]
  rcases take? .number children with ⟨_ | label, rest⟩ <;> simp

@[simp]
theorem overlooking_lyricLabel (children : List Node) :
    Overlooking (lyricLabel children) := by
  rw [lyricLabel]
  rcases take? .label children with ⟨_ | label, rest⟩
  · simp
  · dsimp only
    split <;> simp

@[simp]
theorem overlooking_lyricOptions (children : List Node) :
    Overlooking (lyricOptions children) := by
  refine (overlooking_lyricLabel children).bind fun result => ?_
  rcases result with ⟨options, rest⟩
  dsimp only
  split
  · simp
  · rcases take? .label (take? .melisma rest).2 with ⟨_ | label, rest⟩ <;> simp

theorem overlooking_attachment
    {handle : Handle} {kind : ElementKind} {analyser : Node → Analyser Unit}
    (known : attachmentAnalyser? handle kind = some analyser) (node : Node) :
    Overlooking (analyser node) := by
  unfold attachmentAnalyser? at known
  split at known
  · cases known
    exact (overlooking_analyseFermata node).discard
  · split at known
    · cases known
      exact (overlooking_analyseDynamics node).discard
    · split at known
      · cases known
        exact (overlooking_analyseText node).discard
      · split at known <;> cases known
        exact (overlooking_analyseArticulation kind node).discard

theorem overlooking_textAttachment
    {handle : Handle} {kind : ElementKind} {analyser : Node → Analyser Unit}
    (known : textAnalyser? handle kind = some analyser) (node : Node) :
    Overlooking (analyser node) := by
  unfold textAnalyser? at known
  split at known <;> cases known
  exact (overlooking_analyseText node).discard

@[simp]
theorem overlooking_attachments (handle : Handle) (children : List Node) :
    Overlooking (analyseEach (attachmentAnalyser? handle) children) :=
  .analyseEach (fun _ _ node known => overlooking_attachment known node) children

/-! ## Descriptors -/

@[simp]
theorem overlooking_curveNumber (node : Node) (children : List Node) :
    Overlooking (curveNumber node children) := by
  refine (overlooking_mandatory node .number children).bind fun result => ?_
  rcases result with ⟨_ | number, rest⟩ <;> simp

@[simp]
theorem overlooking_curveAppearance (children : List Node) :
    Overlooking (curveAppearance children) := by
  rw [curveAppearance]
  rcases take? .bezier children with ⟨bezierNode, rest⟩
  dsimp only
  rcases take? .color rest with ⟨colorNode, _⟩
  rcases bezierNode with _ | bezierNode <;>
    rcases colorNode with _ | colorNode <;> simp

@[simp]
theorem overlooking_analyseTie (node : Node) :
    Overlooking (analyseTie node anchor) := by
  refine (overlooking_curveNumber node node.children).bind fun result => ?_
  dsimp only
  split <;> simp

@[simp]
theorem overlooking_analyseSlur (node : Node) :
    Overlooking (analyseSlur node anchor) := by
  refine (overlooking_curveNumber node node.children).bind fun result => ?_
  dsimp only
  split <;> simp

@[simp]
theorem overlooking_analyseBeam (node : Node) :
    Overlooking (analyseBeam node anchor) := by
  rw [analyseBeam]
  rcases take? .number node.children with ⟨_ | number, rest⟩
  · simp
  · refine (overlooking_numberValue number 0).bind fun value => ?_
    split <;> simp

@[simp]
theorem overlooking_tupletDisplay
    (bracket : YesNo) (display : NumberDisplay) (children : List Node) :
    Overlooking (tupletDisplay bracket display children) := by
  induction children generalizing bracket display with
  | nil => exact overlooking_pure _
  | cons child rest induction =>
      rw [tupletDisplay]
      split
      · simp [induction]
      · refine (overlooking_propertyValue child .label).bind fun value => ?_
        cases value <;> simp [induction]
      · refine (overlooking_propertyValue child .label).bind fun value => ?_
        cases value with
        | none => simp [induction]
        | some value =>
            dsimp only
            split <;> simp [induction]
      · simp [induction]

@[simp]
theorem overlooking_tupletNumber (children : List Node) :
    Overlooking (tupletNumber children) := by
  rw [tupletNumber]
  rcases take? .number children with ⟨_ | node, rest⟩ <;> simp

@[simp]
theorem overlooking_tupletCounts (node : Node) (children : List Node) :
    Overlooking (tupletCounts node children) := by
  rw [tupletCounts]
  rcases take? .number children with ⟨_ | actualNode, rest⟩
  · simp
  · refine (overlooking_countValue actualNode 0).bind fun actual => ?_
    rcases take? .number rest with ⟨_ | normalNode, rest⟩ <;> simp

@[simp]
theorem overlooking_analyseTuplet (node : Node) :
    Overlooking (analyseTuplet node anchor) := by
  refine overlooking_context.bind fun initial => ?_
  refine (overlooking_tupletNumber node.children).bind fun result => ?_
  dsimp only
  split
  · refine (overlooking_tupletCounts node _).bind fun result => ?_
    rcases result with ⟨_ | ⟨actual, normal⟩, rest⟩
    · exact overlooking_pure none
    · refine (overlooking_tupletDisplay _ _ rest).bind fun display => ?_
      exact .bind (overlooking_modifyContext fun _ => rfl) fun _ => overlooking_pure _
  · simp
  · simp

@[simp]
theorem overlooking_analyseTimeModification (node : Node) :
    Overlooking (analyseTimeModification node) := by
  refine (overlooking_mandatory node .number node.children).bind fun result => ?_
  rcases result with ⟨_ | topNode, rest⟩
  · simp
  · refine (overlooking_countValue topNode 1).bind fun top => ?_
    refine (overlooking_mandatory node .number rest).bind fun result => ?_
    rcases result with ⟨_ | bottomNode, rest⟩ <;> simp

/-! ## The elements of notes and rests -/

@[simp]
theorem overlooking_readPitch
    (flavor : Flavor) (node : Node) (children : List Node) :
    Overlooking (readPitch flavor node children) := by
  have pitched : ∀ label, Overlooking (pitchValue label) := by
    intro label
    rw [pitchValue]
    split
    · simp
    · split <;> simp
  unfold readPitch
  split
  · exact overlooking_pure _
  · refine (overlooking_mandatory node .label children).bind fun result => ?_
    rcases result with ⟨_ | label, rest⟩ <;> simp [pitched]

@[simp]
theorem overlooking_readNoteValue (node : Node) (children : List Node) :
    Overlooking (readNoteValue node children) := by
  refine (overlooking_mandatory node .label children).bind fun result => ?_
  rcases result with ⟨_ | label, rest⟩ <;> simp

@[simp]
theorem overlooking_abbreviations
    (flavor : Flavor) (decorations : Decorations) (children : List Node) :
    Overlooking (abbreviations flavor decorations children) := by
  induction children generalizing decorations with
  | nil => exact overlooking_pure _
  | cons label rest induction =>
      rw [abbreviations]
      split
      · split <;> simp [induction]
      · simp

section NoteRest

variable (noteRest : Handle) (decorations : Decorations)

@[simp]
theorem overlooking_stemProperty (property : Node) :
    Overlooking (stemProperty noteRest property) := by
  have read : Overlooking (stemValue property) := by
    refine (overlooking_propertyValue property .label).bind fun value => ?_
    cases value with
    | none => exact overlooking_pure _
    | some value =>
        dsimp only
        split <;> simp
  refine read.bind fun stem => ?_
  exact fun before => ⟨.modifyNote before.draft noteRest _, rfl⟩

@[simp]
theorem overlooking_voiceProperty (property : Node) :
    Overlooking (voiceProperty noteRest property) := by
  have placed : ∀ voice, Overlooking (do
      modifyContext fun context => { context with voice := voice }
      modifyModel fun model =>
        model.modifyNoteRest noteRest fun it => { it with voice := voice }) :=
    fun voice => .bind (overlooking_modifyContext fun _ => rfl) fun _ =>
      overlooking_modifyNoteRest noteRest _
  refine overlooking_context.bind fun context => ?_
  refine (overlooking_propertyValue _ _).bind fun value => ?_
  cases value with
  | none => exact placed context.voice
  | some number => exact (overlooking_numberValue _ _).bind placed

@[simp]
theorem overlooking_noteRestOptions (children : List Node) :
    Overlooking (noteRestOptions noteRest decorations children) := by
  induction children generalizing decorations with
  | nil => exact overlooking_pure _
  | cons child rest induction =>
      rw [noteRestOptions]
      split <;> simp [induction]

@[simp]
theorem overlooking_placeInVoice : Overlooking (placeInVoice noteRest) :=
  overlooking_context.bind fun _ => overlooking_modifyNoteRest noteRest _

@[simp]
theorem overlooking_placeInTime (base : Option Handle) (children : List Node) :
    Overlooking (placeInTime noteRest base children) := by
  refine overlooking_model.bind fun model => ?_
  refine (overlooking_staffOptions _ _).bind fun result => ?_
  refine overlooking_context.bind fun context => ?_
  refine overlooking_model.bind fun model => ?_
  exact (overlooking_modifyNoteRest noteRest _).bind fun _ => overlooking_pure _

/-! ## Settling the relations of a note or rest -/

theorem overlooking_settleTies : Overlooking (settleTies noteRest decorations) := by
  have legacy : Overlooking (settleLegacyTie decorations.legacyTie noteRest) := by
    refine overlooking_settle fun pending draft => ?_
    cases decorations.legacyTie <;> exact LegacyTie.overlooks_offer ..
  refine legacy.bind fun _ => ?_
  cases decorations.tie with
  | none => exact overlooking_pure ()
  | some point =>
      refine overlooking_settle fun pending draft => ?_
      rw [Tie.add_eq_settleWith]
      exact Pairing.overlooks_settleWith Tie.overlooks_linkChain ..

@[simp]
theorem overlooking_settleTuplet (point : TupletPoint) :
    Overlooking (settleTuplet point) := by
  refine overlooking_settle fun pending draft => ?_
  rw [Tuplet.add_eq_settleWith]
  exact Pairing.overlooks_settleWith Tuplet.overlooks_linkChain ..

@[simp]
theorem overlooking_joinTuplets (location : Location) :
    Overlooking (joinTuplets noteRest location) :=
  overlooking_settle fun _ draft => .refl draft

@[simp]
theorem overlooking_openRatio : Overlooking openRatio := by
  rw [openRatio]
  simp

@[simp]
theorem overlooking_legacyTuplet
    (label : Node) (phase : Phase) (number : Int) (actual normal : Nat) :
    Overlooking (legacyTuplet label phase number actual normal noteRest) := by
  rw [legacyTuplet]
  simp

theorem overlooking_settleLegacyTuplet (label : Node) :
    Overlooking (settleLegacyTuplet label noteRest) := by
  have settled : ∀ phase number actual normal, Overlooking (do
      let point ← legacyTuplet label phase number actual normal noteRest
      settleTuplet point) := by
    simp
  rw [settleLegacyTuplet]
  dsimp only
  split
  · refine overlooking_openRatio.bind fun ratio => ?_
    refine overlooking_pending.bind fun pending => ?_
    simp
  · split
    · simp
    · refine overlooking_pending.bind fun pending => ?_
      simp

theorem overlooking_settleTuplets (point : Option TupletPoint) (node : Node) :
    Overlooking (settleTuplets point noteRest node) := by
  unfold settleTuplets
  cases point with
  | none => simp
  | some point =>
      dsimp only
      split <;> simp

theorem overlooking_tupletFactor (node : Node) :
    Overlooking (tupletFactor decorations noteRest node) := by
  rw [tupletFactor]
  split
  · exact overlooking_settleLegacyTuplet noteRest _
  · exact overlooking_settleTuplets noteRest _ node

theorem overlooking_settleLegacyBeam (type : NoteType) (node : Node) :
    Overlooking (settleLegacyBeam decorations noteRest type node) := by
  have joined : ∀ location, Overlooking (joinLegacyBeam noteRest location) :=
    fun _ => overlooking_settle fun _ draft => .refl draft
  have closed : ∀ location, Overlooking (closeLegacyBeam noteRest location) :=
    fun _ => overlooking_settle fun _ draft => Beam.overlooks_linkChain _ true draft
  rw [settleLegacyBeam]
  refine overlooking_pending.bind fun pending => ?_
  dsimp only
  split
  · split <;> simp [joined, closed]
  · simp [joined]

theorem overlooking_settleBeams (type : NoteType) (node : Node) :
    Overlooking (settleBeams decorations noteRest type node) := by
  refine (overlooking_settleLegacyBeam noteRest decorations type node).bind fun _ => ?_
  cases decorations.beam with
  | none => exact overlooking_pure ()
  | some point =>
      refine overlooking_settle fun pending draft => ?_
      rw [Beam.add_eq_settleWith]
      exact Pairing.overlooks_settleWith
        (fun _ _ => Beam.overlooks_linkChain ..) ..

theorem overlooking_settleSlur : Overlooking (settleSlur decorations) := by
  rw [settleSlur]
  cases decorations.slur with
  | none => exact overlooking_pure ()
  | some point =>
      refine overlooking_settle fun pending draft => ?_
      rw [Slur.add_eq_settleWith]
      exact Pairing.overlooks_settleWith Slur.overlooks_linkChain ..

theorem overlooking_settleRelations
    (flavor : Flavor) (node : Node) (type : NoteType) :
    Overlooking (settleRelations flavor node noteRest type decorations) := by
  have modified : Overlooking
      (applyModification noteRest decorations.timeModification) := by
    cases decorations.timeModification with
    | none => exact overlooking_pure ()
    | some modification => exact overlooking_modifyNoteRest noteRest _
  have settled : Overlooking (do
      applyModification noteRest decorations.timeModification
      let factor ← tupletFactor decorations noteRest node
      settleBeams decorations noteRest type node
      settleSlur decorations
      return factor) := by
    refine modified.bind fun _ => ?_
    refine (overlooking_tupletFactor noteRest decorations node).bind fun factor => ?_
    refine (overlooking_settleBeams noteRest decorations type node).bind fun _ => ?_
    exact (overlooking_settleSlur decorations).bind fun _ => overlooking_pure factor
  rw [settleRelations]
  dsimp only
  split
  · exact (overlooking_settleTies noteRest decorations).bind fun _ => settled
  · exact settled

/-- Settling the relations of a note or rest adds no landmark. -/
theorem overlooking_settleNoteRest
    (flavor : Flavor) (node : Node) (base : Option Handle) (value : NoteValue) :
    Overlooking (settleNoteRest flavor node base noteRest value decorations) := by
  have moved : ∀ duration, Overlooking (joinOrAdvance base noteRest duration) := by
    intro duration
    cases base with
    | none => exact overlooking_modifyContext fun _ => rfl
    | some base =>
        exact overlooking_settle fun _ draft => overlooks_joinChord base noteRest draft
  have last : Overlooking (modifyContext fun context =>
      { context with lastNote := some noteRest }) :=
    overlooking_modifyContext fun _ => rfl
  rw [settleNoteRest]
  simp [overlooking_settleRelations, moved, last]

end NoteRest

/-! ## Staff objects -/

theorem overlooking_optionalName
    {Kind : Type} (usual : Kind) (ofName? : String → Option Kind)
    {problem : Node → Location × Problem}
    (other : ∀ label, (problem label).2.isAboutOption = false)
    (children : List Node) :
    Overlooking (optionalName usual ofName? problem children) := by
  rw [optionalName]
  rcases take? .label children with ⟨_ | label, rest⟩
  · simp
  · dsimp only
    split
    · simp
    · exact (overlooking_report _ (other label)).bind fun _ => overlooking_pure _

@[simp]
theorem overlooking_optionalWord (word : String) (children : List Node) :
    Overlooking (optionalWord word children) := by
  rw [optionalWord]
  rcases take? .label children with ⟨_ | label, rest⟩ <;> simp

@[simp]
theorem overlooking_optionalSize (node : Node) (children : List Node) :
    Overlooking (optionalSize node children) := by
  rw [optionalSize]
  rcases take? .symbolSize children with ⟨_ | property, rest⟩
  · simp
  · dsimp only
    split <;> simp

theorem overlooking_addStaffObject
    (node : Node) {content : Content} (other : content.isLandmark = false)
    (children : List Node) :
    Overlooking (addStaffObject node anchor content children) := by
  refine (overlooking_addObject node anchor other).bind fun handle => ?_
  have texts : Overlooking (analyseEach (textAnalyser? handle) children) :=
    .analyseEach (fun _ _ node known => overlooking_textAttachment known node) children
  simp [texts]

@[simp]
theorem overlooking_analyseClef (node : Node) :
    Overlooking (analyseClef node anchor) := by
  refine (overlooking_optionalName _ _ (fun _ => rfl) _).bind fun result => ?_
  refine (overlooking_optionalSize _ _).bind fun result => ?_
  refine (overlooking_staffOptions _ _).bind fun result => ?_
  refine Overlooking.bind (overlooking_modifyContext fun _ => rfl) fun _ => ?_
  exact overlooking_addStaffObject node rfl _

@[simp]
theorem overlooking_analyseKey (node : Node) :
    Overlooking (analyseKey node anchor) := by
  refine (overlooking_optionalName _ _ (fun _ => rfl) _).bind fun result => ?_
  refine (overlooking_staffOptions _ _).bind fun result => ?_
  refine Overlooking.bind (overlooking_modifyContext fun _ => rfl) fun _ => ?_
  exact overlooking_addStaffObject node rfl _

@[simp]
theorem overlooking_timeCounts
    (node : Node) (style : TimeStyle) (children : List Node) :
    Overlooking (timeCounts node style children) := by
  have count : ∀ default children, Overlooking (timeCount node default children) := by
    intro default children
    refine (overlooking_mandatory node .number children).bind fun result => ?_
    rcases result with ⟨_ | number, rest⟩ <;> simp
  cases style <;> simp [timeCounts, count]

@[simp]
theorem overlooking_analyseTime (node : Node) :
    Overlooking (analyseTime node anchor) := by
  refine (overlooking_optionalName _ _ (fun _ => rfl) _).bind fun result => ?_
  refine (overlooking_timeCounts _ _ _).bind fun result => ?_
  refine (overlooking_staffOptions _ _).bind fun result => ?_
  refine Overlooking.bind (overlooking_modifyContext fun _ => rfl) fun _ => ?_
  exact overlooking_addStaffObject node rfl _

@[simp]
theorem overlooking_analyseBarline (node : Node) :
    Overlooking (analyseBarline node anchor) := by
  refine (overlooking_optionalName _ _ (fun _ => rfl) _).bind fun result => ?_
  refine (overlooking_optionalWord _ _).bind fun result => ?_
  refine (overlooking_staffOptions _ _).bind fun result => ?_
  refine (overlooking_addStaffObject node rfl _).bind fun handle => ?_
  exact .bind (overlooking_modifyContext fun _ => rfl) fun _ => overlooking_pure _

theorem isAboutOption_labelShift
    {isForward : Bool} {text : String} {problem : Problem}
    (failed : labelShift isForward text = .error problem) :
    problem.isAboutOption = false := by
  unfold labelShift at failed
  split at failed
  case h_5 =>
    split at failed <;> cases failed
    rfl
  all_goals
    cases failed
    try rfl

@[simp]
theorem overlooking_readShift (isForward : Bool) (node : Node) :
    Overlooking (readShift isForward node) := by
  rw [readShift]
  split
  · simp
  · rename_i child rest _
    split
    · split
      · simp
      · rename_i problem failed
        exact (overlooking_report _ (isAboutOption_labelShift failed)).bind
          fun _ => overlooking_pure _
    · split
      · refine (overlooking_realValue child).bind fun amount => ?_
        split <;> simp
      · simp

@[simp]
theorem overlooking_analyseShift (isForward : Bool) (node : Node) :
    Overlooking (analyseShift isForward node anchor) := by
  refine (overlooking_readShift _ _).bind fun result => ?_
  rcases result with ⟨_ | shift, rest⟩
  · exact overlooking_pure none
  · refine (overlooking_reportExtra _ _).bind fun _ => ?_
    refine Overlooking.bind (overlooking_modifyContext fun _ => rfl) fun _ => ?_
    exact (overlooking_addObject node anchor rfl).bind fun _ => overlooking_pure _

@[simp]
theorem overlooking_analyseSpacer (node : Node) :
    Overlooking (analyseSpacer node anchor) := by
  rw [analyseSpacer]
  rcases take? .number node.children with ⟨_ | number, rest⟩
  · simp
  · refine (overlooking_realValue _).bind fun width => ?_
    refine (overlooking_staffOptions _ _).bind fun result => ?_
    refine (overlooking_addObject node anchor rfl).bind fun handle => ?_
    simp

@[simp]
theorem overlooking_analyseNewSystem (node : Node) :
    Overlooking (analyseNewSystem node anchor) :=
  (overlooking_reportExtra _ _).bind fun _ => overlooking_addObject node anchor rfl

@[simp]
theorem overlooking_readMetronome (node : Node) (children : List Node) :
    Overlooking (readMetronome node children) := by
  rw [readMetronome]
  rcases take? .label children with ⟨_ | label, rest⟩
  · rcases take? .number children with ⟨_ | number, rest⟩ <;> simp
  · refine (overlooking_noteValue label).bind fun value => ?_
    rcases take? .number rest with ⟨_ | number, others⟩
    · rcases take? .label rest with ⟨_ | right, rest⟩ <;> simp
    · simp

@[simp]
theorem overlooking_analyseMetronome (node : Node) :
    Overlooking (analyseMetronome node anchor) := by
  refine (overlooking_readMetronome _ _).bind fun result => ?_
  rcases result with ⟨_ | mark, rest⟩
  · exact overlooking_addObject node anchor rfl
  · refine (overlooking_optionalWord _ _).bind fun result => ?_
    exact overlooking_addMark node _ fun _ => rfl

/-! ## Above the music -/

@[simp]
theorem overlooking_analyseTextItem (node : Node) :
    Overlooking (analyseTextItem node anchor) := by
  refine (overlooking_mandatory _ _ _).bind fun result => ?_
  rcases result with ⟨_ | text, rest⟩
  · exact overlooking_pure none
  · refine (overlooking_reportExtra _ _).bind fun _ => ?_
    exact (overlooking_addObject node anchor rfl).bind fun _ => overlooking_pure _

theorem overlooking_inline
    {handle : Handle} {kind : ElementKind} {analyser : Node → Analyser Unit}
    (known : inlineAnalyser? handle kind = some analyser) (node : Node) :
    Overlooking (analyser node) := by
  unfold inlineAnalyser? at known
  split at known <;> cases known
  · exact (overlooking_analyseTextItem node).discard
  · exact (overlooking_addObject node _ rfl).discard

@[simp]
theorem overlooking_inlines (handle : Handle) (children : List Node) :
    Overlooking (analyseEach (inlineAnalyser? handle) children) :=
  .analyseEach (fun _ _ node known => overlooking_inline known node) children

@[simp]
theorem overlooking_analyseParagraph (node : Node) :
    Overlooking (analyseParagraph node anchor) := by
  refine (overlooking_addObject node anchor rfl).bind fun handle => ?_
  simp

@[simp]
theorem overlooking_analyseHeading (node : Node) :
    Overlooking (analyseHeading node anchor) := by
  refine (overlooking_mandatory _ _ _).bind fun result => ?_
  have leveled : Overlooking (headingLevel result.1) := by
    unfold headingLevel
    split <;> simp
  refine leveled.bind fun level => ?_
  refine (overlooking_addObject node anchor rfl).bind fun handle => ?_
  simp

@[simp]
theorem overlooking_analyseTitle (node : Node) :
    Overlooking (analyseTitle node anchor) := by
  have aligned : Overlooking (optionalAlignment node.children) := by
    rw [optionalAlignment]
    rcases take? .label node.children with ⟨_ | label, rest⟩ <;> simp
  refine aligned.bind fun result => ?_
  refine (overlooking_mandatory _ _ _).bind fun result => ?_
  rcases result with ⟨_ | text, rest⟩
  · exact overlooking_pure none
  · refine (overlooking_textLocation _ _).bind fun appearance => ?_
    exact (overlooking_addObject node anchor rfl).bind fun _ => overlooking_pure _

@[simp]
theorem overlooking_analyseStaves (node : Node) :
    Overlooking (analyseStaves node) := by
  have set : ∀ staves, Overlooking (modifyContext fun context =>
      { context with staves := staves }) :=
    fun _ => overlooking_modifyContext fun _ => rfl
  unfold analyseStaves
  dsimp only
  split <;> simp [set]

@[simp]
theorem overlooking_analyseVersion (node : Node) :
    Overlooking (analyseVersion node) := by
  have set : ∀ version, Overlooking (modifyContext fun context =>
      { context with version := version }) :=
    fun _ => overlooking_modifyContext fun _ => rfl
  unfold analyseVersion
  dsimp only
  split <;> simp [set]

@[simp]
theorem overlooking_optionalText
    (kind : ElementKind) (handle : Handle) (children : List Node) :
    Overlooking (optionalText kind handle children) := by
  rw [optionalText]
  rcases take? kind children with ⟨_ | node, rest⟩ <;> simp

@[simp]
theorem overlooking_requireInstrument (node : Node) (children : List Node) :
    Overlooking (requireInstrument node children) := by
  cases children <;> simp [requireInstrument]

@[simp]
theorem overlooking_leadingTitles (score : Handle) (children : List Node) :
    Overlooking (leadingTitles score children) := by
  induction children with
  | nil => exact overlooking_pure _
  | cons child rest induction =>
      rw [leadingTitles]
      split
      · exact (overlooking_analyseTitle child).discard.bind fun _ => induction
      · simp

@[simp]
theorem overlooking_clearPending : Overlooking clearPending :=
  overlooking_settle fun pending draft => pending.overlooks_reportAll draft

end Analyser

end LdpScore
