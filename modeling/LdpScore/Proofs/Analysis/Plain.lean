import LdpScore.Analysis

/-!
# Parts of an analysis without music

Only a few steps of an analysis have to do with what waits for a later note or rest,
and only a few move the cursor.  The others read the score, report, add objects and
change them, or remember settings.  They are plain, and so is what is made of them
alone: all of an analysis but the turns of notes and rests, barlines, cursor moves
and the start of an instrument.

A plain step cannot see what was reported before, whatever the score is like.  Nor
does it change when the next note or rest begins.
-/

namespace LdpScore.Analyser

/-- Steps that are made of such as leave the clock and the open relations alone. -/
inductive IsPlain : {Value : Type} → Analyser Value → Prop where
  | pure {Value : Type} (value : Value) : IsPlain (Pure.pure value)
  | bind {Value Result : Type} {action : Analyser Result}
      {next : Result → Analyser Value} :
      IsPlain action → (∀ result, IsPlain (next result)) → IsPlain (action >>= next)
  | context : IsPlain context
  | model : IsPlain model
  | pending : IsPlain pending
  | modifyModel (change : Model → Model) : IsPlain (modifyModel change)
  | modifyContext {change : Context → Context} :
      (∀ context, (change context).clock = context.clock) →
        IsPlain (modifyContext change)
  | report (location : Location) (problem : Problem) : IsPlain (report location problem)
  | addObject (node : Node) (anchor : Option Handle) (content : Content) :
      IsPlain (addObject node anchor content)

attribute [simp] IsPlain.pure IsPlain.bind IsPlain.context IsPlain.model IsPlain.pending
  IsPlain.modifyModel IsPlain.modifyContext IsPlain.report IsPlain.addObject

variable {Value Result : Type}

@[simp]
theorem IsPlain.map
    {action : Analyser Result} (plain : IsPlain action) (change : Result → Value) :
    IsPlain (change <$> action) := by
  rw [map_eq_pure_bind]
  exact plain.bind fun result => .pure (change result)

@[simp]
theorem IsPlain.discard
    {action : Analyser Value} (plain : IsPlain action) : IsPlain (discard action) :=
  plain.map _

@[simp]
theorem isPlain_ite_iff
    {condition : Prop} [Decidable condition] {first second : Analyser Value} :
    IsPlain (if condition then first else second) ↔
      (condition → IsPlain first) ∧ (¬ condition → IsPlain second) := by
  split
  · rename_i holds
    simp [holds]
  · rename_i fails
    simp [fails]

@[simp]
theorem isPlain_reportMisplaced (child : Node) : IsPlain (reportMisplaced child) :=
  .report _ _

@[simp]
theorem isPlain_reportMissing (parent : Node) (kind : ElementKind) :
    IsPlain (reportMissing parent kind) :=
  .report _ _

@[simp]
theorem isPlain_reportExtra (node : Node) (rest : List Node) :
    IsPlain (reportExtra node rest) := by
  cases rest with
  | nil => exact .pure ()
  | cons extra rest => exact .report _ _

@[simp]
theorem isPlain_mandatory
    (parent : Node) (kind : ElementKind) (children : List Node) :
    IsPlain (mandatory parent kind children) := by
  rw [mandatory]
  rcases take? kind children with ⟨_ | found, rest⟩ <;> simp

theorem IsPlain.analyseEach
    {analyserOf : ElementKind → Option (Node → Analyser Unit)}
    (each : ∀ kind analyser node, analyserOf kind = some analyser →
      IsPlain (analyser node))
    (children : List Node) :
    IsPlain (analyseEach analyserOf children) := by
  induction children with
  | nil => exact .pure ()
  | cons child rest induction =>
      rw [Analyser.analyseEach]
      split
      · rename_i analyser isAnalyser
        obtain ⟨kind, _, known⟩ := Option.bind_eq_some_iff.mp isAnalyser
        exact (each kind analyser child known).bind fun _ => induction
      · exact (isPlain_reportMisplaced child).bind fun _ => induction

theorem IsPlain.optional
    {analyser : Node → Analyser Unit}
    (each : ∀ child, IsPlain (analyser child)) (child : Option Node) :
    IsPlain (analyseOptional analyser child) := by
  cases child with
  | none => exact .pure ()
  | some child => exact each child

/-! ## Values of leaves -/

@[simp]
theorem isPlain_integerValue (node : Node) (default : Int) :
    IsPlain (integerValue node default) := by
  rw [integerValue]
  split <;> simp

@[simp]
theorem isPlain_numberValue (node : Node) (default : Int) :
    IsPlain (numberValue node default) := by
  rw [numberValue, boundedValue]
  split <;> simp

@[simp]
theorem isPlain_countValue (node : Node) (default : Nat) :
    IsPlain (countValue node default) := by
  rw [countValue, boundedValue]
  split <;> simp

@[simp]
theorem isPlain_realValue (node : Node) : IsPlain (realValue node) := by
  rw [realValue]
  split <;> simp

@[simp]
theorem isPlain_boolValue (node : Node) (default : Bool) :
    IsPlain (boolValue node default) := by
  rw [boolValue]
  split <;> simp

@[simp]
theorem isPlain_yesNoValue (node : Node) : IsPlain (yesNoValue node) := by
  rw [yesNoValue]
  split <;> simp

@[simp]
theorem isPlain_placementValue (node : Node) (fallback : Placement) :
    IsPlain (placementValue node fallback) := by
  unfold placementValue
  split <;> simp

@[simp]
theorem isPlain_alignmentValue (node : Node) : IsPlain (alignmentValue node) := by
  rw [alignmentValue]
  split <;> simp

@[simp]
theorem isPlain_noteValue (node : Node) : IsPlain (noteValue node) := by
  rw [noteValue]
  split <;> simp

@[simp]
theorem isPlain_staffLabel (node : Node) : IsPlain (staffLabel node) := by
  unfold staffLabel
  dsimp only
  split <;> simp

@[simp]
theorem isPlain_voiceLabel (node : Node) : IsPlain (voiceLabel node) := by
  unfold voiceLabel
  dsimp only
  split <;> simp

@[simp]
theorem isPlain_propertyValue (property : Node) (kind : ElementKind) :
    IsPlain (propertyValue property kind) := by
  rw [propertyValue]
  cases property.children.head? <;> simp

/-! ## How objects are shown -/

@[simp]
theorem isPlain_analyseColor (node : Node) : IsPlain (analyseColor node) := by
  rw [analyseColor]
  split <;> simp

@[simp]
theorem isPlain_readCoordinates (bezier : Bezier) (children : List Node) :
    IsPlain (readCoordinates bezier children) := by
  induction children generalizing bezier with
  | nil => exact .pure bezier
  | cons child rest induction =>
      rw [readCoordinates]
      split
      · cases child.children.head? <;> simp [induction]
      · simp [induction]

@[simp]
theorem isPlain_analyseBezier (node : Node) : IsPlain (analyseBezier node) :=
  isPlain_readCoordinates {} node.children

@[simp]
theorem isPlain_displacement (property : Node) : IsPlain (displacement property) := by
  refine (isPlain_propertyValue property .number).bind fun value => ?_
  cases value <;> simp

@[simp]
theorem isPlain_printOptions (appearance : Appearance) (children : List Node) :
    IsPlain (printOptions appearance children) := by
  induction children generalizing appearance with
  | nil => exact .pure _
  | cons child rest induction =>
      rw [printOptions]
      split
      · refine (isPlain_propertyValue child .label).bind fun value => ?_
        cases value <;> simp [induction]
      all_goals simp [induction]

@[simp]
theorem isPlain_staffProperty (property : Node) : IsPlain (staffProperty property) := by
  refine (isPlain_propertyValue property .number).bind fun value => ?_
  cases value with
  | none => simp
  | some value =>
      dsimp only
      split <;> simp

@[simp]
theorem isPlain_staffChoice (children : List Node) : IsPlain (staffChoice children) := by
  rw [staffChoice]
  rcases take? .label children with ⟨_ | label, rest⟩
  · rcases take? .staffNumber children with ⟨_ | property, rest⟩ <;> simp
  · simp

@[simp]
theorem isPlain_staffOptions (appearance : Appearance) (children : List Node) :
    IsPlain (staffOptions appearance children) := by
  rw [staffOptions]
  simp

@[simp]
theorem isPlain_textLocation (appearance : Appearance) (children : List Node) :
    IsPlain (textLocation appearance children) := by
  induction children generalizing appearance with
  | nil => exact .pure _
  | cons child rest induction =>
      rw [textLocation]
      split <;> simp [induction]

/-! ## Marks and texts -/

variable {anchor : Option Handle}

@[simp]
theorem isPlain_optionalPlacement (children : List Node) :
    IsPlain (optionalPlacement children) := by
  rw [optionalPlacement]
  rcases take? .label children with ⟨_ | label, rest⟩ <;> simp

@[simp]
theorem isPlain_addMark
    (node : Node) (children : List Node) (content : Appearance → Content) :
    IsPlain (addMark node anchor children content) := by
  rw [addMark]
  simp

@[simp]
theorem isPlain_analyseArticulation (kind : ElementKind) (node : Node) :
    IsPlain (analyseArticulation kind node anchor) := by
  rw [analyseArticulation]
  simp

@[simp]
theorem isPlain_analyseDynamics (node : Node) : IsPlain (analyseDynamics node anchor) := by
  refine (isPlain_mandatory _ _ _).bind fun result => ?_
  rcases result with ⟨_ | mark, rest⟩ <;> simp

@[simp]
theorem isPlain_fermataLabels (node : Node) (children : List Node) :
    IsPlain (fermataLabels node children) := by
  rw [fermataLabels]
  rcases take? .label children with ⟨_ | label, rest⟩
  · simp
  · dsimp only
    split <;> simp

@[simp]
theorem isPlain_analyseFermata (node : Node) : IsPlain (analyseFermata node anchor) := by
  rw [analyseFermata]
  simp

@[simp]
theorem isPlain_analyseText (node : Node) : IsPlain (analyseText node anchor) := by
  refine (isPlain_mandatory _ _ _).bind fun result => ?_
  rcases result with ⟨_ | text, rest⟩ <;> simp

@[simp]
theorem isPlain_lyricLine (children : List Node) : IsPlain (lyricLine children) := by
  rw [lyricLine]
  rcases take? .number children with ⟨_ | label, rest⟩ <;> simp

@[simp]
theorem isPlain_lyricLabel (children : List Node) : IsPlain (lyricLabel children) := by
  rw [lyricLabel]
  rcases take? .label children with ⟨_ | label, rest⟩
  · simp
  · dsimp only
    split <;> simp

@[simp]
theorem isPlain_lyricOptions (children : List Node) : IsPlain (lyricOptions children) := by
  refine (isPlain_lyricLabel children).bind fun result => ?_
  rcases result with ⟨options, rest⟩
  dsimp only
  split
  · simp
  · rcases take? .label (take? .melisma rest).2 with ⟨_ | label, rest⟩ <;> simp

@[simp]
theorem isPlain_choosePlacement (line : Int) (placement : Option Placement) :
    IsPlain (choosePlacement line placement) := by
  cases placement <;> simp [choosePlacement, Context.setLyricPlacement]

@[simp]
theorem isPlain_analyseLyric (node : Node) : IsPlain (analyseLyric node anchor) := by
  refine IsPlain.model.bind fun model => ?_
  refine (isPlain_lyricLine _).bind fun result => ?_
  dsimp only
  split
  · simp
  · refine (isPlain_lyricOptions _).bind fun result => ?_
    refine (isPlain_choosePlacement _ _).bind fun placement => ?_
    refine (isPlain_printOptions _ _).bind fun result => ?_
    refine (isPlain_reportExtra _ _).bind fun _ => ?_
    split <;> simp

theorem isPlain_attachment
    {handle : Handle} {kind : ElementKind} {analyser : Node → Analyser Unit}
    (known : attachmentAnalyser? handle kind = some analyser) (node : Node) :
    IsPlain (analyser node) := by
  unfold attachmentAnalyser? at known
  split at known
  · cases known
    simp
  · split at known
    · cases known
      simp
    · split at known
      · cases known
        simp
      · split at known <;> cases known
        simp

theorem isPlain_textAttachment
    {handle : Handle} {kind : ElementKind} {analyser : Node → Analyser Unit}
    (known : textAnalyser? handle kind = some analyser) (node : Node) :
    IsPlain (analyser node) := by
  unfold textAnalyser? at known
  split at known <;> cases known
  simp

@[simp]
theorem isPlain_attachments (handle : Handle) (children : List Node) :
    IsPlain (analyseEach (attachmentAnalyser? handle) children) :=
  .analyseEach (fun _ _ node known => isPlain_attachment known node) children

/-! ## Descriptors -/

@[simp]
theorem isPlain_curveNumber (node : Node) (children : List Node) :
    IsPlain (curveNumber node children) := by
  refine (isPlain_mandatory node .number children).bind fun result => ?_
  rcases result with ⟨_ | number, rest⟩ <;> simp

@[simp]
theorem isPlain_curveAppearance (children : List Node) :
    IsPlain (curveAppearance children) := by
  rw [curveAppearance]
  rcases take? .bezier children with ⟨bezierNode, rest⟩
  dsimp only
  rcases take? .color rest with ⟨colorNode, _⟩
  rcases bezierNode with _ | bezierNode <;>
    rcases colorNode with _ | colorNode <;> simp

@[simp]
theorem isPlain_analyseTie (node : Node) : IsPlain (analyseTie node anchor) := by
  refine (isPlain_curveNumber node node.children).bind fun result => ?_
  dsimp only
  split <;> simp

@[simp]
theorem isPlain_analyseSlur (node : Node) : IsPlain (analyseSlur node anchor) := by
  refine (isPlain_curveNumber node node.children).bind fun result => ?_
  dsimp only
  split <;> simp

@[simp]
theorem isPlain_analyseBeam (node : Node) : IsPlain (analyseBeam node anchor) := by
  rw [analyseBeam]
  rcases take? .number node.children with ⟨_ | number, rest⟩
  · simp
  · refine (isPlain_numberValue number 0).bind fun value => ?_
    split <;> simp

@[simp]
theorem isPlain_tupletDisplay
    (bracket : YesNo) (display : NumberDisplay) (children : List Node) :
    IsPlain (tupletDisplay bracket display children) := by
  induction children generalizing bracket display with
  | nil => exact .pure _
  | cons child rest induction =>
      rw [tupletDisplay]
      split
      · simp [induction]
      · refine (isPlain_propertyValue child .label).bind fun value => ?_
        cases value <;> simp [induction]
      · refine (isPlain_propertyValue child .label).bind fun value => ?_
        cases value with
        | none => simp [induction]
        | some value =>
            dsimp only
            split <;> simp [induction]
      · simp [induction]

@[simp]
theorem isPlain_tupletNumber (children : List Node) : IsPlain (tupletNumber children) := by
  rw [tupletNumber]
  rcases take? .number children with ⟨_ | node, rest⟩ <;> simp

@[simp]
theorem isPlain_tupletCounts (node : Node) (children : List Node) :
    IsPlain (tupletCounts node children) := by
  rw [tupletCounts]
  rcases take? .number children with ⟨_ | actualNode, rest⟩
  · simp
  · refine (isPlain_countValue actualNode 0).bind fun actual => ?_
    rcases take? .number rest with ⟨_ | normalNode, rest⟩
    · simp
    · refine (isPlain_countValue normalNode 0).bind fun normal => ?_
      simp

@[simp]
theorem isPlain_analyseTuplet (node : Node) : IsPlain (analyseTuplet node anchor) := by
  refine IsPlain.context.bind fun initial => ?_
  refine (isPlain_tupletNumber node.children).bind fun result => ?_
  dsimp only
  split
  · refine (isPlain_tupletCounts node _).bind fun result => ?_
    rcases result with ⟨_ | ⟨actual, normal⟩, rest⟩
    · exact .pure none
    · refine (isPlain_tupletDisplay _ _ _).bind fun result => ?_
      simp
  · simp
  · simp

@[simp]
theorem isPlain_analyseTimeModification (node : Node) :
    IsPlain (analyseTimeModification node) := by
  refine (isPlain_mandatory node .number node.children).bind fun result => ?_
  rcases result with ⟨_ | topNode, rest⟩
  · simp
  · refine (isPlain_countValue topNode 1).bind fun top => ?_
    refine (isPlain_mandatory node .number rest).bind fun result => ?_
    rcases result with ⟨_ | bottomNode, rest⟩ <;> simp

/-! ## The elements of notes and rests -/

@[simp]
theorem isPlain_readPitch (flavor : Flavor) (node : Node) (children : List Node) :
    IsPlain (readPitch flavor node children) := by
  have pitched : ∀ label, IsPlain (pitchValue label) := by
    intro label
    rw [pitchValue]
    split
    · simp
    · split <;> simp
  unfold readPitch
  split
  · exact .pure _
  · refine (isPlain_mandatory node .label children).bind fun result => ?_
    rcases result with ⟨_ | label, rest⟩ <;> simp [pitched]

@[simp]
theorem isPlain_readNoteValue (node : Node) (children : List Node) :
    IsPlain (readNoteValue node children) := by
  refine (isPlain_mandatory node .label children).bind fun result => ?_
  rcases result with ⟨_ | label, rest⟩ <;> simp

@[simp]
theorem isPlain_abbreviations
    (flavor : Flavor) (decorations : Decorations) (children : List Node) :
    IsPlain (abbreviations flavor decorations children) := by
  induction children generalizing decorations with
  | nil => exact .pure _
  | cons label rest induction =>
      rw [abbreviations]
      split
      · split <;> simp [induction]
      · simp

section NoteRest

variable (noteRest : Handle) (decorations : Decorations)

@[simp]
theorem isPlain_stemProperty (property : Node) :
    IsPlain (stemProperty noteRest property) := by
  have read : IsPlain (stemValue property) := by
    refine (isPlain_propertyValue property .label).bind fun value => ?_
    cases value with
    | none => exact .pure _
    | some value =>
        dsimp only
        split <;> simp
  exact read.bind fun stem => .modifyModel _

@[simp]
theorem isPlain_voiceProperty (property : Node) :
    IsPlain (voiceProperty noteRest property) := by
  refine IsPlain.context.bind fun context => ?_
  refine (isPlain_propertyValue _ _).bind fun value => ?_
  cases value with
  | none => simp
  | some number =>
      refine (isPlain_numberValue _ _).bind fun voice => ?_
      simp

@[simp]
theorem isPlain_noteOptions (children : List Node) :
    IsPlain (noteOptions noteRest decorations children) := by
  induction children generalizing decorations with
  | nil => exact .pure _
  | cons child rest induction =>
      rw [noteOptions]
      split <;> simp [induction]

@[simp]
theorem isPlain_noteRestOptions (children : List Node) :
    IsPlain (noteRestOptions noteRest decorations children) := by
  induction children generalizing decorations with
  | nil => exact .pure _
  | cons child rest induction =>
      rw [noteRestOptions]
      split <;> simp [induction]

@[simp]
theorem isPlain_readOptions (flavor : Flavor) (children : List Node) :
    IsPlain (readOptions flavor noteRest decorations children) := by
  unfold readOptions
  split <;> simp

@[simp]
theorem isPlain_placeInTime (base : Option Handle) (children : List Node) :
    IsPlain (placeInTime noteRest base children) := by
  refine IsPlain.model.bind fun model => ?_
  refine (isPlain_staffOptions _ _).bind fun result => ?_
  refine IsPlain.context.bind fun context => ?_
  simp

@[simp]
theorem isPlain_addNoteRest (flavor : Flavor) (node : Node) (base : Option Handle) :
    IsPlain (addNoteRest flavor node anchor base) := by
  have placed : ∀ noteRest, IsPlain (placeInVoice noteRest) := by
    simp [placeInVoice]
  refine (isPlain_readPitch _ _ _).bind fun result => ?_
  refine (isPlain_readNoteValue _ _).bind fun result => ?_
  refine (IsPlain.addObject _ _ _).bind fun handle => ?_
  refine (isPlain_abbreviations _ _ _).bind fun result => ?_
  refine (placed handle).bind fun _ => ?_
  refine (isPlain_readOptions _ _ _ _).bind fun result => ?_
  simp

@[simp]
theorem isPlain_applyModification (modification : Option TimeModification) :
    IsPlain (applyModification noteRest modification) := by
  cases modification <;> simp [applyModification]

end NoteRest

/-! ## Staff objects -/

@[simp]
theorem isPlain_optionalName
    {Kind : Type} (usual : Kind) (ofName? : String → Option Kind)
    (problem : Node → Location × Problem) (children : List Node) :
    IsPlain (optionalName usual ofName? problem children) := by
  rw [optionalName]
  rcases take? .label children with ⟨_ | label, rest⟩
  · simp
  · dsimp only
    split <;> simp

@[simp]
theorem isPlain_optionalWord (word : String) (children : List Node) :
    IsPlain (optionalWord word children) := by
  rw [optionalWord]
  rcases take? .label children with ⟨_ | label, rest⟩ <;> simp

@[simp]
theorem isPlain_optionalSize (node : Node) (children : List Node) :
    IsPlain (optionalSize node children) := by
  rw [optionalSize]
  rcases take? .symbolSize children with ⟨_ | property, rest⟩
  · simp
  · dsimp only
    split <;> simp

@[simp]
theorem isPlain_addStaffObject (node : Node) (content : Content) (children : List Node) :
    IsPlain (addStaffObject node anchor content children) := by
  have texts : ∀ handle, IsPlain (analyseEach (textAnalyser? handle) children) :=
    fun _ => .analyseEach (fun _ _ node known => isPlain_textAttachment known node) children
  rw [addStaffObject]
  simp [texts]

@[simp]
theorem isPlain_analyseClef (node : Node) : IsPlain (analyseClef node anchor) := by
  refine (isPlain_optionalName _ _ _ _).bind fun result => ?_
  refine (isPlain_optionalSize _ _).bind fun result => ?_
  refine (isPlain_staffOptions _ _).bind fun result => ?_
  simp [Context.setClef]

@[simp]
theorem isPlain_analyseKey (node : Node) : IsPlain (analyseKey node anchor) := by
  refine (isPlain_optionalName _ _ _ _).bind fun result => ?_
  refine (isPlain_staffOptions _ _).bind fun result => ?_
  simp

@[simp]
theorem isPlain_timeCounts (node : Node) (style : TimeStyle) (children : List Node) :
    IsPlain (timeCounts node style children) := by
  have count : ∀ default children, IsPlain (timeCount node default children) := by
    intro default children
    refine (isPlain_mandatory node .number children).bind fun result => ?_
    rcases result with ⟨_ | number, rest⟩ <;> simp
  cases style <;> simp [timeCounts, count]

@[simp]
theorem isPlain_analyseTime (node : Node) : IsPlain (analyseTime node anchor) := by
  refine (isPlain_optionalName _ _ _ _).bind fun result => ?_
  refine (isPlain_timeCounts _ _ _).bind fun result => ?_
  refine (isPlain_staffOptions _ _).bind fun result => ?_
  simp

@[simp]
theorem isPlain_readShift (isForward : Bool) (node : Node) :
    IsPlain (readShift isForward node) := by
  rw [readShift]
  split
  · simp
  · rename_i child rest _
    split
    · split <;> simp
    · split
      · refine (isPlain_realValue child).bind fun amount => ?_
        simp
      · simp

@[simp]
theorem isPlain_analyseSpacer (node : Node) : IsPlain (analyseSpacer node anchor) := by
  rw [analyseSpacer]
  rcases take? .number node.children with ⟨_ | number, rest⟩
  · simp
  · refine (isPlain_realValue _).bind fun width => ?_
    refine (isPlain_staffOptions _ _).bind fun result => ?_
    simp

@[simp]
theorem isPlain_analyseNewSystem (node : Node) : IsPlain (analyseNewSystem node anchor) := by
  rw [analyseNewSystem]
  simp

@[simp]
theorem isPlain_readMetronome (node : Node) (children : List Node) :
    IsPlain (readMetronome node children) := by
  rw [readMetronome]
  rcases take? .label children with ⟨_ | label, rest⟩
  · rcases take? .number children with ⟨_ | number, rest⟩ <;> simp
  · refine (isPlain_noteValue label).bind fun value => ?_
    rcases take? .number rest with ⟨_ | number, others⟩
    · rcases take? .label rest with ⟨_ | right, rest⟩ <;> simp
    · simp

@[simp]
theorem isPlain_analyseMetronome (node : Node) : IsPlain (analyseMetronome node anchor) := by
  refine (isPlain_readMetronome _ _).bind fun result => ?_
  rcases result with ⟨_ | mark, rest⟩ <;> simp

/-! ## Above the music -/

@[simp]
theorem isPlain_analyseTextItem (node : Node) : IsPlain (analyseTextItem node anchor) := by
  refine (isPlain_mandatory _ _ _).bind fun result => ?_
  rcases result with ⟨_ | text, rest⟩ <;> simp

theorem isPlain_inline
    {handle : Handle} {kind : ElementKind} {analyser : Node → Analyser Unit}
    (known : inlineAnalyser? handle kind = some analyser) (node : Node) :
    IsPlain (analyser node) := by
  unfold inlineAnalyser? at known
  split at known <;> cases known <;> simp

@[simp]
theorem isPlain_inlines (handle : Handle) (children : List Node) :
    IsPlain (analyseEach (inlineAnalyser? handle) children) :=
  .analyseEach (fun _ _ node known => isPlain_inline known node) children

@[simp]
theorem isPlain_analyseParagraph (node : Node) : IsPlain (analyseParagraph node anchor) := by
  rw [analyseParagraph]
  simp

@[simp]
theorem isPlain_analyseHeading (node : Node) : IsPlain (analyseHeading node anchor) := by
  have leveled : ∀ number, IsPlain (headingLevel number) := by
    intro number
    cases number <;> simp [headingLevel]
  refine (isPlain_mandatory _ _ _).bind fun result => ?_
  refine (leveled _).bind fun level => ?_
  simp

@[simp]
theorem isPlain_analyseTitle (node : Node) : IsPlain (analyseTitle node anchor) := by
  have aligned : IsPlain (optionalAlignment node.children) := by
    rw [optionalAlignment]
    rcases take? .label node.children with ⟨_ | label, rest⟩ <;> simp
  refine aligned.bind fun result => ?_
  refine (isPlain_mandatory _ _ _).bind fun result => ?_
  rcases result with ⟨_ | text, rest⟩ <;> simp

@[simp]
theorem isPlain_analyseStaves (node : Node) : IsPlain (analyseStaves node) := by
  unfold analyseStaves
  dsimp only
  split <;> simp

@[simp]
theorem isPlain_analyseVersion (node : Node) : IsPlain (analyseVersion node) := by
  unfold analyseVersion
  dsimp only
  split <;> simp

@[simp]
theorem isPlain_optionalText
    (kind : ElementKind) (handle : Handle) (children : List Node) :
    IsPlain (optionalText kind handle children) := by
  rw [optionalText]
  rcases take? kind children with ⟨_ | node, rest⟩ <;> simp

@[simp]
theorem isPlain_instrumentHead (handle : Handle) (children : List Node) :
    IsPlain (instrumentHead handle children) := by
  have staves : ∀ node, IsPlain (analyseOptional analyseStaves node) :=
    IsPlain.optional isPlain_analyseStaves
  refine (isPlain_optionalText _ _ _).bind fun result => ?_
  refine (isPlain_optionalText _ _ _).bind fun result => ?_
  refine (staves _).bind fun _ => ?_
  simp

@[simp]
theorem isPlain_readOption (node : Node) : IsPlain (readOption node) := by
  refine (isPlain_mandatory _ _ _).bind fun result => ?_
  dsimp only
  split
  · simp
  · split
    · simp
    · split <;> simp

@[simp]
theorem isPlain_analyseOption (node : Node) : IsPlain (analyseOption node anchor) := by
  refine (isPlain_readOption _).bind fun result => ?_
  cases result with
  | none => exact .pure none
  | some option =>
      refine IsPlain.model.bind fun model => ?_
      split <;> simp

@[simp]
theorem isPlain_leadingTitles (score : Handle) (children : List Node) :
    IsPlain (leadingTitles score children) := by
  induction children with
  | nil => exact .pure _
  | cons child rest induction =>
      rw [leadingTitles]
      split <;> simp [induction]

@[simp]
theorem isPlain_leadingOptions (score : Handle) (children : List Node) :
    IsPlain (leadingOptions score children) := by
  induction children with
  | nil => exact .pure _
  | cons child rest induction =>
      rw [leadingOptions]
      split <;> simp [induction]

@[simp]
theorem isPlain_scoreHead (node : Node) (score : Handle) : IsPlain (scoreHead node score) := by
  have versions : ∀ node, IsPlain (analyseOptional analyseVersion node) :=
    IsPlain.optional isPlain_analyseVersion
  have cursors : ∀ node, IsPlain (analyseOptional
      (fun cursor => report cursor.location .obsoleteCursor) node) :=
    IsPlain.optional fun cursor => .report _ _
  refine (isPlain_mandatory _ _ _).bind fun result => ?_
  refine (versions _).bind fun _ => ?_
  refine IsPlain.context.bind fun context => ?_
  refine (IsPlain.modifyModel _).bind fun _ => ?_
  refine (isPlain_leadingTitles _ _).bind fun rest => ?_
  simp [cursors]

@[simp]
theorem isPlain_requireInstrument (node : Node) (children : List Node) :
    IsPlain (requireInstrument node children) := by
  cases children <;> simp [requireInstrument]

end LdpScore.Analyser
