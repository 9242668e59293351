import LdpScore.Analysis.NoteRest

/-!
# The version while a note or rest is read

Whether the number of a tuplet counts depends on the version of the score when the
tuplet is read.  What stands before it in the element of a note or rest leaves the
version as it is.
-/

namespace LdpScore.Analyser

variable {Value Result : Type}

/-- A step after which the version is what it was before. -/
def KeepsVersion (action : Analyser Value) : Prop :=
  ∀ state, (action.run state).run.2.context.version = state.context.version

/-! ## Elementary steps -/

@[simp]
theorem keepsVersion_pure (value : Value) :
    KeepsVersion (pure value : Analyser Value) :=
  fun _ => rfl

@[simp]
theorem KeepsVersion.bind
    {action : Analyser Result} {next : Result → Analyser Value}
    (first : KeepsVersion action) (second : ∀ result, KeepsVersion (next result)) :
    KeepsVersion (action >>= next) :=
  fun state => (second _ _).trans (first state)

@[simp]
theorem KeepsVersion.map
    {action : Analyser Result} (keeps : KeepsVersion action)
    (change : Result → Value) :
    KeepsVersion (change <$> action) :=
  keeps

@[simp]
theorem keepsVersion_ite
    {condition : Prop} [Decidable condition] {first second : Analyser Value}
    (whenTrue : KeepsVersion first) (whenFalse : KeepsVersion second) :
    KeepsVersion (if condition then first else second) := by
  split
  · exact whenTrue
  · exact whenFalse

@[simp]
theorem keepsVersion_context : KeepsVersion context :=
  fun _ => rfl

@[simp]
theorem keepsVersion_model : KeepsVersion model :=
  fun _ => rfl

@[simp]
theorem keepsVersion_modifyModel (change : Model → Model) :
    KeepsVersion (modifyModel change) :=
  fun _ => rfl

@[simp]
theorem keepsVersion_setStaff (staff : Nat) :
    KeepsVersion
      (modifyContext fun context => { context with staff := staff }) :=
  fun _ => rfl

@[simp]
theorem keepsVersion_setVoice (voice : Int) :
    KeepsVersion
      (modifyContext fun context => { context with voice := voice }) :=
  fun _ => rfl

@[simp]
theorem keepsVersion_report (location : Location) (problem : Problem) :
    KeepsVersion (report location problem) :=
  fun _ => rfl

@[simp]
theorem keepsVersion_reportMisplaced (child : Node) :
    KeepsVersion (reportMisplaced child) :=
  fun _ => rfl

@[simp]
theorem keepsVersion_reportExtra (node : Node) (rest : List Node) :
    KeepsVersion (reportExtra node rest) := by
  cases rest with
  | nil => exact keepsVersion_pure ()
  | cons extra rest => exact keepsVersion_report _ _

@[simp]
theorem keepsVersion_addObject
    (node : Node) (anchor : Option Handle) (content : Content) :
    KeepsVersion (addObject node anchor content) :=
  fun _ => rfl

@[simp]
theorem keepsVersion_mandatory
    (parent : Node) (kind : ElementKind) (children : List Node) :
    KeepsVersion (mandatory parent kind children) := by
  rw [mandatory]
  rcases take? kind children with ⟨_ | found, rest⟩
  · exact fun _ => rfl
  · exact fun _ => rfl

/-! ## Values of leaves -/

@[simp]
theorem keepsVersion_integerValue (node : Node) (default : Int) :
    KeepsVersion (integerValue node default) := by
  rw [integerValue]
  split <;> simp

@[simp]
theorem keepsVersion_boundedValue
    (interval : Interval) (node : Node) (default : Int) :
    KeepsVersion (boundedValue interval node default) := by
  rw [boundedValue]
  split <;> simp

@[simp]
theorem keepsVersion_numberValue (node : Node) (default : Int) :
    KeepsVersion (numberValue node default) :=
  keepsVersion_boundedValue signedInterval node default

@[simp]
theorem keepsVersion_countValue (node : Node) (default : Nat) :
    KeepsVersion (countValue node default) := by
  simp [countValue]

@[simp]
theorem keepsVersion_realValue (node : Node) :
    KeepsVersion (realValue node) := by
  rw [realValue]
  split <;> simp

@[simp]
theorem keepsVersion_boolValue (node : Node) (default : Bool) :
    KeepsVersion (boolValue node default) := by
  rw [boolValue]
  split <;> simp

@[simp]
theorem keepsVersion_yesNoValue (node : Node) :
    KeepsVersion (yesNoValue node) := by
  rw [yesNoValue]
  split <;> simp

@[simp]
theorem keepsVersion_placementValue (node : Node) (fallback : Placement) :
    KeepsVersion (placementValue node fallback) := by
  unfold placementValue
  split <;> simp

@[simp]
theorem keepsVersion_noteValue (node : Node) :
    KeepsVersion (noteValue node) := by
  rw [noteValue]
  split <;> simp

@[simp]
theorem keepsVersion_staffLabel (node : Node) :
    KeepsVersion (staffLabel node) := by
  unfold staffLabel
  dsimp only
  split <;> simp

@[simp]
theorem keepsVersion_voiceLabel (node : Node) :
    KeepsVersion (voiceLabel node) := by
  unfold voiceLabel
  dsimp only
  split <;> simp

@[simp]
theorem keepsVersion_propertyValue (property : Node) (kind : ElementKind) :
    KeepsVersion (propertyValue property kind) := by
  rw [propertyValue]
  cases property.children.head? <;> exact fun _ => rfl

/-! ## How objects are shown -/

@[simp]
theorem keepsVersion_analyseColor (node : Node) :
    KeepsVersion (analyseColor node) := by
  rw [analyseColor]
  split <;> simp

@[simp]
theorem keepsVersion_readCoordinates (bezier : Bezier) (children : List Node) :
    KeepsVersion (readCoordinates bezier children) := by
  induction children generalizing bezier with
  | nil => exact keepsVersion_pure bezier
  | cons child rest induction =>
      rw [readCoordinates]
      split
      · cases child.children.head? <;> simp [induction]
      · simp [induction]

@[simp]
theorem keepsVersion_displacement (property : Node) :
    KeepsVersion (displacement property) := by
  refine (keepsVersion_propertyValue property .number).bind fun value => ?_
  cases value <;> simp

@[simp]
theorem keepsVersion_printOptions
    (appearance : Appearance) (children : List Node) :
    KeepsVersion (printOptions appearance children) := by
  induction children generalizing appearance with
  | nil => exact keepsVersion_pure _
  | cons child rest induction =>
      rw [printOptions]
      split
      · refine (keepsVersion_propertyValue child .label).bind fun value => ?_
        cases value <;> simp [induction]
      all_goals simp [induction]

/-! ## Lyrics -/

@[simp]
theorem keepsVersion_lyricLabel (children : List Node) :
    KeepsVersion (lyricLabel children) := by
  rw [lyricLabel]
  rcases take? .label children with ⟨_ | label, rest⟩
  · simp
  · dsimp only
    split <;> simp

@[simp]
theorem keepsVersion_lyricOptions (children : List Node) :
    KeepsVersion (lyricOptions children) := by
  refine (keepsVersion_lyricLabel children).bind fun result => ?_
  rcases result with ⟨options, rest⟩
  dsimp only
  split
  · simp
  · rcases take? .label (take? .melisma rest).2 with ⟨_ | label, rest⟩ <;> simp

@[simp]
theorem keepsVersion_lyricLine (children : List Node) :
    KeepsVersion (lyricLine children) := by
  rw [lyricLine]
  rcases take? .number children with ⟨_ | label, rest⟩ <;> simp

@[simp]
theorem keepsVersion_choosePlacement (line : Int) (given : Option Placement) :
    KeepsVersion (choosePlacement line given) := by
  cases given <;> exact fun _ => rfl

@[simp]
theorem keepsVersion_analyseLyric (node : Node) (anchor : Option Handle) :
    KeepsVersion (analyseLyric node anchor) := by
  rw [analyseLyric]
  refine keepsVersion_model.bind fun current => ?_
  refine (keepsVersion_lyricLine node.children).bind fun result => ?_
  dsimp only
  split
  · simp
  · refine (keepsVersion_lyricOptions _).bind fun options => ?_
    refine (keepsVersion_choosePlacement _ _).bind fun placement => ?_
    refine (keepsVersion_printOptions _ _).bind fun shown => ?_
    refine (keepsVersion_reportExtra _ _).bind fun _ => ?_
    split <;> simp

/-! ## Descriptors -/

@[simp]
theorem keepsVersion_curveNumber (node : Node) (children : List Node) :
    KeepsVersion (curveNumber node children) := by
  refine (keepsVersion_mandatory node .number children).bind fun result => ?_
  rcases result with ⟨_ | number, rest⟩ <;> simp

@[simp]
theorem keepsVersion_curveAppearance (children : List Node) :
    KeepsVersion (curveAppearance children) := by
  rw [curveAppearance]
  rcases take? .bezier children with ⟨bezierNode, rest⟩
  dsimp only
  rcases take? .color rest with ⟨colorNode, _⟩
  rcases bezierNode with _ | bezierNode <;>
    rcases colorNode with _ | colorNode <;> simp [analyseBezier]

@[simp]
theorem keepsVersion_analyseTie (node : Node) (anchor : Option Handle) :
    KeepsVersion (analyseTie node anchor) := by
  refine (keepsVersion_curveNumber node node.children).bind fun result => ?_
  dsimp only
  split <;> simp

@[simp]
theorem keepsVersion_analyseSlur (node : Node) (anchor : Option Handle) :
    KeepsVersion (analyseSlur node anchor) := by
  refine (keepsVersion_curveNumber node node.children).bind fun result => ?_
  dsimp only
  split <;> simp

@[simp]
theorem keepsVersion_analyseBeam (node : Node) (anchor : Option Handle) :
    KeepsVersion (analyseBeam node anchor) := by
  rw [analyseBeam]
  rcases take? .number node.children with ⟨_ | number, rest⟩
  · simp
  · refine (keepsVersion_numberValue number 0).bind fun value => ?_
    split <;> simp

@[simp]
theorem keepsVersion_tupletDisplay
    (bracket : YesNo) (display : NumberDisplay) (children : List Node) :
    KeepsVersion (tupletDisplay bracket display children) := by
  induction children generalizing bracket display with
  | nil => exact keepsVersion_pure _
  | cons child rest induction =>
      rw [tupletDisplay]
      split
      · simp [induction]
      · refine (keepsVersion_propertyValue child .label).bind fun value => ?_
        cases value <;> simp [induction]
      · refine (keepsVersion_propertyValue child .label).bind fun value => ?_
        cases value with
        | none => simp [induction]
        | some value =>
            dsimp only
            split <;> simp [induction]
      · simp [induction]

@[simp]
theorem keepsVersion_tupletNumber (children : List Node) :
    KeepsVersion (tupletNumber children) := by
  rw [tupletNumber]
  rcases take? .number children with ⟨_ | node, rest⟩ <;> simp

@[simp]
theorem keepsVersion_tupletCounts (node : Node) (children : List Node) :
    KeepsVersion (tupletCounts node children) := by
  rw [tupletCounts]
  rcases take? .number children with ⟨_ | actualNode, rest⟩
  · simp
  · refine (keepsVersion_countValue actualNode 0).bind fun actual => ?_
    rcases take? .number rest with ⟨_ | normalNode, rest⟩
    · simp
    · refine (keepsVersion_countValue normalNode 0).bind fun normal => ?_
      simp

@[simp]
theorem keepsVersion_analyseTuplet (node : Node) (anchor : Option Handle) :
    KeepsVersion (analyseTuplet node anchor) := by
  refine keepsVersion_context.bind fun initial => ?_
  refine (keepsVersion_tupletNumber node.children).bind fun result => ?_
  dsimp only
  split
  · refine (keepsVersion_tupletCounts node _).bind fun result => ?_
    rcases result with ⟨_ | ⟨actual, normal⟩, rest⟩
    · simp
    · refine (keepsVersion_tupletDisplay _ _ rest).bind fun display => ?_
      exact fun _ => rfl
  · simp
  · simp

@[simp]
theorem keepsVersion_analyseTimeModification (node : Node) :
    KeepsVersion (analyseTimeModification node) := by
  refine (keepsVersion_mandatory node .number node.children).bind
    fun result => ?_
  rcases result with ⟨_ | topNode, rest⟩
  · simp
  · refine (keepsVersion_countValue topNode 1).bind fun top => ?_
    refine (keepsVersion_mandatory node .number rest).bind fun result => ?_
    rcases result with ⟨_ | bottomNode, rest⟩ <;> simp

/-! ## The children of a note or rest -/

@[simp]
theorem keepsVersion_pitchValue (label : Node) :
    KeepsVersion (pitchValue label) := by
  rw [pitchValue]
  split
  · simp
  · split <;> simp

theorem keepsVersion_abbreviations
    (flavor : Flavor) (decorations : Decorations) (children : List Node) :
    KeepsVersion (abbreviations flavor decorations children) := by
  induction children generalizing decorations with
  | nil => exact keepsVersion_pure _
  | cons label rest induction =>
      rw [abbreviations]
      split
      · split <;> simp [induction]
      · simp

theorem keepsVersion_placeInVoice (noteRest : Handle) :
    KeepsVersion (placeInVoice noteRest) :=
  fun _ => rfl

@[simp]
theorem keepsVersion_stemProperty (note : Handle) (property : Node) :
    KeepsVersion (stemProperty note property) := by
  refine KeepsVersion.bind ?_ fun stem => keepsVersion_modifyModel _
  refine (keepsVersion_propertyValue property .label).bind fun value => ?_
  cases value with
  | none => simp
  | some value =>
      dsimp only
      split <;> simp

theorem keepsVersion_noteOptions
    (note : Handle) (decorations : Decorations) (children : List Node) :
    KeepsVersion (noteOptions note decorations children) := by
  induction children generalizing decorations with
  | nil => exact keepsVersion_pure _
  | cons child rest induction =>
      rw [noteOptions]
      split <;> simp [induction]

@[simp]
theorem keepsVersion_voiceProperty (noteRest : Handle) (property : Node) :
    KeepsVersion (voiceProperty noteRest property) := by
  refine keepsVersion_context.bind fun context => ?_
  refine (keepsVersion_propertyValue property .number).bind fun value => ?_
  cases value <;> simp

theorem keepsVersion_noteRestOptions
    (noteRest : Handle) (decorations : Decorations) (children : List Node) :
    KeepsVersion (noteRestOptions noteRest decorations children) := by
  induction children generalizing decorations with
  | nil => exact keepsVersion_pure _
  | cons child rest induction =>
      rw [noteRestOptions]
      split <;> simp [induction]

end LdpScore.Analyser
