import LdpScore.Analysis.Document
import LdpScore.Proofs.Analysis.Matching

/-!
# Steps that repeat

Reading values and options refers to no handle, and of the settings it uses only
those that every instrument starts with.  So it is the same at every site.
-/

namespace LdpScore.Analyser

variable {site : Site}

/-! ## Values of leaves -/

@[simp]
theorem repeats_integerValue (node : Node) (default : Int) :
    Repeats site (integerValue node default) := by
  rw [integerValue]
  split <;> simp

@[simp]
theorem repeats_boundedValue
    (interval : Interval) (node : Node) (default : Int) :
    Repeats site (boundedValue interval node default) := by
  rw [boundedValue]
  split <;> simp

@[simp]
theorem repeats_numberValue (node : Node) (default : Int) :
    Repeats site (numberValue node default) :=
  repeats_boundedValue signedInterval node default

@[simp]
theorem repeats_countValue (node : Node) (default : Nat) :
    Repeats site (countValue node default) := by
  simp [countValue]

@[simp]
theorem repeats_realValue (node : Node) : Repeats site (realValue node) := by
  rw [realValue]
  split <;> simp

@[simp]
theorem repeats_boolValue (node : Node) (default : Bool) :
    Repeats site (boolValue node default) := by
  rw [boolValue]
  split <;> simp

@[simp]
theorem repeats_yesNoValue (node : Node) :
    Repeats site (yesNoValue node) := by
  rw [yesNoValue]
  split <;> simp

@[simp]
theorem repeats_placementValue (node : Node) (fallback : Placement) :
    Repeats site (placementValue node fallback) := by
  unfold placementValue
  split <;> simp

@[simp]
theorem repeats_noteValue (node : Node) : Repeats site (noteValue node) := by
  rw [noteValue]
  split <;> simp

@[simp]
theorem repeats_setStaff (staff : Nat) :
    Repeats site
      (modifyContext fun context => { context with staff := staff }) :=
  repeats_modifyContext (fun _ _ _ => rfl) fun _ => rfl

@[simp]
theorem repeats_setVoice (voice : Int) :
    Repeats site
      (modifyContext fun context => { context with voice := voice }) :=
  repeats_modifyContext (fun _ _ _ => rfl) fun _ => rfl

@[simp]
theorem repeats_staffLabel (node : Node) :
    Repeats site (staffLabel node) := by
  unfold staffLabel
  dsimp only
  split <;> simp

@[simp]
theorem repeats_voiceLabel (node : Node) :
    Repeats site (voiceLabel node) := by
  unfold voiceLabel
  dsimp only
  split <;> simp

@[simp]
theorem repeats_propertyValue (property : Node) (kind : ElementKind) :
    Repeats site (propertyValue property kind) := by
  simp [propertyValue]

/-! ## How objects are shown -/

@[simp]
theorem repeats_analyseColor (node : Node) :
    Repeats site (analyseColor node) := by
  rw [analyseColor]
  split <;> simp

@[simp]
theorem repeats_readCoordinates (bezier : Bezier) (children : List Node) :
    Repeats site (readCoordinates bezier children) := by
  induction children generalizing bezier with
  | nil => exact repeats_pure bezier
  | cons child rest induction =>
      rw [readCoordinates]
      split
      · cases child.children.head? <;> simp [induction]
      · simp [induction]

@[simp]
theorem repeats_analyseBezier (node : Node) :
    Repeats site (analyseBezier node) :=
  repeats_readCoordinates {} node.children

@[simp]
theorem repeats_displacement (property : Node) :
    Repeats site (displacement property) := by
  rw [displacement]
  refine (repeats_propertyValue property .number).bind fun value => ?_
  cases value <;> simp

@[simp]
theorem repeats_printOptions (appearance : Appearance) (children : List Node) :
    Repeats site (printOptions appearance children) := by
  induction children generalizing appearance with
  | nil => exact repeats_pure _
  | cons child rest induction =>
      rw [printOptions]
      split
      · refine (repeats_propertyValue child .label).bind fun value => ?_
        cases value <;> simp [induction]
      all_goals simp [induction]

@[simp]
theorem repeats_staffProperty (property : Node) :
    Repeats site (staffProperty property) := by
  rw [staffProperty]
  refine (repeats_propertyValue property .number).bind fun value => ?_
  cases value with
  | none => simp
  | some value =>
      dsimp only
      split <;> simp

@[simp]
theorem repeats_staffChoice (children : List Node) :
    Repeats site (staffChoice children) := by
  rw [staffChoice]
  rcases take? .label children with ⟨_ | label, rest⟩
  · rcases take? .staffNumber children with ⟨_ | property, rest⟩ <;> simp
  · simp

@[simp]
theorem repeats_staffOptions (appearance : Appearance) (children : List Node) :
    Repeats site (staffOptions appearance children) := by
  rw [staffOptions]
  refine (repeats_staffChoice children).bind fun rest => ?_
  refine matches_context.bind ?_
  rintro settings _ ⟨instruments, rfl⟩
  exact repeats_printOptions _ rest

@[simp]
theorem repeats_textLocation (appearance : Appearance) (children : List Node) :
    Repeats site (textLocation appearance children) := by
  induction children generalizing appearance with
  | nil => exact repeats_pure _
  | cons child rest induction =>
      rw [textLocation]
      split <;> simp [induction]

/-! ## Marks and texts -/

@[simp]
theorem repeats_optionalPlacement (children : List Node) :
    Repeats site (optionalPlacement children) := by
  rw [optionalPlacement]
  rcases take? .label children with ⟨_ | label, rest⟩ <;> simp

@[simp]
theorem repeats_fermataLabels (node : Node) (children : List Node) :
    Repeats site (fermataLabels node children) := by
  rw [fermataLabels]
  rcases take? .label children with ⟨_ | label, rest⟩
  · simp
  · dsimp only
    split
    · simp
    · refine repeats_ite (repeats_pure _) (repeats_ite (repeats_pure _) ?_)
      split <;> simp

@[simp]
theorem repeats_lyricLabel (children : List Node) :
    Repeats site (lyricLabel children) := by
  rw [lyricLabel]
  rcases take? .label children with ⟨_ | label, rest⟩
  · simp
  · dsimp only
    split <;> simp

@[simp]
theorem repeats_lyricOptions (children : List Node) :
    Repeats site (lyricOptions children) := by
  rw [lyricOptions]
  refine (repeats_lyricLabel children).bind fun result => ?_
  rcases result with ⟨options, rest⟩
  dsimp only
  split
  · simp
  · rcases take? .label (take? .melisma rest).2 with ⟨_ | label, rest⟩ <;> simp

@[simp]
theorem repeats_lyricLine (children : List Node) :
    Repeats site (lyricLine children) := by
  rw [lyricLine]
  rcases take? .number children with ⟨_ | label, rest⟩ <;> simp

@[simp]
theorem repeats_choosePlacement (line : Int) (given : Option Placement) :
    Repeats site (choosePlacement line given) := by
  cases given with
  | none =>
      refine matches_context.bind ?_
      rintro settings _ ⟨instruments, rfl⟩
      exact .pure rfl
  | some placement =>
      refine Repeats.bind ?_ fun _ => repeats_pure placement
      exact repeats_modifyContext (fun _ _ _ => rfl) fun _ => rfl

/-! ## Descriptors -/

@[simp]
theorem repeats_curveNumber (node : Node) (children : List Node) :
    Repeats site (curveNumber node children) := by
  rw [curveNumber]
  refine (repeats_mandatory node .number children).bind fun result => ?_
  rcases result with ⟨_ | number, rest⟩ <;> simp

@[simp]
theorem repeats_curveAppearance (children : List Node) :
    Repeats site (curveAppearance children) := by
  rw [curveAppearance]
  rcases take? .bezier children with ⟨bezierNode, rest⟩
  dsimp only
  rcases take? .color rest with ⟨colorNode, _⟩
  rcases bezierNode with _ | bezierNode <;>
    rcases colorNode with _ | colorNode <;> simp

/-- A descriptor of a tie is carried by the same note further on. -/
theorem matches_analyseTie (node : Node) (anchor : Option Handle) :
    Matches site (analyseTie node anchor)
      (analyseTie node (anchor.map (site.base + ·)))
      fun point later => later = point.map (TiePoint.shift site.base) := by
  rw [analyseTie, analyseTie]
  refine (repeats_curveNumber node node.children).then fun result => ?_
  dsimp only
  split
  · exact (repeats_report _ _).then fun _ => .pure rfl
  · refine (repeats_curveAppearance _).then fun _ => .pure ?_
    cases anchor <;> rfl

/-- A descriptor of a slur is carried by the same note further on. -/
theorem matches_analyseSlur (node : Node) (anchor : Option Handle) :
    Matches site (analyseSlur node anchor)
      (analyseSlur node (anchor.map (site.base + ·)))
      fun point later => later = point.map (SlurPoint.shift site.base) := by
  rw [analyseSlur, analyseSlur]
  refine (repeats_curveNumber node node.children).then fun result => ?_
  dsimp only
  split
  · exact (repeats_report _ _).then fun _ => .pure rfl
  · refine (repeats_curveAppearance _).then fun _ => .pure ?_
    cases anchor <;> rfl

/-- A descriptor of a beam is carried by the same note or rest further on. -/
theorem matches_analyseBeam (node : Node) (anchor : Option Handle) :
    Matches site (analyseBeam node anchor)
      (analyseBeam node (anchor.map (site.base + ·)))
      fun point later => later = point.map (BeamPoint.shift site.base) := by
  rw [analyseBeam, analyseBeam]
  rcases take? .number node.children with ⟨_ | number, rest⟩
  · exact (repeats_report _ _).then fun _ => .pure rfl
  · refine (repeats_numberValue number 0).then fun value => ?_
    split
    · exact (repeats_report _ _).then fun _ => .pure rfl
    · refine .pure ?_
      cases anchor <;> rfl

@[simp]
theorem repeats_tupletDisplay
    (bracket : YesNo) (display : NumberDisplay) (children : List Node) :
    Repeats site (tupletDisplay bracket display children) := by
  induction children generalizing bracket display with
  | nil => exact repeats_pure _
  | cons child rest induction =>
      rw [tupletDisplay]
      split
      · simp [induction]
      · refine (repeats_propertyValue child .label).bind fun value => ?_
        cases value <;> simp [induction]
      · refine (repeats_propertyValue child .label).bind fun value => ?_
        cases value with
        | none => simp [induction]
        | some value =>
            dsimp only
            split <;> simp [induction]
      · simp [induction]

@[simp]
theorem repeats_tupletNumber (children : List Node) :
    Repeats site (tupletNumber children) := by
  rw [tupletNumber]
  rcases take? .number children with ⟨_ | node, rest⟩
  · simp
  · refine (repeats_numberValue node 0).bind fun value => ?_
    refine matches_context.bind ?_
    rintro settings _ ⟨instruments, rfl⟩
    exact .pure rfl

@[simp]
theorem repeats_tupletCounts (node : Node) (children : List Node) :
    Repeats site (tupletCounts node children) := by
  rw [tupletCounts]
  rcases take? .number children with ⟨_ | actualNode, rest⟩
  · simp
  · refine (repeats_countValue actualNode 0).bind fun actual => ?_
    rcases take? .number rest with ⟨_ | normalNode, rest⟩
    · simp
    · refine (repeats_countValue normalNode 0).bind fun normal => ?_
      simp

/-- A descriptor of a tuplet is carried by the same note or rest further on. -/
theorem matches_analyseTuplet (node : Node) (anchor : Option Handle) :
    Matches site (analyseTuplet node anchor)
      (analyseTuplet node (anchor.map (site.base + ·)))
      fun point later => later = point.map (TupletPoint.shift site.base) := by
  rw [analyseTuplet, analyseTuplet]
  refine matches_context.bind ?_
  rintro settings _ ⟨instruments, rfl⟩
  refine (repeats_tupletNumber node.children).then fun result => ?_
  dsimp only
  split
  · refine (repeats_tupletCounts node _).then fun result => ?_
    rcases result with ⟨_ | ⟨actual, normal⟩, rest⟩
    · exact .pure rfl
    · refine (repeats_tupletDisplay _ _ rest).then fun display => ?_
      refine Repeats.then ?_ fun _ => .pure ?_
      · exact repeats_modifyContext (fun _ _ _ => rfl) fun _ => rfl
      · cases anchor <;> rfl
  · refine .pure ?_
    cases anchor <;> rfl
  · exact (repeats_report _ _).then fun _ => .pure rfl

@[simp]
theorem repeats_analyseTimeModification (node : Node) :
    Repeats site (analyseTimeModification node) := by
  rw [analyseTimeModification]
  refine (repeats_mandatory node .number node.children).bind fun result => ?_
  rcases result with ⟨_ | topNode, rest⟩
  · simp
  · refine (repeats_countValue topNode 1).bind fun top => ?_
    refine (repeats_mandatory node .number rest).bind fun result => ?_
    rcases result with ⟨_ | bottomNode, rest⟩ <;> simp

/-! ## Notes and rests -/

@[simp]
theorem repeats_pitchValue (label : Node) :
    Repeats site (pitchValue label) := by
  rw [pitchValue]
  split
  · simp
  · split <;> simp

@[simp]
theorem repeats_readPitch
    (flavor : Flavor) (node : Node) (children : List Node) :
    Repeats site (readPitch flavor node children) := by
  unfold readPitch
  split
  · simp
  · refine (repeats_mandatory node .label children).bind fun result => ?_
    rcases result with ⟨_ | label, rest⟩ <;> simp

@[simp]
theorem repeats_readNoteValue (node : Node) (children : List Node) :
    Repeats site (readNoteValue node children) := by
  rw [readNoteValue]
  refine (repeats_mandatory node .label children).bind fun result => ?_
  rcases result with ⟨_ | label, rest⟩ <;> simp

@[simp]
theorem repeats_stemValue (property : Node) :
    Repeats site (stemValue property) := by
  rw [stemValue]
  refine (repeats_propertyValue property .label).bind fun value => ?_
  cases value with
  | none => simp
  | some value =>
      dsimp only
      split <;> simp

/-! ## Staff objects -/

@[simp]
theorem repeats_optionalName
    {Value : Type} (usual : Value) (ofName? : String → Option Value)
    (problem : Node → Location × Problem) (children : List Node) :
    Repeats site (optionalName usual ofName? problem children) := by
  rw [optionalName]
  rcases take? .label children with ⟨_ | label, rest⟩
  · simp
  · dsimp only
    split <;> simp

@[simp]
theorem repeats_optionalWord (word : String) (children : List Node) :
    Repeats site (optionalWord word children) := by
  rw [optionalWord]
  rcases take? .label children with ⟨_ | label, rest⟩ <;> simp

@[simp]
theorem repeats_optionalSize (node : Node) (children : List Node) :
    Repeats site (optionalSize node children) := by
  rw [optionalSize]
  rcases take? .symbolSize children with ⟨_ | property, rest⟩
  · simp
  · dsimp only
    split <;> simp

@[simp]
theorem repeats_timeCount
    (node : Node) (default : Nat) (children : List Node) :
    Repeats site (timeCount node default children) := by
  rw [timeCount]
  refine (repeats_mandatory node .number children).bind fun result => ?_
  rcases result with ⟨_ | number, rest⟩ <;> simp

@[simp]
theorem repeats_timeCounts
    (node : Node) (style : TimeStyle) (children : List Node) :
    Repeats site (timeCounts node style children) := by
  cases style <;> simp [timeCounts]

@[simp]
theorem repeats_readShift (isForward : Bool) (node : Node) :
    Repeats site (readShift isForward node) := by
  rw [readShift]
  split
  · simp
  · split
    · split <;> simp
    · refine repeats_ite ?_ (by simp)
      refine (repeats_realValue _).bind fun amount => ?_
      simp

@[simp]
theorem repeats_readMetronome (node : Node) (children : List Node) :
    Repeats site (readMetronome node children) := by
  rw [readMetronome]
  rcases take? .label children with ⟨_ | label, rest⟩
  · rcases take? .number children with ⟨_ | number, rest⟩ <;> simp
  · refine (repeats_noteValue label).bind fun value => ?_
    rcases take? .number rest with ⟨_ | number, _⟩
    · rcases take? .label rest with ⟨_ | right, _⟩ <;> simp
    · simp

/-! ## Instruments -/

@[simp]
theorem repeats_setStaves (staves : Nat) :
    Repeats site
      (modifyContext fun context => { context with staves := staves }) :=
  repeats_modifyContext (fun _ _ _ => rfl) fun _ => rfl

@[simp]
theorem repeats_analyseStaves (node : Node) :
    Repeats site (analyseStaves node) := by
  unfold analyseStaves
  dsimp only
  split <;> simp

end LdpScore.Analyser
