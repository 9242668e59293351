import LdpScore.Proofs.Analysis.Reading

/-!
# Reading changes settings only

What a score says about itself holds until it is said again: its version, the
number of staves, and how tuplets and lyrics are shown.  These are the settings of
a context.  The rest of a context says where the music has got to: the cursor, the
staff, the voice, the last note and the signs in force.

A step that reads the options of an element may change the settings.  It leaves
the place in the music as it is, unless it reads a staff or a voice.
-/

namespace LdpScore

/-- A context with the settings of another one. -/
def Context.withSettings (context settings : Context) : Context :=
  { context with
    version := settings.version
    staves := settings.staves
    tupletBracket := settings.tupletBracket
    tupletNumber := settings.tupletNumber
    lyricPlacements := settings.lyricPlacements }

namespace Context

theorem withSettings_withSettings (context other settings : Context) :
    (context.withSettings other).withSettings settings =
      context.withSettings settings :=
  rfl

end Context

namespace Analyser

variable {Value Result : Type}

/-- A step that changes nothing in the context but settings. -/
def Adjusts (action : Analyser Value) : Prop :=
  ∀ before, Ensures action before fun _ after =>
    after.context = before.context.withSettings after.context

/-! ## Elementary steps -/

@[simp]
theorem adjusts_pure (value : Value) :
    Adjusts (pure value : Analyser Value) :=
  fun _ => rfl

@[simp]
theorem Adjusts.bind
    {action : Analyser Result} {next : Result → Analyser Value}
    (first : Adjusts action) (second : ∀ result, Adjusts (next result)) :
    Adjusts (action >>= next) := by
  intro before
  apply (first before).bind
  intro result middle earlier
  apply (second result middle).mono
  intro value after later
  rw [earlier, Context.withSettings_withSettings] at later
  exact later

@[simp]
theorem Adjusts.map
    {action : Analyser Result} (adjusts : Adjusts action)
    (change : Result → Value) :
    Adjusts (change <$> action) :=
  adjusts

@[simp]
theorem adjusts_ite
    {condition : Prop} [Decidable condition] {first second : Analyser Value}
    (whenTrue : Adjusts first) (whenFalse : Adjusts second) :
    Adjusts (if condition then first else second) := by
  split
  · exact whenTrue
  · exact whenFalse

@[simp]
theorem adjusts_context : Adjusts context :=
  fun _ => rfl

@[simp]
theorem adjusts_model : Adjusts model :=
  fun _ => rfl

theorem adjusts_modifyContext
    {change : Context → Context}
    (adjusts : ∀ context, change context = context.withSettings (change context)) :
    Adjusts (modifyContext change) :=
  fun before => adjusts before.context

@[simp]
theorem adjusts_report (location : Location) (problem : Problem) :
    Adjusts (report location problem) :=
  fun _ => rfl

@[simp]
theorem adjusts_reportMisplaced (child : Node) :
    Adjusts (reportMisplaced child) :=
  adjusts_report _ _

@[simp]
theorem adjusts_reportExtra (node : Node) (rest : List Node) :
    Adjusts (reportExtra node rest) := by
  cases rest with
  | nil => exact adjusts_pure ()
  | cons extra rest => exact adjusts_report _ _

@[simp]
theorem adjusts_mandatory
    (parent : Node) (kind : ElementKind) (children : List Node) :
    Adjusts (mandatory parent kind children) := by
  rw [mandatory]
  rcases take? kind children with ⟨_ | found, rest⟩
  · exact fun _ => rfl
  · exact fun _ => rfl

/-! ## Values of leaves -/

@[simp]
theorem adjusts_integerValue (node : Node) (default : Int) :
    Adjusts (integerValue node default) := by
  rw [integerValue]
  split <;> simp

@[simp]
theorem adjusts_numberValue (node : Node) (default : Int) :
    Adjusts (numberValue node default) := by
  rw [numberValue, boundedValue]
  split <;> simp

@[simp]
theorem adjusts_countValue (node : Node) (default : Nat) :
    Adjusts (countValue node default) := by
  rw [countValue, boundedValue]
  split <;> simp

@[simp]
theorem adjusts_realValue (node : Node) : Adjusts (realValue node) := by
  rw [realValue]
  split <;> simp

@[simp]
theorem adjusts_boolValue (node : Node) (default : Bool) :
    Adjusts (boolValue node default) := by
  rw [boolValue]
  split <;> simp

@[simp]
theorem adjusts_yesNoValue (node : Node) : Adjusts (yesNoValue node) := by
  rw [yesNoValue]
  split <;> simp

@[simp]
theorem adjusts_placementValue (node : Node) (fallback : Placement) :
    Adjusts (placementValue node fallback) := by
  unfold placementValue
  split <;> simp

@[simp]
theorem adjusts_alignmentValue (node : Node) :
    Adjusts (alignmentValue node) := by
  rw [alignmentValue]
  split <;> simp

@[simp]
theorem adjusts_propertyValue (property : Node) (kind : ElementKind) :
    Adjusts (propertyValue property kind) := by
  rw [propertyValue]
  cases property.children.head? <;> exact fun _ => rfl

/-! ## How objects are shown -/

@[simp]
theorem adjusts_analyseColor (node : Node) : Adjusts (analyseColor node) := by
  rw [analyseColor]
  split <;> simp

@[simp]
theorem adjusts_readCoordinates (bezier : Bezier) (children : List Node) :
    Adjusts (readCoordinates bezier children) := by
  induction children generalizing bezier with
  | nil => exact adjusts_pure bezier
  | cons child rest induction =>
      rw [readCoordinates]
      split
      · cases child.children.head? <;> simp [induction]
      · simp [induction]

@[simp]
theorem adjusts_analyseBezier (node : Node) : Adjusts (analyseBezier node) :=
  adjusts_readCoordinates {} node.children

@[simp]
theorem adjusts_displacement (property : Node) :
    Adjusts (displacement property) := by
  refine (adjusts_propertyValue property .number).bind fun value => ?_
  cases value <;> simp

@[simp]
theorem adjusts_printOptions (appearance : Appearance) (children : List Node) :
    Adjusts (printOptions appearance children) := by
  induction children generalizing appearance with
  | nil => exact adjusts_pure _
  | cons child rest induction =>
      rw [printOptions]
      split
      · refine (adjusts_propertyValue child .label).bind fun value => ?_
        cases value <;> simp [induction]
      all_goals simp [induction]

/-! ## Lyrics -/

@[simp]
theorem adjusts_lyricLine (children : List Node) :
    Adjusts (lyricLine children) := by
  rw [lyricLine]
  rcases take? .number children with ⟨_ | label, rest⟩ <;> simp

@[simp]
theorem adjusts_lyricLabel (children : List Node) :
    Adjusts (lyricLabel children) := by
  rw [lyricLabel]
  rcases take? .label children with ⟨_ | label, rest⟩
  · simp
  · dsimp only
    split <;> simp

@[simp]
theorem adjusts_lyricOptions (children : List Node) :
    Adjusts (lyricOptions children) := by
  refine (adjusts_lyricLabel children).bind fun result => ?_
  rcases result with ⟨options, rest⟩
  dsimp only
  split
  · simp
  · rcases take? .label (take? .melisma rest).2 with ⟨_ | label, rest⟩ <;> simp

/-- The placement of a lyric is remembered for the later ones of its line. -/
@[simp]
theorem adjusts_choosePlacement (line : Int) (given : Option Placement) :
    Adjusts (choosePlacement line given) := by
  cases given with
  | none => exact adjusts_context.bind fun _ => adjusts_pure _
  | some placement =>
      exact (adjusts_modifyContext fun _ => rfl).bind fun _ => adjusts_pure _

/-! ## Descriptors -/

@[simp]
theorem adjusts_curveNumber (node : Node) (children : List Node) :
    Adjusts (curveNumber node children) := by
  refine (adjusts_mandatory node .number children).bind fun result => ?_
  rcases result with ⟨_ | number, rest⟩ <;> simp

@[simp]
theorem adjusts_curveAppearance (children : List Node) :
    Adjusts (curveAppearance children) := by
  rw [curveAppearance]
  rcases take? .bezier children with ⟨bezierNode, rest⟩
  dsimp only
  rcases take? .color rest with ⟨colorNode, _⟩
  rcases bezierNode with _ | bezierNode <;>
    rcases colorNode with _ | colorNode <;> simp

theorem adjusts_analyseTie (node : Node) (anchor : Option Handle) :
    Adjusts (analyseTie node anchor) := by
  refine (adjusts_curveNumber node node.children).bind fun result => ?_
  dsimp only
  split <;> simp

theorem adjusts_analyseSlur (node : Node) (anchor : Option Handle) :
    Adjusts (analyseSlur node anchor) := by
  refine (adjusts_curveNumber node node.children).bind fun result => ?_
  dsimp only
  split <;> simp

theorem adjusts_analyseBeam (node : Node) (anchor : Option Handle) :
    Adjusts (analyseBeam node anchor) := by
  rw [analyseBeam]
  rcases take? .number node.children with ⟨_ | number, rest⟩
  · simp
  · refine (adjusts_numberValue number 0).bind fun value => ?_
    split <;> simp

@[simp]
theorem adjusts_tupletDisplay
    (bracket : YesNo) (display : NumberDisplay) (children : List Node) :
    Adjusts (tupletDisplay bracket display children) := by
  induction children generalizing bracket display with
  | nil => exact adjusts_pure _
  | cons child rest induction =>
      rw [tupletDisplay]
      split
      · simp [induction]
      · refine (adjusts_propertyValue child .label).bind fun value => ?_
        cases value <;> simp [induction]
      · refine (adjusts_propertyValue child .label).bind fun value => ?_
        cases value with
        | none => simp [induction]
        | some value =>
            dsimp only
            split <;> simp [induction]
      · simp [induction]

@[simp]
theorem adjusts_tupletNumber (children : List Node) :
    Adjusts (tupletNumber children) := by
  rw [tupletNumber]
  rcases take? .number children with ⟨_ | node, rest⟩ <;> simp

@[simp]
theorem adjusts_tupletCounts (node : Node) (children : List Node) :
    Adjusts (tupletCounts node children) := by
  rw [tupletCounts]
  rcases take? .number children with ⟨_ | actualNode, rest⟩
  · simp
  · refine (adjusts_countValue actualNode 0).bind fun actual => ?_
    rcases take? .number rest with ⟨_ | normalNode, rest⟩
    · simp
    · refine (adjusts_countValue normalNode 0).bind fun normal => ?_
      simp

/-- The display options of a tuplet hold for the tuplets after it. -/
theorem adjusts_analyseTuplet (node : Node) (anchor : Option Handle) :
    Adjusts (analyseTuplet node anchor) := by
  refine adjusts_context.bind fun initial => ?_
  refine (adjusts_tupletNumber node.children).bind fun result => ?_
  dsimp only
  split
  · refine (adjusts_tupletCounts node _).bind fun result => ?_
    rcases result with ⟨_ | ⟨actual, normal⟩, rest⟩
    · exact adjusts_pure none
    · refine (adjusts_tupletDisplay _ _ rest).bind fun display => ?_
      exact (adjusts_modifyContext fun _ => rfl).bind fun _ => adjusts_pure _
  · simp
  · simp

theorem adjusts_analyseTimeModification (node : Node) :
    Adjusts (analyseTimeModification node) := by
  refine (adjusts_mandatory node .number node.children).bind fun result => ?_
  rcases result with ⟨_ | topNode, rest⟩
  · simp
  · refine (adjusts_countValue topNode 1).bind fun top => ?_
    refine (adjusts_mandatory node .number rest).bind fun result => ?_
    rcases result with ⟨_ | bottomNode, rest⟩ <;> simp

/-! ## Cursor moves and scores -/

@[simp]
theorem adjusts_readShift (isForward : Bool) (node : Node) :
    Adjusts (readShift isForward node) := by
  rw [readShift]
  split
  · simp
  · rename_i child rest _
    split
    · split <;> simp
    · split
      · refine (adjusts_realValue child).bind fun amount => ?_
        split <;> simp
      · simp

@[simp]
theorem adjusts_optionalAlignment (children : List Node) :
    Adjusts (optionalAlignment children) := by
  rw [optionalAlignment]
  rcases take? .label children with ⟨_ | label, rest⟩ <;> simp

@[simp]
theorem adjusts_readOption (node : Node) : Adjusts (readOption node) := by
  refine (adjusts_mandatory node .label node.children).bind fun result => ?_
  dsimp only
  split
  · simp
  · split
    · simp
    · split <;> simp

theorem adjusts_analyseStaves (node : Node) : Adjusts (analyseStaves node) := by
  have set : ∀ staves, Adjusts (modifyContext fun context =>
      { context with staves := staves }) :=
    fun _ => adjusts_modifyContext fun _ => rfl
  unfold analyseStaves
  dsimp only
  split <;> simp [set]

theorem adjusts_analyseVersion (node : Node) :
    Adjusts (analyseVersion node) := by
  have set : ∀ version, Adjusts (modifyContext fun context =>
      { context with version := version }) :=
    fun _ => adjusts_modifyContext fun _ => rfl
  unfold analyseVersion
  dsimp only
  split <;> simp [set]

end Analyser

end LdpScore
