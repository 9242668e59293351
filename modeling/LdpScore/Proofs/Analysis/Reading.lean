import LdpScore.Analysis.Document
import LdpScore.Proofs.Analysis.Quiet

/-!
# The parts of an analysis that only read

One lemma for every step of the analysis that builds nothing: it is quiet, the
children it leaves are the last ones of those it was given, and a descriptor that
it returns is one of the object that carries it.
-/

namespace LdpScore.Analyser

/-! ## How objects are shown -/

theorem reads_analyseColor (node : Node) : Reads (analyseColor node) := by
  rw [analyseColor]
  split
  · exact (reads_reportExtra node _).bind fun _ _ => .pure trivial
  · exact (reads_report _ (by simp)).bind fun _ _ => .pure trivial

theorem reads_readCoordinates (bezier : Bezier) (children : List Node) :
    Reads (readCoordinates bezier children) := by
  induction children generalizing bezier with
  | nil => exact .pure trivial
  | cons child rest induction =>
      rw [readCoordinates]
      split
      · dsimp only
        split
        · exact (reads_realValue _).bind fun _ _ => induction _
        · exact induction _
      · exact (reads_reportMisplaced child).bind fun _ _ => induction _

theorem reads_analyseBezier (node : Node) : Reads (analyseBezier node) :=
  reads_readCoordinates {} node.children

theorem reads_displacement (property : Node) :
    Reads (displacement property) := by
  rw [displacement]
  apply (reads_propertyValue property .number).bind
  intro value _
  cases value with
  | none => exact .pure trivial
  | some node => exact reads_realValue node

theorem quiet_printOptions (appearance : Appearance) (children : List Node) :
    Quiet (printOptions appearance children)
      fun result => result.2 <:+ children := by
  induction children generalizing appearance with
  | nil => exact .pure (List.suffix_refl _)
  | cons child rest induction =>
      have later : ∀ changed, Quiet (printOptions changed rest)
          fun result => result.2 <:+ child :: rest :=
        fun changed => (induction changed).mono fun _ suffix =>
          suffix.trans (List.suffix_cons child rest)
      rw [printOptions]
      split
      · apply (reads_propertyValue child .label).bind
        intro value _
        cases value with
        | none => exact later _
        | some node => exact (reads_boolValue node _).bind fun _ _ => later _
      · exact (reads_analyseColor child).bind fun _ _ => later _
      · exact (reads_displacement child).bind fun _ _ => later _
      · exact (reads_displacement child).bind fun _ _ => later _
      · exact .pure (List.suffix_refl _)

theorem reads_staffProperty (property : Node) :
    Reads (staffProperty property) := by
  rw [staffProperty]
  apply (reads_propertyValue property .number).bind
  intro value _
  cases value with
  | none => exact reads_modifyContext fun _ => rfl
  | some node =>
      dsimp only
      split
      · exact reads_modifyContext fun _ => rfl
      · exact (reads_report _ (by simp)).bind fun _ _ =>
          reads_modifyContext fun _ => rfl

theorem quiet_staffChoice (children : List Node) :
    Quiet (staffChoice children) fun rest => rest <:+ children := by
  have label := takes_take? .label children
  have staff := takes_take? .staffNumber children
  rw [staffChoice]
  generalize take? .label children = taken at label ⊢
  rcases taken with ⟨_ | node, rest⟩
  · generalize take? .staffNumber children = taken at staff ⊢
    rcases taken with ⟨_ | node, rest⟩
    · exact .pure (List.suffix_refl _)
    · exact (reads_staffProperty node).bind fun _ _ => .pure staff.suffix
  · dsimp only
    split
    · exact (reads_staffLabel node).bind fun _ _ => .pure label.suffix
    · exact (reads_reportMisplaced node).bind fun _ _ => .pure label.suffix

theorem quiet_staffOptions (appearance : Appearance) (children : List Node) :
    Quiet (staffOptions appearance children)
      fun result => result.2 <:+ children := by
  rw [staffOptions]
  apply (quiet_staffChoice children).bind
  intro rest suffix
  apply reads_context.bind
  intro context _
  exact (quiet_printOptions _ rest).mono fun _ later => later.trans suffix

theorem reads_textLocation (appearance : Appearance) (children : List Node) :
    Reads (textLocation appearance children) := by
  induction children generalizing appearance with
  | nil => exact .pure trivial
  | cons child rest induction =>
      rw [textLocation]
      split
      · exact (reads_displacement child).bind fun _ _ => induction _
      · exact (reads_displacement child).bind fun _ _ => induction _
      · exact (reads_reportMisplaced child).bind fun _ _ => induction _

/-! ## Marks and texts -/

theorem reads_optionalPlacement (children : List Node) :
    Reads (optionalPlacement children) := by
  rw [optionalPlacement]
  rcases take? .label children with ⟨_ | label, rest⟩
  · exact .pure trivial
  · exact (reads_placementValue label _).bind fun _ _ => .pure trivial

theorem reads_fermataLabels (node : Node) (children : List Node) :
    Reads (fermataLabels node children) := by
  rw [fermataLabels]
  rcases take? .label children with ⟨_ | label, rest⟩
  · exact .pure trivial
  · dsimp only
    split
    · exact (reads_optionalPlacement rest).bind fun _ _ => .pure trivial
    · split
      · exact .pure trivial
      · split
        · exact .pure trivial
        · split
          · exact (reads_optionalPlacement rest).bind fun _ _ =>
              (reads_report _ (by simp)).bind fun _ _ => .pure trivial
          · exact (reads_report _ (by simp)).bind fun _ _ => .pure trivial

theorem reads_lyricLabel (children : List Node) :
    Reads (lyricLabel children) := by
  rw [lyricLabel]
  rcases take? .label children with ⟨_ | label, rest⟩
  · exact .pure trivial
  · dsimp only
    split
    case h_4 =>
      exact (reads_report _ (by simp)).bind fun _ _ => .pure trivial
    all_goals exact .pure trivial

theorem reads_lyricOptions (children : List Node) :
    Reads (lyricOptions children) := by
  rw [lyricOptions]
  apply (reads_lyricLabel children).bind
  intro result _
  rcases result with ⟨options, rest⟩
  dsimp only
  split
  · exact .pure trivial
  · rcases take? .label (take? .melisma rest).2 with ⟨_ | label, rest⟩
    · exact .pure trivial
    · exact (reads_placementValue label _).bind fun _ _ => .pure trivial

theorem reads_lyricLine (children : List Node) :
    Reads (lyricLine children) := by
  rw [lyricLine]
  rcases take? .number children with ⟨_ | label, rest⟩
  · exact .pure trivial
  · exact (reads_integerValue label 1).bind fun _ _ => .pure trivial

theorem reads_choosePlacement (line : Int) (given : Option Placement) :
    Reads (choosePlacement line given) := by
  cases given with
  | none => exact reads_context.bind fun _ _ => .pure trivial
  | some placement =>
      exact Quiet.bind (reads_modifyContext fun _ => rfl)
        fun _ _ => .pure trivial

/-! ## Descriptors -/

theorem reads_curveNumber (node : Node) (children : List Node) :
    Reads (curveNumber node children) := by
  rw [curveNumber]
  apply (quiet_mandatory node .number children).bind
  intro result _
  rcases result with ⟨_ | number, rest⟩
  · exact .pure trivial
  · exact (reads_numberValue number _).bind fun _ _ => .pure trivial

theorem reads_curveAppearance (children : List Node) :
    Reads (curveAppearance children) := by
  rw [curveAppearance]
  rcases take? .bezier children with ⟨bezierNode, rest⟩
  dsimp only
  rcases take? .color rest with ⟨colorNode, _⟩
  rcases bezierNode with _ | bezierNode <;> rcases colorNode with _ | colorNode
  · exact Quiet.pure trivial
  · exact (reads_analyseColor colorNode).bind fun _ _ => .pure trivial
  · apply ((reads_analyseBezier bezierNode).map some).bind
    intro _ _
    exact .pure trivial
  · apply ((reads_analyseBezier bezierNode).map some).bind
    intro _ _
    exact (reads_analyseColor colorNode).bind fun _ _ => .pure trivial

/-- A descriptor of a tie is one of the note that carries it. -/
theorem quiet_analyseTie (node : Node) (anchor : Option Handle) :
    Quiet (analyseTie node anchor)
      fun result => ∀ point, result = some point →
        anchor = some point.note := by
  rw [analyseTie]
  apply (reads_curveNumber node _).bind
  intro result _
  rcases result with ⟨number, rest⟩
  dsimp only
  split
  · refine (reads_report _ (by simp)).bind fun _ _ => .pure ?_
    intro point impossible
    cases impossible
  · refine (reads_curveAppearance _).bind fun _ _ => .pure ?_
    intro point given
    obtain ⟨note, isAnchor, rfl⟩ := Option.map_eq_some_iff.mp given
    exact isAnchor

/-- A descriptor of a slur is one of the note that carries it. -/
theorem quiet_analyseSlur (node : Node) (anchor : Option Handle) :
    Quiet (analyseSlur node anchor)
      fun result => ∀ point, result = some point →
        anchor = some point.note := by
  rw [analyseSlur]
  apply (reads_curveNumber node _).bind
  intro result _
  rcases result with ⟨number, rest⟩
  dsimp only
  split
  · refine (reads_report _ (by simp)).bind fun _ _ => .pure ?_
    intro point impossible
    cases impossible
  · refine (reads_curveAppearance _).bind fun _ _ => .pure ?_
    intro point given
    obtain ⟨note, isAnchor, rfl⟩ := Option.map_eq_some_iff.mp given
    exact isAnchor

/-- A descriptor of a beam is one of the note or rest that carries it. -/
theorem quiet_analyseBeam (node : Node) (anchor : Option Handle) :
    Quiet (analyseBeam node anchor)
      fun result => ∀ point, result = some point →
        anchor = some point.noteRest := by
  rw [analyseBeam]
  rcases take? .number node.children with ⟨_ | number, rest⟩
  · refine (reads_report _ (by simp)).bind fun _ _ => .pure ?_
    intro point impossible
    cases impossible
  · apply (reads_numberValue number 0).bind
    intro value _
    split
    · refine (reads_report _ (by simp)).bind fun _ _ => .pure ?_
      intro point impossible
      cases impossible
    · refine .pure ?_
      intro point given
      obtain ⟨noteRest, isAnchor, rfl⟩ := Option.map_eq_some_iff.mp given
      exact isAnchor

theorem reads_tupletDisplay
    (bracket : YesNo) (display : NumberDisplay) (children : List Node) :
    Reads (tupletDisplay bracket display children) := by
  induction children generalizing bracket display with
  | nil => exact .pure trivial
  | cons child rest induction =>
      rw [tupletDisplay]
      split
      · split
        · exact induction _ _
        · exact (reads_reportMisplaced child).bind fun _ _ => induction _ _
      · apply (reads_propertyValue child .label).bind
        intro value _
        cases value with
        | none => exact induction _ _
        | some node =>
            exact (reads_yesNoValue node).bind fun _ _ => induction _ _
      · apply (reads_propertyValue child .label).bind
        intro value _
        cases value with
        | none => exact induction _ _
        | some node =>
            dsimp only
            split
            · exact induction _ _
            · exact (reads_reportMisplaced node).bind fun _ _ =>
                induction _ _
      · exact (reads_reportMisplaced child).bind fun _ _ => induction _ _

theorem reads_tupletNumber (children : List Node) :
    Reads (tupletNumber children) := by
  rw [tupletNumber]
  rcases take? .number children with ⟨_ | node, rest⟩
  · exact .pure trivial
  · exact (reads_numberValue node 0).bind fun _ _ =>
      reads_context.bind fun _ _ => .pure trivial

theorem reads_tupletCounts (node : Node) (children : List Node) :
    Reads (tupletCounts node children) := by
  rw [tupletCounts]
  rcases take? .number children with ⟨_ | actualNode, rest⟩
  · exact (reads_report _ (by simp)).bind fun _ _ => .pure trivial
  · apply (reads_countValue actualNode 0).bind
    intro actual _
    rcases take? .number rest with ⟨_ | normalNode, rest⟩
    · simp only [pure_bind]
      split
      · exact (reads_report _ (by simp)).bind fun _ _ => .pure trivial
      · exact .pure trivial
    · apply (reads_countValue normalNode 0).bind
      intro normal _
      simp only [pure_bind]
      split
      · exact (reads_report _ (by simp)).bind fun _ _ => .pure trivial
      · exact .pure trivial

/-- A descriptor of a tuplet is one of the note or rest that carries it. -/
theorem quiet_analyseTuplet (node : Node) (anchor : Option Handle) :
    Quiet (analyseTuplet node anchor)
      fun result => ∀ point, result = some point →
        anchor = some point.noteRest := by
  rw [analyseTuplet]
  apply reads_context.bind
  intro initial _
  apply (reads_tupletNumber _).bind
  intro result _
  rcases result with ⟨number, rest⟩
  dsimp only
  split
  · apply (reads_tupletCounts node _).bind
    intro result _
    rcases result with ⟨_ | ⟨actual, normal⟩, rest⟩
    · refine .pure ?_
      intro point impossible
      cases impossible
    · apply (reads_tupletDisplay _ _ _).bind
      intro result _
      refine Quiet.bind (reads_modifyContext fun _ => rfl) fun _ _ => ?_
      refine .pure ?_
      intro point given
      obtain ⟨noteRest, isAnchor, rfl⟩ := Option.map_eq_some_iff.mp given
      exact isAnchor
  · refine .pure ?_
    intro point given
    obtain ⟨noteRest, isAnchor, rfl⟩ := Option.map_eq_some_iff.mp given
    exact isAnchor
  · refine (reads_report _ (by simp)).bind fun _ _ => .pure ?_
    intro point impossible
    cases impossible

theorem reads_analyseTimeModification (node : Node) :
    Reads (analyseTimeModification node) := by
  rw [analyseTimeModification]
  apply (quiet_mandatory node .number _).bind
  intro result _
  rcases result with ⟨_ | topNode, rest⟩
  · exact .pure trivial
  · apply (reads_countValue topNode 1).bind
    intro top _
    apply (quiet_mandatory node .number rest).bind
    intro result _
    rcases result with ⟨_ | bottomNode, rest⟩
    · exact .pure trivial
    · exact (reads_countValue bottomNode 1).bind fun _ _ =>
        (reads_reportExtra node rest).bind fun _ _ => .pure trivial

/-! ## Notes and rests -/

theorem reads_pitchValue (label : Node) : Reads (pitchValue label) := by
  rw [pitchValue]
  split
  · exact .pure trivial
  · split
    · exact .pure trivial
    · exact (reads_report _ (by simp)).bind fun _ _ => .pure trivial

theorem quiet_readPitch
    (flavor : Flavor) (node : Node) (children : List Node) :
    Quiet (readPitch flavor node children)
      fun result => result.2 <:+ children := by
  unfold readPitch
  split
  · exact .pure (List.suffix_refl _)
  · apply (quiet_mandatory node .label children).bind
    intro result takes
    rcases result with ⟨_ | label, rest⟩
    · exact .pure takes.suffix
    · exact (reads_pitchValue label).bind fun _ _ => .pure takes.suffix

theorem quiet_readNoteValue (node : Node) (children : List Node) :
    Quiet (readNoteValue node children)
      fun result => result.2 <:+ children := by
  rw [readNoteValue]
  apply (quiet_mandatory node .label children).bind
  intro result takes
  rcases result with ⟨_ | label, rest⟩
  · exact .pure takes.suffix
  · exact (reads_noteValue label).bind fun _ _ => .pure takes.suffix

/-- All descriptors among some decorations are of one object.  Only notes have
slurs. -/
structure Decorations.AreOf
    (decorations : Decorations) (flavor : Flavor) (handle : Handle) :
    Prop where
  tie : ∀ point, decorations.tie = some point → point.note = handle
  slur : ∀ point, decorations.slur = some point → point.note = handle
  beam : ∀ point, decorations.beam = some point → point.noteRest = handle
  tuplet : ∀ point, decorations.tuplet = some point →
    point.noteRest = handle
  onlyNotes : flavor = .rest → decorations.slur = none

theorem Decorations.areOf_empty (flavor : Flavor) (handle : Handle) :
    Decorations.AreOf {} flavor handle := by
  refine ⟨?_, ?_, ?_, ?_, fun _ => rfl⟩ <;>
    · intro point impossible
      cases impossible

/-- Labels say nothing about numbered relations. -/
theorem quiet_abbreviations
    {flavor : Flavor} {handle : Handle}
    {decorations : Decorations} (areOf : decorations.AreOf flavor handle)
    (children : List Node) :
    Quiet (abbreviations flavor decorations children)
      fun result =>
        result.1.AreOf flavor handle ∧ result.2 <:+ children := by
  induction children generalizing decorations with
  | nil => exact .pure ⟨areOf, List.suffix_refl _⟩
  | cons label rest induction =>
      have later : ∀ {changed : Decorations},
          changed.AreOf flavor handle →
            Quiet (abbreviations flavor changed rest) fun result =>
              result.1.AreOf flavor handle ∧
                result.2 <:+ label :: rest :=
        fun ofChanged => (induction ofChanged).mono fun _ holds =>
          ⟨holds.1, holds.2.trans (List.suffix_cons label rest)⟩
      have same : ∀ {changed : Decorations},
          changed.tie = decorations.tie → changed.slur = decorations.slur →
            changed.beam = decorations.beam →
              changed.tuplet = decorations.tuplet →
                changed.AreOf flavor handle :=
        fun tie slur beam tuplet =>
          ⟨tie ▸ areOf.tie, slur ▸ areOf.slur, beam ▸ areOf.beam,
            tuplet ▸ areOf.tuplet, slur ▸ areOf.onlyNotes⟩
      rw [abbreviations]
      split
      · split
        · split
          · exact (reads_reportMisplaced label).bind fun _ _ => later areOf
          · exact later (same rfl rfl rfl rfl)
        · exact later (same rfl rfl rfl rfl)
        · exact later (same rfl rfl rfl rfl)
        · exact (reads_voiceLabel label).bind fun _ _ => later areOf
        · exact (reads_staffLabel label).bind fun _ _ => later areOf
        · exact (reads_reportMisplaced label).bind fun _ _ => later areOf
      · exact .pure ⟨areOf, List.suffix_refl _⟩

theorem reads_stemValue (property : Node) : Reads (stemValue property) := by
  rw [stemValue]
  apply (reads_propertyValue property .label).bind
  intro value _
  cases value with
  | none => exact .pure trivial
  | some node =>
      dsimp only
      split
      · exact .pure trivial
      · exact .pure trivial
      · exact (reads_report _ (by simp)).bind fun _ _ => .pure trivial

/-! ## Staff objects -/

theorem quiet_optionalName
    {Value : Type} (usual : Value) (ofName? : String → Option Value)
    {problem : Node → Location × Problem}
    (other : ∀ label, (problem label).2 ≠ .idTaken) (children : List Node) :
    Quiet (optionalName usual ofName? problem children)
      fun result => result.2 <:+ children := by
  have takes := takes_take? .label children
  rw [optionalName]
  generalize take? .label children = taken at takes ⊢
  rcases taken with ⟨_ | label, rest⟩
  · exact .pure takes.suffix
  · dsimp only
    split
    · exact .pure takes.suffix
    · exact (reads_report _ (other label)).bind fun _ _ => .pure takes.suffix

theorem quiet_optionalWord (word : String) (children : List Node) :
    Quiet (optionalWord word children)
      fun result => result.2 <:+ children := by
  have takes := takes_take? .label children
  rw [optionalWord]
  generalize take? .label children = taken at takes ⊢
  rcases taken with ⟨_ | label, rest⟩
  · exact .pure takes.suffix
  · dsimp only
    split
    · exact .pure takes.suffix
    · exact (reads_reportMisplaced label).bind fun _ _ => .pure takes.suffix

theorem quiet_optionalSize (node : Node) (children : List Node) :
    Quiet (optionalSize node children)
      fun result => result.2 <:+ children := by
  have takes := takes_take? .symbolSize children
  rw [optionalSize]
  generalize take? .symbolSize children = taken at takes ⊢
  rcases taken with ⟨_ | property, rest⟩
  · exact .pure takes.suffix
  · dsimp only
    split
    · exact .pure takes.suffix
    · exact (reads_report _ (by simp)).bind fun _ _ => .pure takes.suffix

theorem quiet_timeCount
    (node : Node) (default : Nat) (children : List Node) :
    Quiet (timeCount node default children)
      fun result => result.2 <:+ children := by
  rw [timeCount]
  apply (quiet_mandatory node .number children).bind
  intro result takes
  rcases result with ⟨_ | number, rest⟩
  · exact .pure takes.suffix
  · exact (reads_countValue number default).bind fun _ _ =>
      .pure takes.suffix

theorem quiet_timeCounts
    (node : Node) (style : TimeStyle) (children : List Node) :
    Quiet (timeCounts node style children)
      fun result => result.2.2 <:+ children := by
  cases style with
  | common => exact .pure (List.suffix_refl _)
  | cut => exact .pure (List.suffix_refl _)
  | singleNumber =>
      exact (quiet_timeCount node 2 children).bind fun _ suffix =>
        .pure suffix
  | normal =>
      apply (quiet_timeCount node 2 children).bind
      intro result suffix
      exact (quiet_timeCount node 4 result.2).bind fun _ later =>
        .pure (later.trans suffix)

theorem labelShift_ne_idTaken (isForward : Bool) (text : String) :
    labelShift isForward text ≠ .error .idTaken := by
  unfold labelShift
  split
  case h_5 => split <;> simp
  all_goals simp

theorem reads_readShift (isForward : Bool) (node : Node) :
    Reads (readShift isForward node) := by
  rw [readShift]
  split
  · exact (reads_report _ (by simp)).bind fun _ _ => .pure trivial
  · rename_i child rest _
    split
    · split
      · exact .pure trivial
      · rename_i problem isError
        refine (reads_report _ ?_).bind fun _ _ => .pure trivial
        intro isTaken
        rw [isTaken] at isError
        exact labelShift_ne_idTaken isForward child.text isError
    · split
      · apply (reads_realValue child).bind
        intro amount _
        split
        · exact (reads_report _ (by simp)).bind fun _ _ => .pure trivial
        · exact .pure trivial
      · exact (reads_report _ (by simp)).bind fun _ _ => .pure trivial

theorem reads_readMetronome (node : Node) (children : List Node) :
    Reads (readMetronome node children) := by
  rw [readMetronome]
  rcases take? .label children with ⟨_ | label, rest⟩
  · rcases take? .number children with ⟨_ | number, rest⟩
    · exact (reads_report _ (by simp)).bind fun _ _ => .pure trivial
    · exact (reads_integerValue number 60).bind fun _ _ => .pure trivial
  · apply (reads_noteValue label).bind
    intro value _
    rcases take? .number rest with ⟨_ | number, _⟩
    · rcases take? .label rest with ⟨_ | right, _⟩
      · exact (reads_report _ (by simp)).bind fun _ _ => .pure trivial
      · exact (reads_noteValue right).bind fun _ _ => .pure trivial
    · exact (reads_integerValue number 60).bind fun _ _ => .pure trivial

/-! ## Scores and documents -/

theorem reads_headingLevel (number : Option Node) :
    Reads (headingLevel number) := by
  cases number with
  | none => exact .pure trivial
  | some node => exact reads_integerValue node 1

theorem reads_optionalAlignment (children : List Node) :
    Reads (optionalAlignment children) := by
  rw [optionalAlignment]
  rcases take? .label children with ⟨_ | label, rest⟩
  · exact .pure trivial
  · exact (reads_alignmentValue label).bind fun _ _ => .pure trivial

theorem reads_readOption (node : Node) : Reads (readOption node) := by
  rw [readOption]
  apply (quiet_mandatory node .label _).bind
  intro result _
  rcases result with ⟨label, rest⟩
  dsimp only
  split
  · exact (reads_report _ (by simp)).bind fun _ _ => .pure trivial
  · split
    · exact (reads_report _ (by simp)).bind fun _ _ => .pure trivial
    · split
      · exact (reads_report _ (by simp)).bind fun _ _ => .pure trivial
      · exact (reads_reportExtra node _).bind fun _ _ => .pure trivial

theorem reads_analyseStaves (node : Node) : Reads (analyseStaves node) := by
  unfold analyseStaves
  dsimp only
  split
  · split
    · exact reads_modifyContext fun _ => rfl
    · exact (reads_report _ (by simp)).bind fun _ _ =>
        reads_modifyContext fun _ => rfl
  · exact (reads_report _ (by simp)).bind fun _ _ =>
      reads_modifyContext fun _ => rfl

theorem reads_analyseVersion (node : Node) :
    Reads (analyseVersion node) := by
  unfold analyseVersion
  dsimp only
  split
  · exact reads_modifyContext fun _ => rfl
  · exact (reads_report _ (by simp)).bind fun _ _ =>
      reads_modifyContext fun _ => rfl

end LdpScore.Analyser
