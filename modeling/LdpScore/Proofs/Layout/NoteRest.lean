import LdpScore.Proofs.Analysis.Settling
import LdpScore.Proofs.Layout.Reading

/-!
# Notes and rests are blind to locations

A note or rest gives the same objects, the same descriptors and the same relations
wherever its element is written, and whatever was written before it.
-/

namespace LdpScore.Analyser

/-! ## Descriptors -/

theorem blind_curveNumber (node : Node) (children : List Node) :
    BlindRest (curveNumber node children)
      (curveNumber node.bare (children.map Node.bare)) := by
  refine (blind_mandatory node .number children).bind fun result => ?_
  rcases result with ⟨_ | number, rest⟩
  · exact .pure rfl
  · exact (blind_numberValue number 0).bind fun _ => .pure rfl

theorem blind_curveAppearance (children : List Node) :
    Blind (curveAppearance children)
      (curveAppearance (children.map Node.bare)) := by
  rw [curveAppearance, curveAppearance, take?_bare]
  rcases take? .bezier children with ⟨bezierNode, rest⟩
  dsimp only [bareTaken]
  rw [take?_bare]
  rcases take? .color rest with ⟨colorNode, others⟩
  have colored : ∀ (color : Node) (bezier : Option Bezier),
      Blind ((bezier, ·) <$> analyseColor color)
        ((bezier, ·) <$> analyseColor color.bare) :=
    fun color bezier => (blind_analyseColor color).map fun _ => rfl
  cases bezierNode with
  | none =>
      cases colorNode with
      | none => exact .pure rfl
      | some color => exact colored color none
  | some bezier =>
      have drawn : Blind (some <$> analyseBezier bezier)
          (some <$> analyseBezier bezier.bare) :=
        (blind_analyseBezier bezier).map fun _ => rfl
      refine drawn.bind fun curve => ?_
      cases colorNode with
      | none => exact .pure rfl
      | some color => exact colored color curve

theorem labelText?_bare (children : List Node) :
    labelText? (children.map Node.bare) = labelText? children := by
  rw [labelText?, labelText?, take?_bare]
  rcases take? .label children with ⟨_ | label, rest⟩
  · rfl
  · exact congrArg some label.text_bare

theorem blind_analyseTie (node : Node) (anchor : Option Handle) :
    BlindUpTo (Option.map TiePoint.bare) (analyseTie node anchor)
      (analyseTie node.bare anchor) := by
  rw [analyseTie, analyseTie, Node.children_bare]
  refine (blind_curveNumber node node.children).bind fun result => ?_
  rcases result with ⟨number, rest⟩
  dsimp only [Prod.map, id]
  rw [labelText?_bare]
  split
  · exact (blind_report_bare node rfl).bind fun _ => .pure rfl
  · rw [← List.map_tail]
    refine (blind_curveAppearance rest.tail).bind fun _ => .pure ?_
    cases anchor with
    | none => rfl
    | some note => exact congrArg some (by rw [Node.location_bare]; rfl)

theorem blind_analyseSlur (node : Node) (anchor : Option Handle) :
    BlindUpTo (Option.map SlurPoint.bare) (analyseSlur node anchor)
      (analyseSlur node.bare anchor) := by
  rw [analyseSlur, analyseSlur, Node.children_bare]
  refine (blind_curveNumber node node.children).bind fun result => ?_
  rcases result with ⟨number, rest⟩
  dsimp only [Prod.map, id]
  rw [labelText?_bare]
  split
  · exact (blind_report_bare node rfl).bind fun _ => .pure rfl
  · rw [← List.map_tail]
    refine (blind_curveAppearance rest.tail).bind fun _ => .pure ?_
    cases anchor with
    | none => rfl
    | some note => exact congrArg some (by rw [Node.location_bare]; rfl)

theorem blind_analyseBeam (node : Node) (anchor : Option Handle) :
    BlindUpTo (Option.map BeamPoint.bare) (analyseBeam node anchor)
      (analyseBeam node.bare anchor) := by
  rw [analyseBeam, analyseBeam, Node.children_bare, take?_bare]
  rcases take? .number node.children with ⟨_ | number, rest⟩
  · exact (blind_report_bare node rfl).bind fun _ => .pure rfl
  · refine (blind_numberValue number 0).bind fun value => ?_
    dsimp only [bareTaken]
    rw [labelText?_bare]
    split
    · exact (blind_report_bare node rfl).bind fun _ => .pure rfl
    · refine .pure ?_
      cases anchor with
      | none => rfl
      | some noteRest => exact congrArg some (by rw [Node.location_bare]; rfl)

theorem blind_tupletDisplay
    (bracket : YesNo) (display : NumberDisplay) (children : List Node) :
    Blind (tupletDisplay bracket display children)
      (tupletDisplay bracket display (children.map Node.bare)) := by
  induction children generalizing bracket display with
  | nil => exact .pure rfl
  | cons child rest induction =>
      rw [List.map_cons, tupletDisplay, tupletDisplay, Node.kind?_bare]
      split
      · rw [Node.text_bare]
        split
        · exact induction .no display
        · exact (blind_reportMisplaced child).bind fun _ => induction _ _
      · refine .ofProperty (induction bracket display) fun value => ?_
        exact (blind_yesNoValue value).bind fun _ => induction _ _
      · refine .ofProperty (induction bracket display) fun value => ?_
        dsimp only
        rw [Node.text_bare]
        split
        · exact induction _ _
        · exact (blind_reportMisplaced value).bind fun _ => induction _ _
      · exact (blind_reportMisplaced child).bind fun _ => induction _ _

theorem blind_tupletNumber (children : List Node) :
    BlindRest (tupletNumber children)
      (tupletNumber (children.map Node.bare)) := by
  rw [tupletNumber, tupletNumber, take?_bare]
  rcases take? .number children with ⟨_ | node, rest⟩
  · exact .pure rfl
  · exact (blind_numberValue node 0).bind fun _ =>
      blind_context.bind fun _ => .pure rfl

theorem blind_tupletCounts (node : Node) (children : List Node) :
    BlindRest (tupletCounts node children)
      (tupletCounts node.bare (children.map Node.bare)) := by
  rw [tupletCounts, tupletCounts, take?_bare]
  rcases take? .number children with ⟨_ | actualNode, rest⟩
  · exact (blind_report_bare node rfl).bind fun _ => .pure rfl
  · refine (blind_countValue actualNode 0).bind fun actual => ?_
    have counted : ∀ (normal : Nat) (rest : List Node), BlindRest
        (if normal = 0 then do
          report node.location .missingNormalNotes
          return (none, rest)
        else return (some (actual, normal), rest))
        (if normal = 0 then do
          report node.bare.location .missingNormalNotes
          return (none, rest.map Node.bare)
        else return (some (actual, normal), rest.map Node.bare)) := by
      intro normal rest
      split
      · exact (blind_report_bare node rfl).bind fun _ => .pure rfl
      · exact .pure rfl
    dsimp only [bareTaken]
    rw [take?_bare]
    rcases take? .number rest with ⟨_ | normalNode, rest⟩
    · exact counted _ rest
    · exact (blind_countValue normalNode 0).bind fun normal =>
        counted normal rest

theorem blind_analyseTuplet (node : Node) (anchor : Option Handle) :
    BlindUpTo (Option.map TupletPoint.bare) (analyseTuplet node anchor)
      (analyseTuplet node.bare anchor) := by
  rw [analyseTuplet, analyseTuplet, Node.children_bare]
  refine blind_context.bind fun initial => ?_
  refine (blind_tupletNumber node.children).bind fun result => ?_
  rcases result with ⟨number, rest⟩
  dsimp only [Prod.map, id]
  rw [labelText?_bare]
  split
  · rw [← List.map_tail]
    refine (blind_tupletCounts node rest.tail).bind fun result => ?_
    rcases result with ⟨_ | ⟨actual, normal⟩, rest⟩
    · exact .pure rfl
    · refine (blind_tupletDisplay _ _ rest).bind fun display => ?_
      refine (blind_modifyContext _).bind fun _ => .pure ?_
      cases anchor with
      | none => rfl
      | some noteRest => exact congrArg some (by rw [Node.location_bare]; rfl)
  · refine .pure ?_
    cases anchor with
    | none => rfl
    | some noteRest => exact congrArg some (by rw [Node.location_bare]; rfl)
  · exact (blind_report_bare node rfl).bind fun _ => .pure rfl

theorem blind_analyseTimeModification (node : Node) :
    Blind (analyseTimeModification node)
      (analyseTimeModification node.bare) := by
  rw [analyseTimeModification, analyseTimeModification, Node.children_bare]
  refine (blind_mandatory node .number node.children).bind fun result => ?_
  rcases result with ⟨_ | topNode, rest⟩
  · exact .pure rfl
  · refine (blind_countValue topNode 1).bind fun top => ?_
    refine (blind_mandatory node .number rest).bind fun result => ?_
    rcases result with ⟨_ | bottomNode, others⟩
    · exact .pure rfl
    · refine (blind_countValue bottomNode 1).bind fun bottom => ?_
      exact (blind_reportExtra node others).bind fun _ => .pure rfl

/-! ## Reading the children -/

/-- What the options of a note or rest ask for, without locations. -/
def Decorations.bare (decorations : Decorations) : Decorations where
  tie := decorations.tie.map TiePoint.bare
  slur := decorations.slur.map SlurPoint.bare
  beam := decorations.beam.map BeamPoint.bare
  tuplet := decorations.tuplet.map TupletPoint.bare
  timeModification := decorations.timeModification
  legacyTie := decorations.legacyTie.map Node.bare
  legacyBeam := decorations.legacyBeam.map Node.bare
  legacyTuplet := decorations.legacyTuplet.map Node.bare

/-- A step that returns what options ask for, and the children that are left. -/
abbrev BlindOptions
    (action without : Analyser (Decorations × List Node)) : Prop :=
  BlindUpTo (Prod.map Decorations.bare (List.map Node.bare)) action without

theorem blind_pitchValue (label : Node) :
    Blind (pitchValue label) (pitchValue label.bare) := by
  rw [pitchValue, pitchValue, Node.text_bare]
  split
  · exact .pure rfl
  · split
    · exact .pure rfl
    · exact (blind_report_bare label rfl).bind fun _ => .pure rfl

theorem blind_readPitch (flavor : Flavor) (node : Node) (children : List Node) :
    BlindRest (readPitch flavor node children)
      (readPitch flavor node.bare (children.map Node.bare)) := by
  unfold readPitch
  split
  · exact .pure rfl
  · refine (blind_mandatory node .label children).bind fun result => ?_
    rcases result with ⟨_ | label, rest⟩
    · exact .pure rfl
    · exact (blind_pitchValue label).bind fun _ => .pure rfl

theorem blind_readNoteValue (node : Node) (children : List Node) :
    BlindRest (readNoteValue node children)
      (readNoteValue node.bare (children.map Node.bare)) := by
  refine (blind_mandatory node .label children).bind fun result => ?_
  rcases result with ⟨_ | label, rest⟩
  · exact .pure rfl
  · exact (blind_noteValue label).bind fun _ => .pure rfl

theorem blind_abbreviations
    (flavor : Flavor) (decorations : Decorations) (children : List Node) :
    BlindOptions (abbreviations flavor decorations children)
      (abbreviations flavor decorations.bare (children.map Node.bare)) := by
  induction children generalizing decorations with
  | nil => exact .pure rfl
  | cons label rest induction =>
      rw [List.map_cons, abbreviations, abbreviations, Node.is_bare,
        Node.text_bare]
      split
      · split
        · split
          · exact (blind_reportMisplaced label).bind fun _ =>
              induction decorations
          · exact induction { decorations with legacyTie := some label }
        · exact induction { decorations with legacyBeam := some label }
        · exact induction { decorations with legacyTuplet := some label }
        · exact (blind_voiceLabel label).bind fun _ => induction decorations
        · exact (blind_staffLabel label).bind fun _ => induction decorations
        · exact (blind_reportMisplaced label).bind fun _ =>
            induction decorations
      · exact .pure rfl

theorem blind_stemValue (property : Node) :
    Blind (stemValue property) (stemValue property.bare) := by
  refine .ofProperty (.pure rfl) fun value => ?_
  dsimp only
  rw [Node.text_bare]
  split
  · exact .pure rfl
  · exact .pure rfl
  · exact (blind_report_bare value rfl).bind fun _ => .pure rfl

theorem blind_stemProperty (note : Handle) (property : Node) :
    Blind (stemProperty note property) (stemProperty note property.bare) :=
  (blind_stemValue property).bind fun _ => blind_modifyModel _

/-- A later descriptor takes the place of an earlier one. -/
theorem map_orElse
    {Point : Type} (strip : Point → Point) (later earlier : Option Point) :
    (later <|> earlier).map strip = (later.map strip <|> earlier.map strip) := by
  cases later <;> rfl

theorem blind_noteOptions
    (note : Handle) (decorations : Decorations) (children : List Node) :
    BlindOptions (noteOptions note decorations children)
      (noteOptions note decorations.bare (children.map Node.bare)) := by
  induction children generalizing decorations with
  | nil => exact .pure rfl
  | cons child rest induction =>
      rw [List.map_cons, noteOptions, noteOptions, Node.kind?_bare]
      split
      · refine (blind_analyseTie child (some note)).bind fun point => ?_
        have later := induction
          { decorations with tie := point <|> decorations.tie }
        rw [Decorations.bare, map_orElse] at later
        exact later
      · refine (blind_analyseSlur child (some note)).bind fun point => ?_
        have later := induction
          { decorations with slur := point <|> decorations.slur }
        rw [Decorations.bare, map_orElse] at later
        exact later
      · exact (blind_stemProperty note child).bind fun _ =>
          induction decorations
      · exact (blind_analyseLyric child (some note)).bind fun _ =>
          induction decorations
      · exact .pure rfl

theorem blind_voiceProperty (noteRest : Handle) (property : Node) :
    Blind (voiceProperty noteRest property)
      (voiceProperty noteRest property.bare) := by
  have voiced : ∀ voice : Int, Blind
      (do
        modifyContext fun context => { context with voice := voice }
        modifyModel fun model => model.modifyNoteRest noteRest fun it =>
          { it with voice := voice })
      (do
        modifyContext fun context => { context with voice := voice }
        modifyModel fun model => model.modifyNoteRest noteRest fun it =>
          { it with voice := voice }) :=
    fun voice => (blind_modifyContext _).bind fun _ => blind_modifyModel _
  refine blind_context.bind fun context => ?_
  refine .ofProperty (voiced _) fun value => ?_
  exact (blind_numberValue value _).bind voiced

theorem blind_noteRestOptions
    (noteRest : Handle) (decorations : Decorations) (children : List Node) :
    BlindOptions (noteRestOptions noteRest decorations children)
      (noteRestOptions noteRest decorations.bare (children.map Node.bare)) := by
  induction children generalizing decorations with
  | nil => exact .pure rfl
  | cons child rest induction =>
      rw [List.map_cons, noteRestOptions, noteRestOptions, Node.kind?_bare]
      split
      · refine (blind_analyseTuplet child (some noteRest)).bind fun point => ?_
        have later := induction
          { decorations with tuplet := point <|> decorations.tuplet }
        rw [Decorations.bare, map_orElse] at later
        exact later
      · refine (blind_analyseTimeModification child).bind fun modification => ?_
        exact induction { decorations with
          timeModification := modification <|> decorations.timeModification }
      · refine (blind_analyseBeam child (some noteRest)).bind fun point => ?_
        have later := induction
          { decorations with beam := point <|> decorations.beam }
        rw [Decorations.bare, map_orElse] at later
        exact later
      · exact (blind_voiceProperty noteRest child).bind fun _ =>
          induction decorations
      · exact .pure rfl

theorem blind_readOptions
    (flavor : Flavor) (noteRest : Handle) (decorations : Decorations)
    (children : List Node) :
    BlindOptions (readOptions flavor noteRest decorations children)
      (readOptions flavor noteRest decorations.bare
        (children.map Node.bare)) := by
  have both : BlindOptions
      (do
        let result ← noteOptions noteRest decorations children
        noteRestOptions noteRest result.1 result.2)
      (do
        let result ← noteOptions noteRest decorations.bare
          (children.map Node.bare)
        noteRestOptions noteRest result.1 result.2) :=
    (blind_noteOptions noteRest decorations children).bind fun result =>
      blind_noteRestOptions noteRest result.1 result.2
  cases flavor with
  | rest => exact blind_noteRestOptions noteRest decorations children
  | note => exact both
  | chordNote => exact both

theorem blind_placeInTime
    (noteRest : Handle) (base : Option Handle) (children : List Node) :
    BlindUpTo (List.map Node.bare) (placeInTime noteRest base children)
      (placeInTime noteRest base (children.map Node.bare)) := by
  refine blind_model.bind fun model => ?_
  refine (blind_staffOptions _ children).bind fun result => ?_
  refine blind_context.bind fun context => ?_
  refine blind_model.bind fun model => ?_
  exact (blind_modifyModel _).bind fun _ => .pure rfl

theorem blind_addNoteRest
    (flavor : Flavor) (node : Node) (anchor base : Option Handle) :
    BlindUpTo (Prod.map id (Prod.map id Decorations.bare))
      (addNoteRest flavor node anchor base)
      (addNoteRest flavor node.bare anchor base) := by
  rw [addNoteRest, addNoteRest, Node.children_bare]
  refine (blind_readPitch flavor node node.children).bind fun pitched => ?_
  refine (blind_readNoteValue node pitched.2).bind fun valued => ?_
  refine (blind_addObject node anchor _).bind fun handle => ?_
  refine (blind_abbreviations flavor {} valued.2).bind fun labelled => ?_
  have placed : Blind (placeInVoice handle) (placeInVoice handle) :=
    blind_context.bind fun _ => blind_modifyModel _
  refine placed.bind fun _ => ?_
  refine (blind_readOptions flavor handle labelled.1 labelled.2).bind
    fun options => ?_
  refine (blind_placeInTime handle base options.2).bind fun rest => ?_
  refine (blind_analyseEach (fun kind analyser child known =>
    blind_attachment known child) rest).bind fun _ => .pure rfl

/-! ## Settling the relations -/

theorem blind_settleTies (note : Handle) (decorations : Decorations) :
    Blind (settleTies note decorations)
      (settleTies note decorations.bare) := by
  have legacy : Blind (settleLegacyTie decorations.legacyTie note)
      (settleLegacyTie decorations.bare.legacyTie note) := by
    refine blind_settle fun pending draft => ?_
    have offered := LegacyTie.offer_bare pending.legacyTie note draft
    have isStripped : decorations.bare.legacyTie =
        decorations.legacyTie.map Node.bare := rfl
    rw [isStripped]
    cases decorations.legacyTie with
    | some label =>
        simp only [Option.map_some, LegacyTie.start, Node.location_bare]
        exact congrArg (fun result : Option LegacyTie × Draft =>
          ({ pending.bare with legacyTie := some ⟨note, .nowhere⟩ }, result.2))
          offered
    | none =>
        exact congrArg (fun result : Option LegacyTie × Draft =>
          ({ pending.bare with legacyTie := result.1 }, result.2)) offered
  refine legacy.bind fun _ => ?_
  have isStripped : decorations.bare.tie = decorations.tie.map TiePoint.bare :=
    rfl
  rw [isStripped]
  cases decorations.tie with
  | none => exact .pure rfl
  | some point =>
      refine blind_settle fun pending draft => ?_
      exact congrArg (fun result : List TiePoint × Draft =>
        ({ pending.bare with ties := result.1 }, result.2))
        (Tie.add_bare pending.ties point draft)

theorem blind_applyModification
    (noteRest : Handle) (modification : Option TimeModification) :
    Blind (applyModification noteRest modification)
      (applyModification noteRest modification) := by
  cases modification with
  | none => exact .pure rfl
  | some modification => exact blind_modifyModel _

theorem blind_settleTuplet (point : TupletPoint) :
    Blind (settleTuplet point) (settleTuplet point.bare) :=
  blind_settle fun pending draft =>
    congrArg (fun result : List TupletPoint × Draft =>
      ({ pending.bare with tuplets := result.1 }, result.2))
      (Tuplet.add_bare pending.tuplets point draft)

theorem blind_joinTuplets (noteRest : Handle) (location : Location) :
    Blind (joinTuplets noteRest location) (joinTuplets noteRest .nowhere) :=
  blind_settle fun pending draft =>
    congrArg (fun tuplets => ({ pending.bare with tuplets := tuplets },
      draft.bare)) (Tuplet.join_bare pending.tuplets noteRest location)

theorem blind_openRatio : Blind openRatio openRatio :=
  blind_pending.bind fun pending =>
    .pure (Tuplet.openRatio_bare pending.tuplets).symm

theorem blind_legacyTuplet
    (label : Node) (phase : Phase) (number : Int) (actual normal : Nat)
    (noteRest : Handle) :
    BlindUpTo TupletPoint.bare
      (legacyTuplet label phase number actual normal noteRest)
      (legacyTuplet label.bare phase number actual normal noteRest) := by
  refine blind_context.bind fun context => .pure ?_
  rw [Node.location_bare]
  rfl

theorem blind_settleLegacyTuplet (label : Node) (noteRest : Handle) :
    Blind (settleLegacyTuplet label noteRest)
      (settleLegacyTuplet label.bare noteRest) := by
  unfold settleLegacyTuplet
  rw [Node.text_bare]
  dsimp only
  split
  · refine blind_openRatio.bind fun ratio => ?_
    refine blind_pending.bind fun pending => ?_
    have innermost := Tuplet.innermostOpen?_bare pending.tuplets
    simp only [Pending.bare, innermost]
    refine (blind_legacyTuplet _ _ _ _ _ _).bind fun point => ?_
    exact (blind_settleTuplet point).bind fun _ => .pure rfl
  · split
    · exact (blind_report_bare label rfl).bind fun _ => blind_openRatio
    · refine blind_pending.bind fun pending => ?_
      have isOpen := Tuplet.isOpen_bare pending.tuplets
      simp only [Pending.bare, isOpen]
      split
      · exact (blind_report_bare label rfl).bind fun _ => blind_openRatio
      · refine (blind_legacyTuplet _ _ _ _ _ _).bind fun point => ?_
        exact (blind_settleTuplet point).bind fun _ => blind_openRatio

theorem blind_settleTuplets
    (point : Option TupletPoint) (noteRest : Handle) (node : Node) :
    Blind (settleTuplets point noteRest node)
      (settleTuplets (point.map TupletPoint.bare) noteRest node.bare) := by
  have joined := blind_joinTuplets noteRest node.location
  rw [← node.location_bare] at joined
  cases point with
  | none => exact joined.bind fun _ => blind_openRatio
  | some point =>
      unfold settleTuplets
      dsimp only [Option.map_some, TupletPoint.bare]
      split
      · refine blind_openRatio.bind fun ratio => ?_
        refine (blind_settleTuplet point).bind fun _ => ?_
        exact joined.bind fun _ => .pure rfl
      · refine joined.bind fun _ => ?_
        exact (blind_settleTuplet point).bind fun _ => blind_openRatio

theorem blind_tupletFactor
    (decorations : Decorations) (noteRest : Handle) (node : Node) :
    Blind (tupletFactor decorations noteRest node)
      (tupletFactor decorations.bare noteRest node.bare) := by
  rw [tupletFactor, tupletFactor]
  have isStripped : decorations.bare.legacyTuplet =
      decorations.legacyTuplet.map Node.bare := rfl
  rw [isStripped]
  cases decorations.legacyTuplet with
  | some label => exact blind_settleLegacyTuplet label noteRest
  | none => exact blind_settleTuplets decorations.tuplet noteRest node

theorem blind_joinLegacyBeam (noteRest : Handle) (location : Location) :
    Blind (joinLegacyBeam noteRest location)
      (joinLegacyBeam noteRest .nowhere) := by
  refine blind_settle fun pending draft => ?_
  simp only [Pending.bare, List.map_append]
  rfl

theorem blind_closeLegacyBeam (noteRest : Handle) (location : Location) :
    Blind (closeLegacyBeam noteRest location)
      (closeLegacyBeam noteRest .nowhere) :=
  blind_settle fun pending draft =>
    congrArg (fun result : List BeamPoint × Draft =>
      ({ pending.bare with legacyBeam := result.1 }, result.2))
      (LegacyBeam.close_bare pending.legacyBeam
        ⟨0, BeamLevels.empty, noteRest, location⟩ draft)

theorem blind_settleLegacyBeam
    (decorations : Decorations) (noteRest : Handle) (type : NoteType)
    (node : Node) :
    Blind (settleLegacyBeam decorations noteRest type node)
      (settleLegacyBeam decorations.bare noteRest type node.bare) := by
  have joined : ∀ written : Node,
      Blind (joinLegacyBeam noteRest written.location)
        (joinLegacyBeam noteRest written.bare.location) := by
    intro written
    rw [Node.location_bare]
    exact blind_joinLegacyBeam noteRest written.location
  refine blind_pending.bind fun pending => ?_
  have isOpen : pending.bare.legacyBeam.isEmpty = pending.legacyBeam.isEmpty :=
    List.isEmpty_map
  have isStripped : decorations.bare.legacyBeam =
      decorations.legacyBeam.map Node.bare := rfl
  have isNone : decorations.bare.beam.isNone = decorations.beam.isNone :=
    Option.isNone_map
  rw [isOpen, isStripped, isNone]
  cases decorations.legacyBeam with
  | some label =>
      dsimp only [Option.map_some]
      rw [Node.text_bare]
      split
      · split
        · exact blind_report_bare label rfl
        · split
          · exact (blind_report_bare label rfl).bind fun _ => joined label
          · exact joined label
      · split
        · rw [Node.location_bare]
          exact blind_closeLegacyBeam noteRest label.location
        · exact blind_report_bare label rfl
      · exact blind_report_bare label rfl
  | none =>
      dsimp only [Option.map_none]
      split
      · exact joined node
      · exact .pure rfl

theorem blind_settleBeams
    (decorations : Decorations) (noteRest : Handle) (type : NoteType)
    (node : Node) :
    Blind (settleBeams decorations noteRest type node)
      (settleBeams decorations.bare noteRest type node.bare) := by
  refine (blind_settleLegacyBeam decorations noteRest type node).bind
    fun _ => ?_
  have isStripped : decorations.bare.beam =
      decorations.beam.map BeamPoint.bare := rfl
  rw [isStripped]
  cases decorations.beam with
  | none => exact .pure rfl
  | some point =>
      refine blind_settle fun pending draft => ?_
      exact congrArg (fun result : List BeamPoint × Draft =>
        ({ pending.bare with beams := result.1 }, result.2))
        (Beam.add_bare pending.beams point draft)

theorem blind_settleSlur (decorations : Decorations) :
    Blind (settleSlur decorations) (settleSlur decorations.bare) := by
  rw [settleSlur, settleSlur]
  have isStripped : decorations.bare.slur =
      decorations.slur.map SlurPoint.bare := rfl
  rw [isStripped]
  cases decorations.slur with
  | none => exact .pure rfl
  | some point =>
      refine blind_settle fun pending draft => ?_
      exact congrArg (fun result : List SlurPoint × Draft =>
        ({ pending.bare with slurs := result.1 }, result.2))
        (Slur.add_bare pending.slurs point draft)

theorem blind_settleRelations
    (flavor : Flavor) (node : Node) (noteRest : Handle) (type : NoteType)
    (decorations : Decorations) :
    Blind (settleRelations flavor node noteRest type decorations)
      (settleRelations flavor node.bare noteRest type decorations.bare) := by
  have groups : Blind (settleGroups node noteRest type decorations)
      (settleGroups node.bare noteRest type decorations.bare) := by
    refine (blind_applyModification noteRest _).bind fun _ => ?_
    refine (blind_tupletFactor decorations noteRest node).bind fun _ => ?_
    refine (blind_settleBeams decorations noteRest type node).bind fun _ => ?_
    exact (blind_settleSlur decorations).bind fun _ => .pure rfl
  rw [settleRelations_eq, settleRelations_eq]
  split
  · exact groups
  · exact (blind_settleTies noteRest decorations).bind fun _ => groups

theorem chordOf_bare (base : Handle) (draft : Draft) :
    chordOf base draft.bare =
      ((chordOf base draft).1, (chordOf base draft).2.bare) := by
  unfold chordOf
  rw [Draft.model_bare]
  cases (draft.model.note? base).bind Note.chord <;> rfl

theorem joinChord_bare (base note : Handle) (draft : Draft) :
    joinChord base note draft.bare = (joinChord base note draft).bare := by
  rw [joinChord, joinChord, chordOf_bare]
  rfl

theorem blind_joinOrAdvance
    (base : Option Handle) (noteRest : Handle) (duration : Float) :
    Blind (joinOrAdvance base noteRest duration)
      (joinOrAdvance base noteRest duration) := by
  unfold joinOrAdvance
  split
  · rename_i base
    have joined : ∀ (pending : Pending) (draft : Draft),
        (pending.bare, joinChord base noteRest draft.bare) =
          (pending.bare, (joinChord base noteRest draft).bare) :=
      fun pending draft =>
        congrArg (Prod.mk pending.bare) (joinChord_bare base noteRest draft)
    exact blind_settle joined
  · exact blind_modifyContext _

theorem blind_settleNoteRest
    (flavor : Flavor) (node : Node) (base : Option Handle) (noteRest : Handle)
    (value : NoteValue) (decorations : Decorations) :
    Blind (settleNoteRest flavor node base noteRest value decorations)
      (settleNoteRest flavor node.bare base noteRest value
        decorations.bare) := by
  refine (blind_settleRelations flavor node noteRest value.type
    decorations).bind fun factor => ?_
  refine (blind_joinOrAdvance base noteRest _).bind fun _ => ?_
  split
  · exact blind_modifyContext _
  · exact .pure rfl

/-- A note or rest is the same wherever it is written. -/
theorem blind_analyseNoteRest
    (flavor : Flavor) (node : Node) (anchor : Option Handle) :
    Blind (analyseNoteRest flavor node anchor)
      (analyseNoteRest flavor node.bare anchor) := by
  refine blind_context.bind fun context => ?_
  refine (blind_addNoteRest flavor node anchor _).bind fun result => ?_
  obtain ⟨handle, value, decorations⟩ := result
  exact (blind_settleNoteRest flavor node _ handle value decorations).bind
    fun _ => .pure rfl

end LdpScore.Analyser
