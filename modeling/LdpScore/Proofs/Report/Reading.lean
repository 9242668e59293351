import LdpScore.Proofs.Report.Step

/-!
# Reports of what only reads

Options, marks and descriptors.  Where an element is read to its end, its analyser
consumes the children; ties, slurs and beams are only read as far as they need.
-/

namespace LdpScore.Analyser

variable {places : Location → Prop}
variable {node : Node} {children : List Node}

/-! ## Colors, curves and print options -/

/-- What is read as a color is a leaf, since elements have no text. -/
theorem isRead_of_color {child : Node} {color : Color}
    (isColor : Color.ofText? child.text.toList = some color) : child.IsRead := by
  cases child with
  | leaf kind text location => exact .leaf kind text location
  | element name id children location => cases isColor

theorem consumes_analyseColor (lies : node.Lies places) :
    Consumes places node.children (analyseColor node) := by
  rw [analyseColor]
  split
  case h_1 color isColor =>
    obtain ⟨child, isFirst, isColor⟩ := Option.bind_eq_some_iff.mp isColor
    rw [List.head?_eq_some_iff] at isFirst
    obtain ⟨rest, isChildren⟩ := isFirst
    rw [isChildren]
    exact .cons (isRead_of_color isColor)
      ((discloses_reportExtra lies rest).bind fun _ => locates_pure _)
  case h_2 => exact discloses_report_bind lies.location _ (.pure trivial trivial)

theorem isClosed_of_coordinate? {kind : ElementKind} {change : Bezier → Float32 → Bezier}
    (known : coordinate? kind = some change) : kind.isClosed = true := by
  unfold coordinate? at known
  split at known
  case h_9 => cases known
  all_goals rfl

theorem consumes_readCoordinates (bezier : Bezier) (lie : Lie places children) :
    Consumes places children (readCoordinates bezier children) := by
  induction children generalizing bezier with
  | nil => exact .pure trivial .nil
  | cons child rest induction =>
      rw [readCoordinates]
      split
      · rename_i setCoordinate isCoordinate
        obtain ⟨kind, isKind, known⟩ := Option.bind_eq_some_iff.mp isCoordinate
        refine .cons (.of_closed (beq_iff_eq.mpr isKind) (isClosed_of_coordinate? known)) ?_
        split
        · rename_i value isFirst
          exact (locates_realValue (lie.first.children.head? isFirst)).bind fun _ =>
            induction _ lie.rest
        · exact induction _ lie.rest
      · exact discloses_report_bind lie.first.location _
          ((induction _ lie.rest).accepting fun _ _ => trivial)

theorem consumes_analyseBezier (lies : node.Lies places) :
    Consumes places node.children (analyseBezier node) :=
  consumes_readCoordinates {} lies.children

theorem locates_displacement (lies : node.Lies places) :
    Locates places (displacement node) := by
  rw [displacement]
  refine (discloses_propertyValue lies .number).bindValue ?_
  rintro (_ | value) liesValue
  · exact locates_pure _
  · exact locates_realValue (liesValue value rfl)

theorem readsFrom_printOptions (appearance : Appearance) (lie : Lie places children) :
    ReadsFrom places children (printOptions appearance children) Prod.snd := by
  induction children generalizing appearance with
  | nil => exact readsFrom_pure rfl lie
  | cons child rest induction =>
      have continues := fun appearance => induction appearance lie.rest
      rw [printOptions]
      split
      case h_1 isVisible =>
        refine .cons (.of_closed (beq_iff_eq.mpr isVisible) rfl) ?_
        refine (discloses_propertyValue lie.first .label).bindValue ?_
        rintro (_ | value) liesValue
        · exact continues _
        · exact (locates_boolValue (liesValue value rfl) true).bind fun _ => continues _
      case h_2 isColor =>
        exact .child ((consumes_analyseColor lie.first).isRead (beq_iff_eq.mpr isColor))
          fun _ _ => continues _
      case h_3 isDx =>
        exact .cons (.of_closed (beq_iff_eq.mpr isDx) rfl)
          ((locates_displacement lie.first).bind fun _ => continues _)
      case h_4 isDy =>
        exact .cons (.of_closed (beq_iff_eq.mpr isDy) rfl)
          ((locates_displacement lie.first).bind fun _ => continues _)
      case h_5 => exact readsFrom_pure rfl lie

theorem locates_staffProperty (lies : node.Lies places) :
    Locates places (staffProperty node) := by
  rw [staffProperty]
  refine (discloses_propertyValue lies .number).bindValue ?_
  rintro (_ | value) liesValue
  · exact locates_modifyContext _
  · dsimp only
    split
    · exact locates_modifyContext _
    · exact (locates_report (liesValue value rfl).location _).bind fun _ =>
        locates_modifyContext _

theorem readsFrom_staffChoice (lie : Lie places children) :
    ReadsFrom places children (staffChoice children) id := by
  rw [staffChoice]
  rcases take?_cases .label children with ⟨label, rest, rfl, isLabel, taken⟩ | notTaken
  · rw [taken]
    refine .cons (.of_closed isLabel rfl) ?_
    have returns : ReadsFrom places rest (pure rest) id := readsFrom_pure rfl lie.rest
    dsimp only
    split
    · exact (locates_staffLabel lie.first).bind fun _ => returns
    · exact (locates_reportMisplaced lie.first).bind fun _ => returns
  · rw [notTaken]
    rcases take?_cases .staffNumber children with
      ⟨property, rest, rfl, isStaff, taken⟩ | noStaff
    · rw [taken]
      exact .cons (.of_closed isStaff rfl)
        ((locates_staffProperty lie.first).bind fun _ => readsFrom_pure rfl lie.rest)
    · rw [noStaff]
      exact readsFrom_pure rfl lie

theorem readsFrom_staffOptions (appearance : Appearance) (lie : Lie places children) :
    ReadsFrom places children (staffOptions appearance children) Prod.snd := by
  rw [staffOptions]
  refine (readsFrom_staffChoice lie).bind fun rest lieRest => ?_
  exact .readContext fun _ => readsFrom_printOptions _ lieRest

theorem consumes_textLocation (appearance : Appearance) (lie : Lie places children) :
    Consumes places children (textLocation appearance children) := by
  induction children generalizing appearance with
  | nil => exact .pure trivial .nil
  | cons child rest induction =>
      have continues := fun appearance => induction appearance lie.rest
      rw [textLocation]
      split
      case h_1 isDx =>
        exact .cons (.of_closed (beq_iff_eq.mpr isDx) rfl)
          ((locates_displacement lie.first).bind fun _ => continues _)
      case h_2 isDy =>
        exact .cons (.of_closed (beq_iff_eq.mpr isDy) rfl)
          ((locates_displacement lie.first).bind fun _ => continues _)
      case h_3 =>
        exact discloses_report_bind lie.first.location _
          ((continues _).accepting fun _ _ => trivial)

/-! ## Marks and texts -/

theorem readsFrom_optionalPlacement (lie : Lie places children) :
    ReadsFrom places children (optionalPlacement children) Prod.snd := by
  rw [optionalPlacement]
  rcases take?_cases .label children with ⟨label, rest, rfl, isLabel, taken⟩ | notTaken
  · rw [taken]
    exact .cons (.of_closed isLabel rfl)
      ((locates_placementValue lie.first .above).bind fun _ => readsFrom_pure rfl lie.rest)
  · rw [notTaken]
    exact readsFrom_pure rfl lie

theorem consumes_addMark (lies : node.Lies places) (anchor : Option Handle)
    (lie : Lie places children) (content : Appearance → Content) :
    Consumes places children (addMark node anchor children content) := by
  rw [addMark]
  refine (readsFrom_printOptions {} lie).consume fun _ _ => ?_
  exact (discloses_reportExtra lies _).bind fun _ => locates_addObject lies anchor _

theorem consumes_analyseArticulation (kind : ElementKind) (lies : node.Lies places)
    (anchor : Option Handle) :
    Consumes places node.children (analyseArticulation kind node anchor) := by
  rw [analyseArticulation]
  exact (readsFrom_optionalPlacement lies.children).consume fun _ lie =>
    consumes_addMark lies anchor lie _

theorem consumes_analyseDynamics (lies : node.Lies places) (anchor : Option Handle) :
    Consumes places node.children (analyseDynamics node anchor) := by
  rw [analyseDynamics]
  refine consumes_mandatory lies rfl lies.children (fun _ _ => locates_pure _) ?_
  intro mark rest _ lie
  dsimp only
  split
  · refine (readsFrom_optionalPlacement lie).consume fun _ lie => ?_
    exact (consumes_addMark lies anchor lie _).bind fun _ => locates_pure _
  · exact discloses_report_bind lies.location _ (locates_pure _)

theorem readsFrom_fermataLabels (lies : node.Lies places) (lie : Lie places children) :
    ReadsFrom places children (fermataLabels node children) fun result => result.2.2 := by
  rw [fermataLabels]
  rcases take?_cases .label children with ⟨label, rest, rfl, isLabel, taken⟩ | notTaken
  · rw [taken]
    refine .cons (.of_closed isLabel rfl) ?_
    have lieRest := lie.rest
    dsimp only
    split
    · exact (readsFrom_optionalPlacement lieRest).bind fun _ lie => readsFrom_pure rfl lie
    · split
      · exact readsFrom_pure rfl lieRest
      · split
        · exact readsFrom_pure rfl lieRest
        · split
          · exact (readsFrom_optionalPlacement lieRest).bind fun _ lie =>
              (locates_report lies.location _).bind fun _ => readsFrom_pure rfl lie
          · exact (locates_report lies.location _).bind fun _ =>
              readsFrom_pure rfl lieRest
  · rw [notTaken]
    exact readsFrom_pure rfl lie

theorem consumes_analyseFermata (lies : node.Lies places) (anchor : Option Handle) :
    Consumes places node.children (analyseFermata node anchor) := by
  rw [analyseFermata]
  exact (readsFrom_fermataLabels lies lies.children).consume fun _ lie =>
    consumes_addMark lies anchor lie _

theorem consumes_analyseText (lies : node.Lies places) (anchor : Option Handle) :
    Consumes places node.children (analyseText node anchor) := by
  rw [analyseText]
  refine consumes_mandatory lies rfl lies.children (fun _ _ => locates_pure _) ?_
  intro text rest _ lie
  refine (consumes_textLocation {} lie).bind fun appearance => ?_
  exact (locates_addObject lies anchor _).bind fun _ => locates_pure _

/-! ## Lyrics -/

theorem leadingStrings_suffix (children : List Node) :
    (leadingStrings children).2 <:+ children := by
  induction children with
  | nil => exact List.suffix_refl _
  | cons child rest induction =>
      rw [leadingStrings]
      split
      · exact induction.trans (List.suffix_cons child rest)
      · exact List.suffix_refl _

theorem readTo_leadingStrings (children : List Node) :
    ReadTo children (leadingStrings children).2 := by
  induction children with
  | nil => exact .refl _
  | cons child rest induction =>
      rw [leadingStrings]
      split
      · rename_i isString
        exact (ReadTo.cons (.of_closed isString rfl)).trans induction
      · exact .refl _

theorem readsFrom_lyricLabel (lie : Lie places children) :
    ReadsFrom places children (lyricLabel children) Prod.snd := by
  rw [lyricLabel]
  rcases take?_cases .label children with ⟨label, rest, rfl, isLabel, taken⟩ | notTaken
  · rw [taken]
    refine .cons (.of_closed isLabel rfl) ?_
    dsimp only
    split
    case h_4 =>
      exact (locates_report lie.first.location _).bind fun _ => readsFrom_pure rfl lie.rest
    all_goals exact readsFrom_pure rfl lie.rest
  · rw [notTaken]
    exact readsFrom_pure rfl lie

theorem readsFrom_lyricOptions (lie : Lie places children) :
    ReadsFrom places children (lyricOptions children) Prod.snd := by
  rw [lyricOptions]
  refine (readsFrom_lyricLabel lie).bind ?_
  rintro ⟨options, rest⟩ (lieRest : Lie places rest)
  dsimp only
  split
  · exact readsFrom_pure rfl lieRest
  · have readTo := readTo_take? .melisma rfl rest
    obtain ⟨_, lieRest⟩ := lies_take? .melisma lieRest
    generalize take? .melisma rest = taken at readTo lieRest ⊢
    obtain ⟨melisma, rest⟩ := taken
    refine .of_readTo readTo ?_
    dsimp only at lieRest ⊢
    rcases take?_cases .label rest with ⟨label, rest, rfl, isLabel, taken⟩ | notTaken
    · rw [taken]
      exact .cons (.of_closed isLabel rfl)
        ((locates_placementValue lieRest.first .below).bind fun _ =>
          readsFrom_pure rfl lieRest.rest)
    · rw [notTaken]
      exact readsFrom_pure rfl lieRest

theorem readsFrom_lyricLine (lie : Lie places children) :
    ReadsFrom places children (lyricLine children) Prod.snd := by
  rw [lyricLine]
  rcases take?_cases .number children with ⟨line, rest, rfl, isLine, taken⟩ | notTaken
  · rw [taken]
    exact .cons (.of_closed isLine rfl)
      ((locates_integerValue lie.first 1).bind fun _ => readsFrom_pure rfl lie.rest)
  · rw [notTaken]
    exact readsFrom_pure rfl lie

theorem locates_choosePlacement (line : Int) (given : Option Placement) :
    Locates places (choosePlacement line given) := by
  cases given with
  | none => exact .readContext fun _ => locates_pure _
  | some placement => exact (locates_modifyContext _).bind fun _ => locates_pure _

theorem consumes_analyseLyric (lies : node.Lies places) (anchor : Option Handle) :
    Consumes places node.children (analyseLyric node anchor) := by
  rw [analyseLyric]
  refine .readModel fun model => ?_
  dsimp only
  refine (readsFrom_lyricLine lies.children).consume ?_
  rintro ⟨line, rest⟩ (lie : Lie places rest)
  refine Consumes.of_readTo (readTo_leadingStrings rest) ?_
  have lieRest := lie.suffix (leadingStrings_suffix rest)
  generalize leadingStrings rest = strings at lieRest ⊢
  obtain ⟨syllables, rest⟩ := strings
  dsimp only
  split
  · exact discloses_report_bind lies.location _ (locates_pure _)
  · refine (readsFrom_lyricOptions lieRest).consume fun options lieRest => ?_
    refine (locates_choosePlacement line _).bind fun placement => ?_
    refine (readsFrom_printOptions {} lieRest).consume fun appearance _ => ?_
    refine (discloses_reportExtra lies _).bind fun _ => ?_
    split
    · exact (locates_addObject lies _ _).bind fun _ => locates_pure _
    · exact locates_replaced lies _ _

/-! ## Descriptors -/

section Descriptors

variable (anchor : Option Handle) {Point : Type} {place : Point → Location}

/-- The descriptor of an element is placed where the element is. -/
theorem places_of_mem_map {make : Handle → Point} (lies : node.Lies places)
    (isPlace : ∀ note, place (make note) = node.location) :
    ∀ point ∈ anchor.map make, places (place point) := by
  intro point isPoint
  obtain ⟨note, _, rfl⟩ := Option.map_eq_some_iff.mp isPoint
  rw [isPlace]
  exact lies.location

/-- An element that gives no descriptor is reported. -/
theorem discloses_rejected (lies : node.Lies places) (problem : Problem)
    {accepted : Option Point → Prop} :
    Discloses places (do report node.location problem; return none)
      (fun result => ∀ point ∈ result, places (place point)) accepted := by
  refine discloses_report_bind lies.location problem (.pure ?_ trivial)
  rintro _ ⟨⟩

/-- The number of a tie or slur; if it is missing that is reported. -/
theorem discloses_curveNumber (lies : node.Lies places) (lie : Lie places children) :
    Discloses places (curveNumber node children) (fun result => Lie places result.2)
      fun result => ∃ number, children = number :: result.2 := by
  rw [curveNumber]
  refine (discloses_mandatory lies .number lie).bind ?_
  rintro ⟨_ | number, rest⟩ ⟨liesNumber, lieRest⟩
  · refine .pure lieRest ?_
    rintro ⟨number, impossible, _⟩
    cases impossible
  · refine (locates_numberValue (liesNumber number rfl) 0).bind fun _ => ?_
    refine .pure lieRest ?_
    rintro ⟨_, ⟨⟩, _, isChildren⟩
    exact ⟨number, isChildren⟩

/-- The curve and the color of a tie or slur are read to their ends. -/
theorem discloses_curveAppearance (lie : Lie places children) :
    Discloses places (curveAppearance children) (fun _ => True) fun _ =>
      (∀ child, (take? .bezier children).1 = some child → child.Sound) ∧
        ∀ child, (take? .color (take? .bezier children).2).1 = some child →
          child.Sound := by
  obtain ⟨liesBezier, lieRest⟩ := lies_take? .bezier lie
  obtain ⟨liesColor, _⟩ := lies_take? .color lieRest
  have nothing : ∀ child, (none : Option Node) = some child → child.Sound := by
    rintro _ ⟨⟩
  have only {node : Node} (sound : node.Sound) :
      ∀ child, some node = some child → child.Sound := by
    rintro _ ⟨⟩
    exact sound
  have colored {color : Node} (lies : color.Lies places) (bezier : Option Bezier) :
      Discloses places (do return (bezier, ← analyseColor color)) (fun _ => True)
        fun _ => color.Sound :=
    Discloses.bind (consumes_analyseColor lies) fun _ _ =>
      .pure trivial Node.sound_of_children
  rw [curveAppearance]
  generalize take? .bezier children = taken at liesBezier liesColor ⊢
  obtain ⟨bezierNode, rest⟩ := taken
  dsimp only at liesBezier liesColor ⊢
  generalize take? .color rest = taken at liesColor ⊢
  obtain ⟨colorNode, others⟩ := taken
  dsimp only at liesColor ⊢
  rcases bezierNode with _ | bezier
  · rcases colorNode with _ | color
    · exact .pure trivial ⟨nothing, nothing⟩
    · exact (colored (liesColor color rfl) none).accepting
        fun _ isSound => ⟨nothing, only isSound⟩
  · refine Discloses.bind ((consumes_analyseBezier (liesBezier bezier rfl)).map _)
      fun _ _ => ?_
    rcases colorNode with _ | color
    · exact .pure trivial
        fun areRead => ⟨only (Node.sound_of_children areRead), nothing⟩
    · exact (colored (liesColor color rfl) _).accepting
        fun _ isSound areRead => ⟨only (Node.sound_of_children areRead), only isSound⟩

theorem exists_label {text : String} (isLabel : labelText? children = some text) :
    ∃ label : Node, label.is .label ∧ children = label :: children.tail := by
  rw [labelText?] at isLabel
  rcases take?_cases .label children with ⟨label, rest, rfl, isKind, _⟩ | notTaken
  · exact ⟨label, isKind, rfl⟩
  · rw [notTaken] at isLabel
    cases isLabel

/-- Of a tie or slur with a number and a label the curve and the color are left; then
there is a descriptor at its location. -/
theorem discloses_curvePoint
    {make : Option Bezier × Option Color → Handle → Point}
    (isPlace : ∀ appearance note, place (make appearance note) = node.location)
    {rest : List Node} {text : String} (lies : node.Lies places) (isCurve : node.isCurve)
    (lie : Lie places rest) (isLabel : labelText? rest = some text) :
    Discloses places (do return anchor.map (make (← curveAppearance rest.tail)))
      (fun result => ∀ point ∈ result, places (place point)) fun _ =>
        (∃ number, node.children = number :: rest) → node.Sound := by
  obtain ⟨label, _, isRest⟩ := exists_label isLabel
  have lieRest : Lie places rest.tail := lie.suffix (List.tail_suffix rest)
  refine (discloses_curveAppearance lieRest).bind fun appearance _ => ?_
  refine .pure (places_of_mem_map anchor lies (isPlace appearance)) ?_
  rintro ⟨bezier, color⟩ ⟨number, isChildren⟩
  rw [isRest] at isChildren
  exact Node.sound_of_curve isCurve isChildren bezier color

theorem discloses_analyseTie (lies : node.Lies places) (isTie : node.is .tie) :
    Discloses places (analyseTie node anchor)
      (fun result => ∀ point ∈ result, places point.location) fun _ => node.Sound := by
  have isCurve : node.isCurve := Bool.or_eq_true_iff.mpr (.inl isTie)
  rw [analyseTie]
  refine (discloses_curveNumber lies lies.children).bind ?_
  rintro ⟨number, rest⟩ (lie : Lie places rest)
  dsimp only
  cases isLabel : labelText? rest with
  | none => exact discloses_rejected lies _
  | some text =>
      split
      · exact discloses_rejected lies _
      · refine discloses_curvePoint anchor (fun _ _ => ?_) lies isCurve lie isLabel
        rfl

theorem discloses_analyseSlur (lies : node.Lies places) (isSlur : node.is .slur) :
    Discloses places (analyseSlur node anchor)
      (fun result => ∀ point ∈ result, places point.location) fun _ => node.Sound := by
  have isCurve : node.isCurve := Bool.or_eq_true_iff.mpr (.inr isSlur)
  rw [analyseSlur]
  refine (discloses_curveNumber lies lies.children).bind ?_
  rintro ⟨number, rest⟩ (lie : Lie places rest)
  dsimp only
  cases isLabel : labelText? rest with
  | none => exact discloses_rejected lies _
  | some text =>
      split
      · exact discloses_rejected lies _
      · refine discloses_curvePoint anchor (fun _ _ => ?_) lies isCurve lie isLabel
        rfl

/-- What follows the label of a beam is not read. -/
theorem discloses_analyseBeam (lies : node.Lies places) :
    Discloses places (analyseBeam node anchor)
      (fun result => ∀ point ∈ result, places point.location) fun _ => True := by
  rw [analyseBeam]
  obtain ⟨liesNumber, _⟩ := lies_take? .number lies.children
  generalize take? .number node.children = taken at liesNumber ⊢
  rcases taken with ⟨_ | number, rest⟩
  · exact discloses_rejected lies _
  · refine (locates_numberValue (liesNumber number rfl) 0).bind fun number => ?_
    split
    · exact discloses_rejected lies _
    · exact .pure (places_of_mem_map anchor lies fun _ => rfl) trivial

/-! ## Tuplets -/

theorem consumes_tupletDisplay
    (bracket : YesNo) (display : NumberDisplay) (lie : Lie places children) :
    Consumes places children (tupletDisplay bracket display children) := by
  induction children generalizing bracket display with
  | nil => exact .pure trivial .nil
  | cons child rest induction =>
      have continues := fun bracket display => induction bracket display lie.rest
      rw [tupletDisplay]
      split
      case h_1 isLabel =>
        refine .cons (.of_closed (beq_iff_eq.mpr isLabel) rfl) ?_
        split
        · exact continues _ _
        · exact (locates_reportMisplaced lie.first).bind fun _ => continues _ _
      case h_2 isBracket =>
        refine .cons (.of_closed (beq_iff_eq.mpr isBracket) rfl) ?_
        refine (discloses_propertyValue lie.first .label).bindValue ?_
        rintro (_ | value) liesValue
        · exact continues _ _
        · exact (locates_yesNoValue (liesValue value rfl)).bind fun _ => continues _ _
      case h_3 isNumber =>
        refine .cons (.of_closed (beq_iff_eq.mpr isNumber) rfl) ?_
        refine (discloses_propertyValue lie.first .label).bindValue ?_
        rintro (_ | value) liesValue
        · exact continues _ _
        · dsimp only
          split
          · exact continues _ _
          · exact (locates_reportMisplaced (liesValue value rfl)).bind fun _ =>
              continues _ _
      case h_4 =>
        exact discloses_report_bind lie.first.location _
          ((continues _ _).accepting fun _ _ => trivial)

/-- The number of a tuplet is taken off its children, whatever it counts for. -/
theorem discloses_tupletNumber (lie : Lie places children) :
    Discloses places (tupletNumber children)
      (fun result => result.2 = (take? .number children).2) fun _ =>
        ReadTo children (take? .number children).2 := by
  rw [tupletNumber]
  rcases take?_cases .number children with ⟨number, rest, rfl, isNumber, taken⟩ | notTaken
  · rw [taken]
    refine (locates_numberValue lie.first 0).bind fun _ => .readContext fun _ => ?_
    exact .pure rfl (.cons (.of_closed isNumber rfl))
  · rw [notTaken]
    exact .pure rfl (.refl children)

/-- The counts of a tuplet; if there are none that is reported. -/
theorem discloses_tupletCounts (lies : node.Lies places) (lie : Lie places children) :
    Discloses places (tupletCounts node children) (fun result => Lie places result.2)
      fun result => result.1.isSome ∧ ReadTo children result.2 := by
  rw [tupletCounts]
  rcases take?_cases .number children with ⟨actual, rest, rfl, isActual, taken⟩ | notTaken
  · rw [taken]
    refine (locates_countValue lie.first 0).bind fun actual => ?_
    have ending : ∀ (normal : Nat) {rest others : List Node}, Lie places others →
        ReadTo rest others → Discloses places (do
          if normal = 0 then
            report node.location .missingNormalNotes
            return (none, others)
          else return (some (actual, normal), others))
          (fun result => Lie places result.2)
          fun result => result.1.isSome ∧ ReadTo rest result.2 := by
      intro normal rest others lieOthers readTo
      split
      · exact discloses_report_bind lies.location _ (.pure lieOthers trivial)
      · exact .pure lieOthers ⟨rfl, readTo⟩
    have isRead := Node.IsRead.of_closed isActual rfl
    have lieRest := lie.rest
    dsimp only
    rcases take?_cases .number rest with ⟨normal, others, rfl, isNormal, taken⟩ | notTaken
    · rw [taken]
      refine (locates_countValue lieRest.first 0).bind fun normal => ?_
      refine ending normal lieRest.rest ?_
      exact (ReadTo.cons isRead).trans (.cons (.of_closed isNormal rfl))
    · rw [notTaken]
      exact ending _ lieRest (.cons isRead)
  · rw [notTaken]
    exact discloses_report_bind lies.location _ (.pure lie trivial)

theorem discloses_analyseTuplet (lies : node.Lies places) (isTuplet : node.is .tuplet) :
    Discloses places (analyseTuplet node anchor)
      (fun result => ∀ point ∈ result, places point.location) fun _ => node.Sound := by
  have lie : Lie places (take? .number node.children).2 := (lies_take? .number lies.children).2
  rw [analyseTuplet]
  refine .readContext fun initial => ?_
  refine (discloses_tupletNumber lies.children).bind ?_
  rintro ⟨number, rest⟩ (same : rest = _)
  rw [← same] at lie ⊢
  dsimp only
  split
  case h_1 isStart =>
    obtain ⟨label, isLabel, isRest⟩ := exists_label isStart
    have lieRest : Lie places rest.tail := lie.suffix (List.tail_suffix rest)
    refine (discloses_tupletCounts lies lieRest).bind ?_
    rintro ⟨_ | ⟨actual, normal⟩, others⟩ (lieOthers : Lie places others)
    · refine .pure ?_ ?_
      · rintro _ ⟨⟩
      · rintro ⟨impossible, _⟩
        cases impossible
    · refine Discloses.bind (consumes_tupletDisplay _ _ lieOthers) ?_
      rintro ⟨bracket, display⟩ _
      refine (locates_modifyContext _).bind fun _ => ?_
      refine .pure (places_of_mem_map anchor lies fun _ => rfl) ?_
      rintro areRead ⟨_, readTo⟩ readRest
      refine Node.sound_of_children (readRest ?_)
      rw [isRest]
      exact .cons (.of_closed isLabel rfl) (readTo areRead)
  case h_2 isStop =>
    refine .pure (places_of_mem_map anchor lies fun _ => rfl) fun _ => ?_
    refine Node.sound_of_not_handsOn ?_ ?_
    · rw [Node.readsOn, Node.endsTuplet, ← same, isStop, isTuplet]
      simp
    · rw [Node.isCurve_of_is isTuplet]
      rfl
  case h_3 => exact discloses_rejected lies _

theorem consumes_analyseTimeModification (lies : node.Lies places) :
    Consumes places node.children (analyseTimeModification node) := by
  rw [analyseTimeModification]
  refine consumes_mandatory lies rfl lies.children (fun _ _ => locates_pure _) ?_
  intro top rest liesTop lie
  refine (locates_countValue liesTop 1).bind fun top => ?_
  refine consumes_mandatory lies rfl lie (fun _ _ => locates_pure _) ?_
  intro bottom rest liesBottom _
  refine (locates_countValue liesBottom 1).bind fun bottom => ?_
  exact (discloses_reportExtra lies rest).bind fun _ => locates_pure _

end Descriptors

end LdpScore.Analyser
