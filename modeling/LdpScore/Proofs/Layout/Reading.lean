import LdpScore.Proofs.Layout.Bare

/-!
# Reading is blind to locations

What an element says is read from names and values.  A step is `Blind` if it does
the same on nodes and states without locations, and returns the same.  Steps that
are blind can be put together, and everything that reads an element is such a step.
-/

namespace LdpScore.Analyser

variable {Value Result : Type}

/-- On a state without locations, `without` does what `action` does, and what it
returns is the same after `strip`, which takes its locations away. -/
def BlindUpTo
    (strip : Value → Value) (action without : Analyser Value) : Prop :=
  ∀ state : Analysis, (without.run state.bare).run =
    (strip (action.run state).run.1, (action.run state).run.2.bare)

/-- A step that returns nothing with locations. -/
abbrev Blind (action without : Analyser Value) : Prop :=
  BlindUpTo id action without

/-- A step that also returns the children that are left. -/
abbrev BlindRest (action without : Analyser (Value × List Node)) : Prop :=
  BlindUpTo (Prod.map id (List.map Node.bare)) action without

namespace BlindUpTo

variable {strip : Value → Value} {between : Result → Result}

theorem pure {value stripped : Value} (isStripped : strip value = stripped) :
    BlindUpTo strip (Pure.pure value) (Pure.pure stripped) := by
  subst isStripped
  exact fun _ => rfl

theorem bind
    {action without : Analyser Result} {next next' : Result → Analyser Value}
    (first : BlindUpTo between action without)
    (second : ∀ result, BlindUpTo strip (next result) (next' (between result))) :
    BlindUpTo strip (action >>= next) (without >>= next') := by
  intro state
  have later := second (action.run state).run.1 (action.run state).run.2
  refine Eq.trans ?_ later
  exact congrArg (fun result => ((next' result.1).run result.2).run) (first state)

theorem map
    {action without : Analyser Result} {change : Result → Value}
    (first : BlindUpTo between action without)
    (fits : ∀ result, change (between result) = strip (change result)) :
    BlindUpTo strip (change <$> action) (change <$> without) := by
  intro state
  refine Eq.trans (congrArg (fun result => (change result.1, result.2))
    (first state)) ?_
  exact congrArg (·, _) (fits _)

/-- What is returned does not matter if it is thrown away. -/
theorem discard
    {action without : Analyser Value} (first : BlindUpTo strip action without) :
    Blind (discard action) (discard without) :=
  first.map fun _ => rfl

end BlindUpTo

/-! ## Elementary steps -/

theorem blind_context : Blind context context :=
  fun _ => rfl

theorem blind_model : Blind model model :=
  fun _ => rfl

theorem blind_pending : BlindUpTo Pending.bare pending pending :=
  fun _ => rfl

theorem blind_modifyContext (change : Context → Context) :
    Blind (modifyContext change) (modifyContext change) :=
  fun _ => rfl

theorem blind_modifyModel (change : Model → Model) :
    Blind (modifyModel change) (modifyModel change) :=
  fun _ => rfl

theorem blind_settle
    {change change' : Pending → Draft → Pending × Draft}
    (fits : ∀ pending draft, change' pending.bare draft.bare =
      ((change pending draft).1.bare, (change pending draft).2.bare)) :
    Blind (settle change) (settle change') := by
  intro state
  refine congrArg (Prod.mk ()) ?_
  exact congrArg (fun result : Pending × Draft =>
    ({ state.bare with pending := result.1, draft := result.2 } : Analysis))
    (fits state.pending state.draft)

theorem blind_report
    (location : Location) {problem : Problem} (plain : problem.bare = problem) :
    Blind (report location problem) (report .nowhere problem) := by
  intro state
  have reported := state.draft.bare_report location problem
  rw [plain] at reported
  exact congrArg (fun draft => ((), { state.bare with draft := draft }))
    reported.symm

/-- A problem of a node that mentions no line. -/
theorem blind_report_bare
    (node : Node) {problem : Problem} (plain : problem.bare = problem) :
    Blind (report node.location problem) (report node.bare.location problem) := by
  rw [Node.location_bare]
  exact blind_report node.location plain

theorem blind_reportMisplaced (child : Node) :
    Blind (reportMisplaced child) (reportMisplaced child.bare) := by
  rw [reportMisplaced, reportMisplaced, Node.describe_bare]
  exact blind_report_bare child rfl

theorem blind_reportMissing (parent : Node) (kind : ElementKind) :
    Blind (reportMissing parent kind) (reportMissing parent.bare kind) := by
  rw [reportMissing, reportMissing, Node.name_bare]
  exact blind_report_bare parent rfl

theorem blind_reportExtra (node : Node) (rest : List Node) :
    Blind (reportExtra node rest)
      (reportExtra node.bare (rest.map Node.bare)) := by
  cases rest with
  | nil => exact .pure rfl
  | cons extra rest =>
      rw [List.map_cons, reportExtra, reportExtra, Node.name_bare,
        Node.describe_bare]
      exact blind_report_bare node rfl

theorem blind_addObject
    (node : Node) (anchor : Option Handle) (content : Content) :
    Blind (addObject node anchor content)
      (addObject node.bare anchor content) := by
  intro state
  have added := state.draft.addObject_bare node.id? node.location anchor content
  rw [addObject, addObject, Node.id?_bare, Node.location_bare]
  exact congrArg (fun result : Handle × Draft =>
    (result.1, ({ state.bare with draft := result.2 } : Analysis))) added

/-! ## Children -/

/-- A child that was taken, if there was one, and those that are left. -/
def bareTaken (taken : Option Node × List Node) : Option Node × List Node :=
  (taken.1.map Node.bare, taken.2.map Node.bare)

theorem take?_bare (kind : ElementKind) (children : List Node) :
    take? kind (children.map Node.bare) = bareTaken (take? kind children) := by
  cases children with
  | nil => rfl
  | cons first rest =>
      rw [List.map_cons, take?, take?, Node.is_bare]
      split <;> rfl

theorem blind_mandatory
    (parent : Node) (kind : ElementKind) (children : List Node) :
    BlindUpTo bareTaken (mandatory parent kind children)
      (mandatory parent.bare kind (children.map Node.bare)) := by
  rw [mandatory, mandatory, take?_bare]
  rcases take? kind children with ⟨_ | found, rest⟩
  · exact (blind_reportMissing parent kind).bind fun _ => .pure rfl
  · exact .pure rfl

theorem blind_analyseEach
    {analyserOf : ElementKind → Option (Node → Analyser Unit)}
    (each : ∀ kind analyser node, analyserOf kind = some analyser →
      Blind (analyser node) (analyser node.bare))
    (children : List Node) :
    Blind (analyseEach analyserOf children)
      (analyseEach analyserOf (children.map Node.bare)) := by
  induction children with
  | nil => exact .pure rfl
  | cons child rest induction =>
      rw [List.map_cons, analyseEach, analyseEach, Node.kind?_bare]
      split
      · rename_i analyser isAnalyser
        obtain ⟨kind, _, known⟩ := Option.bind_eq_some_iff.mp isAnalyser
        exact (each kind analyser child known).bind fun _ => induction
      · exact (blind_reportMisplaced child).bind fun _ => induction

/-! ## Values of leaves -/

theorem blind_integerValue (node : Node) (default : Int) :
    Blind (integerValue node default) (integerValue node.bare default) := by
  rw [integerValue, integerValue, Node.text_bare]
  split
  · exact .pure rfl
  · exact (blind_report_bare node rfl).bind fun _ => .pure rfl

theorem blind_boundedValue (interval : Interval) (node : Node) (default : Int) :
    Blind (boundedValue interval node default)
      (boundedValue interval node.bare default) := by
  rw [boundedValue, boundedValue, Node.text_bare]
  split
  · exact .pure rfl
  · exact (blind_report_bare node rfl).bind fun _ => .pure rfl

theorem blind_numberValue (node : Node) (default : Int) :
    Blind (numberValue node default) (numberValue node.bare default) :=
  blind_boundedValue signedInterval node default

theorem blind_countValue (node : Node) (default : Nat) :
    Blind (countValue node default) (countValue node.bare default) :=
  (blind_boundedValue countInterval node default).bind fun _ => .pure rfl

theorem blind_realValue (node : Node) :
    Blind (realValue node) (realValue node.bare) := by
  rw [realValue, realValue, Node.text_bare]
  split
  · exact .pure rfl
  · exact (blind_report_bare node rfl).bind fun _ => .pure rfl

theorem blind_boolValue (node : Node) (default : Bool) :
    Blind (boolValue node default) (boolValue node.bare default) := by
  rw [boolValue, boolValue, Node.text_bare]
  split
  · exact .pure rfl
  · exact .pure rfl
  · exact .pure rfl
  · exact .pure rfl
  · exact (blind_report_bare node rfl).bind fun _ => .pure rfl

theorem blind_yesNoValue (node : Node) :
    Blind (yesNoValue node) (yesNoValue node.bare) := by
  rw [yesNoValue, yesNoValue, Node.text_bare]
  split
  · exact .pure rfl
  · exact .pure rfl
  · exact (blind_report_bare node rfl).bind fun _ => .pure rfl

theorem blind_placementValue (node : Node) (fallback : Placement) :
    Blind (placementValue node fallback)
      (placementValue node.bare fallback) := by
  unfold placementValue
  rw [Node.text_bare]
  split
  · exact .pure rfl
  · exact .pure rfl
  · exact (blind_report_bare node rfl).bind fun _ => .pure rfl

theorem blind_noteValue (node : Node) :
    Blind (noteValue node) (noteValue node.bare) := by
  rw [noteValue, noteValue, Node.text_bare]
  split
  · exact .pure rfl
  · exact (blind_report_bare node rfl).bind fun _ => .pure rfl

theorem blind_staffLabel (node : Node) :
    Blind (staffLabel node) (staffLabel node.bare) := by
  unfold staffLabel
  rw [Node.text_bare]
  dsimp only
  split
  · exact blind_modifyContext _
  · exact (blind_report_bare node rfl).bind fun _ => blind_modifyContext _

theorem blind_voiceLabel (node : Node) :
    Blind (voiceLabel node) (voiceLabel node.bare) := by
  unfold voiceLabel
  rw [Node.text_bare]
  dsimp only
  split
  · exact blind_modifyContext _
  · exact (blind_report_bare node rfl).bind fun _ => blind_modifyContext _

theorem blind_propertyValue (property : Node) (kind : ElementKind) :
    BlindUpTo (Option.map Node.bare) (propertyValue property kind)
      (propertyValue property.bare kind) := by
  rw [propertyValue, propertyValue, Node.children_bare, List.head?_map]
  dsimp only
  cases property.children.head? with
  | none => exact (blind_reportMissing property kind).bind fun _ => .pure rfl
  | some value => exact .pure rfl

/-- The value of a property, if it has one. -/
theorem BlindUpTo.ofProperty
    {property : Node} {kind : ElementKind} {strip : Value → Value}
    {next next' : Option Node → Analyser Value}
    (missing : BlindUpTo strip (next none) (next' none))
    (given : ∀ value : Node,
      BlindUpTo strip (next (some value)) (next' (some value.bare))) :
    BlindUpTo strip (propertyValue property kind >>= next)
      (propertyValue property.bare kind >>= next') := by
  refine (blind_propertyValue property kind).bind fun value => ?_
  cases value with
  | none => exact missing
  | some value => exact given value

/-! ## How objects are shown -/

theorem blind_analyseColor (node : Node) :
    Blind (analyseColor node) (analyseColor node.bare) := by
  have sameText : ((node.bare.children.head?).bind fun child =>
      Color.ofText? child.text.toList) =
        (node.children.head?).bind fun child =>
          Color.ofText? child.text.toList := by
    rw [Node.children_bare, List.head?_map]
    cases node.children.head? with
    | none => rfl
    | some child => simp
  rw [analyseColor, analyseColor, sameText]
  split
  · rw [Node.children_bare, ← List.map_tail]
    exact (blind_reportExtra node _).bind fun _ => .pure rfl
  · exact (blind_report_bare node rfl).bind fun _ => .pure rfl

theorem blind_readCoordinates (bezier : Bezier) (children : List Node) :
    Blind (readCoordinates bezier children)
      (readCoordinates bezier (children.map Node.bare)) := by
  induction children generalizing bezier with
  | nil => exact .pure rfl
  | cons child rest induction =>
      rw [List.map_cons, readCoordinates, readCoordinates, Node.kind?_bare]
      split
      · rw [Node.children_bare, List.head?_map]
        cases child.children.head? with
        | none => exact BlindUpTo.bind (.pure rfl) fun _ => induction _
        | some value => exact (blind_realValue value).bind fun _ => induction _
      · exact (blind_reportMisplaced child).bind fun _ => induction bezier

theorem blind_analyseBezier (node : Node) :
    Blind (analyseBezier node) (analyseBezier node.bare) := by
  rw [analyseBezier, analyseBezier, Node.children_bare]
  exact blind_readCoordinates {} node.children

theorem blind_displacement (property : Node) :
    Blind (displacement property) (displacement property.bare) :=
  .ofProperty (.pure rfl) blind_realValue

theorem blind_printOptions (appearance : Appearance) (children : List Node) :
    BlindRest (printOptions appearance children)
      (printOptions appearance (children.map Node.bare)) := by
  induction children generalizing appearance with
  | nil => exact .pure rfl
  | cons child rest induction =>
      rw [List.map_cons, printOptions, printOptions, Node.kind?_bare]
      split
      · refine .ofProperty (induction appearance) fun value => ?_
        exact (blind_boolValue value true).bind fun _ => induction _
      · exact (blind_analyseColor child).bind fun _ => induction _
      · exact (blind_displacement child).bind fun _ => induction _
      · exact (blind_displacement child).bind fun _ => induction _
      · exact .pure rfl

theorem blind_staffProperty (property : Node) :
    Blind (staffProperty property) (staffProperty property.bare) := by
  refine .ofProperty (blind_modifyContext _) fun value => ?_
  dsimp only
  rw [Node.text_bare]
  split
  · exact blind_modifyContext _
  · exact (blind_report_bare value rfl).bind fun _ => blind_modifyContext _

theorem blind_staffChoice (children : List Node) :
    BlindUpTo (List.map Node.bare) (staffChoice children)
      (staffChoice (children.map Node.bare)) := by
  rw [staffChoice, staffChoice, take?_bare, take?_bare]
  rcases take? .label children with ⟨_ | label, rest⟩
  · rcases take? .staffNumber children with ⟨_ | property, rest⟩
    · exact .pure rfl
    · exact (blind_staffProperty property).bind fun _ => .pure rfl
  · dsimp only [bareTaken, Option.map_some]
    rw [Node.text_bare]
    split
    · exact (blind_staffLabel label).bind fun _ => .pure rfl
    · exact (blind_reportMisplaced label).bind fun _ => .pure rfl

theorem blind_staffOptions (appearance : Appearance) (children : List Node) :
    BlindRest (staffOptions appearance children)
      (staffOptions appearance (children.map Node.bare)) :=
  (blind_staffChoice children).bind fun rest =>
    blind_context.bind fun _ => blind_printOptions _ rest

theorem blind_textLocation (appearance : Appearance) (children : List Node) :
    Blind (textLocation appearance children)
      (textLocation appearance (children.map Node.bare)) := by
  induction children generalizing appearance with
  | nil => exact .pure rfl
  | cons child rest induction =>
      rw [List.map_cons, textLocation, textLocation, Node.kind?_bare]
      split
      · exact (blind_displacement child).bind fun _ => induction _
      · exact (blind_displacement child).bind fun _ => induction _
      · exact (blind_reportMisplaced child).bind fun _ => induction _

/-! ## Marks and texts -/

theorem blind_optionalPlacement (children : List Node) :
    BlindRest (optionalPlacement children)
      (optionalPlacement (children.map Node.bare)) := by
  rw [optionalPlacement, optionalPlacement, take?_bare]
  rcases take? .label children with ⟨_ | label, rest⟩
  · exact .pure rfl
  · exact (blind_placementValue label .above).bind fun _ => .pure rfl

theorem blind_addMark
    (node : Node) (anchor : Option Handle) (children : List Node)
    (content : Appearance → Content) :
    Blind (addMark node anchor children content)
      (addMark node.bare anchor (children.map Node.bare) content) :=
  (blind_printOptions {} children).bind fun result =>
    (blind_reportExtra node result.2).bind fun _ =>
      blind_addObject node anchor _

theorem blind_analyseArticulation
    (kind : ElementKind) (node : Node) (anchor : Option Handle) :
    Blind (analyseArticulation kind node anchor)
      (analyseArticulation kind node.bare anchor) := by
  rw [analyseArticulation, analyseArticulation, Node.children_bare]
  exact (blind_optionalPlacement node.children).bind fun result =>
    blind_addMark node anchor result.2 _

theorem blind_analyseDynamics (node : Node) (anchor : Option Handle) :
    Blind (analyseDynamics node anchor) (analyseDynamics node.bare anchor) := by
  rw [analyseDynamics, analyseDynamics, Node.children_bare]
  refine (blind_mandatory node .string node.children).bind fun result => ?_
  rcases result with ⟨_ | mark, rest⟩
  · exact .pure rfl
  · dsimp only [bareTaken, Option.map_some]
    rw [Node.text_bare]
    split
    · refine (blind_optionalPlacement rest).bind fun result => ?_
      exact (blind_addMark node anchor result.2 _).bind fun _ => .pure rfl
    · exact (blind_report_bare node rfl).bind fun _ => .pure rfl

theorem blind_fermataLabels (node : Node) (children : List Node) :
    BlindUpTo (Prod.map id (Prod.map id (List.map Node.bare)))
      (fermataLabels node children)
      (fermataLabels node.bare (children.map Node.bare)) := by
  rw [fermataLabels, fermataLabels, take?_bare]
  rcases take? .label children with ⟨_ | label, rest⟩
  · exact .pure rfl
  · dsimp only [bareTaken, Option.map_some]
    rw [Node.text_bare, take?_bare]
    split
    · exact (blind_optionalPlacement rest).bind fun _ => .pure rfl
    · split
      · exact .pure rfl
      · split
        · exact .pure rfl
        · have another : (bareTaken (take? .label rest)).1.isSome =
              (take? .label rest).1.isSome := Option.isSome_map
          rw [another]
          split
          · refine (blind_optionalPlacement rest).bind fun _ => ?_
            exact (blind_report_bare node rfl).bind fun _ => .pure rfl
          · exact (blind_report_bare node rfl).bind fun _ => .pure rfl

theorem blind_analyseFermata (node : Node) (anchor : Option Handle) :
    Blind (analyseFermata node anchor) (analyseFermata node.bare anchor) := by
  rw [analyseFermata, analyseFermata, Node.children_bare]
  exact (blind_fermataLabels node node.children).bind fun result =>
    blind_addMark node anchor result.2.2 _

theorem blind_analyseText (node : Node) (anchor : Option Handle) :
    Blind (analyseText node anchor) (analyseText node.bare anchor) := by
  rw [analyseText, analyseText, Node.children_bare]
  refine (blind_mandatory node .string node.children).bind fun result => ?_
  rcases result with ⟨_ | text, rest⟩
  · exact .pure rfl
  · dsimp only [bareTaken, Option.map_some]
    rw [Node.text_bare]
    refine (blind_textLocation {} rest).bind fun appearance => ?_
    exact (blind_addObject node anchor _).bind fun _ => .pure rfl

theorem leadingStrings_bare (children : List Node) :
    leadingStrings (children.map Node.bare) =
      Prod.map id (List.map Node.bare) (leadingStrings children) := by
  induction children with
  | nil => rfl
  | cons child rest induction =>
      rw [List.map_cons, leadingStrings, leadingStrings, Node.is_bare,
        Node.text_bare, induction]
      split <;> rfl

theorem blind_lyricLabel (children : List Node) :
    BlindRest (lyricLabel children)
      (lyricLabel (children.map Node.bare)) := by
  rw [lyricLabel, lyricLabel, take?_bare]
  rcases take? .label children with ⟨_ | label, rest⟩
  · exact .pure rfl
  · dsimp only [bareTaken, Option.map_some]
    rw [Node.text_bare]
    split
    · exact .pure rfl
    · exact .pure rfl
    · exact .pure rfl
    · exact (blind_report_bare label rfl).bind fun _ => .pure rfl

theorem blind_lyricOptions (children : List Node) :
    BlindRest (lyricOptions children)
      (lyricOptions (children.map Node.bare)) := by
  refine (blind_lyricLabel children).bind fun result => ?_
  rcases result with ⟨options, rest⟩
  dsimp only [Prod.map, id]
  split
  · exact .pure rfl
  · rw [take?_bare]
    rcases take? .melisma rest with ⟨melisma, rest⟩
    dsimp only [bareTaken]
    rw [Option.isSome_map, take?_bare]
    rcases take? .label rest with ⟨_ | label, rest⟩
    · exact .pure rfl
    · exact (blind_placementValue label .below).bind fun _ => .pure rfl

theorem blind_lyricLine (children : List Node) :
    BlindRest (lyricLine children) (lyricLine (children.map Node.bare)) := by
  rw [lyricLine, lyricLine, take?_bare]
  rcases take? .number children with ⟨_ | label, rest⟩
  · exact .pure rfl
  · exact (blind_integerValue label 1).bind fun _ => .pure rfl

theorem blind_choosePlacement (line : Int) (given : Option Placement) :
    Blind (choosePlacement line given) (choosePlacement line given) := by
  cases given with
  | none => exact blind_context.bind fun _ => .pure rfl
  | some placement => exact (blind_modifyContext _).bind fun _ => .pure rfl

theorem blind_analyseLyric (node : Node) (anchor : Option Handle) :
    Blind (analyseLyric node anchor) (analyseLyric node.bare anchor) := by
  rw [analyseLyric, analyseLyric, Node.children_bare]
  refine blind_model.bind fun current => ?_
  refine (blind_lyricLine node.children).bind fun result => ?_
  rcases result with ⟨line, rest⟩
  dsimp only [Prod.map, id]
  rw [leadingStrings_bare]
  rcases leadingStrings rest with ⟨syllables, rest⟩
  dsimp only [Prod.map, id]
  split
  · exact (blind_report_bare node rfl).bind fun _ => .pure rfl
  · refine (blind_lyricOptions rest).bind fun options => ?_
    refine (blind_choosePlacement line options.1.placement).bind
      fun placement => ?_
    refine (blind_printOptions {} options.2).bind fun shown => ?_
    refine (blind_reportExtra node shown.2).bind fun _ => ?_
    dsimp only [Prod.map, id]
    split
    · exact (blind_addObject node _ _).bind fun _ => .pure rfl
    · exact (blind_report_bare node rfl).bind fun _ => .pure rfl

/-- Whatever is attached to a note or rest. -/
theorem blind_attachment
    {anchor : Handle} {kind : ElementKind} {analyser : Node → Analyser Unit}
    (known : attachmentAnalyser? anchor kind = some analyser) (node : Node) :
    Blind (analyser node) (analyser node.bare) := by
  unfold attachmentAnalyser? at known
  split at known
  · cases known
    exact (blind_analyseFermata node (some anchor)).discard
  · split at known
    · cases known
      exact (blind_analyseDynamics node (some anchor)).discard
    · split at known
      · cases known
        exact (blind_analyseText node (some anchor)).discard
      · split at known <;> cases known
        exact (blind_analyseArticulation kind node (some anchor)).discard

end LdpScore.Analyser
