import LdpScore.Grammar
import LdpScore.Proofs.Analysis.Unheeding

/-!
# Misplaced children do not disturb their siblings

Music data, the content of a document, a paragraph and a curve take children of some
kinds, any number of them in any order.  Each child is analysed in turn, and one of
any other kind is reported where it stands.  Since no analysis heeds what was
reported before, all that follows goes on as if the child were not there.
-/

namespace LdpScore

/-! ## Elements that take any number of children -/

/-- The kinds that an element takes, if it takes any number of children of these
kinds in any order and nothing else. -/
def Grammar.mixture? (kind : ElementKind) : Option (List ElementKind) :=
  match Option.map Entry.slots <| entry? kind with
  | some [⟨_, .oneOf kinds, .zeroOrMore⟩] => some kinds
  | _ => none

theorem Grammar.mixture?_eq (kind : ElementKind) :
    mixture? kind = match kind with
      | .musicData => some ElementKind.musicDataContent
      | .content => some ElementKind.blocks
      | .paragraph => some [.string, .textItem]
      | .bezier =>
          some [.startX, .startY, .endX, .endY, .ctrol1X, .ctrol1Y, .ctrol2X, .ctrol2Y]
      | _ => none := by
  cases kind <;> rfl

/-! ## One report more -/

/-- Two outcomes of an analysis that are the same but for one report: the second one
has it right after some early reports. -/
structure AddsOneReport
    {Value : Type} (diagnostic : Diagnostic) (early : Array Diagnostic)
    (without among : Value × Analysis) : Prop where
  value : among.1 = without.1
  model : among.2.draft.model = without.2.draft.model
  ids : among.2.draft.ids = without.2.draft.ids
  context : among.2.context = without.2.context
  pending : among.2.pending = without.2.pending
  diagnostics : ∃ later,
    without.2.draft.diagnostics = early ++ later ∧
      among.2.draft.diagnostics = early.push diagnostic ++ later

namespace AddsOneReport

variable {Value Result : Type} {diagnostic : Diagnostic} {early : Array Diagnostic}

theorem report (value : Value) (state : Analysis) (child : Node) :
    AddsOneReport ⟨.misplaced child.describe, child.location⟩ state.draft.diagnostics
      (value, state)
      (value, ((Analyser.reportMisplaced child).run state).run.2) where
  value := rfl
  model := rfl
  ids := rfl
  context := rfl
  pending := rfl
  diagnostics := ⟨#[], by simp, by simp [Analyser.reportMisplaced, Analyser.report, Draft.report]⟩

/-- Whatever does not heed reports goes on in the same way. -/
theorem follow
    {next : Value → Analyser Result}
    (unheeding : ∀ value, Analyser.Unheeding (next value))
    {without among : Value × Analysis}
    (adds : AddsOneReport diagnostic early without among) :
    AddsOneReport diagnostic early
      ((next without.1).run without.2).run ((next among.1).run among.2).run := by
  obtain ⟨_, ⟨⟨_, _, _⟩, _, _⟩⟩ := without
  obtain ⟨value, ⟨⟨model, ids, _⟩, context, pending⟩⟩ := among
  obtain ⟨rfl, rfl, rfl, rfl, rfl, later, rfl, rfl⟩ := adds
  -- the state that both are in, if it were not for the reports before
  let state : Analysis := ⟨⟨model, ids, later⟩, context, pending⟩
  have without := unheeding value state early
  have among := unheeding value state (early.push diagnostic)
  change AddsOneReport diagnostic early
    ((next value).run (state.precededBy early)).run
    ((next value).run (state.precededBy (early.push diagnostic))).run
  rw [without, among]
  exact ⟨rfl, rfl, rfl, rfl, rfl, _, rfl, rfl⟩

end AddsOneReport

namespace Analyser

/-! ## Sweeps -/

/-- An analyser goes over children one by one and reports those that are not of
certain kinds.  What it has read so far is handed on from child to child. -/
structure IsSweep
    {Value : Type} (kinds : List ElementKind)
    (sweep : Value → List Node → Analyser Value) : Prop where
  append (value : Value) (front back : List Node) :
    sweep value (front ++ back) = sweep value front >>= fun value => sweep value back
  misplaced (value : Value) (child : Node) (rest : List Node) :
    (∀ kind ∈ child.kind?, kind ∉ kinds) →
      sweep value (child :: rest) = do
        reportMisplaced child
        sweep value rest
  unheeding (value : Value) (children : List Node) : Unheeding (sweep value children)

variable {Value Result : Type} {kinds : List ElementKind}

theorem isSweep_analyseEach
    {analyserOf : ElementKind → Option (Node → Analyser Unit)}
    (known : ∀ kind, kind ∉ kinds → analyserOf kind = none)
    (each : ∀ kind analyser node, analyserOf kind = some analyser →
      Unheeding (analyser node)) :
    IsSweep kinds fun _ => analyseEach analyserOf where
  append := by
    intro value front back
    induction front with
    | nil => simp [analyseEach]
    | cons child rest induction =>
        simp only [List.cons_append, analyseEach]
        split <;> simp [induction]
  misplaced := by
    intro value child rest misplaced
    have unknown : child.kind?.bind analyserOf = none :=
      Option.bind_eq_none_iff.mpr fun kind isKind => known kind (misplaced kind isKind)
    rw [analyseEach, unknown]
  unheeding := fun _ children => spreads_unheeding.analyseEach each children

theorem isSweep_readCoordinates
    (known : ∀ kind, kind ∉ kinds → coordinate? kind = none) :
    IsSweep kinds readCoordinates where
  append := by
    intro bezier front back
    induction front generalizing bezier with
    | nil => simp [readCoordinates]
    | cons child rest induction =>
        simp only [List.cons_append, readCoordinates]
        split
        · cases child.children.head? <;> simp [induction]
        · simp [induction]
  misplaced := by
    intro bezier child rest misplaced
    have unknown : child.kind?.bind coordinate? = none :=
      Option.bind_eq_none_iff.mpr fun kind isKind => known kind (misplaced kind isKind)
    rw [readCoordinates, unknown]
  unheeding := fun bezier children => (isPlain_readCoordinates bezier children).unheeding

/-- A misplaced child among those that are swept adds one report, after those of the
children before it. -/
theorem IsSweep.insert
    {sweep : Value → List Node → Analyser Value} (isSweep : IsSweep kinds sweep)
    {child : Node} (misplaced : ∀ kind ∈ child.kind?, kind ∉ kinds)
    (value : Value) (front back : List Node) (state : Analysis) :
    AddsOneReport ⟨.misplaced child.describe, child.location⟩
      ((sweep value front).run state).run.2.draft.diagnostics
      ((sweep value (front ++ back)).run state).run
      ((sweep value (front ++ child :: back)).run state).run := by
  rw [isSweep.append, isSweep.append]
  simp only [isSweep.misplaced _ _ _ misplaced]
  exact (AddsOneReport.report _ _ child).follow
    fun value => isSweep.unheeding value back

/-! ## The elements themselves -/

variable {anchor : Option Handle} {child : Node}

theorem isSweep_musicData (handle : Handle) :
    IsSweep ElementKind.musicDataContent fun (_ : Unit) => analyseEach fun kind =>
      (staffObjectAnalyser? (some handle) kind).map fun analyser node =>
        discard (analyser node) := by
  refine isSweep_analyseEach ?_ ?_
  · intro kind misplaced
    cases kind <;> first | rfl | simp [ElementKind.musicDataContent] at misplaced
  · intro kind analyser node known
    obtain ⟨reading, isReading, rfl⟩ := Option.map_eq_some_iff.mp known
    exact spreads_unheeding.map (spreads_unheeding.staffObject isReading node) _

theorem isSweep_content (handle : Handle) :
    IsSweep ElementKind.blocks fun (_ : Unit) => analyseEach (blockAnalyser? handle) := by
  refine isSweep_analyseEach ?_ fun _ _ node known => spreads_unheeding.block known node
  intro kind misplaced
  cases kind <;> first | rfl | simp [ElementKind.blocks] at misplaced

theorem isSweep_paragraph (handle : Handle) :
    IsSweep [.string, .textItem] fun (_ : Unit) =>
      analyseEach (inlineAnalyser? handle) := by
  refine isSweep_analyseEach ?_ fun _ _ node known => (isPlain_inline known node).unheeding
  intro kind misplaced
  cases kind <;> first | rfl | simp at misplaced

theorem isSweep_bezier :
    IsSweep [.startX, .startY, .endX, .endY, .ctrol1X, .ctrol1Y, .ctrol2X, .ctrol2Y]
      readCoordinates := by
  refine isSweep_readCoordinates fun kind misplaced => ?_
  cases kind <;> first | rfl | simp at misplaced

/-- An element that takes any number of children is analysed in a sweep over them. -/
theorem exists_sweep
    {name : String} {kind : ElementKind} (named : ElementKind.ofName? name = some kind)
    (mixture : Grammar.mixture? kind = some kinds)
    (id : Option Int) (location : Location) (anchor : Option Handle) :
    ∃ (Start Value : Type) (start : Analyser Start) (initial : Value)
      (sweep : Start → Value → List Node → Analyser Value)
      (result : Start → Value → Analysed),
      (∀ start, IsSweep kinds (sweep start)) ∧
        ∀ children, analyseNode (.element name id children location) anchor = do
          let start ← start
          let value ← sweep start initial children
          return result start value := by
  let parent (children : List Node) := Node.element name id children location
  have analysed : ∀ {analyser}, analyserOf? kind anchor = some analyser →
      ∀ children, analyseNode (parent children) anchor = analyser (parent children) := by
    intro analyser known children
    have isAnalyser : (parent children).kind?.bind (fun kind => analyserOf? kind anchor) =
        some analyser := Option.bind_eq_some_iff.mpr ⟨kind, named, known⟩
    rw [analyseNode, isAnalyser]
  rw [Grammar.mixture?_eq] at mixture
  split at mixture <;> cases mixture
  case h_1 =>
    refine ⟨_, _, addObject (parent []) anchor .musicData, (), _,
      fun handle _ => .object handle, isSweep_musicData, fun children => ?_⟩
    rw [analysed rfl, analyseMusicData]
    simp only [map_bind, map_pure]
    rfl
  case h_2 =>
    refine ⟨_, _, addObject (parent []) anchor .body, (), _,
      fun handle _ => .object handle, isSweep_content, fun children => ?_⟩
    rw [analysed rfl, analyseContent]
    simp only [map_bind, map_pure]
    rfl
  case h_3 =>
    refine ⟨_, _, addObject (parent []) anchor .paragraph, (), _,
      fun handle _ => .object handle, isSweep_paragraph, fun children => ?_⟩
    rw [analysed rfl, analyseParagraph]
    simp only [map_bind, map_pure]
    rfl
  case h_4 =>
    refine ⟨Unit, _, pure (), {}, _, fun _ => .bezier, fun _ => isSweep_bezier,
      fun children => ?_⟩
    rw [analysed rfl, analyseBezier, pure_bind, map_eq_pure_bind]
    rfl

/-- Wherever a misplaced child stands among the children of an element that takes any
number of them, the analysis of the element gives the same model and leaves the same
context and the same open relations.  There is one report more, between those of the
children before it and those of the children after it.  So it is at every state of an
analysis, and for a whole tree. -/
theorem addsOneReport_of_misplaced
    {name : String} {kind : ElementKind} (named : ElementKind.ofName? name = some kind)
    (mixture : Grammar.mixture? kind = some kinds)
    (misplaced : ∀ kind ∈ child.kind?, kind ∉ kinds)
    (id : Option Int) (location : Location) (front back : List Node) :
    let parent children := Node.element name id children location
    let outcome children anchor before :=
      ((analyseNode (parent children) anchor).run before).run
    (∀ anchor before,
      AddsOneReport ⟨.misplaced child.describe, child.location⟩
        (outcome front anchor before).2.draft.diagnostics
        (outcome (front ++ back) anchor before)
        (outcome (front ++ child :: back) anchor before)) ∧
      AddsOneReport ⟨.misplaced child.describe, child.location⟩
        (outcome front none {}).2.draft.diagnostics
        ((analyseRoot (parent (front ++ back))).run {}).run
        ((analyseRoot (parent (front ++ child :: back))).run {}).run := by
  intro parent outcome
  have anywhere : ∀ anchor before,
      AddsOneReport ⟨.misplaced child.describe, child.location⟩
        (outcome front anchor before).2.draft.diagnostics
        (outcome (front ++ back) anchor before)
        (outcome (front ++ child :: back) anchor before) := by
    intro anchor before
    obtain ⟨Start, Value, start, initial, sweep, result, isSweep, analysed⟩ :=
      exists_sweep named mixture id location anchor
    simp only [outcome, parent, analysed]
    let started := (start.run before).run
    exact ((isSweep started.1).insert misplaced initial front back started.2).follow
      fun value => unheeding_pure (result started.1 value)
  -- what remains to be done after the analysis of the root
  obtain ⟨next, isNext, unheeding⟩ : ∃ next : Analysed → Analyser Unit,
      (∀ root, analyseRoot root = analyseNode root none >>= next) ∧
        ∀ result, Unheeding (next result) := by
    refine ⟨_, fun _ => rfl, fun result => ?_⟩
    cases result
    case object handle =>
      exact (IsPlain.modifyModel _).unheeding.bind fun _ => unheeding_clearPending
    all_goals exact unheeding_clearPending
  refine ⟨anywhere, ?_⟩
  rw [isNext, isNext]
  exact (anywhere none {}).follow unheeding

/-- A title between two notes of a beam is reported, and the beam is there all the
same. -/
theorem addsOneReport_title_in_beam :
    let place line : Location := ⟨"", 0, 0, line, 0⟩
    let label text line := Node.leaf .label text (place line)
    let note pitch sign line := Node.element "n" none
      [label pitch line, label "e" line, label sign line] (place line)
    let title := Node.element "title" none [] (place 2)
    let music children := Node.element "musicData" none children (place 0)
    let first := note "c4" "g+" 1
    let second := note "d4" "g-" 3
    AddsOneReport ⟨.misplaced "title", title.location⟩
      ((analyseNode (music [first]) none).run {}).run.2.draft.diagnostics
      ((analyseRoot (music [first, second])).run {}).run
      ((analyseRoot (music [first, title, second])).run {}).run ∧
    ((analyseRoot (music [first, title, second])).run {}).run.2.draft.diagnostics =
      #[⟨.misplaced "title", title.location⟩] := by
  intro place label note title music first second
  have named : ElementKind.ofName? "musicData" = some .musicData := by decide
  have mixture : Grammar.mixture? .musicData = some ElementKind.musicDataContent := rfl
  have misplaced : ∀ kind ∈ title.kind?, kind ∉ ElementKind.musicDataContent := by
    rintro kind ⟨⟩
    decide
  have described : title.describe = "title" := by decide
  have adds := (addsOneReport_of_misplaced named mixture misplaced none (place 0)
    [first] [second]).2
  refine ⟨?_, by decide +kernel⟩
  simpa only [described, music, List.cons_append, List.nil_append] using adds

end Analyser

end LdpScore
