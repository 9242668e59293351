import LdpScore.Proofs.Analysis.Concluding
import LdpScore.Proofs.Invariant.Balance
import LdpScore.Proofs.Invariant.Tree
import LdpScore.Proofs.Score.Lines

/-!
# What is below an object is listed in preorder

However a score is built, as long as no object is moved below itself, all that is below
an object is found in preorder and each object once.  A listing of the score of a text
follows this order, with one line for each object.

That it is one line each is due to versions and the names of options, which have no
line break.  A score gets the text of a version for its own, and an option one of the
known names.  All that the rest of an analysis has to do with them is that it leaves
them as they are, so the models of texts are labelled.
-/

namespace LdpScore

open Text (IsInline isInline_append)

theorem isInline_versionText (version : Nat) : IsInline (versionText version) := by
  have point : IsInline "." := by decide
  simp [versionText, point]

/-- The known options have names without line breaks. -/
theorem OptionType.isInline_of_ofName?
    {name : String} {type : OptionType} (isType : ofName? name = some type) :
    IsInline name := by
  have known : ∀ name ∈ boolOptions ++ longOptions ++ floatOptions, IsInline name := by
    decide
  refine known name ?_
  rw [List.mem_append, List.mem_append]
  unfold ofName? at isType
  split at isType
  · exact .inl (.inl (List.contains_iff_mem.mp ‹_›))
  split at isType
  · exact .inl (.inr (List.contains_iff_mem.mp ‹_›))
  split at isType
  · exact .inr (List.contains_iff_mem.mp ‹_›)
  · cases isType

namespace Model

/-- Only headings have labels. -/
theorem isLabelled_iff_heading? {model : Model} :
    model.IsLabelled ↔ ∀ handle content, model.heading? handle = some content →
      content.IsLabelled := by
  constructor
  · intro isLabelled handle content isHeading
    exact isLabelled handle content (heading?_eq_some_iff.mp isHeading).1
  · intro headings handle content found
    cases isHeading : content.isHeading with
    | true => exact headings handle content (heading?_eq_some_iff.mpr ⟨found, isHeading⟩)
    | false => cases content <;> trivial

theorem IsLabelled.of_heading?
    {before after : Model} (isLabelled : before.IsLabelled)
    (same : after.heading? = before.heading?) : after.IsLabelled := by
  rw [isLabelled_iff_heading?] at isLabelled ⊢
  rwa [same]

theorem IsLabelled.replace
    {model : Model} (isLabelled : model.IsLabelled) (handle : Handle) (content : Content)
    (newLabel : content.IsLabelled) :
    (model.modifyContent handle fun _ => content).IsLabelled := by
  intro other found isFound
  rw [content?_modifyContent] at isFound
  obtain ⟨old, isOld, rfl⟩ := Option.map_eq_some_iff.mp isFound
  split
  · exact newLabel
  · exact isLabelled other old isOld

end Model

namespace Analyser

variable {Value Result : Type} {anchor : Option Handle}

/-- A step after which labels have no line breaks, if they had none before. -/
def Labelling (action : Analyser Value) : Prop :=
  ∀ before, before.draft.model.IsLabelled →
    Ensures action before fun _ after => after.draft.model.IsLabelled

namespace Labelling

theorem of_overlooking {action : Analyser Value} (overlooking : Overlooking action) :
    Labelling action := fun before isLabelled =>
  (overlooking before).mono fun _ _ overlooks =>
    isLabelled.of_heading? overlooks.draft.heading?

theorem pure (value : Value) : Labelling (Pure.pure value) :=
  fun _ isLabelled => isLabelled

theorem map
    {action : Analyser Result} (labelling : Labelling action) (change : Result → Value) :
    Labelling (change <$> action) :=
  labelling

theorem discard {action : Analyser Value} (labelling : Labelling action) :
    Labelling (discard action) :=
  labelling

theorem bind
    {action : Analyser Result} {next : Result → Analyser Value}
    (first : Labelling action) (second : ∀ result, Labelling (next result)) :
    Labelling (action >>= next) := by
  intro before isLabelled
  apply (first before isLabelled).bind
  intro result middle stillLabelled
  exact second result middle stillLabelled

theorem addObject (node : Node) (content : Content) (newLabel : content.IsLabelled) :
    Labelling (addObject node anchor content) := by
  intro before isLabelled handle found isFound
  have content? := before.draft.content?_addObject_eq node.id? node.location anchor content
  have isFound := (content? handle).symm.trans isFound
  split at isFound
  · cases isFound
    exact newLabel
  · exact isLabelled handle found isFound

theorem replace (handle : Handle) (content : Content) (newLabel : content.IsLabelled) :
    Labelling (modifyModel fun model => model.modifyContent handle fun _ => content) :=
  fun _ isLabelled => isLabelled.replace handle content newLabel

theorem analyseEach
    {analyserOf : ElementKind → Option (Node → Analyser Unit)}
    (each : ∀ kind analyser node, analyserOf kind = some analyser →
      Labelling (analyser node))
    (children : List Node) : Labelling (analyseEach analyserOf children) := by
  induction children with
  | nil => exact .pure ()
  | cons child rest induction =>
      rw [Analyser.analyseEach]
      split
      · rename_i analyser isAnalyser
        obtain ⟨kind, _, known⟩ := Option.bind_eq_some_iff.mp isAnalyser
        exact (each kind analyser child known).bind fun _ => induction
      · exact (of_overlooking (overlooking_reportMisplaced child)).bind
          fun _ => induction

theorem optional
    {analyser : Node → Analyser Unit} (each : ∀ child, Labelling (analyser child))
    (child : Option Node) : Labelling (analyseOptional analyser child) := by
  cases child with
  | none => exact .pure ()
  | some child => exact each child

end Labelling

theorem labelling_analyseOption (node : Node) : Labelling (analyseOption node anchor) := by
  intro before isLabelled
  rw [analyseOption]
  apply (readsOption_readOption node before).bind
  intro result middle reads
  have stillLabelled : middle.draft.model.IsLabelled := reads.model ▸ isLabelled
  cases result with
  | none => exact stillLabelled
  | some option =>
      obtain ⟨name, value⟩ := option
      have newLabel : (Content.scoreOption name value).IsLabelled :=
        OptionType.isInline_of_ofName?
          (Node.isTypedOption_of_declared? reads.result.symm).type
      refine Ensures.readModel ?_
      split
      · exact ((Labelling.replace _ _ newLabel).bind fun _ => .pure _) middle stillLabelled
      · exact ((Labelling.addObject node _ newLabel).bind fun _ => .pure _) middle
          stillLabelled

theorem labelling_leadingOptions (score : Handle) (children : List Node) :
    Labelling (leadingOptions score children) := by
  induction children with
  | nil => exact .pure _
  | cons child rest induction =>
      rw [leadingOptions]
      split
      · exact (labelling_analyseOption child).discard.bind fun _ => induction
      · exact .pure _

theorem labelling_scoreHead (node : Node) (score : Handle) :
    Labelling (scoreHead node score) := by
  have overlooked : ∀ {Value : Type} {action : Analyser Value}, Overlooking action →
      Labelling action := fun overlooking => .of_overlooking overlooking
  rw [scoreHead]
  refine (overlooked (overlooking_mandatory _ _ _)).bind fun result => ?_
  refine (Labelling.optional
    (fun child => overlooked (overlooking_analyseVersion child)) _).bind fun _ => ?_
  refine (overlooked overlooking_context).bind fun context => ?_
  refine (Labelling.replace score (.score _ _) (isInline_versionText _)).bind
    fun _ => ?_
  refine (overlooked (overlooking_leadingTitles _ _)).bind fun rest => ?_
  refine (Labelling.optional
    (fun cursor => overlooked (overlooking_report _ rfl)) _).bind fun _ => ?_
  exact labelling_leadingOptions score _

theorem labelling_analyseInstrument (node : Node) :
    Labelling (analyseInstrument node anchor) := fun before isLabelled =>
  (sings_analyseInstrument node before).mono fun _ _ sung =>
    isLabelled.of_heading? sung.1.headings

theorem labelling_analyseScore (node : Node) : Labelling (analyseScore node anchor) := by
  have started : Labelling (modifyContext fun context =>
      { context with version := Context.defaultVersion }) :=
    .of_overlooking (overlooking_modifyContext fun _ => rfl)
  refine started.bind fun _ => ?_
  refine (Labelling.addObject node (.score "" none) List.not_mem_nil).bind
    fun score => ?_
  refine (labelling_scoreHead node score).bind fun rest => ?_
  refine (Labelling.of_overlooking (overlooking_requireInstrument node rest)).bind
    fun _ => ?_
  refine (Labelling.analyseEach (fun kind analyser child known => ?_) rest).bind
    fun _ => .pure score
  unfold instrumentAnalyser? at known
  split at known <;> cases known
  exact (labelling_analyseInstrument child).discard

theorem labelling_analyseContent (node : Node) :
    Labelling (analyseContent node anchor) := by
  refine (Labelling.addObject node .body trivial).bind fun handle => ?_
  refine (Labelling.analyseEach (fun kind analyser child known => ?_) _).bind
    fun _ => .pure handle
  unfold blockAnalyser? at known
  split at known <;> cases known
  · exact (labelling_analyseScore child).discard
  · exact (Labelling.of_overlooking (overlooking_analyseParagraph child)).discard
  · exact (Labelling.of_overlooking (overlooking_analyseHeading child)).discard
  · exact (Labelling.of_overlooking (overlooking_analyseTextItem child)).discard

theorem labelling_analyseDocument (node : Node) :
    Labelling (analyseDocument node anchor) := by
  rw [analyseDocument]
  refine (Labelling.of_overlooking (overlooking_mandatory _ _ _)).bind fun result => ?_
  rcases result with ⟨_ | version, rest⟩
  · exact .pure none
  refine (Labelling.addObject node (.document _ _) trivial).bind fun handle => ?_
  refine (Labelling.of_overlooking (overlooking_mandatory _ _ _)).bind fun result => ?_
  refine (Labelling.optional
    (fun content => (labelling_analyseContent content).discard) _).bind fun _ => ?_
  exact (Labelling.of_overlooking (overlooking_reportExtra _ _)).bind fun _ => .pure _

/-- Whatever a whole tree is, the labels of its model have no line breaks. -/
theorem isLabelled_analyseNode (node : Node) :
    Ensures (analyseNode node none) {} fun _ after => after.draft.model.IsLabelled := by
  have nothing : ({} : Model).IsLabelled := fun handle content found => by
    rw [Model.content?, Model.get?] at found
    cases found
  have formal : ∀ {action : Analyser Analysed}, Labelling action →
      Ensures action {} fun _ after => after.draft.model.IsLabelled :=
    fun labelling => labelling {} nothing
  by_cases isFormal : ∀ kind ∈ Node.formal, node.kind? ≠ some kind
  · refine (isFragment_analyseNode isFormal).mono fun _ after isFragment => ?_
    refine Model.isLabelled_iff_heading?.mpr fun handle content isHeading => ?_
    cases (isFragment.noHeading handle).symm.trans isHeading
  · simp only [not_forall, ne_eq, not_not] at isFormal
    obtain ⟨kind, listed, isKind⟩ := isFormal
    simp only [Node.formal, List.mem_cons, List.not_mem_nil, or_false] at listed
    rw [analyseNode, isKind]
    rcases listed with rfl | rfl | rfl | rfl | rfl
    · exact formal ((labelling_analyseDocument node).map _)
    · exact formal ((labelling_analyseContent node).map _)
    · exact formal ((labelling_analyseScore node).map _)
    · exact formal ((labelling_analyseInstrument node).map _)
    · exact formal ((labelling_analyseOption node).map _)

theorem isLabelled_analyse (root : Node) : (analyse root).1.IsLabelled := by
  have ensures : Ensures (analyseRoot root) {} fun _ last =>
      last.draft.model.IsLabelled := by
    apply (ends_analyseRoot (isLabelled_analyseNode root)).mono
    rintro _ last ⟨_, middle, isLabelled, ends⟩
    exact isLabelled.of_heading? ends.heading?
  exact ensures

end Analyser

/-! ## Listings -/

open Relation (ReflTransGen)

/--
Scores that are built by adding objects and moving them stand in trees, unless an object
is moved below itself.  So do the scores of texts, and these are listed with one line
for the root and one for each object below it, in preorder and indented by their level.
-/
theorem listsTrees :
    (∀ model : Model, model.IsBuilt → model.StandsInTrees) ∧
      ∀ (source file : String) (model : Model),
        (analyseSource source file).result = .ok model →
          model.StandsInTrees ∧ model.IsListing model.listing := by
  constructor
  · exact fun model isBuilt => isBuilt.isWoven.standsInTrees
  · intro source file model accepted
    obtain ⟨text, _, isModel, _⟩ := exists_tree_of_accepted accepted
    obtain ⟨tops, arranged, _⟩ := exists_arranged_analyse text
    have isLabelled := Analyser.isLabelled_analyse text
    have inside := (coherent_analyse text).closed.root
    rw [isModel] at arranged isLabelled inside
    exact ⟨arranged.isWoven.standsInTrees, arranged.isWoven.isListing isLabelled inside⟩

/-- An object moves to another parent together with its child, and a small score is
listed in four lines. -/
theorem listsTrees_moved_and_score :
    (∃ model : Model, model.IsBuilt ∧ model.StandsInTrees ∧
      model.descendants 0 = [] ∧ model.descendants 1 = [2, 3]) ∧
    ∃ model : Model,
      (analyseSource "(score (vers 2.0) (instrument (musicData (n c4 q.))))"
        "").result = .ok model ∧
      model.listing = "score#0 2.0\n    instrument#1\n        music-data#2\n" ++
        "            note#3 C4 None q. @0\n" ∧
      model.StandsInTrees ∧ model.IsListing model.listing := by
  constructor
  · -- The third object gets a child, is put below the first, and then below the second.
    let objects : Model :=
      ((({} : Model).add 0 .musicData).add 1 .musicData).add 2 .musicData |>.add 3
        .systemBreak
    let nested := objects.appendChild 2 3
    let placed := nested.appendChild 0 2
    let moved := placed.appendChild 1 2
    have noWay : ∀ {model : Model} {child parent : Handle}, child ≠ parent →
        model.children child = [] → ¬ ReflTransGen model.HasChild child parent := by
      intro model child parent other noChild reaches
      rcases reaches.cases_head with same | ⟨below, isChild, _⟩
      · exact other same
      · rw [Model.HasChild, noChild] at isChild
        cases isChild
    have noWayDown : ∀ {model : Model} {parent : Handle}, 2 ≠ parent → 3 ≠ parent →
        model.children 2 = [3] → model.children 3 = [] →
          ¬ ReflTransGen model.HasChild 2 parent := by
      intro model parent notSecond notThird ofSecond ofThird reaches
      rcases reaches.cases_head with same | ⟨below, isChild, reaches⟩
      · exact notSecond same
      · rw [Model.HasChild, ofSecond, List.mem_singleton] at isChild
        exact noWay notThird ofThird (isChild ▸ reaches)
    have nestedBuilt : nested.IsBuilt :=
      .appendChild (.add (.add (.add (.add .empty _ _) _ _) _ _) _ _) (by decide)
        (by decide) (noWay (by decide) (by decide +kernel))
    have placedBuilt : placed.IsBuilt :=
      .appendChild nestedBuilt (by decide +kernel) (by decide +kernel)
        (noWayDown (by decide) (by decide) (by decide +kernel) (by decide +kernel))
    have movedBuilt : moved.IsBuilt :=
      .appendChild placedBuilt (by decide +kernel) (by decide +kernel)
        (noWayDown (by decide) (by decide) (by decide +kernel) (by decide +kernel))
    exact ⟨moved, movedBuilt, listsTrees.1 moved movedBuilt, by decide +kernel,
      by decide +kernel⟩
  · obtain ⟨model, accepted, isListing⟩ := exists_model_of_any
      (fun model => model.listing ==
        "score#0 2.0\n    instrument#1\n        music-data#2\n" ++
          "            note#3 C4 None q. @0\n")
      (by decide +kernel : (analyseSource
        "(score (vers 2.0) (instrument (musicData (n c4 q.))))"
        "").result.toOption.any _)
    exact ⟨model, accepted, beq_iff_eq.mp isListing, listsTrees.2 _ _ model accepted⟩

end LdpScore
