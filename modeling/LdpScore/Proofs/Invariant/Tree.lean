import LdpScore.Proofs.Analysis.Branching
import LdpScore.Proofs.Analysis.Run

/-!
# The objects of a text form a tree

The element that a text consists of becomes one tree at most, and the top of that tree
becomes the root.  Only a chord has no object in a tree: if the text is one, its notes
have no parent.  Either way parents and children agree, and what stands in the trees
is in the order of creation.
-/

namespace LdpScore

open Analyser
open Model (Arranged)

/-- The tops of the trees that grow when an element is analysed. -/
def Analysed.tops : Analysed → List Handle
  | object handle => [handle]
  | _ => []

theorem Analysed.tops_ofOption (result : Option Handle) :
    (ofOption object result).tops = result.toList := by
  cases result <;> rfl

namespace Analyser

/-- An element becomes at most one tree, unless it is a chord. -/
def GrowsTree (kind : ElementKind) (action : Analyser Analysed) : Prop :=
  Growing none action fun result tops => kind ≠ .chord → tops = result.tops

namespace GrowsTree

variable {Value : Type} {kind : ElementKind}

theorem one
    {action : Analyser Handle} (growing : GrowingOne none action) :
    GrowsTree kind (.object <$> action) :=
  growing.map fun _ _ isTop _ => isTop

theorem atMostOne
    {action : Analyser (Option Handle)} (growing : GrowingAtMostOne none action) :
    GrowsTree kind (.ofOption .object <$> action) :=
  growing.map fun result _ isTop _ =>
    isTop.trans (Analysed.tops_ofOption result).symm

/-- What only reads gives no object. -/
theorem of_quiet
    {action : Analyser Analysed}
    (quiet : Quiet action fun result => result.tops = []) :
    GrowsTree kind action :=
  .of_keeping (.of_quiet quiet) fun _ nothing _ => nothing.symm

theorem ofOption
    {action : Analyser (Option Value)} {property : Option Value → Prop}
    (quiet : Quiet action property) {wrap : Value → Analysed}
    (noObject : ∀ value, (wrap value).tops = []) :
    GrowsTree kind (.ofOption wrap <$> action) := by
  refine of_quiet (quiet.map fun result _ => ?_)
  cases result with
  | none => rfl
  | some value => exact noObject value

theorem nothing
    {action : Analyser Unit} (reads : Reads action) :
    GrowsTree kind (do
      action
      return .nothing) :=
  of_quiet (reads.bind fun _ _ => .pure rfl)

end GrowsTree

/-- Whatever its kind, an element becomes at most one tree, unless it is a chord. -/
theorem growsTree_analyserOf
    {kind : ElementKind} {analyser : Node → Analyser Analysed}
    (known : analyserOf? kind none = some analyser) (node : Node) :
    GrowsTree kind (analyser node) := by
  have noObject : GrowsTree kind (Pure.pure .nothing) := .of_quiet (.pure rfl)
  unfold analyserOf? at known
  split at known
  case h_27 =>
    split at known
    · cases known
      exact .one (growing_analyseArticulation _ node)
    · obtain ⟨given, isKnown, rfl⟩ := Option.map_eq_some_iff.mp known
      refine (growing_staffObject isKnown node).map fun result _ isTop other => ?_
      exact (isTop other).trans (Analysed.tops_ofOption result).symm
  all_goals cases known
  case h_1 => exact .atMostOne (growing_analyseDocument node)
  case h_2 => exact .nothing (reads_analyseVersion node)
  case h_3 => exact noObject
  case h_4 => exact .one (growing_analyseContent node)
  case h_5 => exact .one (growing_analyseParagraph node)
  case h_6 => exact .one (growing_analyseHeading node)
  case h_7 => exact .atMostOne (growing_analyseTextItem node)
  case h_8 => exact .one (growing_analyseScore node)
  case h_9 => exact .atMostOne (growing_analyseTitle node)
  case h_10 =>
    exact .atMostOne ((growing_analyseOption node).mono fun _ _ isTop => isTop rfl)
  case h_11 => exact noObject
  case h_12 => exact .one (growing_analyseInstrument node)
  case h_13 => exact .atMostOne (growing_analyseText node)
  case h_14 => exact .atMostOne (growing_analyseText node)
  case h_15 => exact .nothing (reads_analyseStaves node)
  case h_16 => exact .one (growing_analyseMusicData node)
  case h_17 => exact .ofOption (quiet_analyseTie node none) fun _ => rfl
  case h_18 => exact .ofOption (quiet_analyseSlur node none) fun _ => rfl
  case h_19 => exact .ofOption (quiet_analyseBeam node none) fun _ => rfl
  case h_20 => exact .ofOption (quiet_analyseTuplet node none) fun _ => rfl
  case h_21 => exact .ofOption (reads_analyseTimeModification node) fun _ => rfl
  case h_22 => exact .ofOption (reads_analyseColor node) fun _ => rfl
  case h_23 =>
    exact .of_quiet (Quiet.map (reads_analyseBezier node) fun _ _ => rfl)
  case h_24 => exact .one (growing_analyseFermata node)
  case h_25 => exact .atMostOne (growing_analyseDynamics node)
  case h_26 => exact .atMostOne (growing_analyseLyric node)

theorem growing_analyseNode (node : Node) :
    Growing none (analyseNode node none) fun result tops =>
      ¬ node.is .chord → tops = result.tops := by
  rw [analyseNode]
  split
  · rename_i analyser isAnalyser
    obtain ⟨kind, isKind, known⟩ := Option.bind_eq_some_iff.mp isAnalyser
    refine (growsTree_analyserOf known node).mono fun _ _ isTop other => ?_
    refine isTop fun isChord => other ?_
    rw [Node.is, isKind, isChord]
    rfl
  · exact .read (reads_report _ (by simp)) fun _ => .pure fun _ => rfl

end Analyser

/-- What stands for the whole text does not matter for the trees. -/
theorem Model.Arranged.setRoot
    {tops : List Handle} {model : Model} (arranged : Arranged tops model)
    (root : Handle) :
    Arranged tops (model.setRoot root) :=
  ⟨arranged.forest.congr (fun _ _ => rfl) fun _ _ => rfl, arranged.apart⟩

/-- The objects of an analysed tree stand in trees.  The root is the only top, unless
it is a chord. -/
theorem exists_arranged_analyse (root : Node) :
    ∃ tops, Arranged tops (analyse root).1 ∧
      (¬ root.is .chord → tops = (analyse root).1.root.toList) := by
  have cleared : ∀ {state : Analysis} {tops : List Handle},
      Arranged tops state.draft.model →
      (¬ root.is .chord → tops = state.draft.model.root.toList) →
      Ensures clearPending state fun _ after =>
        ∃ tops, Arranged tops after.draft.model ∧
          (¬ root.is .chord → tops = after.draft.model.root.toList) := by
    intro state tops arranged isTop
    have same := (state.pending.silent_reportAll state.draft).model
    exact ⟨tops, same.symm ▸ arranged, same.symm ▸ isTop⟩
  have ensures : Ensures (analyseRoot root) {} fun _ after =>
      ∃ tops, Arranged tops after.draft.model ∧
        (¬ root.is .chord → tops = after.draft.model.root.toList) := by
    rw [analyseRoot]
    apply Ensures.bind (growing_analyseNode root {} (Model.isAnchor_none _))
    rintro result middle ⟨tops, grows, isTop⟩
    have arranged := grows.arranged rfl
    cases result with
    | object handle => exact cleared (arranged.setRoot handle) isTop
    | _ =>
        refine cleared arranged ?_
        rw [grows.root]
        exact isTop
  exact ensures

/-- The objects of a model form a tree, as far as they come from the elements of a
text. -/
structure Model.FormsTree (model : Model) (text : Node) : Prop where
  /-- An object is among the children of its parent once, and of no other object. -/
  count_children : ∀ parent child, (model.children parent).count child =
    if model.parent? child = some parent then 1 else 0
  older : ∀ parent child, model.parent? child = some parent → parent < child
  /-- Only the root and the relations have no parent. -/
  parentless : ¬ text.is .chord → ∀ handle < model.size,
    (model.parent? handle = none ↔
      model.root = some handle ∨ (model.members? handle).isSome)
  /-- Below the root come all other objects in the order of creation. -/
  descendants : ¬ text.is .chord → ∀ root, model.root = some root →
    model.descendants root = model.handles.filter fun handle =>
      handle != root && (model.members? handle).isNone

/--
For every text that is accepted, the objects of its model form a tree.  The notes of
a chord that is the whole text have no parent, but otherwise only the root and the
relations have none.
-/
theorem formsTree_analyseSource
    (source file : String) {model : Model}
    (accepted : (analyseSource source file).result = .ok model) :
    ∃ text, (Node.read (Token.lex source file)).result = .ok text ∧
      model.FormsTree text := by
  obtain ⟨text, isText, isModel, _⟩ := exists_tree_of_accepted accepted
  obtain ⟨tops, arranged, isTop⟩ := exists_arranged_analyse text
  rw [isModel] at arranged isTop
  refine ⟨text, isText, arranged.count_children,
    fun _ _ => arranged.lt_of_parent?, fun noChord handle inside => ?_,
    fun noChord root isRoot => ?_⟩
  · rw [arranged.parent?_eq_none_iff, isTop noChord, Option.mem_toList,
      Model.isElement_eq_isNone inside, Option.isNone_eq_false_iff]
  · rw [isTop noChord, isRoot] at arranged
    exact arranged.descendants_eq_filter

/-- A tie and a chord come about between the notes of a score. -/
theorem formsTree_score :
    ∃ model text,
      (analyseSource
        ("(score (vers 2.0) (instrument (musicData (n c4 q l) " ++
          "(chord (n c4 q) (n e4 q)))))") "").result = .ok model ∧
      ¬ text.is .chord ∧ model.root = some 0 ∧
      model.descendants 0 = [1, 2, 3, 4, 6] ∧ model.FormsTree text := by
  obtain ⟨model, accepted, shape⟩ := exists_model_of_any
    (fun model => model.root = some 0 ∧ model.descendants 0 = [1, 2, 3, 4, 6])
    (by decide +kernel : (analyseSource
      ("(score (vers 2.0) (instrument (musicData (n c4 q l) " ++
        "(chord (n c4 q) (n e4 q)))))") "").result.toOption.any _)
  obtain ⟨text, isText, formsTree⟩ := formsTree_analyseSource _ _ accepted
  obtain ⟨read, isRead, noChord⟩ := exists_tree_of_any
    (fun text => !text.is .chord)
    (by decide +kernel : (Node.read (Token.lex
      ("(score (vers 2.0) (instrument (musicData (n c4 q l) " ++
        "(chord (n c4 q) (n e4 q)))))") "")).result.toOption.any _)
  cases isText.symm.trans isRead
  obtain ⟨isRoot, below⟩ := of_decide_eq_true shape
  exact ⟨model, text, accepted, by simpa using noChord, isRoot, below, formsTree⟩

end LdpScore
