import LdpScore.Analysis
import LdpScore.Proofs.Analysis.Document

/-!
# The run of a text

Every element of a tree is visited by the analysis of its kind, and what still
waits in the end is given up.  So the model of a text comes about in steps, and
each of its objects comes from a node of the tree or is a relation:
`exists_run_analyse`.
-/

namespace LdpScore

namespace Analyser

variable {Value : Type} {before : Analysis} {anchor : Option Handle}
variable {handle : Handle}

/-! ## Whole trees -/

/-- What is known of the object that an analysis gives, if it gives one. -/
def IsKnown (result : Analysed) (state : Analysis) : Prop :=
  ∀ handle, result = .object handle → state.draft.model.Knows handle

section Results

variable {nodes : List Node}

theorem isKnown_ofOption
    {result : Option Handle} {state : Analysis}
    (known : ∀ handle, result = some handle →
      state.draft.model.Knows handle) :
    IsKnown (.ofOption .object result) state := by
  cases result with
  | none =>
      intro handle impossible
      cases impossible
  | some handle =>
      rintro _ ⟨⟩
      exact known handle rfl

theorem VisitsOne.result
    {action : Analyser Handle} (visits : VisitsOne nodes action before) :
    VisitsWith nodes (.object <$> action) before IsKnown := by
  apply Traces.map visits
  rintro handle after ⟨ready, inside⟩
  refine ⟨ready, ?_⟩
  rintro _ ⟨⟩
  exact Or.inl inside

theorem AddsOne.result
    {action : Analyser Handle} (adds : AddsOne nodes action before)
    (ready : before.Ready) :
    VisitsWith nodes (.object <$> action) before IsKnown :=
  VisitsOne.result (EditsWith.visits adds ready)

theorem AddsAtMostOne.result
    {action : Analyser (Option Handle)}
    (adds : AddsAtMostOne nodes action before) (ready : before.Ready) :
    VisitsWith nodes (.ofOption .object <$> action) before IsKnown := by
  apply Traces.map (EditsWith.visits adds ready)
  rintro result after ⟨readyAfter, anchored⟩
  exact ⟨readyAfter, isKnown_ofOption fun handle isResult =>
    Or.inl (anchored handle isResult)⟩

/-- What only reads gives no object. -/
theorem visits_of_quiet
    {property : Value → Prop} {result : Analyser Value} {wrap : Value → Analysed}
    (quiet : Quiet result property)
    (noObject : ∀ value handle, wrap value ≠ .object handle)
    (ready : before.Ready) :
    VisitsWith nodes (wrap <$> result) before IsKnown := by
  refine Traces.among (Traces.map (.of_quiet quiet
    fun _ _ agrees _ => agrees.ready ready) ?_) (List.nil_sublist _)
  intro value after readyAfter
  exact ⟨readyAfter, fun handle isObject =>
    absurd isObject (noObject value handle)⟩

end Results

/-- An element that stands in music data is visited on its own. -/
theorem visits_staffObject
    {kind : ElementKind} {analyser : Node → Analyser (Option Handle)}
    {node : Node} (known : staffObjectAnalyser? anchor kind = some analyser)
    (isKind : node.is kind) (anchored : before.draft.model.HasAnchor anchor)
    (ready : before.Ready) (idle : before.Idle) :
    VisitsWith node.nodes (.ofOption .object <$> analyser node) before
      IsKnown := by
  have played := plays_staffObject known isKind anchored ready
  apply Traces.map (Traces.weaken played (Visits.of_plays idle))
  rintro result after ⟨_, readyAfter, isKnown⟩
  exact ⟨readyAfter, isKnown_ofOption isKnown⟩

/-- Whatever the kind of an element, its nodes are visited. -/
theorem visits_analyserOf
    {kind : ElementKind} {analyser : Node → Analyser Analysed} {node : Node}
    (known : analyserOf? kind anchor = some analyser) (isKind : node.is kind)
    (anchored : before.draft.model.HasAnchor anchor) (ready : before.Ready)
    (idle : before.Idle) :
    VisitsWith node.nodes (analyser node) before IsKnown := by
  have nothing : ∀ {state : Analysis}, state.Ready →
      VisitsWith node.nodes (Pure.pure .nothing) state IsKnown := by
    intro state ready
    refine Traces.among (.pure ⟨ready, ?_⟩) (List.nil_sublist _)
    intro handle impossible
    cases impossible
  have read : ∀ {action : Analyser Unit}, Reads action →
      VisitsWith node.nodes (do
        action
        return .nothing) before IsKnown :=
    fun reads => .read reads fun _ middle agrees _ =>
      nothing (agrees.ready ready)
  have described : ∀ {Point : Type} {action : Analyser (Option Point)}
      {wrap : Point → Analysed} {property : Option Point → Prop},
      Quiet action property →
        (∀ point handle, wrap point ≠ .object handle) →
          VisitsWith node.nodes (.ofOption wrap <$> action) before IsKnown := by
    intro Point action wrap property quiet noObject
    refine visits_of_quiet quiet ?_ ready
    intro value handle
    cases value with
    | none => exact nofun
    | some point => exact noObject point handle
  unfold analyserOf? at known
  split at known
  case h_27 =>
    split at known
    · cases known
      exact (addsOne_analyseArticulation isKind anchored).result ready
    · obtain ⟨given, isKnown, rfl⟩ := Option.map_eq_some_iff.mp known
      exact visits_staffObject isKnown isKind anchored ready idle
  all_goals cases known
  case h_1 =>
    apply Traces.map (visits_analyseDocument isKind anchored ready)
    rintro result after ⟨readyAfter, anchoredAfter⟩
    exact ⟨readyAfter, isKnown_ofOption fun handle isResult =>
      Or.inl (anchoredAfter handle isResult)⟩
  case h_2 => exact read (reads_analyseVersion node)
  case h_3 => exact nothing ready
  case h_4 => exact (visits_analyseContent isKind anchored ready).result
  case h_5 => exact (addsOne_analyseParagraph isKind anchored).result ready
  case h_6 => exact (addsOne_analyseHeading isKind anchored).result ready
  case h_7 =>
    exact (addsAtMostOne_analyseTextItem isKind anchored).result ready
  case h_8 => exact (visits_analyseScore isKind anchored ready).result
  case h_9 => exact (addsAtMostOne_analyseTitle isKind anchored).result ready
  case h_10 => exact (addsAtMostOne_analyseOption isKind anchored).result ready
  case h_11 => exact nothing ready
  case h_12 => exact (visits_analyseInstrument isKind anchored ready).result
  case h_13 =>
    exact (addsAtMostOne_analyseText isKind (fun _ _ => rfl)
      anchored).result ready
  case h_14 =>
    exact (addsAtMostOne_analyseText isKind (fun _ _ => rfl)
      anchored).result ready
  case h_15 => exact read (reads_analyseStaves node)
  case h_16 =>
    exact (visits_analyseMusicData isKind anchored ready idle).result
  case h_17 => exact described (quiet_analyseTie node anchor) nofun
  case h_18 => exact described (quiet_analyseSlur node anchor) nofun
  case h_19 => exact described (quiet_analyseBeam node anchor) nofun
  case h_20 => exact described (quiet_analyseTuplet node anchor) nofun
  case h_21 => exact described (reads_analyseTimeModification node) nofun
  case h_22 => exact described (reads_analyseColor node) nofun
  case h_23 => exact visits_of_quiet (reads_analyseBezier node) nofun ready
  case h_24 => exact (addsOne_analyseFermata isKind anchored).result ready
  case h_25 =>
    exact (addsAtMostOne_analyseDynamics isKind anchored).result ready
  case h_26 => exact (addsAtMostOne_analyseLyric isKind anchored).result ready

theorem visits_analyseNode
    (node : Node) (anchored : before.draft.model.HasAnchor anchor)
    (ready : before.Ready) (idle : before.Idle) :
    VisitsWith node.nodes (analyseNode node anchor) before IsKnown := by
  rw [analyseNode]
  split
  · rename_i analyser isAnalyser
    obtain ⟨kind, isKind, known⟩ := Option.bind_eq_some_iff.mp isAnalyser
    exact visits_analyserOf known (beq_iff_eq.mpr isKind) anchored ready idle
  · refine .read (reads_report _ (by simp)) fun _ middle agrees _ => ?_
    refine Traces.among (.pure ⟨agrees.ready ready, ?_⟩) (List.nil_sublist _)
    intro handle impossible
    cases impossible

theorem visits_setRoot
    (known : before.draft.model.Knows handle) (ready : before.Ready) :
    VisitsWith [] (modifyModel fun model => model.setRoot handle) before
      fun _ _ => True := by
  have persists := Model.Persists.setRoot before.draft.model handle
  refine ⟨⟨fun scope => ⟨scope, .single fun earlier => ?_⟩, persists,
    .of_amends (.setRoot before handle)⟩, ⟨?_, ?_, ready.chords⟩, trivial⟩
  · exact .root ⟨before, scope, earlier⟩ handle known
  · exact ready.pending.persists persists
  · exact fun last isLast => persists.isNote (ready.lastNote last isLast)

/-- A whole tree is visited, and in the end nothing waits. -/
theorem visits_analyseRoot (root : Node) :
    VisitsWith root.nodes (analyseRoot root) {} fun _ after =>
      after.pending = {} := by
  have idle : Analysis.Idle {} := ⟨rfl, rfl⟩
  have ready : Analysis.Ready {} :=
    Analysis.ready_of_idle idle fun chord members found => by
      rw [Model.content?, Model.get?] at found
      cases found
  rw [analyseRoot]
  rw [← List.append_nil root.nodes]
  refine (visits_analyseNode root (Model.hasAnchor_none _) ready idle).bind
    fun result middle _ facts => ?_
  cases result with
  | object handle =>
      exact (visits_setRoot (facts.2 handle rfl) facts.1).seq
        fun _ _ _ facts => visits_clearPending facts.1
  | _ => exact visits_clearPending facts.1

end Analyser

/-- The stage at which an analysis starts. -/
def Stage.start : Stage :=
  ⟨{}, none, []⟩

/--
Every analysed score comes about in steps from nothing.  Each of its objects that
is no relation comes from a node of the tree, in the order of the tree.
-/
theorem exists_run_analyse (root : Node) :
    ∃ stage, Stage.start.Run stage ∧
      stage.model = (analyse root).1 ∧
      stage.draft.diagnostics = (analyse root).2 ∧
      (stage.origins.filterMap id).Sublist root.nodes := by
  obtain ⟨⟨builds, _, _⟩, _⟩ := Analyser.visits_analyseRoot root
  obtain ⟨scope, origins, listed, run⟩ := builds none
  refine ⟨_, run [], rfl, rfl, ?_⟩
  exact listed

/-- The moment at which an analysis starts. -/
def Moment.start : Moment :=
  ⟨{}, [], .between⟩

/--
Every analysed score comes about from nothing, one note or rest after the other.
They come from nodes of the tree, in the order of the tree.
-/
theorem exists_moments_analyse (root : Node) :
    ∃ last, Moment.start.Run last ∧
      last.focus = .between ∧
      last.state.pending = {} ∧
      last.model = (analyse root).1 ∧
      last.draft.diagnostics = (analyse root).2 ∧
      (last.written.map Written.node).Sublist root.nodes := by
  obtain ⟨⟨_, _, advances⟩, _, nothing⟩ := Analyser.visits_analyseRoot root
  obtain ⟨written, listed, run⟩ := advances
  exact ⟨_, run [], rfl, nothing, rfl, rfl, listed⟩

/-! ## Texts -/

/-- A text that is accepted is that of a tree. -/
theorem exists_tree_of_accepted
    {source file : String} {model : Model}
    (accepted : (analyseSource source file).result = .ok model) :
    ∃ root, (Node.read (Token.lex source file)).result = .ok root ∧
      (analyse root).1 = model ∧
      (analyseSource source file).diagnostics =
        (Node.read (Token.lex source file)).diagnostics ++
          (analyse root).2 := by
  unfold analyseSource at accepted ⊢
  dsimp only at accepted ⊢
  split at accepted
  · cases accepted
  · rename_i root isTree
    cases accepted
    exact ⟨root, isTree, rfl, rfl⟩

/-- What can be checked of the tree of a text. -/
theorem exists_tree_of_any
    {source file : String} (check : Node → Bool)
    (checked :
      (Node.read (Token.lex source file)).result.toOption.any check) :
    ∃ root, (Node.read (Token.lex source file)).result = .ok root ∧
      check root := by
  rcases result : (Node.read (Token.lex source file)).result with error | root
  · rw [result] at checked
    cases checked
  · rw [result] at checked
    exact ⟨root, rfl, checked⟩

/-- What can be checked of the model of a text. -/
theorem exists_model_of_any
    {source file : String} (check : Model → Bool)
    (checked : (analyseSource source file).result.toOption.any check) :
    ∃ model, (analyseSource source file).result = .ok model ∧
      check model := by
  rcases result : (analyseSource source file).result with error | model
  · rw [result] at checked
    cases checked
  · rw [result] at checked
    exact ⟨model, rfl, checked⟩

/-- What can be checked of one relation in the model of a text. -/
theorem exists_relation_of_any
    {source file : String} (relation : Handle) (members : List Handle)
    (checked : (analyseSource source file).result.toOption.any fun model =>
      (model.content? relation).any fun content =>
        content.members?.isSome && content.memberHandles == members) :
    ∃ model content, (analyseSource source file).result = .ok model ∧
      model.content? relation = some content ∧ content.members?.isSome ∧
      content.memberHandles = members := by
  obtain ⟨model, accepted, isRelation⟩ := exists_model_of_any _ checked
  obtain ⟨content, found, facts⟩ := (Option.any_eq_true ..).mp isRelation
  obtain ⟨related, listed⟩ := Bool.and_eq_true_iff.mp facts
  exact ⟨model, content, accepted, found, related, beq_iff_eq.mp listed⟩

end LdpScore
