import LdpScore.Proofs.Analysis.Editing

/-!
# Marks, texts and options

One lemma for every element that becomes at most one object of its own, with
perhaps a few others below it: its analysis edits the score from the nodes of the
element.
-/

namespace LdpScore.Analyser

variable {before : Analysis} {anchor : Option Handle}

/-! ## Marks -/

theorem addsOne_addMark
    (node : Node) (anchored : before.draft.model.HasAnchor anchor)
    (children : List Node) {content : Appearance → Content}
    (plain : ∀ appearance, (content appearance).IsPlain)
    (isFrom : ∀ appearance, (content appearance).isFrom node) :
    AddsOne node.nodes (addMark node anchor children content) before := by
  rw [addMark]
  refine .read (quiet_printOptions _ _) fun result middle agrees _ => ?_
  refine .read (reads_reportExtra _ _) fun _ later agreesToo _ => ?_
  exact addsOne_addObject node (agreesToo.hasAnchor (agrees.hasAnchor anchored))
    (plain _) (isFrom _)

theorem addsOne_analyseArticulation
    {kind : ElementKind} {node : Node} (isKind : node.is kind)
    (anchored : before.draft.model.HasAnchor anchor) :
    AddsOne node.nodes (analyseArticulation kind node anchor) before := by
  rw [analyseArticulation]
  refine .read (reads_optionalPlacement _) fun result middle agrees _ => ?_
  apply addsOne_addMark node (agrees.hasAnchor anchored) _
  · intro appearance
    exact ⟨rfl, rfl⟩
  · intro appearance
    exact Content.isFrom_of_is isKind (beq_self_eq_true kind)

theorem addsAtMostOne_analyseDynamics
    {node : Node} (isKind : node.is .dynamics)
    (anchored : before.draft.model.HasAnchor anchor) :
    AddsAtMostOne node.nodes (analyseDynamics node anchor) before := by
  rw [analyseDynamics]
  refine .read (quiet_mandatory _ _ _) fun result middle agrees _ => ?_
  rcases result with ⟨_ | mark, rest⟩
  · exact Traces.among (.pure (Model.hasAnchor_none _))
      (List.nil_sublist _)
  · dsimp only
    split
    · refine .read (reads_optionalPlacement _) fun result later agreesToo _ => ?_
      refine AddsOne.some (addsOne_addMark node
        (agreesToo.hasAnchor (agrees.hasAnchor anchored)) _ ?_ ?_)
      · intro appearance
        exact ⟨rfl, rfl⟩
      · intro appearance
        exact Content.isFrom_of_is isKind rfl
    · refine .read (reads_report _ (by simp)) fun _ later _ _ => ?_
      exact Traces.among (.pure (Model.hasAnchor_none _))
        (List.nil_sublist _)

theorem addsOne_analyseFermata
    {node : Node} (isKind : node.is .fermata)
    (anchored : before.draft.model.HasAnchor anchor) :
    AddsOne node.nodes (analyseFermata node anchor) before := by
  rw [analyseFermata]
  refine .read (reads_fermataLabels _ _) fun result middle agrees _ => ?_
  apply addsOne_addMark node (agrees.hasAnchor anchored) _
  · intro appearance
    exact ⟨rfl, rfl⟩
  · intro appearance
    exact Content.isFrom_of_is isKind rfl

/-! ## Texts -/

theorem addsAtMostOne_analyseText
    {kind : ElementKind} {node : Node} (isKind : node.is kind)
    (isText : ∀ text appearance,
      (Content.scoreText text appearance).isOf kind)
    (anchored : before.draft.model.HasAnchor anchor) :
    AddsAtMostOne node.nodes (analyseText node anchor) before := by
  rw [analyseText]
  refine .read (quiet_mandatory _ _ _) fun result middle agrees _ => ?_
  rcases result with ⟨_ | text, rest⟩
  · exact Traces.among (.pure (Model.hasAnchor_none _))
      (List.nil_sublist _)
  · refine .read (reads_textLocation _ _) fun appearance later agreesToo _ => ?_
    exact AddsOne.some (addsOne_addObject node
      (agreesToo.hasAnchor (agrees.hasAnchor anchored)) ⟨rfl, rfl⟩
      (Content.isFrom_of_is isKind (isText _ _)))

/-- A lyric is anchored at the note that sings it. -/
theorem addsAtMostOne_analyseLyric
    {node : Node} (isKind : node.is .lyric)
    (anchored : before.draft.model.HasAnchor anchor) :
    AddsAtMostOne node.nodes (analyseLyric node anchor) before := by
  have nothing : ∀ {state : Analysis},
      AddsAtMostOne node.nodes (Pure.pure none) state :=
    Traces.among (.pure (Model.hasAnchor_none _)) (List.nil_sublist _)
  rw [analyseLyric]
  refine .read reads_model fun current first toFirst _ => ?_
  refine .read (reads_lyricLine _) fun result second toSecond _ => ?_
  rcases result with ⟨line, rest⟩
  dsimp only
  split
  · exact .read (reads_report _ (by simp)) fun _ _ _ _ => nothing
  · refine .read (reads_lyricOptions _) fun result third toThird _ => ?_
    refine .read (reads_choosePlacement _ _) fun placement fourth toFourth _ => ?_
    refine .read (quiet_printOptions _ _) fun result fifth toFifth _ => ?_
    refine .read (reads_reportExtra _ _) fun _ last toLast _ => ?_
    have agrees := toFirst.trans (toSecond.trans (toThird.trans
      (toFourth.trans (toFifth.trans toLast))))
    have anchoredNote : last.draft.model.HasAnchor
        (anchor.filter fun handle => (current.note? handle).isSome) := by
      intro handle kept
      have isAnchor := (Option.filter_eq_some_iff.mp kept).1
      exact agrees.hasAnchor anchored handle isAnchor
    generalize anchor.filter
      (fun handle => (current.note? handle).isSome) = note at anchoredNote ⊢
    cases note with
    | none =>
        exact .read (reads_report _ (by simp)) fun _ _ _ _ => nothing
    | some note =>
        exact AddsOne.some (addsOne_addObject node anchoredNote ⟨rfl, rfl⟩
          (Content.isFrom_of_is isKind rfl))

/-! ## What is attached to staff objects -/

theorem edits_attachment
    {handle : Handle} {kind : ElementKind} {analyser : Node → Analyser Unit}
    {node : Node} (known : attachmentAnalyser? handle kind = some analyser)
    (isKind : node.is kind) (inside : handle < before.draft.model.size) :
    EditsFrom node.nodes (analyser node) before := by
  have anchored := Model.hasAnchor_some inside
  unfold attachmentAnalyser? at known
  split at known
  · rename_i isFermata
    cases known
    exact (addsOne_analyseFermata (isFermata ▸ isKind) anchored).discard
  · split at known
    · rename_i isDynamics
      cases known
      exact (addsAtMostOne_analyseDynamics (isDynamics ▸ isKind)
        anchored).discard
    · split at known
      · rename_i isText
        cases known
        exact (addsAtMostOne_analyseText (isText ▸ isKind)
          (fun _ _ => rfl) anchored).discard
      · split at known
        · cases known
          exact (addsOne_analyseArticulation isKind anchored).discard
        · cases known

theorem edits_textAttachment
    {handle : Handle} {kind : ElementKind} {analyser : Node → Analyser Unit}
    {node : Node} (known : textAnalyser? handle kind = some analyser)
    (isKind : node.is kind) (inside : handle < before.draft.model.size) :
    EditsFrom node.nodes (analyser node) before := by
  unfold textAnalyser? at known
  split at known
  · rename_i isText
    cases known
    exact (addsAtMostOne_analyseText (isText ▸ isKind) (fun _ _ => rfl)
      (Model.hasAnchor_some inside)).discard
  · cases known

/-! ## Staff objects -/

/-- A staff object comes from its node, and its texts from some of those below. -/
theorem addsOne_addStaffObject
    (node : Node) (anchored : before.draft.model.HasAnchor anchor)
    {content : Content} (plain : content.IsPlain)
    (isFrom : content.isFrom node) {children : List Node}
    (suffix : children <:+ node.children) :
    AddsOne node.nodes (addStaffObject node anchor content children)
      before :=
  edits_addObject_analyseEach node anchored plain isFrom
    (fun _ _ _ _ _ => edits_textAttachment) suffix id
    fun _ _ inside => inside

theorem addsOne_analyseClef
    {node : Node} (isKind : node.is .clef)
    (anchored : before.draft.model.HasAnchor anchor) :
    AddsOne node.nodes (analyseClef node anchor) before := by
  rw [analyseClef]
  refine .read (quiet_optionalName _ _ (fun _ => by simp) _)
    fun result first toFirst named => ?_
  refine .read (quiet_optionalSize _ _) fun result second toSecond sized => ?_
  refine .read (quiet_staffOptions _ _) fun result third toThird shown => ?_
  refine .read (reads_modifyContext fun _ => rfl) fun _ last toLast _ => ?_
  have agrees := toFirst.trans (toSecond.trans (toThird.trans toLast))
  exact addsOne_addStaffObject node (agrees.hasAnchor anchored) ⟨rfl, rfl⟩
    (Content.isFrom_of_is isKind rfl) (shown.trans (sized.trans named))

theorem addsOne_analyseKey
    {node : Node} (isKind : node.is .key)
    (anchored : before.draft.model.HasAnchor anchor) :
    AddsOne node.nodes (analyseKey node anchor) before := by
  rw [analyseKey]
  refine .read (quiet_optionalName _ _ (fun _ => by simp) _)
    fun result first toFirst named => ?_
  refine .read (quiet_staffOptions _ _) fun result second toSecond shown => ?_
  refine .read (reads_modifyContext fun _ => rfl) fun _ last toLast _ => ?_
  have agrees := toFirst.trans (toSecond.trans toLast)
  exact addsOne_addStaffObject node (agrees.hasAnchor anchored) ⟨rfl, rfl⟩
    (Content.isFrom_of_is isKind rfl) (shown.trans named)

theorem addsOne_analyseTime
    {node : Node} (isKind : node.is .time)
    (anchored : before.draft.model.HasAnchor anchor) :
    AddsOne node.nodes (analyseTime node anchor) before := by
  rw [analyseTime]
  refine .read (quiet_optionalName _ _ (fun _ => by simp) _)
    fun result first toFirst named => ?_
  refine .read (quiet_timeCounts _ _ _) fun result second toSecond counted => ?_
  refine .read (quiet_staffOptions _ _) fun result third toThird shown => ?_
  refine .read (reads_modifyContext fun _ => rfl) fun _ last toLast _ => ?_
  have agrees := toFirst.trans (toSecond.trans (toThird.trans toLast))
  exact addsOne_addStaffObject node (agrees.hasAnchor anchored) ⟨rfl, rfl⟩
    (Content.isFrom_of_is isKind rfl) (shown.trans (counted.trans named))

theorem addsOne_analyseBarline
    {node : Node} (isKind : node.is .barline)
    (anchored : before.draft.model.HasAnchor anchor) :
    AddsOne node.nodes (analyseBarline node anchor) before := by
  rw [analyseBarline]
  refine .read (quiet_optionalName _ _ (fun _ => by simp) _)
    fun result first toFirst named => ?_
  refine .read (quiet_optionalWord _ _) fun result second toSecond worded => ?_
  refine .read (quiet_staffOptions _ _) fun result third toThird shown => ?_
  have agrees := toFirst.trans (toSecond.trans toThird)
  rw [← List.append_nil node.nodes]
  refine (addsOne_addStaffObject node (agrees.hasAnchor anchored) ⟨rfl, rfl⟩
    (Content.isFrom_of_is isKind rfl)
    (shown.trans (worded.trans named))).bind fun handle later _ inside => ?_
  refine .read (reads_modifyContext fun _ => rfl) fun _ last toLast _ => ?_
  exact .pure (toLast.hasAnchor (Model.hasAnchor_some inside) handle rfl)

theorem addsAtMostOne_analyseShift
    (isForward : Bool) {node : Node}
    (isKind : node.is (if isForward then .goForward else .goBack))
    (anchored : before.draft.model.HasAnchor anchor) :
    AddsAtMostOne node.nodes (analyseShift isForward node anchor) before := by
  rw [analyseShift]
  refine .read (reads_readShift _ _) fun result first toFirst _ => ?_
  rcases result with ⟨_ | shift, rest⟩
  · exact Traces.among (.pure (Model.hasAnchor_none _))
      (List.nil_sublist _)
  · refine .read (reads_reportExtra _ _) fun _ second toSecond _ => ?_
    refine .read (reads_modifyContext fun _ => rfl) fun _ last toLast _ => ?_
    have agrees := toFirst.trans (toSecond.trans toLast)
    exact AddsOne.some (addsOne_addObject node (agrees.hasAnchor anchored)
      ⟨rfl, rfl⟩ (Content.isFrom_of_is isKind (beq_self_eq_true _)))

theorem addsAtMostOne_analyseSpacer
    {node : Node} (isKind : node.is .spacer)
    (anchored : before.draft.model.HasAnchor anchor) :
    AddsAtMostOne node.nodes (analyseSpacer node anchor) before := by
  have takes := takes_take? .number node.children
  rw [analyseSpacer]
  generalize take? .number node.children = taken at takes ⊢
  rcases taken with ⟨_ | number, rest⟩
  · refine .read (reads_report _ (by simp)) fun _ _ _ _ => ?_
    exact Traces.among (.pure (Model.hasAnchor_none _))
      (List.nil_sublist _)
  · refine .read (reads_realValue _) fun width first toFirst _ => ?_
    refine .read (quiet_staffOptions _ _) fun result last toLast shown => ?_
    exact edits_addObject_analyseEach node
      ((toFirst.trans toLast).hasAnchor anchored) ⟨rfl, rfl⟩
      (Content.isFrom_of_is isKind rfl)
      (fun _ _ _ _ _ => edits_attachment) (shown.trans takes.suffix) some
      fun _ _ inside => Model.hasAnchor_some inside

theorem addsOne_analyseNewSystem
    {node : Node} (isKind : node.is .newSystem)
    (anchored : before.draft.model.HasAnchor anchor) :
    AddsOne node.nodes (analyseNewSystem node anchor) before := by
  rw [analyseNewSystem]
  refine .read (reads_reportExtra _ _) fun _ middle agrees _ => ?_
  exact addsOne_addObject node (agrees.hasAnchor anchored) ⟨rfl, rfl⟩
    (Content.isFrom_of_is isKind rfl)

theorem addsOne_analyseMetronome
    {node : Node} (isKind : node.is .metronome)
    (anchored : before.draft.model.HasAnchor anchor) :
    AddsOne node.nodes (analyseMetronome node anchor) before := by
  rw [analyseMetronome]
  refine .read (reads_readMetronome _ _) fun result first toFirst _ => ?_
  rcases result with ⟨_ | mark, rest⟩
  · exact addsOne_addObject node (toFirst.hasAnchor anchored) ⟨rfl, rfl⟩
      (Content.isFrom_of_is isKind rfl)
  · refine .read (quiet_optionalWord _ _) fun result second toSecond _ => ?_
    refine addsOne_addMark node
      (toSecond.hasAnchor (toFirst.hasAnchor anchored)) _ ?_ ?_
    · intro appearance
      exact ⟨rfl, rfl⟩
    · intro appearance
      exact Content.isFrom_of_is isKind rfl

/-! ## Texts of a document -/

theorem addsAtMostOne_analyseTextItem
    {node : Node} (isKind : node.is .textItem)
    (anchored : before.draft.model.HasAnchor anchor) :
    AddsAtMostOne node.nodes (analyseTextItem node anchor) before := by
  rw [analyseTextItem]
  refine .read (quiet_mandatory _ _ _) fun result first toFirst _ => ?_
  rcases result with ⟨_ | text, rest⟩
  · exact Traces.among (.pure (Model.hasAnchor_none _))
      (List.nil_sublist _)
  · refine .read (reads_reportExtra _ _) fun _ last toLast _ => ?_
    exact AddsOne.some (addsOne_addObject node
      (toLast.hasAnchor (toFirst.hasAnchor anchored)) ⟨rfl, rfl⟩
      (Content.isFrom_of_is isKind rfl))

theorem edits_inline
    {handle : Handle} {kind : ElementKind} {analyser : Node → Analyser Unit}
    {node : Node} (known : inlineAnalyser? handle kind = some analyser)
    (isKind : node.is kind) (inside : handle < before.draft.model.size) :
    EditsFrom node.nodes (analyser node) before := by
  have anchored := Model.hasAnchor_some inside
  unfold inlineAnalyser? at known
  split at known <;> cases known
  · exact (addsAtMostOne_analyseTextItem isKind anchored).discard
  · exact (addsOne_addObject node anchored ⟨rfl, rfl⟩
      (Content.isFrom_of_is isKind rfl)).discard

theorem addsOne_analyseParagraph
    {node : Node} (isKind : node.is .paragraph)
    (anchored : before.draft.model.HasAnchor anchor) :
    AddsOne node.nodes (analyseParagraph node anchor) before :=
  edits_addObject_analyseEach node anchored ⟨rfl, rfl⟩
    (Content.isFrom_of_is isKind rfl) (fun _ _ _ _ _ => edits_inline)
    (List.suffix_refl _) id fun _ _ inside => inside

theorem addsOne_analyseHeading
    {node : Node} (isKind : node.is .heading)
    (anchored : before.draft.model.HasAnchor anchor) :
    AddsOne node.nodes (analyseHeading node anchor) before := by
  rw [analyseHeading]
  refine .read (quiet_mandatory _ _ _) fun result first toFirst takes => ?_
  refine .read (reads_headingLevel _) fun level last toLast _ => ?_
  exact edits_addObject_analyseEach node
    ((toFirst.trans toLast).hasAnchor anchored) ⟨rfl, rfl⟩
    (Content.isFrom_of_is isKind rfl) (fun _ _ _ _ _ => edits_inline)
    takes.suffix id fun _ _ inside => inside

theorem addsAtMostOne_analyseTitle
    {node : Node} (isKind : node.is .title)
    (anchored : before.draft.model.HasAnchor anchor) :
    AddsAtMostOne node.nodes (analyseTitle node anchor) before := by
  rw [analyseTitle]
  refine .read (reads_optionalAlignment _) fun result first toFirst _ => ?_
  refine .read (quiet_mandatory _ _ _) fun result second toSecond _ => ?_
  rcases result with ⟨_ | text, rest⟩
  · exact Traces.among (.pure (Model.hasAnchor_none _))
      (List.nil_sublist _)
  · refine .read (reads_textLocation _ _) fun appearance last toLast _ => ?_
    have agrees := toFirst.trans (toSecond.trans toLast)
    exact AddsOne.some (addsOne_addObject node (agrees.hasAnchor anchored)
      ⟨rfl, rfl⟩ (Content.isFrom_of_is isKind rfl))

/-! ## Score options -/

/-- The option that a search finds is one. -/
theorem exists_option_of_optionHandle?
    {model : Model} {score option : Handle} {name : String}
    (found : model.optionHandle? score name = some option) :
    ∃ old value, model.content? option = some (.scoreOption old value) := by
  have named := List.find?_some found
  rw [Option.any_eq_true] at named
  obtain ⟨⟨old, value⟩, isOption, _⟩ := named
  obtain ⟨content, isContent, isValue⟩ := Option.bind_eq_some_iff.mp isOption
  cases content <;> cases isValue
  exact ⟨old, value, isContent⟩

/-- An option is added, or the one that is there is changed. -/
theorem addsAtMostOne_analyseOption
    {node : Node} (isKind : node.is .option)
    (anchored : before.draft.model.HasAnchor anchor) :
    AddsAtMostOne node.nodes (analyseOption node anchor) before := by
  rw [analyseOption]
  refine .read (reads_readOption _) fun result first toFirst _ => ?_
  rcases result with _ | ⟨name, value⟩
  · exact Traces.among (.pure (Model.hasAnchor_none _))
      (List.nil_sublist _)
  · apply Traces.readModel
    rcases isOption : anchor.bind fun score =>
        first.draft.model.optionHandle? score name with _ | option
    · exact AddsOne.some (addsOne_addObject node (toFirst.hasAnchor anchored)
        ⟨rfl, rfl⟩ (Content.isFrom_of_is isKind rfl))
    · obtain ⟨score, _, found⟩ := Option.bind_eq_some_iff.mp isOption
      obtain ⟨old, oldValue, isContent⟩ :=
        exists_option_of_optionHandle? found
      have inside := Model.lt_size_of_content? isContent
      refine .seq (edits_modifyModel option _ first ?_ ?_)
        fun _ last edits _ => ?_
      · intro content isOther
        rw [isContent] at isOther
        cases isOther
        exact ⟨rfl, rfl, rfl⟩
      · intro content isOther
        rw [isContent] at isOther
        cases isOther
        exact .of_plain ⟨rfl, rfl⟩ rfl
      · refine Traces.among (.pure ?_) (List.nil_sublist _)
        exact Model.hasAnchor_some (Nat.lt_of_lt_of_le inside edits.size_le)

end LdpScore.Analyser
