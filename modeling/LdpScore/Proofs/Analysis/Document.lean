import LdpScore.Analysis
import LdpScore.Proofs.Analysis.Playing

/-!
# Documents, scores and instruments

Above the music data elements only become objects, but the music data of one
instrument after the other come into scope.  Before that happens all that waits is
given up, and afterwards too.  `Visits` is what remains of all that: the nodes of
an element become objects whatever notes are in scope before.
-/

namespace LdpScore

/-! ## Elements above the music -/

/-- Nothing waits, and there is no last note. -/
structure Analysis.Idle (state : Analysis) : Prop where
  pending : state.pending = {}
  lastNote : state.context.lastNote = none

theorem Analysis.Idle.not_awaits
    {state : Analysis} (idle : state.Idle) (handle : Handle) :
    ¬ state.Awaits handle := by
  rintro (waits | isLast)
  · rw [idle.pending] at waits
    exact List.not_mem_nil waits
  · rw [idle.lastNote] at isLast
    cases isLast

theorem Edits.idle
    {nodes : List Node} {before after : Analysis}
    (edits : Edits nodes before after) (idle : before.Idle) :
    after.Idle :=
  ⟨edits.pending.trans idle.pending, edits.lastNote.trans idle.lastNote⟩

theorem Analysis.ready_of_idle
    {state : Analysis} (idle : state.Idle)
    (chords : state.draft.model.ChordsBelow state.draft.model.size) :
    state.Ready := by
  constructor
  · rw [idle.pending]
    exact .empty ..
  · intro handle isLast
    rw [idle.lastNote] at isLast
    cases isLast
  · exact chords

/-- Nodes become objects, whatever notes are in scope before and afterwards. -/
structure Visits (nodes : List Node) (before after : Analysis) : Prop where
  builds : ∀ scope, ∃ scopeAfter, Builds nodes scope scopeAfter before after
  persists : before.draft.model.Persists after.draft.model
  advances : Advances nodes before after

namespace Visits

variable {nodes : List Node} {before after : Analysis}

theorem of_edits (edits : Edits nodes before after) :
    Visits nodes before after :=
  ⟨fun scope => ⟨scope, edits.builds scope⟩, edits.model.persists,
    .of_amends edits.amends⟩

/-- While nothing waits, other music may come into scope. -/
theorem of_plays
    {scope : Option Handle} (idle : before.Idle)
    (plays : Plays scope nodes before after) :
    Visits nodes before after := by
  refine ⟨fun scopeBefore => ⟨scope, ?_⟩, plays.persists, plays.advances⟩
  have entered : Builds [] scopeBefore scope before before :=
    .single fun earlier =>
      .enter ⟨before, scopeBefore, earlier⟩ scope idle.not_awaits
  exact entered.trans plays.builds

instance : Tracing Visits where
  of_agrees agrees := of_edits (.of_agrees agrees)
  trans earlier later := by
    refine ⟨fun scope => ?_, earlier.persists.trans later.persists,
      earlier.advances.trans later.advances⟩
    obtain ⟨between, first⟩ := earlier.builds scope
    obtain ⟨last, second⟩ := later.builds between
    exact ⟨last, first.trans second⟩
  mono visits part := by
    refine ⟨fun scope => ?_, visits.persists, visits.advances.mono part⟩
    obtain ⟨last, builds⟩ := visits.builds scope
    exact ⟨last, builds.mono part⟩

theorem lt_size
    (visits : Visits nodes before after) {handle : Handle}
    (inside : handle < before.draft.model.size) :
    handle < after.draft.model.size :=
  Nat.lt_of_lt_of_le inside visits.persists.size_le

end Visits

/-- An object is replaced by one of the same kind that joins nothing. -/
theorem Content.keeps_of_name
    {old new : Content} (fresh : new.IsFresh) (other : new.name ≠ "note")
    (same : new.name = old.name) :
    Keeps old new := by
  constructor
  · exact same
  · have noRelation : ¬ old.members?.isSome := by
      rw [members?_isSome_iff, ← same, ← members?_isSome_iff,
        fresh.members?]
      simp
    rw [fresh.members?, Option.not_isSome_iff_eq_none.mp noRelation]
  · rw [fresh.links, links_eq_of_name (same ▸ other)]

namespace Pending

theorem silent_clear_pairing
    {Point : Type} [Descriptor Point] (relation : PairedRelation)
    (pending : List Point) (draft : Draft) :
    Draft.Silent draft (Pairing.clear relation pending draft) := by
  rw [Pairing.clear]
  generalize Pairing.flush pending = points
  induction points generalizing draft with
  | nil => exact .refl draft
  | cons point rest induction =>
      rw [List.foldl_cons]
      exact (Draft.Silent.report draft _ (by simp)).trans (induction _)

theorem silent_clear_legacyTie (pending : Option LegacyTie) (draft : Draft) :
    Draft.Silent draft (LegacyTie.clear pending draft) := by
  unfold LegacyTie.clear
  split
  · exact .report draft _ (by simp)
  · exact .refl draft

theorem silent_clear_legacyBeam (pending : List BeamPoint) (draft : Draft) :
    Draft.Silent draft (LegacyBeam.clear pending draft) := by
  unfold LegacyBeam.clear
  split
  · exact .refl draft
  · exact .report draft _ (by simp)

/-- Giving up what waits is only reported. -/
theorem silent_reportAll (pending : Pending) (draft : Draft) :
    Draft.Silent draft (pending.reportAll draft) :=
  (silent_clear_pairing ..).trans ((silent_clear_legacyTie ..).trans
    ((silent_clear_pairing ..).trans ((silent_clear_pairing ..).trans
      ((silent_clear_legacyBeam ..).trans (silent_clear_pairing ..)))))

end Pending

namespace Analyser

variable {Value : Type} {before : Analysis} {anchor : Option Handle}
variable {handle : Handle}

/-- A step visits some nodes and leaves the score ready, and a condition holds
afterwards. -/
abbrev VisitsWith
    (nodes : List Node) (action : Analyser Value) (before : Analysis)
    (post : Value → Analysis → Prop) : Prop :=
  Traces Visits nodes action before fun value after =>
    after.Ready ∧ post value after

/-- A step visits some nodes and returns one of the objects. -/
abbrev VisitsOne
    (nodes : List Node) (action : Analyser Handle) (before : Analysis) : Prop :=
  VisitsWith nodes action before fun handle after =>
    handle < after.draft.model.size

theorem EditsWith.visits
    {nodes : List Node} {action : Analyser Value}
    {post : Value → Analysis → Prop}
    (edits : EditsWith nodes action before post) (ready : before.Ready) :
    VisitsWith nodes action before post := by
  apply (Traces.weaken edits Visits.of_edits).mono (List.Sublist.refl _)
  rintro value after _ ⟨edited, holds⟩
  exact ⟨edited.ready ready, holds⟩

theorem Takes.nodesOf
    {kind : ElementKind} {children : List Node}
    {result : Option Node × List Node} (takes : Takes kind children result) :
    nodesOf children =
      LdpScore.nodesOf result.1.toList ++ LdpScore.nodesOf result.2 := by
  rw [← takes.parts, LdpScore.nodesOf, List.flatMap_append]
  rfl

theorem reads_analyseOptional
    {analyser : Node → Analyser Unit} (reads : ∀ node, Reads (analyser node))
    (child : Option Node) :
    Reads (analyseOptional analyser child) := by
  cases child with
  | none => exact .pure trivial
  | some node => exact reads node

/-! ## Instruments -/

/-- Music data come into scope, and all of their notes stand directly below
them. -/
theorem visits_analyseMusicData
    {node : Node} (isKind : node.is .musicData)
    (anchored : before.draft.model.HasAnchor anchor)
    (ready : before.Ready) (idle : before.Idle) :
    VisitsOne node.nodes (analyseMusicData node anchor) before := by
  rw [analyseMusicData]
  rw [Node.nodes_eq, ← List.append_nil (LdpScore.nodesOf _)]
  have added : EditsWith [node] (addObject node anchor .musicData) before _ :=
    edits_addObject node anchored ⟨rfl, rfl⟩ (Content.isFrom_of_is isKind rfl)
  apply (Traces.weaken added Visits.of_edits).bind
  intro handle middle _ facts
  obtain ⟨edits, added⟩ := facts
  have played : Traces (Plays (some handle)) (LdpScore.nodesOf node.children)
      (analyseEach (fun kind =>
        (staffObjectAnalyser? (some handle) kind).map
          fun analyser node => discard (analyser node)) node.children) middle
      fun _ after =>
        after.Ready ∧ after.draft.model.HasAnchor (some handle) := by
    refine Traces.analyseEach ?_ ?_ _
      ⟨edits.ready ready, Model.hasAnchor_some added.lt_size⟩
    · rintro before after agrees ⟨ready, anchored⟩
      exact ⟨agrees.ready ready, agrees.hasAnchor anchored⟩
    · rintro kind analyser child before known isKind ⟨ready, anchored⟩
      obtain ⟨given, isKnown, rfl⟩ := Option.map_eq_some_iff.mp known
      refine (plays_staffObject isKnown isKind anchored ready).mono
        (List.Sublist.refl _) ?_ |>.discard fun _ _ => id
      rintro result after plays ⟨ready, _⟩
      exact ⟨ready, plays.hasAnchor anchored⟩
  refine (Traces.weaken played (Visits.of_plays (edits.idle idle))).bind
    fun _ last _ facts => ?_
  exact .pure ⟨facts.2.1, facts.2.2 handle rfl⟩

/-- The text of a name is added below its instrument. -/
theorem edits_optionalText
    {kind : ElementKind}
    (isText : ∀ text appearance,
      (Content.scoreText text appearance).isOf kind)
    (children : List Node) (inside : handle < before.draft.model.size) :
    EditsPart Prod.snd children (optionalText kind handle children) before
      fun _ _ => True := by
  have takes := takes_take? kind children
  rw [optionalText]
  generalize take? kind children = taken at takes ⊢
  rcases taken with ⟨_ | node, rest⟩
  · exact .stop takes.parts trivial
  · rw [← takes.parts]
    refine .cons (addsAtMostOne_analyseText (takes.kind node rfl) isText
      (Model.hasAnchor_some inside)) fun result middle _ _ => ?_
    exact Ensures.bind (reads_model middle) fun model last read =>
      ⟨[], rfl, .of_agrees read.1, trivial⟩

/-- Nothing that waits is carried into the next instrument. -/
theorem visits_clearPending (ready : before.Ready) :
    VisitsWith [] clearPending before fun _ after => after.pending = {} := by
  have silent := Pending.silent_reportAll before.pending before.draft
  have kept : ∀ handle, Analysis.Awaits
      { before with
        pending := {}
        draft := before.pending.reportAll before.draft } handle →
      before.Awaits handle := by
    rintro handle (waits | isLast)
    · exact absurd waits List.not_mem_nil
    · exact Or.inr isLast
  refine ⟨⟨fun scope => ⟨scope, .single fun earlier => ?_⟩, ?_,
    .flush before⟩, ⟨?_, ?_, ?_⟩, rfl⟩
  · exact .attend ⟨before, scope, earlier⟩ silent
      fun handle awaited => Or.inl (kept handle awaited)
  · show Model.Persists _ (before.pending.reportAll before.draft).model
    rw [silent.model]
    exact .refl _
  · exact .empty ..
  · intro last isLast
    show Model.IsNote (before.pending.reportAll before.draft).model last
    rw [silent.model]
    exact ready.lastNote last isLast
  · show Model.ChordsBelow (before.pending.reportAll before.draft).model
      (before.pending.reportAll before.draft).model.size
    rw [silent.model]
    exact ready.chords

theorem visits_startInstrument
    (ready : before.Ready) (cleared : before.pending = {}) :
    VisitsWith [] (modifyContext Context.startInstrument) before
      fun _ after => after.Idle := by
  let after : Analysis :=
    { before with context := before.context.startInstrument }
  have idle : after.Idle := ⟨cleared, rfl⟩
  refine ⟨⟨fun scope => ⟨scope, .single fun earlier => ?_⟩, .refl _,
    .of_amends (.of_silent (.refl _) rfl)⟩,
    Analysis.ready_of_idle idle ready.chords, idle⟩
  exact .attend ⟨before, scope, earlier⟩ (.refl _)
    fun handle awaited => absurd awaited (idle.not_awaits handle)

/-- The object of an element is replaced by one of the same kind. -/
theorem edits_replaceContent
    {old new : Content} {start : Analysis}
    (added : start.draft.model.content? handle = some old)
    (persists : start.draft.model.Persists before.draft.model)
    (plain : new.IsPlain) (other : new.name ≠ "note")
    (same : new.name = old.name) :
    EditsFrom [] (modifyModel fun model =>
      model.modifyContent handle fun _ => new) before :=
  edits_modifyModel handle _ before
    (fun _ isContent => Content.keeps_of_name plain.isFresh other
      (same.trans (persists.name added isContent).symm))
    fun _ isContent =>
      .of_plain plain (same.trans (persists.name added isContent).symm)

/-- What stands before the music data of an instrument is added below it. -/
theorem edits_instrumentHead
    {start : Analysis} {old : Content} (children : List Node)
    (added : start.draft.model.content? handle = some old)
    (isInstrument : old.name = "instrument")
    (persists : start.draft.model.Persists before.draft.model) :
    EditsPart id children (instrumentHead handle children) before
      fun _ _ => True := by
  have inside : handle < before.draft.model.size :=
    Nat.lt_of_lt_of_le (Model.lt_size_of_content? added) persists.size_le
  rw [instrumentHead]
  refine .follow (edits_optionalText (fun _ _ => rfl) children inside)
    fun result first _ toFirst _ => ?_
  rcases result with ⟨name, rest⟩
  refine .follow (edits_optionalText (fun _ _ => rfl) rest
    (Nat.lt_of_lt_of_le inside toFirst.size_le))
    fun result second _ toSecond _ => ?_
  rcases result with ⟨abbreviation, rest⟩
  dsimp only
  have takes := takes_take? .staves rest
  generalize take? .staves rest = taken at takes ⊢
  rcases taken with ⟨staves, left⟩
  refine .among ?_ takes.suffix
  refine .read (reads_analyseOptional reads_analyseStaves _)
    fun _ third toThird _ => ?_
  refine .read reads_context fun context fourth toFourth _ => ?_
  have toLast : before.draft.model.Persists fourth.draft.model := by
    rw [toFourth.draft.model, toThird.draft.model]
    exact toFirst.model.persists.trans toSecond.model.persists
  refine .seq (edits_replaceContent added (persists.trans toLast) ⟨rfl, rfl⟩
    (by simp [Content.name]) isInstrument.symm) fun _ last _ _ => ?_
  exact .stop rfl trivial

theorem visits_analyseInstrument
    {node : Node} (isKind : node.is .instrument)
    (anchored : before.draft.model.HasAnchor anchor) (ready : before.Ready) :
    VisitsOne node.nodes (analyseInstrument node anchor) before := by
  rw [analyseInstrument]
  -- All that waits is given up first, so the instrument starts idle and its music
  -- data may come into scope.
  apply (visits_clearPending ready).seq
  intro _ first toFirst cleared
  refine (visits_startInstrument cleared.1 cleared.2).seq
    fun _ second toSecond started => ?_
  rw [Node.nodes_eq]
  have anchoredLater := (anchored.mono toFirst.persists.size_le).mono
    toSecond.persists.size_le
  have added : EditsWith [node]
      (addObject node anchor (.instrument none none 1)) second _ :=
    edits_addObject node anchoredLater ⟨rfl, rfl⟩
      (Content.isFrom_of_is isKind rfl)
  apply (Traces.weaken added Visits.of_edits).bind
  intro handle third _ facts
  obtain ⟨toThird, added⟩ := facts
  have head := edits_instrumentHead node.children added.content rfl (.refl _)
  refine (TracesPart.weaken head Visits.of_edits).bind
    fun rest fourth _ _ _ facts => ?_
  obtain ⟨⟨_, toFourth⟩, _⟩ := facts
  have ready := toFourth.ready (toThird.ready started.1)
  have idle := toFourth.idle (toThird.idle started.2)
  have inside : handle < fourth.draft.model.size :=
    Nat.lt_of_lt_of_le added.lt_size toFourth.size_le
  refine .read (quiet_mandatory _ _ _) fun result fifth toFifth takes => ?_
  rcases result with ⟨music, rest⟩
  have ready := toFifth.ready ready
  have idle := (Edits.of_agrees toFifth).idle idle
  have anchored := toFifth.hasAnchor (Model.hasAnchor_some inside)
  rw [id, takes.nodesOf]
  have visited : VisitsWith (LdpScore.nodesOf music.toList)
      (analyseOptional
        (fun music => discard (analyseMusicData music (some handle))) music)
      fifth fun _ after => handle < after.draft.model.size := by
    refine .optional (fun _ => ⟨ready, anchored handle rfl⟩) fun child given => ?_
    refine (visits_analyseMusicData (takes.kind child given) anchored ready
      idle).mono (List.Sublist.refl _) ?_ |>.discard fun _ _ => id
    rintro _ after visits ⟨readyAfter, _⟩
    exact ⟨readyAfter, visits.lt_size (anchored handle rfl)⟩
  apply visited.bind
  intro _ sixth _ facts
  refine Traces.among ?_ (List.nil_sublist _)
  refine .read (reads_reportExtra _ _) fun _ last toLast _ => .pure ?_
  exact ⟨toLast.ready facts.1,
    toLast.hasAnchor (Model.hasAnchor_some facts.2) handle rfl⟩

/-! ## Scores -/

theorem edits_leadingTitles
    (children : List Node) (inside : handle < before.draft.model.size) :
    EditsPart id children (leadingTitles handle children) before
      fun _ _ => True := by
  induction children generalizing before with
  | nil => exact .stop rfl trivial
  | cons child rest induction =>
      rw [leadingTitles]
      split
      · rename_i isTitle
        refine .cons (addsAtMostOne_analyseTitle isTitle
          (Model.hasAnchor_some inside)).discard fun _ middle edits _ => ?_
        exact induction (Nat.lt_of_lt_of_le inside edits.size_le)
      · exact .stop rfl trivial

theorem edits_leadingOptions
    (children : List Node) (inside : handle < before.draft.model.size) :
    EditsPart id children (leadingOptions handle children) before
      fun _ _ => True := by
  induction children generalizing before with
  | nil => exact .stop rfl trivial
  | cons child rest induction =>
      rw [leadingOptions]
      split
      · rename_i isOption
        refine .cons (addsAtMostOne_analyseOption isOption
          (Model.hasAnchor_some inside)).discard fun _ middle edits _ => ?_
        exact induction (Nat.lt_of_lt_of_le inside edits.size_le)
      · exact .stop rfl trivial

/-- What stands before the instruments of a score is added below it. -/
theorem edits_scoreHead
    {start : Analysis} {old : Content} (node : Node)
    (added : start.draft.model.content? handle = some old)
    (isScore : old.name = "score")
    (persists : start.draft.model.Persists before.draft.model) :
    EditsPart id node.children (scoreHead node handle) before
      fun _ _ => True := by
  have inside : handle < before.draft.model.size :=
    Nat.lt_of_lt_of_le (Model.lt_size_of_content? added) persists.size_le
  rw [scoreHead]
  refine .read (quiet_mandatory _ _ _) fun result first toFirst takes => ?_
  rcases result with ⟨version, rest⟩
  dsimp only
  refine .among ?_ takes.suffix
  refine .read (reads_analyseOptional reads_analyseVersion _)
    fun _ second toSecond _ => ?_
  refine .read reads_context fun context third toThird _ => ?_
  have takes := takes_take? .language rest
  generalize take? .language rest = taken at takes ⊢
  rcases taken with ⟨language, rest⟩
  refine .among ?_ takes.suffix
  have agrees := toFirst.trans (toSecond.trans toThird)
  have toThird : before.draft.model.Persists third.draft.model := by
    rw [agrees.draft.model]
    exact .refl _
  refine .seq (edits_replaceContent added (persists.trans toThird) ⟨rfl, rfl⟩
    (by simp [Content.name]) isScore.symm) fun _ fourth toFourth _ => ?_
  have inside := Nat.lt_of_lt_of_le inside
    (Nat.le_trans toThird.size_le toFourth.size_le)
  refine .follow (edits_leadingTitles rest inside)
    fun rest fifth _ toFifth _ => ?_
  have takes := takes_take? .cursor rest
  generalize take? .cursor rest = taken at takes ⊢
  rcases taken with ⟨cursor, left⟩
  refine .among ?_ takes.suffix
  refine .read (reads_analyseOptional
    (fun _ => reads_report _ (by simp)) _) fun _ last toLast _ => ?_
  apply edits_leadingOptions left
  rw [toLast.draft.model]
  exact Nat.lt_of_lt_of_le inside toFifth.size_le

theorem reads_requireInstrument (node : Node) (children : List Node) :
    Reads (requireInstrument node children) := by
  cases children with
  | nil => exact reads_reportMissing node .instrument
  | cons => exact .pure trivial

/-- What visits for every child visits for all of them. -/
theorem visits_analyseEach
    {analyserOf : ElementKind → Option (Node → Analyser Unit)}
    (each : ∀ kind analyser node before, analyserOf kind = some analyser →
      node.is kind → handle < before.draft.model.size → before.Ready →
        VisitsWith node.nodes (analyser node) before fun _ _ => True)
    (children : List Node) (inside : handle < before.draft.model.size)
    (ready : before.Ready) :
    VisitsWith (LdpScore.nodesOf children)
      (analyseEach analyserOf children) before
      fun _ after => handle < after.draft.model.size := by
  refine Traces.analyseEach ?_ ?_ children ⟨ready, inside⟩
  · rintro before after agrees ⟨ready, inside⟩
    exact ⟨agrees.ready ready,
      agrees.hasAnchor (Model.hasAnchor_some inside) handle rfl⟩
  · rintro kind analyser node before known isKind ⟨ready, inside⟩
    refine (each kind analyser node before known isKind inside ready).mono
      (List.Sublist.refl _) ?_
    rintro _ after visits ⟨readyAfter, _⟩
    exact ⟨readyAfter, visits.lt_size inside⟩

theorem VisitsOne.discard
    {nodes : List Node} {action : Analyser Handle}
    (visits : VisitsOne nodes action before) :
    VisitsWith nodes (discard action) before fun _ _ => True :=
  Traces.discard visits fun _ _ facts => ⟨facts.1, trivial⟩

theorem EditsWith.visitsDiscarded
    {nodes : List Node} {action : Analyser Value}
    {post : Value → Analysis → Prop}
    (edits : EditsWith nodes action before post) (ready : before.Ready) :
    VisitsWith nodes (Functor.discard action) before fun _ _ => True :=
  Traces.discard (edits.visits ready) fun _ _ facts => ⟨facts.1, trivial⟩

theorem visits_analyseScore
    {node : Node} (isKind : node.is .score)
    (anchored : before.draft.model.HasAnchor anchor) (ready : before.Ready) :
    VisitsOne node.nodes (analyseScore node anchor) before := by
  rw [analyseScore]
  refine .read (reads_modifyContext fun _ => rfl) fun _ first toFirst _ => ?_
  rw [Node.nodes_eq]
  have added : EditsWith [node] (addObject node anchor (.score "" none)) first
      _ :=
    edits_addObject node (toFirst.hasAnchor anchored) ⟨rfl, rfl⟩
      (Content.isFrom_of_is isKind rfl)
  refine (Traces.weaken added Visits.of_edits).bind
    fun handle second _ facts => ?_
  obtain ⟨toSecond, added⟩ := facts
  have head := edits_scoreHead node added.content rfl (.refl _)
  refine (TracesPart.weaken head Visits.of_edits).bind
    fun rest third _ _ _ facts => ?_
  obtain ⟨⟨_, toThird⟩, _⟩ := facts
  have ready := toThird.ready (toSecond.ready (toFirst.ready ready))
  have inside : handle < third.draft.model.size :=
    Nat.lt_of_lt_of_le added.lt_size toThird.size_le
  refine .read (reads_requireInstrument _ _) fun _ fourth toFourth _ => ?_
  rw [id, ← List.append_nil (LdpScore.nodesOf rest)]
  refine (visits_analyseEach ?_ rest
    (toFourth.hasAnchor (Model.hasAnchor_some inside) handle rfl)
    (toFourth.ready ready)).bind fun _ last _ facts => .pure facts
  intro kind analyser child state known isKind inside ready
  unfold instrumentAnalyser? at known
  split at known <;> cases known
  rename_i isInstrument
  exact VisitsOne.discard (visits_analyseInstrument (isInstrument ▸ isKind)
    (Model.hasAnchor_some inside) ready)

/-! ## Documents -/

theorem visits_block
    {kind : ElementKind} {analyser : Node → Analyser Unit} {node : Node}
    (known : blockAnalyser? handle kind = some analyser)
    (isKind : node.is kind) (inside : handle < before.draft.model.size)
    (ready : before.Ready) :
    VisitsWith node.nodes (analyser node) before fun _ _ => True := by
  have anchored := Model.hasAnchor_some inside
  unfold blockAnalyser? at known
  split at known <;> cases known
  · exact VisitsOne.discard (visits_analyseScore isKind anchored ready)
  · exact EditsWith.visitsDiscarded (addsOne_analyseParagraph isKind anchored)
      ready
  · exact EditsWith.visitsDiscarded (addsOne_analyseHeading isKind anchored)
      ready
  · exact EditsWith.visitsDiscarded
      (addsAtMostOne_analyseTextItem isKind anchored) ready

theorem visits_analyseContent
    {node : Node} (isKind : node.is .content)
    (anchored : before.draft.model.HasAnchor anchor) (ready : before.Ready) :
    VisitsOne node.nodes (analyseContent node anchor) before := by
  rw [analyseContent]
  rw [Node.nodes_eq, ← List.append_nil (LdpScore.nodesOf _)]
  have added : EditsWith [node] (addObject node anchor .body) before _ :=
    edits_addObject node anchored ⟨rfl, rfl⟩ (Content.isFrom_of_is isKind rfl)
  apply (EditsWith.visits added ready).bind
  intro handle middle _ facts
  refine (visits_analyseEach
    (fun kind analyser child state => visits_block) node.children
    facts.2.lt_size facts.1).bind fun _ last _ facts => .pure facts

theorem visits_analyseDocument
    {node : Node} (isKind : node.is .document)
    (anchored : before.draft.model.HasAnchor anchor) (ready : before.Ready) :
    VisitsWith node.nodes (analyseDocument node anchor) before
      fun result after => after.draft.model.HasAnchor result := by
  rw [analyseDocument]
  refine .read (quiet_mandatory _ _ _) fun result first toFirst takes => ?_
  have ready := toFirst.ready ready
  rcases result with ⟨_ | version, rest⟩
  · exact Traces.among (.pure ⟨ready, Model.hasAnchor_none _⟩)
      (List.nil_sublist _)
  · dsimp only
    have suffix := takes.suffix
    have takes := takes_take? .language rest
    generalize take? .language rest = taken at takes ⊢
    rcases taken with ⟨language, left⟩
    rw [Node.nodes_eq]
    have added : EditsWith [node] (addObject node anchor (.document
        (firstText version) (language.map firstText))) first _ :=
      edits_addObject node (toFirst.hasAnchor anchored) ⟨rfl, rfl⟩
        (Content.isFrom_of_is isKind rfl)
    apply (EditsWith.visits added ready).bind
    intro handle second _ facts
    obtain ⟨ready, added⟩ := facts
    refine Traces.among ?_ (nodesOf_sublist (takes.suffix.trans suffix))
    refine .read (quiet_mandatory _ _ _) fun result third toThird takes => ?_
    rcases result with ⟨content, rest⟩
    have ready := toThird.ready ready
    have anchored := toThird.hasAnchor (Model.hasAnchor_some added.lt_size)
    have visited : VisitsWith (LdpScore.nodesOf content.toList)
        (analyseOptional
          (fun content => discard (analyseContent content (some handle)))
          content)
        third fun _ after => handle < after.draft.model.size := by
      refine .optional (fun _ => ⟨ready, anchored handle rfl⟩)
        fun child given => ?_
      refine (visits_analyseContent (takes.kind child given) anchored
        ready).mono (List.Sublist.refl _) ?_ |>.discard fun _ _ => id
      rintro _ after visits ⟨readyAfter, _⟩
      exact ⟨readyAfter, visits.lt_size (anchored handle rfl)⟩
    rw [takes.nodesOf]
    apply visited.bind
    intro _ fourth _ facts
    refine Traces.among ?_ (List.nil_sublist _)
    refine .read (reads_reportExtra _ _) fun _ last toLast _ => .pure ?_
    exact ⟨toLast.ready facts.1,
      toLast.hasAnchor (Model.hasAnchor_some facts.2)⟩

end Analyser

end LdpScore
