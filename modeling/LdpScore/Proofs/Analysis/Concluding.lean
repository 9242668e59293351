import LdpScore.Proofs.Analysis.Surveying

/-!
# What a whole tree comes to

A tree is a document with its scores, or an instrument, or an option, or else a fragment
of a score, in which there are no scores, options or instruments.  In the end the root is
set and what waits is given up, which leaves the objects as they are.
-/

namespace LdpScore

open Analyser

/-! ## The end of an analysis -/

/-- The objects stay what they are, and so does what was reported about options. -/
structure Analysis.Ends (before after : Analysis) : Prop where
  size : after.draft.model.size = before.draft.model.size
  content? : after.draft.model.content? = before.draft.model.content?
  parent? : after.draft.model.parent? = before.draft.model.parent?
  children : after.draft.model.children = before.draft.model.children
  context : after.context = before.context
  reports : after.draft.optionReports = before.draft.optionReports

namespace Analysis.Ends

variable {first middle last before after : Analysis}

theorem trans (earlier : Ends first middle) (later : Ends middle last) : Ends first last :=
  ⟨later.size.trans earlier.size, later.content?.trans earlier.content?,
    later.parent?.trans earlier.parent?, later.children.trans earlier.children,
    later.context.trans earlier.context, later.reports.trans earlier.reports⟩

theorem heading? (ends : Ends before after) :
    after.draft.model.heading? = before.draft.model.heading? := by
  funext handle
  rw [Model.heading?_eq_filter, ends.content?, ← Model.heading?_eq_filter]

theorem part? (ends : Ends before after) :
    after.draft.model.part? = before.draft.model.part? := by
  funext handle
  rw [Model.part?_eq_bind, ends.content?, ← Model.part?_eq_bind]

/-- Nothing is sung in the end. -/
theorem houses (ends : Ends before after) : before.Houses [] after :=
  .of_same (Nat.le_of_eq ends.size.symm) ends.part?
    (congrArg Context.lyricPlacements ends.context) fun handle _ =>
      congrFun ends.parent? handle

theorem sings (ends : Ends before after) : before.Sings [] after := by
  have houses := ends.houses
  exact ⟨houses.size_le, houses.old, fun handle isStart => Or.inl (ends.part? ▸ isStart),
    houses.song, houses.remembers, ends.heading?, ends.reports⟩

theorem setsUp (ends : Ends before after) : before.SetsUp [] after := by
  have size_le := Nat.le_of_eq ends.size.symm
  refine ⟨size_le, fun handle _ => congrFun ends.heading? handle,
    fun handle _ _ => congrFun ends.children handle, ⟨[], ?_, .nil⟩,
    ends.reports.trans (List.append_nil _).symm⟩
  rw [Model.findAll_score_congr size_le ends.heading?, List.append_nil]

end Analysis.Ends

/-- A whole tree is analysed as its root is, and then the analysis ends. -/
theorem Analyser.ends_analyseRoot
    {root : Node} {post : Analysed → Analysis → Prop}
    (analysed : Ensures (analyseNode root none) {} post) :
    Ensures (analyseRoot root) {} fun _ last =>
      ∃ result middle, post result middle ∧ middle.Ends last := by
  have cleared : ∀ state : Analysis, Ensures clearPending state fun _ after =>
      state.Ends after := by
    intro state
    have silent := state.pending.silent_reportAll state.draft
    have overlooks := state.pending.overlooks_reportAll state.draft
    exact ⟨congrArg Model.size silent.model, congrArg Model.content? silent.model,
      congrArg Model.parent? silent.model, congrArg Model.children silent.model, rfl,
      overlooks.reports⟩
  rw [analyseRoot]
  apply analysed.bind
  intro result middle holds
  cases result with
  | object handle =>
      have isRoot : Ensures (modifyModel fun model => model.setRoot handle) middle
          fun _ after => middle.Ends after := ⟨rfl, rfl, rfl, rfl, rfl, rfl⟩
      apply isRoot.bind
      intro _ rooted ends
      exact (cleared rooted).mono fun _ last later =>
        ⟨_, middle, holds, ends.trans later⟩
  | _ => exact (cleared middle).mono fun _ last ends => ⟨_, middle, holds, ends⟩

/-! ## Fragments of a score -/

/-- There are no scores, options or instruments, and some lyrics have been sung. -/
structure Analysis.IsFragment (parts : List (Option Node)) (state : Analysis) : Prop where
  noHeading : ∀ handle, state.draft.model.heading? handle = none
  noReport : state.draft.optionReports = []
  noInstrument : ∀ handle, state.draft.model.part? handle ≠ some none
  song : state.draft.model.song = Song.sing [] parts

namespace Analysis.IsFragment

variable {parts : List (Option Node)} {before after : Analysis}

theorem of_sings (sings : Sings parts {} after) (noStart : none ∉ parts) :
    after.IsFragment parts := by
  have nothing : ∀ handle, ({} : Model).size ≤ handle := Nat.zero_le
  refine ⟨fun handle => ?_, sings.reports, fun handle isStart => ?_,
    sings.song fun _ => rfl⟩
  · rw [sings.headings]
    exact Model.heading?_of_size_le (nothing handle)
  · have isOld := (sings.starts handle isStart).resolve_right noStart
    cases (Model.part?_of_size_le (nothing handle)).symm.trans isOld

theorem of_overlooks {after : Analysis} (overlooks : Draft.Overlooks {} after.draft) :
    after.IsFragment [] := by
  have nothing : ∀ handle, ({} : Model).size ≤ handle := Nat.zero_le
  refine ⟨fun handle => ?_, overlooks.reports, fun handle isStart => ?_,
    Model.song_congr overlooks.part?⟩
  · rw [overlooks.heading?]
    exact Model.heading?_of_size_le (nothing handle)
  · rw [overlooks.part?] at isStart
    cases (Model.part?_of_size_le (nothing handle)).symm.trans isStart

theorem ends (isFragment : before.IsFragment parts) (ends : before.Ends after) :
    after.IsFragment parts := by
  refine ⟨fun handle => ?_, ends.reports.trans isFragment.noReport, fun handle => ?_, ?_⟩
  · rw [ends.heading?]
    exact isFragment.noHeading handle
  · rw [ends.part?]
    exact isFragment.noInstrument handle
  · rw [Model.song_congr ends.part?]
    exact isFragment.song

end Analysis.IsFragment

namespace Node

/-- The kinds of element that scores, options and instruments come from. -/
def formal : List ElementKind :=
  [.document, .content, .score, .instrument, .option]

end Node

namespace Analyser

/-- A lyric that belongs to no note is only reported. -/
theorem overlooks_analyseLyric (lyric : Node) (before : Analysis) :
    Ensures (analyseLyric lyric none) before fun _ after =>
      before.draft.Overlooks after.draft := by
  rw [analyseLyric]
  refine Ensures.readModel ?_
  apply (overlooking_lyricLine lyric.children before).bind
  rintro ⟨line, rest⟩ first toFirst
  dsimp only
  split
  · have reported : Overlooking (do
        report lyric.location .missingSyllable
        return (none : Option Handle)) := by simp
    exact (reported first).mono fun _ _ later => toFirst.draft.trans later.draft
  · apply (overlooking_lyricOptions _ first).bind
    rintro ⟨options, rest⟩ second toSecond
    apply (ensures_choosePlacement line options.placement second).bind
    rintro placement third ⟨_, sameDraft, _⟩
    have reported : Overlooking (do
        let taken ← printOptions {} rest
        reportExtra lyric taken.2
        report lyric.location .detachedLyric
        return (none : Option Handle)) := by simp
    exact (reported third).mono fun _ _ later =>
      toFirst.draft.trans (toSecond.draft.trans (sameDraft ▸ later.draft))

/-- Whatever is none of the formal elements is a fragment of a score. -/
theorem isFragment_analyserOf
    {kind : ElementKind} {analyser : Node → Analyser Analysed}
    (known : analyserOf? kind none = some analyser) {node : Node}
    (isKind : node.kind? = some kind) (other : kind ∉ Node.formal) :
    Ensures (analyser node) {} fun _ after => after.IsFragment node.parts := by
  have parts : kind ≠ .musicData → node.parts = node.staffCues.flatMap Cue.parts := by
    intro noMusic
    rw [Node.parts, Node.cues_eq_staffCues isKind]
    simp only [Node.formal, Node.containers, List.mem_cons, List.not_mem_nil, or_false,
      not_or] at other ⊢
    exact ⟨other.1, other.2.1, other.2.2.1, other.2.2.2.1, noMusic⟩
  have nothing : kind ≠ .musicData → staffObjectAnalyser? none kind = none →
      node.parts = [] := by
    intro noMusic unknown
    rw [parts noMusic, staffCues_eq_nil none fun given isGiven => ?_]
    · rfl
    · cases isKind.symm.trans isGiven
      exact unknown
  have described : ∀ {action : Analyser Analysed}, Overlooking action →
      node.parts = [] → Ensures action {} fun _ after => after.IsFragment node.parts := by
    intro action overlooking noParts
    rw [noParts]
    exact (overlooking {}).mono fun _ _ overlooks => .of_overlooks overlooks.draft
  have overlooked : ∀ {Value : Type} {action : Analyser Value} (wrap : Value → Analysed),
      Overlooking action → node.parts = [] →
        Ensures (wrap <$> action) {} fun _ after => after.IsFragment node.parts :=
    fun wrap overlooking => described (overlooking_map_iff.mpr overlooking)
  unfold analyserOf? at known
  split at known
  case h_27 =>
    have noMusic : kind ≠ .musicData := by
      rintro rfl
      contradiction
    split at known
    · rename_i isArticulation
      cases known
      refine overlooked _ (overlooking_analyseArticulation kind node) (nothing noMusic ?_)
      exact staffObjectAnalyser?_of_articulation kind
        (List.contains_iff_mem.mp isArticulation)
    · obtain ⟨given, isGiven, rfl⟩ := Option.map_eq_some_iff.mp known
      have sung := (singing_staffObject isGiven isKind).map (Analysed.ofOption .object)
      rw [parts noMusic]
      exact (sung {}).mono fun _ _ sings => .of_sings sings node.none_notMem_staffCues
  all_goals cases known
  case h_1 => exact absurd (by decide) other
  case h_4 => exact absurd (by decide) other
  case h_8 => exact absurd (by decide) other
  case h_10 => exact absurd (by decide) other
  case h_12 => exact absurd (by decide) other
  case h_16 =>
    have sung := (@singing_analyseMusicData none node).map Analysed.object
    rw [Node.parts, Node.cues, isKind]
    exact (sung {}).mono fun _ _ sings => .of_sings sings node.none_notMem_musicCues
  all_goals have noParts : node.parts = [] := nothing (by decide) rfl
  case h_2 =>
    exact described ((overlooking_analyseVersion node).bind fun _ => overlooking_pure _)
      noParts
  case h_3 => exact described (overlooking_pure _) noParts
  case h_5 => exact overlooked _ (overlooking_analyseParagraph node) noParts
  case h_6 => exact overlooked _ (overlooking_analyseHeading node) noParts
  case h_7 => exact overlooked _ (overlooking_analyseTextItem node) noParts
  case h_9 => exact overlooked _ (overlooking_analyseTitle node) noParts
  case h_11 => exact described (overlooking_pure _) noParts
  case h_13 => exact overlooked _ (overlooking_analyseText node) noParts
  case h_14 => exact overlooked _ (overlooking_analyseText node) noParts
  case h_15 =>
    exact described ((overlooking_analyseStaves node).bind fun _ => overlooking_pure _)
      noParts
  case h_17 => exact overlooked _ (overlooking_analyseTie node) noParts
  case h_18 => exact overlooked _ (overlooking_analyseSlur node) noParts
  case h_19 => exact overlooked _ (overlooking_analyseBeam node) noParts
  case h_20 => exact overlooked _ (overlooking_analyseTuplet node) noParts
  case h_21 => exact overlooked _ (overlooking_analyseTimeModification node) noParts
  case h_22 => exact overlooked _ (overlooking_analyseColor node) noParts
  case h_23 => exact overlooked _ (overlooking_analyseBezier node) noParts
  case h_24 => exact overlooked _ (overlooking_analyseFermata node) noParts
  case h_25 => exact overlooked _ (overlooking_analyseDynamics node) noParts
  case h_26 =>
    have detached : Ensures (Analysed.ofOption .object <$> analyseLyric node none) {}
        fun _ after => Draft.Overlooks {} after.draft := overlooks_analyseLyric node {}
    rw [noParts]
    exact detached.mono fun _ _ overlooks => .of_overlooks overlooks

theorem isFragment_analyseNode
    {node : Node} (other : ∀ kind ∈ Node.formal, node.kind? ≠ some kind) :
    Ensures (analyseNode node none) {} fun _ after => after.IsFragment node.parts := by
  rw [analyseNode]
  split
  · rename_i analyser isAnalyser
    obtain ⟨kind, isKind, known⟩ := Option.bind_eq_some_iff.mp isAnalyser
    exact isFragment_analyserOf known isKind fun listed => other kind listed isKind
  · rename_i unknown
    have reported : Overlooking (do
        report node.location (.missingAnalyser node.name)
        return Analysed.nothing) := by simp
    rw [Node.parts, cues_eq_nil unknown]
    exact (reported {}).mono fun _ _ overlooks => .of_overlooks overlooks.draft

/-! ## Whole trees -/

/-- A document, a content or a score surveys its scores. -/
theorem surveys_analyseNode
    {node : Node} (isKind : node.is .document ∨ node.is .content ∨ node.is .score) :
    Ensures (analyseNode node none) {} fun _ after =>
      Analysis.Surveys node.scores {} after := by
  have nowhere : ({} : Model).IsPlace none := ⟨Model.isAnchor_none _, nofun⟩
  have surveyed : ∀ {action : Analyser Analysed} {scores : List Node},
      Surveying none scores action →
        Ensures action {} fun _ after => Analysis.Surveys scores {} after :=
    fun surveying => (surveying {} nowhere).mono fun _ _ facts => facts.1
  rw [analyseNode, Node.scores]
  rcases isKind with isDocument | isContent | isScore
  · rw [beq_iff_eq.mp isDocument]
    exact surveyed ((surveying_analyseDocument node).map _)
  · rw [beq_iff_eq.mp isContent]
    exact surveyed ((surveying_analyseContent node).map _)
  · rw [beq_iff_eq.mp isScore]
    exact surveyed ((surveying_analyseScore node).map _)

/-- An instrument sings its parts, and houses its lyrics. -/
theorem houses_analyseNode {node : Node} (isInstrument : node.is .instrument) :
    Ensures (analyseNode node none) {} fun _ after =>
      Analysis.Sings node.parts {} after ∧ Analysis.Houses node.parts {} after := by
  have sings : Ensures (analyseInstrument node none) {} fun _ after =>
      Analysis.Sings node.parts {} after := by
    rw [Node.parts, Node.cues, beq_iff_eq.mp isInstrument]
    exact (sings_analyseInstrument node {}).mono fun _ _ sung => sung.1
  have houses : Ensures (analyseInstrument node none) {} fun _ after =>
      Analysis.Houses node.parts {} after := by
    rw [Node.parts, Node.cues, beq_iff_eq.mp isInstrument]
    exact houses_analyseInstrument (Model.isAnchor_none _) node
  rw [analyseNode, beq_iff_eq.mp isInstrument]
  exact ⟨sings, houses⟩

/-- An option that belongs to no score is added or refused. -/
theorem reads_analyseNode {node : Node} (isOption : node.is .option) :
    Ensures (analyseNode node none) {} fun _ after =>
      after.draft.model.part? = ({} : Model).part? ∧
        (∀ handle, ¬ after.draft.model.IsScore handle) ∧
        after.draft.optionReports = node.refusal?.toList := by
  have noScore : ∀ handle, ¬ ({} : Model).IsScore handle :=
    fun handle isScore => Nat.not_lt_zero handle (Model.lt_size_of_isScore isScore)
  have added : Ensures (analyseOption node none) {} fun _ after =>
      after.draft.model.part? = ({} : Model).part? ∧
        (∀ handle, ¬ after.draft.model.IsScore handle) ∧
        after.draft.optionReports = node.refusal?.toList := by
    rw [analyseOption]
    apply (readsOption_readOption node {}).bind
    intro result middle reads
    have noPart := congrArg Model.part? reads.model
    have stillNoScore : ∀ handle, ¬ middle.draft.model.IsScore handle := by
      rw [reads.model]
      exact noScore
    cases result with
    | none => exact ⟨noPart, stillNoScore, reads.reports⟩
    | some option =>
        obtain ⟨name, value⟩ := option
        refine Ensures.readModel ?_
        let draft := (middle.draft.addObject node.id? node.location none
          (.scoreOption name value)).2
        show draft.model.part? = ({} : Model).part? ∧
          (∀ handle, ¬ draft.model.IsScore handle) ∧
            draft.optionReports = node.refusal?.toList
        refine ⟨?_, ?_, (Draft.optionReports_addObject ..).trans reads.reports⟩
        · funext handle
          rw [Draft.part?_addObject, noPart]
          split
          · exact (Model.part?_of_size_le (Nat.zero_le handle)).symm
          · rfl
        · rintro handle ⟨version, language, isScore⟩
          rw [Draft.content?_addObject_eq] at isScore
          split at isScore
          · cases isScore
          · exact stillNoScore handle ⟨version, language, isScore⟩
  rw [analyseNode, beq_iff_eq.mp isOption]
  exact added

end Analyser

/-- What comes of a tree, by the kind of its root. -/
inductive Analysis.Concludes (tree : Node) (last : Analysis) : Prop where
  | scores (isKind : tree.is .document ∨ tree.is .content ∨ tree.is .score)
      (surveys : Surveys tree.scores {} last) :
      Concludes tree last
  | instrument (isInstrument : tree.is .instrument) (sings : Sings tree.parts {} last)
      (houses : Houses tree.parts {} last) :
      Concludes tree last
  | option (isOption : tree.is .option)
      (noPart : last.draft.model.part? = ({} : Model).part?)
      (noScore : ∀ handle, ¬ last.draft.model.IsScore handle)
      (reports : last.draft.optionReports = tree.refusal?.toList) :
      Concludes tree last
  | fragment (other : ∀ kind ∈ Node.formal, tree.kind? ≠ some kind)
      (isFragment : last.IsFragment tree.parts) :
      Concludes tree last

theorem concludes_analyseRoot (tree : Node) :
    Ensures (analyseRoot tree) {} fun _ last => last.Concludes tree := by
  have scored : tree.is .document ∨ tree.is .content ∨ tree.is .score →
      Ensures (analyseRoot tree) {} fun _ last => last.Concludes tree := by
    intro isKind
    apply (ends_analyseRoot (surveys_analyseNode isKind)).mono
    rintro _ last ⟨_, middle, surveys, ends⟩
    have surveys := surveys.trans ⟨ends.setsUp, ends.houses⟩
    rw [List.append_nil] at surveys
    exact .scores isKind surveys
  by_cases isFormal : ∀ kind ∈ Node.formal, tree.kind? ≠ some kind
  · apply (ends_analyseRoot (isFragment_analyseNode isFormal)).mono
    rintro _ last ⟨_, middle, isFragment, ends⟩
    exact .fragment isFormal (isFragment.ends ends)
  · simp only [not_forall, ne_eq, not_not] at isFormal
    obtain ⟨kind, listed, isKind⟩ := isFormal
    simp only [Node.formal, List.mem_cons, List.not_mem_nil, or_false] at listed
    have isKind : tree.is kind := beq_iff_eq.mpr isKind
    rcases listed with rfl | rfl | rfl | rfl | rfl
    · exact scored (Or.inl isKind)
    · exact scored (Or.inr (Or.inl isKind))
    · exact scored (Or.inr (Or.inr isKind))
    · apply (ends_analyseRoot (houses_analyseNode isKind)).mono
      rintro _ last ⟨_, middle, ⟨sings, houses⟩, ends⟩
      have sings := sings.trans ends.sings
      have houses := houses.trans ends.houses
      rw [List.append_nil] at sings houses
      exact .instrument isKind sings houses
    · apply (ends_analyseRoot (reads_analyseNode isKind)).mono
      rintro _ last ⟨_, middle, ⟨noPart, noScore, reports⟩, ends⟩
      refine .option isKind (ends.part?.trans noPart) (fun handle isScore => ?_)
        (ends.reports.trans reports)
      exact noScore handle
        ((Model.isScore_congr (congrFun ends.heading? handle)).mp isScore)

end LdpScore
