import LdpScore.Proofs.Analysis.Opening

/-!
# The scores of a document

A document consists of scores and of texts that are beside the point here.  So the
scores are analysed one after the other, each is set up with its own options, and
each houses its own lyrics: an analysis `Surveys` them.
-/

namespace LdpScore

open Analyser

namespace Node

/-- The elements of the scores of a content. -/
def contentScores (node : Node) : List Node :=
  node.children.filter fun child => child.is .score

/-- The elements of the scores of a document; one without a version has none. -/
def documentScores (node : Node) : List Node :=
  match take? .version node.children with
  | (none, _) => []
  | (some _, rest) =>
      (take? .content (take? .language rest).2).1.toList.flatMap contentScores

/-- The elements of the scores of a tree, whatever its root is. -/
def scores (node : Node) : List Node :=
  match node.kind? with
  | some .document => node.documentScores
  | some .content => node.contentScores
  | some .score => [node]
  | _ => []

theorem contentCues_eq (node : Node) :
    node.contentCues = node.contentScores.flatMap scoreCues := by
  rw [contentCues, contentScores]
  induction node.children with
  | nil => rfl
  | cons child rest induction =>
      rw [List.flatMap_cons, List.filter_cons, induction]
      split
      · rw [List.flatMap_cons]
      · rfl

theorem documentCues_eq (node : Node) :
    node.documentCues = node.documentScores.flatMap scoreCues := by
  rw [documentCues, documentScores]
  rcases take? .version node.children with ⟨_ | version, rest⟩
  · rfl
  · dsimp only
    rw [List.flatMap_assoc]
    exact List.flatMap_congr fun content _ => contentCues_eq content

/-- What the scores of a tree give to sing. -/
def scoreParts (scores : List Node) : List (Option Node) :=
  (scores.flatMap scoreCues).flatMap Cue.parts

theorem scoreParts_append (scores more : List Node) :
    scoreParts (scores ++ more) = scoreParts scores ++ scoreParts more := by
  rw [scoreParts, List.flatMap_append, List.flatMap_append]
  rfl

theorem parts_eq_scoreParts
    {node : Node} (isKind : node.is .document ∨ node.is .content ∨ node.is .score) :
    node.parts = scoreParts node.scores := by
  rw [parts, scoreParts, cues, scores]
  rcases isKind with isDocument | isContent | isScore
  · rw [beq_iff_eq.mp isDocument]
    exact congrArg _ (documentCues_eq node)
  · rw [beq_iff_eq.mp isContent]
    exact congrArg _ (contentCues_eq node)
  · rw [beq_iff_eq.mp isScore]
    exact congrArg _ (List.flatMap_singleton ..).symm

end Node

/-- Some scores are set up with their options, and nothing else is said of options. -/
structure Analysis.SetsUp
    (scores : List Node) (before after : Analysis) : Prop where
  size_le : before.draft.model.size ≤ after.draft.model.size
  headings : ∀ handle < before.draft.model.size,
    after.draft.model.heading? handle = before.draft.model.heading? handle
  children : ∀ handle < before.draft.model.size,
    (before.draft.model.heading? handle).isSome →
      after.draft.model.children handle = before.draft.model.children handle
  listed : ∃ handles, after.draft.model.findAll "score" =
      before.draft.model.findAll "score" ++ handles ∧
    List.Forall₂ after.draft.model.IsSetUp scores handles
  reports : after.draft.optionReports =
    before.draft.optionReports ++ scores.flatMap Node.refusals

namespace Analysis.SetsUp

variable {scores more : List Node} {first middle last before after : Analysis}
variable {anchor : Option Handle} {tops : List Handle}

/-- Nothing is set up beside the scores. -/
theorem of_overlooks
    (isPlace : before.draft.model.IsPlace anchor)
    (overlooks : before.draft.Overlooks after.draft)
    (grows : Model.Grows anchor tops before.draft.model after.draft.model) :
    SetsUp [] before after := by
  have headings := overlooks.heading?
  refine ⟨overlooks.size_le, fun handle _ => by rw [headings],
    fun handle inside isHeading => ?_, ⟨[], ?_, .nil⟩,
    overlooks.reports.trans (List.append_nil _).symm⟩
  · have other : anchor ≠ some handle := by
      intro isAnchor
      rw [isPlace.noHeading handle isAnchor] at isHeading
      cases isHeading
    rw [grows.children handle inside, if_neg other, List.append_nil]
  · rw [Model.findAll_score_congr overlooks.size_le headings, List.append_nil]

theorem of_opens
    {node : Node} {score : Handle} (opens : before.Opens node score after) :
    SetsUp [node] before after := by
  obtain ⟨rfl, headings, children, only, isSetUp, reports⟩ := opens
  refine ⟨Nat.le_of_lt (Model.lt_size_of_isScore isSetUp.isScore), headings, children,
    ⟨[before.draft.model.size], ?_, .cons isSetUp .nil⟩, ?_⟩
  · exact Model.findAll_score_concat isSetUp.isScore headings only
  · rw [reports, List.flatMap_singleton]

theorem trans
    (earlier : SetsUp scores first middle) (later : SetsUp more middle last) :
    SetsUp (scores ++ more) first last := by
  have inside : ∀ handle < first.draft.model.size, handle < middle.draft.model.size :=
    fun handle isOld => Nat.lt_of_lt_of_le isOld earlier.size_le
  obtain ⟨handles, listed, setUp⟩ := earlier.listed
  obtain ⟨moreHandles, moreListed, moreSetUp⟩ := later.listed
  refine ⟨Nat.le_trans earlier.size_le later.size_le, fun handle isOld => ?_,
    fun handle isOld isHeading => ?_, ⟨handles ++ moreHandles, ?_, ?_⟩, ?_⟩
  · exact (later.headings handle (inside handle isOld)).trans
      (earlier.headings handle isOld)
  · rw [later.children handle (inside handle isOld),
      earlier.children handle isOld isHeading]
    rw [earlier.headings handle isOld]
    exact isHeading
  · rw [moreListed, listed, List.append_assoc]
  · refine List.rel_append ?_ moreSetUp
    refine setUp.imp fun node score isSetUp => ?_
    have isOld := Model.lt_size_of_isScore isSetUp.isScore
    obtain ⟨version, language, isHeading⟩ := Model.isScore_iff.mp isSetUp.isScore
    exact isSetUp.persists later.size_le later.headings
      (later.children score isOld (isHeading ▸ rfl))
  · rw [later.reports, earlier.reports, List.flatMap_append, List.append_assoc]

end Analysis.SetsUp

/-- Some scores are set up, and they house their lyrics. -/
structure Analysis.Surveys
    (scores : List Node) (before after : Analysis) : Prop where
  setsUp : before.SetsUp scores after
  houses : before.Houses (Node.scoreParts scores) after

namespace Analysis.Surveys

variable {scores more : List Node} {first middle last before after : Analysis}

theorem of_overlooks
    {anchor : Option Handle} {tops : List Handle}
    (isPlace : before.draft.model.IsPlace anchor) (overlooks : before.Overlooks after)
    (grows : Model.Grows anchor tops before.draft.model after.draft.model) :
    Surveys [] before after :=
  ⟨.of_overlooks isPlace overlooks.draft grows,
    .of_same overlooks.draft.size_le overlooks.draft.part? overlooks.placements
      grows.parent?⟩

theorem trans
    (earlier : Surveys scores first middle) (later : Surveys more middle last) :
    Surveys (scores ++ more) first last :=
  ⟨earlier.setsUp.trans later.setsUp,
    Node.scoreParts_append scores more ▸ earlier.houses.trans later.houses⟩

end Analysis.Surveys

namespace Analyser

variable {Value Result : Type} {anchor : Option Handle} {scores more : List Node}

/-- A step that surveys some scores below a place where they may stand. -/
def Surveying
    (anchor : Option Handle) (scores : List Node) (action : Analyser Value) : Prop :=
  ∀ before, before.draft.model.IsPlace anchor → Ensures action before fun _ after =>
    before.Surveys scores after ∧
      ∃ tops, Model.Grows anchor tops before.draft.model after.draft.model

namespace Surveying

/-- What overlooks the landmarks surveys nothing. -/
theorem of_overlooking
    {action : Analyser Value} {property : Value → List Handle → Prop}
    (overlooking : Overlooking action) (growing : Growing anchor action property) :
    Surveying anchor [] action := by
  intro before isPlace
  obtain ⟨tops, grows, _⟩ := growing before isPlace.isAnchor
  exact ⟨.of_overlooks isPlace (overlooking before) grows, tops, grows⟩

theorem of_reads
    {action : Analyser Value} {property : Value → Prop}
    (overlooking : Overlooking action) (quiet : Quiet action property) :
    Surveying anchor [] action :=
  have growing : GrowingAny anchor action :=
    .of_keeping (.of_quiet quiet) fun _ _ => trivial
  .of_overlooking overlooking growing

theorem pure (value : Value) : Surveying anchor [] (Pure.pure value) :=
  have reads : Reads (Pure.pure value : Analyser Value) := .pure trivial
  .of_reads (overlooking_pure value) reads

theorem map
    {action : Analyser Result} (surveying : Surveying anchor scores action)
    (change : Result → Value) :
    Surveying anchor scores (change <$> action) :=
  surveying

/-- What is returned is known. -/
theorem follow
    {action : Analyser Result} {next : Result → Analyser Value}
    {property : Result → Prop} (first : Surveying anchor scores action)
    (yields : Yields action property)
    (second : ∀ result, property result → Surveying anchor more (next result)) :
    Surveying anchor (scores ++ more) (action >>= next) := by
  intro before isPlace
  have known : Ensures action before fun result middle =>
      (before.Surveys scores middle ∧ ∃ tops,
        Model.Grows anchor tops before.draft.model middle.draft.model) ∧
          property result := ⟨first before isPlace, yields before⟩
  apply known.bind
  rintro result middle ⟨⟨surveys, tops, grows⟩, holds⟩
  have stillPlace := isPlace.persists grows surveys.setsUp.headings
  apply (second result holds middle stillPlace).mono
  rintro value after ⟨later, moreTops, moreGrows⟩
  exact ⟨surveys.trans later, tops ++ moreTops,
    grows.trans moreGrows isPlace.isAnchor.hasAnchor⟩

theorem bind
    {action : Analyser Result} {next : Result → Analyser Value}
    (first : Surveying anchor scores action)
    (second : ∀ result, Surveying anchor more (next result)) :
    Surveying anchor (scores ++ more) (action >>= next) :=
  have anything : Yields action fun _ => True := fun _ => trivial
  first.follow anything fun result _ => second result

/-- Nothing is surveyed afterwards. -/
theorem before
    {action : Analyser Result} {next : Result → Analyser Value}
    (first : Surveying anchor scores action)
    (second : ∀ result, Surveying anchor [] (next result)) :
    Surveying anchor scores (action >>= next) :=
  List.append_nil scores ▸ first.bind second

/-- Something is taken from some children first. -/
theorem mandatory
    {parent : Node} {kind : ElementKind} {children : List Node}
    {next : Option Node × List Node → Analyser Value}
    (second : Surveying anchor scores (next (take? kind children))) :
    Surveying anchor scores (mandatory parent kind children >>= next) := by
  have taken : Surveying anchor [] (Analyser.mandatory parent kind children) :=
    of_reads (overlooking_mandatory parent kind children)
      (quiet_mandatory parent kind children)
  refine taken.follow (yields_mandatory parent kind children) ?_
  rintro _ rfl
  exact second

/-- A child that may be missing. -/
theorem optional
    {analyser : Node → Analyser Unit} {scoresOf : Node → List Node}
    (each : ∀ child, Surveying anchor (scoresOf child) (analyser child))
    (child : Option Node) :
    Surveying anchor (child.toList.flatMap scoresOf) (analyseOptional analyser child) := by
  cases child with
  | none => exact .pure ()
  | some child =>
      rw [Option.toList_some, List.flatMap_singleton]
      exact each child

/-- An object is added that is no landmark, and the scores stand below it. -/
theorem branch
    {node : Node} {content : Content} {next : Handle → Analyser Value}
    (other : content.isLandmark = false) (noRelation : content.members? = none)
    (second : ∀ handle, Surveying (some handle) scores (next handle)) :
    Surveying anchor scores (addObject node anchor content >>= next) := by
  intro before isPlace
  have anchored := isPlace.isAnchor.hasAnchor
  have added : Ensures (addObject node anchor content) before fun handle middle =>
      handle = before.draft.model.size ∧ before.Overlooks middle ∧
        before.draft.model.Sprouts anchor middle.draft.model ∧
        ∃ tops, Model.Grows anchor tops before.draft.model middle.draft.model ∧
          tops = [handle] :=
    ⟨before.draft.addObject_fst _ _ anchor content,
      overlooking_addObject node anchor other before,
      before.draft.sprouts_addObject _ _ anchored noRelation,
      growing_addObject node noRelation before isPlace.isAnchor⟩
  apply added.bind
  rintro _ middle ⟨rfl, overlooks, sprouts, tops, grows, _⟩
  have isNewPlace : middle.draft.model.IsPlace (some before.draft.model.size) := by
    refine ⟨sprouts.isAnchor, ?_⟩
    rintro _ ⟨⟩
    rw [overlooks.draft.heading?]
    exact Model.heading?_of_size_le (Nat.le_refl _)
  apply (second _ middle isNewPlace).mono
  rintro value after ⟨later, moreTops, moreGrows⟩
  exact ⟨(Analysis.Surveys.of_overlooks isPlace overlooks grows).trans later, _,
    sprouts.branch moreGrows anchored⟩

end Surveying

/-! ## Scores -/

/-- A score is opened, and its instruments house their lyrics. -/
theorem opens_analyseScore
    {before : Analysis} (isPlace : before.draft.model.IsPlace anchor) (node : Node) :
    Ensures (analyseScore node anchor) before fun score after =>
      before.Opens node score after ∧
        before.Houses (node.scoreCues.flatMap Cue.parts) after := by
  have anchored := isPlace.isAnchor.hasAnchor
  let score := before.draft.model.size
  rw [analyseScore]
  have begun : Ensures (modifyContext fun context =>
      { context with version := Context.defaultVersion }) before fun _ first =>
        first.draft = before.draft ∧
          first.context.lyricPlacements = before.context.lyricPlacements := ⟨rfl, rfl⟩
  apply begun.bind
  rintro _ first ⟨sameDraft, samePlacements⟩
  have added : Ensures (addObject node anchor (.score "" none)) first
      fun handle second => handle = score ∧
        second.draft = (before.draft.addObject node.id? node.location anchor
          (.score "" none)).2 ∧
        second.context.lyricPlacements = before.context.lyricPlacements := by
    simp only [score, ← sameDraft]
    exact ⟨first.draft.addObject_fst _ _ anchor (.score "" none), rfl, samePlacements⟩
  apply added.bind
  rintro _ second ⟨rfl, isAdded, stillPlacements⟩
  have sprouts : before.draft.model.Sprouts anchor second.draft.model := by
    rw [isAdded]
    exact before.draft.sprouts_addObject _ _ anchored rfl
  have isScore : second.draft.model.IsScore score := by
    refine ⟨"", none, ?_⟩
    rw [isAdded, Draft.content?_addObject_eq, if_pos rfl]
  have tidy := (isTidy_addScore sprouts anchored).1
  have head : Ensures (scoreHead node score) second fun rest third =>
      (second.Declares score node.declarations third ∧ rest = node.afterOptions) ∧
        ∃ tops, Model.Grows (some score) tops second.draft.model third.draft.model ∧
          True :=
    ⟨declares_scoreHead isScore tidy node, growing_scoreHead node second sprouts.isAnchor⟩
  apply head.bind
  rintro _ third ⟨⟨declares, rfl⟩, tops, grows, _⟩
  have opens := opens_of_declares isPlace isAdded sprouts declares grows
  have housed : before.Houses [] third := by
    refine .of_same (Nat.le_of_lt (Model.lt_size_of_isScore opens.isSetUp.isScore)) ?_
      (declares.placements.trans stillPlacements) fun handle isOld => ?_
    · rw [declares.parts]
      funext handle
      rw [isAdded, Draft.part?_addObject]
      split
      · rename_i isNew
        exact (Model.part?_of_size_le (Nat.le_of_eq isNew.symm)).symm
      · rfl
    · have isOlder : handle < second.draft.model.size := by
        rw [sprouts.size]
        exact Nat.lt_succ_of_lt isOld
      rw [grows.parent? handle isOlder, sprouts.parent?, if_neg (Nat.ne_of_lt isOld)]
  have required : Ensures (requireInstrument node node.afterOptions) third
      fun _ fourth => third.Overlooks fourth ∧
        fourth.draft.model = third.draft.model :=
    ⟨overlooking_requireInstrument _ _ third,
      (reads_requireInstrument _ _ third).1.draft.model⟩
  apply required.bind
  rintro _ fourth ⟨overlooks, sameModel⟩
  have stillOpens := opens.grow overlooks.draft.heading? overlooks.draft.reports
    ((Model.KeepsTrees.of_eq sameModel).grows _)
  have stillHoused : before.Houses [] fourth :=
    housed.trans (.of_same overlooks.draft.size_le overlooks.draft.part?
      overlooks.placements fun _ _ => by rw [sameModel])
  have isAnchor := isAnchor_of_isScore stillOpens.isSetUp.isScore
  have played : Ensures (analyseEach (instrumentAnalyser? score) node.afterOptions)
      fourth fun _ last => (fourth.Houses (node.scoreCues.flatMap Cue.parts) last ∧
        fourth.Sings _ last) ∧ ∃ tops,
          Model.Grows (some score) tops fourth.draft.model last.draft.model ∧ True :=
    ⟨⟨houses_instruments isAnchor node.afterOptions,
      singing_instruments score node.afterOptions fourth⟩,
      Growing.analyseEach (fun _ _ node known => growing_instrument known node)
        node.afterOptions fourth isAnchor⟩
  apply played.bind
  rintro _ last ⟨⟨houses, sings⟩, tops, grows, _⟩
  exact ⟨stillOpens.grow sings.headings sings.reports grows, stillHoused.trans houses⟩

theorem surveying_analyseScore (node : Node) :
    Surveying anchor [node] (analyseScore node anchor) := by
  intro before isPlace
  have facts : Ensures (analyseScore node anchor) before fun score after =>
      (before.Opens node score after ∧
        before.Houses (node.scoreCues.flatMap Cue.parts) after) ∧
      ∃ tops, Model.Grows anchor tops before.draft.model after.draft.model ∧
        tops = [score] :=
    ⟨opens_analyseScore isPlace node, growing_analyseScore node before isPlace.isAnchor⟩
  apply facts.mono
  rintro score after ⟨⟨opens, houses⟩, tops, grows, _⟩
  have parts : Node.scoreParts [node] = node.scoreCues.flatMap Cue.parts := by
    rw [Node.scoreParts, List.flatMap_singleton]
  exact ⟨⟨.of_opens opens, parts ▸ houses⟩, tops, grows⟩

/-! ## Documents -/

theorem surveying_blocks {handle : Handle} (children : List Node) :
    Surveying (some handle) (children.filter fun child => child.is .score)
      (analyseEach (blockAnalyser? handle) children) := by
  have aside : ∀ {action : Analyser Unit}, Overlooking action →
      GrowingAny (some handle) action → Surveying (some handle) [] action :=
    fun overlooking growing => .of_overlooking overlooking growing
  induction children with
  | nil => exact .pure ()
  | cons child rest induction =>
      rw [analyseEach]
      split
      · rename_i analyser isAnalyser
        obtain ⟨kind, isKind, known⟩ := Option.bind_eq_some_iff.mp isAnalyser
        have isScore : child.is .score = (kind == .score) := by
          rw [Node.is, isKind]
          rfl
        rw [List.filter_cons, isScore]
        have growing := growing_block known child
        unfold blockAnalyser? at known
        split at known <;> cases known
        · exact ((surveying_analyseScore child).map _).bind fun _ => induction
        · exact (aside (overlooking_analyseParagraph child).discard growing).bind
            fun _ => induction
        · exact (aside (overlooking_analyseHeading child).discard growing).bind
            fun _ => induction
        · exact (aside (overlooking_analyseTextItem child).discard growing).bind
            fun _ => induction
      · rename_i unknown
        have noScore : ¬ child.is .score := by
          intro isScore
          rw [beq_iff_eq.mp isScore] at unknown
          cases unknown
        rw [List.filter_cons, if_neg noScore]
        exact (Surveying.of_reads (overlooking_reportMisplaced child)
          (reads_reportMisplaced child)).bind fun _ => induction

theorem surveying_analyseContent (node : Node) :
    Surveying anchor node.contentScores (analyseContent node anchor) := by
  rw [analyseContent, Node.contentScores]
  refine .branch rfl rfl fun handle => ?_
  exact (surveying_blocks node.children).before fun _ => .pure handle

theorem surveying_analyseDocument (node : Node) :
    Surveying anchor node.documentScores (analyseDocument node anchor) := by
  rw [analyseDocument, Node.documentScores]
  refine .mandatory ?_
  rcases take? .version node.children with ⟨_ | version, rest⟩
  · exact .pure none
  · refine .branch rfl rfl fun handle => .mandatory ?_
    refine .before (.optional (fun content => ?_) _) fun _ => ?_
    · exact (surveying_analyseContent content).map _
    · exact (Surveying.of_reads (overlooking_reportExtra _ _)
        (reads_reportExtra _ _)).bind fun _ => .pure _

end Analyser

end LdpScore
