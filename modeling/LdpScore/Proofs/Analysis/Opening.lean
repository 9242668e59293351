import LdpScore.Proofs.Analysis.Declaring
import LdpScore.Proofs.Analysis.Housing

/-!
# How a score is opened

A score `Opens` with what stands before its instruments: its options are those that
its element declares, what is refused is reported, and no other score is changed.  The
instruments that follow leave it at that, and so does everything after the score.
-/

namespace LdpScore

namespace Node

/-- The options that the element of a score declares, in order, without those that are
refused. -/
def declaredOptions (node : Node) : List (String × OptionValue) :=
  node.declarations.filterMap declared?

/-- The reports about the options that the element of a score has refused. -/
def refusals (node : Node) : List Diagnostic :=
  node.declarations.filterMap refusal?

end Node

namespace Model

variable {before after : Model}

/-- A place for what is new: below an object that is neither a score nor an option, or
below none. -/
structure IsPlace (model : Model) (anchor : Option Handle) : Prop where
  isAnchor : model.IsAnchor anchor
  noHeading : ∀ handle, anchor = some handle → model.heading? handle = none

theorem IsPlace.persists
    {anchor : Option Handle} {tops : List Handle} (isPlace : before.IsPlace anchor)
    (grows : Grows anchor tops before after)
    (headings : ∀ handle < before.size, after.heading? handle = before.heading? handle) :
    after.IsPlace anchor := by
  refine ⟨isPlace.isAnchor.grows grows, fun handle isHandle => ?_⟩
  rw [headings handle (isPlace.isAnchor.hasAnchor handle isHandle)]
  exact isPlace.noHeading handle isHandle

/-! ## Where the scores are -/

theorem isScore_iff {model : Model} {handle : Handle} :
    model.IsScore handle ↔
      ∃ version language, model.heading? handle = some (.score version language) := by
  constructor
  · rintro ⟨version, language, found⟩
    exact ⟨version, language, heading?_eq_some_iff.mpr ⟨found, rfl⟩⟩
  · rintro ⟨version, language, isHeading⟩
    exact ⟨version, language, (heading?_eq_some_iff.mp isHeading).1⟩

theorem isScore_congr
    {handle : Handle} (same : after.heading? handle = before.heading? handle) :
    after.IsScore handle ↔ before.IsScore handle := by
  rw [isScore_iff, same, isScore_iff]

theorem lt_size_of_isScore
    {model : Model} {handle : Handle} (isScore : model.IsScore handle) :
    handle < model.size := by
  obtain ⟨version, language, found⟩ := isScore
  exact lt_size_of_content? found

theorem any_name_eq_score_iff {model : Model} {handle : Handle} :
    ((model.content? handle).any fun content => content.name == "score") = true ↔
      model.IsScore handle := by
  rw [Model.IsScore]
  cases model.content? handle with
  | none => simp
  | some content => cases content <;> simp [Content.name]

/-- All scores stand before any bound beyond the objects. -/
theorem filter_range_eq_findAll
    {bound : Nat} (beyond : before.size ≤ bound)
    (same : ∀ handle < bound, after.IsScore handle ↔ before.IsScore handle) :
    ((List.range bound).filter fun handle =>
      (after.content? handle).any fun content => content.name == "score") =
        before.findAll "score" := by
  obtain ⟨more, rfl⟩ := Nat.exists_eq_add_of_le beyond
  rw [List.range_add, List.filter_append, findAll, handles]
  have nothing : ((List.range more).map (before.size + ·)).filter (fun handle =>
      (after.content? handle).any fun content => content.name == "score") = [] := by
    rw [List.filter_eq_nil_iff]
    intro handle listed isScore
    obtain ⟨offset, inside, rfl⟩ := List.mem_map.mp listed
    have isOld := (same _ (Nat.add_lt_add_left (List.mem_range.mp inside) _)).mp
      (any_name_eq_score_iff.mp isScore)
    exact Nat.not_lt.mpr (Nat.le_add_right ..) (lt_size_of_isScore isOld)
  rw [nothing, List.append_nil]
  refine List.filter_congr fun handle listed => ?_
  rw [Bool.eq_iff_iff, any_name_eq_score_iff, any_name_eq_score_iff]
  exact same handle (Nat.lt_of_lt_of_le (List.mem_range.mp listed) beyond)

/-- As long as all scores and options stay the same there is no other score. -/
theorem findAll_score_congr
    (size_le : before.size ≤ after.size) (same : after.heading? = before.heading?) :
    after.findAll "score" = before.findAll "score" :=
  filter_range_eq_findAll size_le fun _ _ => isScore_congr (by rw [same])

/-- One more score comes last. -/
theorem findAll_score_concat
    (isScore : after.IsScore before.size)
    (old : ∀ handle < before.size, after.heading? handle = before.heading? handle)
    (only : ∀ handle, before.size < handle → ¬ after.IsScore handle) :
    after.findAll "score" = before.findAll "score" ++ [before.size] := by
  obtain ⟨more, size⟩ := Nat.exists_eq_add_of_le (lt_size_of_isScore isScore)
  rw [findAll, handles, size, List.range_add, List.filter_append, List.range_succ,
    List.filter_append, filter_range_eq_findAll (Nat.le_refl _) fun handle isOld =>
      isScore_congr (old handle isOld)]
  have nothing : ((List.range more).map (before.size + 1 + ·)).filter (fun handle =>
      (after.content? handle).any fun content => content.name == "score") = [] := by
    rw [List.filter_eq_nil_iff]
    intro handle listed isOther
    obtain ⟨offset, _, rfl⟩ := List.mem_map.mp listed
    exact only _ (Nat.le_add_right ..) (any_name_eq_score_iff.mp isOther)
  have isLast : [before.size].filter (fun handle =>
      (after.content? handle).any fun content => content.name == "score") =
        [before.size] :=
    List.filter_cons_of_pos (any_name_eq_score_iff.mpr isScore)
  rw [nothing, List.append_nil, isLast]

/-! ## What a score is set up with -/

/-- A score has the options that the element of a score declares. -/
structure IsSetUp (model : Model) (node : Node) (score : Handle) : Prop where
  isScore : model.IsScore score
  tidy : model.IsTidy score
  options : model.options score = ScoreOptions.enterAll [] node.declaredOptions

/-- A score is left alone if all scores and options are, and what stands below them. -/
theorem IsSetUp.persists
    {node : Node} {score : Handle} (isSetUp : before.IsSetUp node score)
    (size_le : before.size ≤ after.size)
    (headings : ∀ handle < before.size, after.heading? handle = before.heading? handle)
    (children : after.children score = before.children score) :
    after.IsSetUp node score := by
  have inside := isSetUp.tidy.inside
  have options : after.options score = before.options score := by
    rw [Model.options, Model.options, children]
    refine List.filterMap_congr fun child listed => ?_
    rw [option?_eq_bind_heading?, headings child (inside child listed),
      ← option?_eq_bind_heading?]
  refine ⟨?_, ⟨?_, options ▸ isSetUp.tidy.distinct⟩, options.trans isSetUp.options⟩
  · exact (isScore_congr (headings score (lt_size_of_isScore isSetUp.isScore))).mpr
      isSetUp.isScore
  · rw [children]
    exact fun child listed => Nat.lt_of_lt_of_le (inside child listed) size_le

end Model

/-- A new score is set up with the options that its element declares. -/
structure Analysis.Opens
    (node : Node) (score : Handle) (before after : Analysis) : Prop where
  isNew : score = before.draft.model.size
  headings : ∀ handle < score,
    after.draft.model.heading? handle = before.draft.model.heading? handle
  children : ∀ handle < score, (before.draft.model.heading? handle).isSome →
    after.draft.model.children handle = before.draft.model.children handle
  only : ∀ handle, score < handle → ¬ after.draft.model.IsScore handle
  isSetUp : after.draft.model.IsSetUp node score
  reports : after.draft.optionReports = before.draft.optionReports ++ node.refusals

/-- What comes to stand below a score leaves it as it is, if it is no option. -/
theorem Analysis.Opens.grow
    {node : Node} {score : Handle} {tops : List Handle} {before middle after : Analysis}
    (opens : before.Opens node score middle)
    (headings : after.draft.model.heading? = middle.draft.model.heading?)
    (reports : after.draft.optionReports = middle.draft.optionReports)
    (grows : Model.Grows (some score) tops middle.draft.model after.draft.model) :
    before.Opens node score after := by
  have inside := Model.lt_size_of_isScore opens.isSetUp.isScore
  obtain ⟨tidy, options⟩ := opens.isSetUp.tidy.of_grows headings grows inside
  refine ⟨opens.isNew, fun handle isOld => ?_, fun handle isOld isHeading => ?_,
    fun handle isLater isScore => ?_, ⟨?_, tidy, options.trans opens.isSetUp.options⟩,
    reports.trans opens.reports⟩
  · rw [headings]
    exact opens.headings handle isOld
  · have other : some score ≠ some handle := fun same =>
      Nat.ne_of_gt isOld (Option.some.inj same)
    rw [grows.children handle (Nat.lt_trans isOld inside), if_neg other, List.append_nil]
    exact opens.children handle isOld isHeading
  · exact opens.only handle isLater
      ((Model.isScore_congr (congrFun headings handle)).mp isScore)
  · exact (Model.isScore_congr (congrFun headings score)).mpr opens.isSetUp.isScore

namespace Analyser

variable {anchor : Option Handle}

/-- A new score has no options yet. -/
theorem isTidy_addScore
    {model : Model} {draft : Draft} (sprouts : draft.model.Sprouts anchor model)
    (anchored : draft.model.HasAnchor anchor) :
    model.IsTidy draft.model.size ∧ model.options draft.model.size = [] := by
  have noChildren : model.children draft.model.size = [] := by
    have other : anchor ≠ some draft.model.size := fun isAnchor =>
      Nat.lt_irrefl _ (anchored _ isAnchor)
    rw [sprouts.children, if_neg other, Model.children_of_size_le (Nat.le_refl _)]
    rfl
  have noOptions : model.options draft.model.size = [] := by
    rw [Model.options, noChildren]
    rfl
  refine ⟨⟨?_, ?_⟩, noOptions⟩
  · rw [noChildren]
    exact fun child listed => absurd listed List.not_mem_nil
  · rw [noOptions]
    exact List.nodup_nil

section Open

variable {node : Node} {before middle after : Analysis} {tops : List Handle}

/-- A score that has been added is opened by declaring its options. -/
theorem opens_of_declares
    (isPlace : before.draft.model.IsPlace anchor)
    (added : middle.draft = (before.draft.addObject node.id? node.location anchor
      (.score "" none)).2)
    (sprouts : before.draft.model.Sprouts anchor middle.draft.model)
    (declares : Analysis.Declares before.draft.model.size node.declarations middle after)
    (grows : Model.Grows (some before.draft.model.size) tops middle.draft.model
      after.draft.model) :
    before.Opens node before.draft.model.size after := by
  have anchored := isPlace.isAnchor.hasAnchor
  have inside : before.draft.model.size < middle.draft.model.size := by
    rw [sprouts.size]
    exact Nat.lt_succ_self _
  have heading? : ∀ handle, middle.draft.model.heading? handle =
      if handle = before.draft.model.size then some (.score "" none)
      else before.draft.model.heading? handle := by
    intro handle
    rw [added, Draft.heading?_addObject]
    rfl
  obtain ⟨tidy, noOptions⟩ := isTidy_addScore sprouts anchored
  have isScore : middle.draft.model.IsScore before.draft.model.size :=
    Model.isScore_iff.mpr ⟨"", none, (heading? _).trans (if_pos rfl)⟩
  -- The options stand below the score, so they are newer.
  have newer : ∀ child ∈ after.draft.model.children before.draft.model.size,
      before.draft.model.size < child := by
    intro child isChild
    rw [grows.children _ inside, if_pos rfl, sprouts.children,
      Model.children_of_size_le (Nat.le_refl _)] at isChild
    have other : anchor ≠ some before.draft.model.size := fun isAnchor =>
      Nat.lt_irrefl _ (anchored _ isAnchor)
    rw [if_neg other] at isChild
    have isNew := Model.mem_elementsFrom.mp (grows.forest.sublist.subset isChild)
    exact Nat.lt_of_lt_of_le inside isNew.1
  refine ⟨rfl, fun handle isOld => ?_, fun handle isOld isHeading => ?_,
    fun handle isLater isOther => ?_, ⟨declares.isScore isScore, declares.tidy, ?_⟩, ?_⟩
  · rcases declares.only handle with same | rfl | ⟨isChild, _⟩
    · exact same.trans ((heading? handle).trans (if_neg (Nat.ne_of_lt isOld)))
    · exact absurd isOld (Nat.lt_irrefl _)
    · exact absurd (newer handle isChild) (Nat.lt_asymm isOld)
  · have notScore : some before.draft.model.size ≠ some handle := fun same =>
      Nat.ne_of_gt isOld (Option.some.inj same)
    have notAnchor : anchor ≠ some handle := by
      intro isAnchor
      rw [isPlace.noHeading handle isAnchor] at isHeading
      cases isHeading
    rw [grows.children handle (Nat.lt_trans isOld inside), if_neg notScore,
      sprouts.children, if_neg notAnchor, List.append_nil, List.append_nil]
  · obtain ⟨version, language, isOther⟩ := Model.isScore_iff.mp isOther
    rcases declares.only handle with same | rfl | ⟨_, name, value, isOption⟩
    · rw [same, heading?, if_neg (Nat.ne_of_gt isLater),
        Model.heading?_of_size_le (Nat.le_of_lt isLater)] at isOther
      cases isOther
    · exact absurd isLater (Nat.lt_irrefl _)
    · rw [isOption] at isOther
      cases isOther
  · rw [declares.options]
    exact congrArg (ScoreOptions.enterAll · node.declaredOptions) noOptions
  · rw [declares.reports]
    have same : middle.draft.optionReports = before.draft.optionReports := by
      rw [added, Draft.optionReports_addObject]
    rw [same]
    rfl

end Open

end Analyser

end LdpScore
