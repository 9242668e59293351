import LdpScore.Proofs.Analysis.Overlooking
import LdpScore.Proofs.Analysis.Performing
import LdpScore.Proofs.Score.Options
import LdpScore.Proofs.Score.Song
import Mathlib.Data.List.Pairwise

/-!
# What the options of a score declare

The element of an option is read without regard to the score.  If it is refused it
changes nothing and is reported once.  Otherwise it is entered into the options of the
score, and only these are changed.
-/

namespace LdpScore

namespace Model

/-- The name and value of an option that stands at a handle. -/
def option? (model : Model) (handle : Handle) : Option (String × OptionValue) :=
  (model.content? handle).bind Content.option?

/-- The options of a score, in the order of its children. -/
def options (model : Model) (score : Handle) : ScoreOptions :=
  (model.children score).filterMap model.option?

theorem option?_eq_some_iff
    {model : Model} {handle : Handle} {name : String} {value : OptionValue} :
    model.option? handle = some (name, value) ↔
      model.content? handle = some (.scoreOption name value) := by
  rw [option?, Option.bind_eq_some_iff]
  constructor
  · rintro ⟨content, found, isOption⟩
    cases content <;> cases isOption
    exact found
  · intro found
    exact ⟨_, found, rfl⟩

/-- Options are among the headings. -/
theorem option?_eq_bind_heading? (model : Model) (handle : Handle) :
    model.option? handle = (model.heading? handle).bind Content.option? := by
  rw [option?, heading?_eq_filter]
  cases model.content? handle with
  | none => rfl
  | some content => cases content <;> rfl

/-- A search for an option finds it where it stands among the options. -/
theorem scoreOption?_eq_lookup (model : Model) (score : Handle) (name : String) :
    model.scoreOption? score name = List.lookup name (model.options score) := by
  rw [scoreOption?, optionHandle?, options]
  induction model.children score with
  | nil => rfl
  | cons child rest induction =>
      rw [List.find?_cons, List.filterMap_cons]
      cases isOption : model.option? child with
      | none =>
          have noOption : (model.content? child).bind Content.option? = none := isOption
          rw [noOption]
          exact induction
      | some option =>
          have isOption : (model.content? child).bind Content.option? = some option :=
            isOption
          rw [isOption, Option.any_some]
          by_cases same : name = option.1
          · rw [same, beq_self_eq_true, List.lookup_cons, beq_self_eq_true]
            simp [isOption]
          · have other : (name == option.1) = false := beq_false_of_ne same
            have others : (option.1 == name) = false := beq_false_of_ne (Ne.symm same)
            rw [others, List.lookup_cons, other]
            exact induction

def IsScore (model : Model) (handle : Handle) : Prop :=
  ∃ version language, model.content? handle = some (.score version language)

/-- The children of a score exist, and the names of its options differ. -/
structure IsTidy (model : Model) (score : Handle) : Prop where
  inside : ∀ child ∈ model.children score, child < model.size
  distinct : ((model.options score).map Prod.fst).Nodup

/-- An option that is found is a child of the score with the name that is sought. -/
theorem optionHandle?_eq_some
    {model : Model} {score option : Handle} {name : String}
    (found : model.optionHandle? score name = some option) :
    option ∈ model.children score ∧
      ∃ value, model.option? option = some (name, value) := by
  have named := List.find?_some found
  obtain ⟨⟨own, value⟩, isOption, isOwn⟩ := (Option.any_eq_true ..).mp named
  obtain rfl : own = name := beq_iff_eq.mp isOwn
  exact ⟨List.mem_of_find?_eq_some found, value, isOption⟩

theorem not_mem_names_of_optionHandle?
    {model : Model} {score : Handle} {name : String}
    (missing : model.optionHandle? score name = none) :
    name ∉ (model.options score).map Prod.fst := by
  rw [List.mem_map]
  rintro ⟨option, listed, rfl⟩
  obtain ⟨child, isChild, isOption⟩ := List.mem_filterMap.mp listed
  have other := List.find?_eq_none.mp missing child isChild
  have isOption : (model.content? child).bind Content.option? = some option := isOption
  rw [isOption, Option.any_some, beq_self_eq_true] at other
  exact other rfl

theorem mem_names_of_optionHandle?
    {model : Model} {score option : Handle} {name : String}
    (found : model.optionHandle? score name = some option) :
    name ∈ (model.options score).map Prod.fst := by
  obtain ⟨isChild, value, isOption⟩ := optionHandle?_eq_some found
  exact List.mem_map.mpr ⟨_, List.mem_filterMap.mpr ⟨option, isChild, isOption⟩, rfl⟩

/-- Options of one name are one. -/
theorem IsTidy.unique
    {model : Model} {score first second : Handle} {name : String}
    {value other : OptionValue} (tidy : model.IsTidy score)
    (isFirst : first ∈ model.children score)
    (isSecond : second ∈ model.children score)
    (ofFirst : model.option? first = some (name, value))
    (ofSecond : model.option? second = some (name, other)) :
    first = second := by
  let apart : Handle → Handle → Prop := fun first second =>
    ∀ option, model.option? first = some option →
      ∀ other, model.option? second = some other → option.1 ≠ other.1
  have symmetric : Std.Symm apart :=
    ⟨fun _ _ differ option isOption other isOther =>
      (differ other isOther option isOption).symm⟩
  have distinct : (model.children score).Pairwise apart :=
    List.pairwise_filterMap.mp (List.pairwise_map.mp tidy.distinct)
  by_contra different
  exact distinct.forall isFirst isSecond different _ ofFirst _ ofSecond rfl

/-- New children that are neither scores nor options leave the options alone. -/
theorem IsTidy.of_grows
    {before after : Model} {score : Handle} {tops : List Handle}
    (tidy : before.IsTidy score) (headings : after.heading? = before.heading?)
    (grows : Grows (some score) tops before after) (inside : score < before.size) :
    after.IsTidy score ∧ after.options score = before.options score := by
  have children := grows.children score inside
  rw [if_pos rfl] at children
  have isNew : ∀ top ∈ tops, before.size ≤ top ∧ top < after.size := by
    intro top isTop
    obtain ⟨outside, isElement⟩ := mem_elementsFrom.mp (grows.forest.sublist.subset isTop)
    exact ⟨outside, lt_size_of_isElement isElement⟩
  have options : after.options score = before.options score := by
    have same : after.option? = before.option? := by
      funext handle
      rw [option?_eq_bind_heading?, headings, ← option?_eq_bind_heading?]
    have nothing : tops.filterMap before.option? = [] := by
      rw [List.filterMap_eq_nil_iff]
      intro top isTop
      rw [option?_eq_bind_heading?, heading?_of_size_le (isNew top isTop).1]
      rfl
    rw [Model.options, children, same, List.filterMap_append, nothing, List.append_nil]
    rfl
  refine ⟨⟨fun child listed => ?_, options ▸ tidy.distinct⟩, options⟩
  rw [children] at listed
  rcases List.mem_append.mp listed with isOld | isTop
  · exact Nat.lt_of_lt_of_le (tidy.inside child isOld) grows.size_le
  · exact (isNew child isTop).2

section Enter

variable {before after : Model} {score : Handle} {name : String} {value : OptionValue}

/-- An option that is there takes the new value. -/
theorem options_of_replaced
    {option : Handle} (tidy : before.IsTidy score)
    (found : before.optionHandle? score name = some option)
    (children : after.children score = before.children score)
    (replaced : ∀ handle, after.option? handle =
      if handle = option then some (name, value) else before.option? handle) :
    after.options score = (before.options score).enter (name, value) := by
  obtain ⟨isChild, old, isOption⟩ := optionHandle?_eq_some found
  rw [ScoreOptions.enter, if_pos (mem_names_of_optionHandle? found), options, options,
    children, List.map_filterMap]
  refine List.filterMap_congr fun child listed => ?_
  rw [replaced]
  split
  · rename_i same
    rw [same, isOption, Option.map_some, if_pos rfl]
  · rename_i different
    cases ofChild : before.option? child with
    | none => rfl
    | some given =>
        have other : given.1 ≠ name := by
          rintro rfl
          exact different (tidy.unique listed isChild ofChild isOption)
        rw [Option.map_some, if_neg other]

/-- A new option comes last. -/
theorem options_of_appended
    {new : Handle} (missing : before.optionHandle? score name = none)
    (isNew : ∀ child ∈ before.children score, child ≠ new)
    (children : after.children score = before.children score ++ [new])
    (appended : ∀ handle, after.option? handle =
      if handle = new then some (name, value) else before.option? handle) :
    after.options score = (before.options score).enter (name, value) := by
  rw [ScoreOptions.enter, if_neg (not_mem_names_of_optionHandle? missing), options, options,
    children, List.filterMap_append]
  congr 1
  · refine List.filterMap_congr fun child listed => ?_
    rw [appended, if_neg (isNew child listed)]
  · rw [List.filterMap_cons, appended, if_pos rfl]
    rfl

end Enter

end Model

/-- Some elements of options are declared to a score.  Nothing is changed but its
options, and what is refused is reported. -/
structure Analysis.Declares
    (score : Handle) (nodes : List Node) (before after : Analysis) : Prop where
  size_le : before.draft.model.size ≤ after.draft.model.size
  parts : after.draft.model.part? = before.draft.model.part?
  placements : after.context.lyricPlacements = before.context.lyricPlacements
  only : ∀ handle, after.draft.model.heading? handle = before.draft.model.heading? handle ∨
    handle = score ∨ handle ∈ after.draft.model.children score ∧
      ∃ name value, after.draft.model.heading? handle = some (.scoreOption name value)
  isScore : before.draft.model.IsScore score → after.draft.model.IsScore score
  children : before.draft.model.children score <+: after.draft.model.children score
  tidy : after.draft.model.IsTidy score
  options : after.draft.model.options score =
    (before.draft.model.options score).enterAll (nodes.filterMap Node.declared?)
  reports : after.draft.optionReports =
    before.draft.optionReports ++ nodes.filterMap Node.refusal?

namespace Analysis.Declares

variable {score : Handle} {nodes more : List Node} {first middle last : Analysis}

theorem trans
    (earlier : Declares score nodes first middle)
    (later : Declares score more middle last) :
    Declares score (nodes ++ more) first last := by
  refine ⟨Nat.le_trans earlier.size_le later.size_le, later.parts.trans earlier.parts,
    later.placements.trans earlier.placements, fun handle => ?_,
    fun isScore => later.isScore (earlier.isScore isScore),
    earlier.children.trans later.children, later.tidy, ?_, ?_⟩
  · rcases later.only handle with same | changed
    · rw [same]
      exact (earlier.only handle).imp_right fun changed => changed.imp_right
        fun isOption => ⟨later.children.subset isOption.1, isOption.2⟩
    · exact Or.inr changed
  · rw [later.options, earlier.options, List.filterMap_append, ScoreOptions.enterAll,
      ScoreOptions.enterAll, ScoreOptions.enterAll, List.foldl_append]
  · rw [later.reports, earlier.reports, List.filterMap_append, List.append_assoc]

theorem refl {state : Analysis} (tidy : state.draft.model.IsTidy score) :
    Declares score [] state state :=
  ⟨Nat.le_refl _, rfl, rfl, fun _ => Or.inl rfl, id, List.prefix_refl _, tidy, rfl,
    (List.append_nil _).symm⟩

/-- What is overlooked declares nothing, though it may stand below the score. -/
theorem of_overlooks
    {before after : Analysis} {tops : List Handle}
    (tidy : before.draft.model.IsTidy score) (inside : score < before.draft.model.size)
    (overlooks : before.Overlooks after)
    (grows : Model.Grows (some score) tops before.draft.model after.draft.model) :
    Declares score [] before after := by
  have headings := overlooks.draft.heading?
  obtain ⟨stillTidy, options⟩ := tidy.of_grows headings grows inside
  refine ⟨overlooks.draft.size_le, overlooks.draft.part?, overlooks.placements,
    fun handle => Or.inl (by rw [headings]), fun isScore => ?_, ?_, stillTidy, options,
    overlooks.draft.reports.trans (List.append_nil _).symm⟩
  · obtain ⟨version, language, found⟩ := isScore
    have isHeading := Model.heading?_eq_some_iff.mpr ⟨found, rfl⟩
    rw [← headings] at isHeading
    exact ⟨version, language, (Model.heading?_eq_some_iff.mp isHeading).1⟩
  · rw [grows.children score inside]
    exact List.prefix_append ..

/-- The score itself says something else. -/
theorem of_replaced
    {before after : Analysis} {version : String} {language : Option String}
    (tidy : before.draft.model.IsTidy score) (isScore : before.draft.model.IsScore score)
    (draft : after.draft = before.draft.mapModel fun model =>
      model.modifyContent score fun _ => .score version language)
    (context : after.context = before.context) :
    Declares score [] before after := by
  obtain ⟨oldVersion, oldLanguage, isOld⟩ := isScore
  have model : after.draft.model = before.draft.model.modifyContent score fun _ =>
      .score version language := by rw [draft]; rfl
  have content? : ∀ handle, after.draft.model.content? handle =
      if handle = score then some (.score version language)
      else before.draft.model.content? handle := by
    intro handle
    rw [model, Model.content?_modifyContent]
    split
    · rename_i same
      rw [same, isOld]
      rfl
    · rw [Option.map_id']
  have isElement : before.draft.model.isElement score := by
    rw [Model.isElement, isOld]
    rfl
  have size : after.draft.model.size = before.draft.model.size := by
    rw [model, Model.size_modifyContent]
  have children : after.draft.model.children = before.draft.model.children := by
    rw [model]
    exact (Model.KeepsTrees.replaceContent isElement rfl).children
  have options : after.draft.model.options score = before.draft.model.options score := by
    have same : after.draft.model.option? = before.draft.model.option? := by
      funext handle
      rw [Model.option?, content?, Model.option?]
      split
      · rename_i same
        rw [same, isOld]
        rfl
      · rfl
    rw [Model.options, Model.options, children, same]
  refine ⟨Nat.le_of_eq size.symm, ?_, by rw [context], fun handle => ?_,
    fun _ => ⟨version, language, by rw [content?, if_pos rfl]⟩, ?_, ⟨?_, ?_⟩, options, ?_⟩
  · funext handle
    rw [Model.part?_eq_bind, content?, Model.part?_eq_bind]
    split
    · rename_i same
      rw [same, isOld]
      rfl
    · rfl
  · rw [Model.heading?_eq_filter, content?]
    split
    · exact Or.inr (Or.inl ‹_›)
    · exact Or.inl (Model.heading?_eq_filter ..).symm
  · exact children ▸ List.prefix_refl _
  · rw [children, size]
    exact tidy.inside
  · rw [options]
    exact tidy.distinct
  · rw [draft]
    exact (List.append_nil _).symm

/-- What does not change the score or what is remembered of lyrics may come first. -/
theorem of_same
    {before middle after : Analysis}
    (model : middle.draft.model = before.draft.model)
    (placements : middle.context.lyricPlacements = before.context.lyricPlacements)
    (reports : middle.draft.optionReports = before.draft.optionReports)
    (declares : Declares score nodes middle after) :
    Declares score nodes before after := by
  obtain ⟨size_le, parts, kept, only, isScore, children, tidy, options, reported⟩ :=
    declares
  rw [model] at size_le parts only isScore children options
  rw [reports] at reported
  exact ⟨size_le, parts, kept.trans placements, only, isScore, children, tidy, options,
    reported⟩

/-- What is refused is only reported. -/
theorem of_refused
    {node : Node} {before after : Analysis} {refusal : Diagnostic}
    (tidy : before.draft.model.IsTidy score) (refused : node.declare = .error refusal)
    (model : after.draft.model = before.draft.model)
    (placements : after.context.lyricPlacements = before.context.lyricPlacements)
    (reports : after.draft.optionReports = before.draft.optionReports ++ [refusal]) :
    Declares score [node] before after := by
  have noOption : node.declared? = none := by rw [Node.declared?, refused]; rfl
  have isRefusal : node.refusal? = some refusal := by rw [Node.refusal?, refused]
  refine ⟨Nat.le_of_eq (congrArg Model.size model.symm), congrArg Model.part? model,
    placements, fun handle => Or.inl (by rw [model]), fun isScore => model ▸ isScore,
    ?_, model ▸ tidy, ?_, ?_⟩
  · exact model ▸ List.prefix_refl _
  · rw [model, List.filterMap_cons, noOption]
    rfl
  · rw [reports, List.filterMap_cons, isRefusal]
    rfl

/-- An option that was there has been replaced, or a new one stands below the score. -/
theorem of_entered
    {node : Node} {before after : Analysis} {name : String} {value : OptionValue}
    (option : Handle) (new : List Handle)
    (tidy : before.draft.model.IsTidy score)
    (declared : node.declare = .ok (name, value))
    (size : after.draft.model.size = before.draft.model.size + new.length)
    (content? : ∀ handle, after.draft.model.content? handle =
      if handle = option then some (.scoreOption name value)
      else before.draft.model.content? handle)
    (noPart : before.draft.model.part? option = none)
    (noScore : ¬ before.draft.model.IsScore option)
    (placements : after.context.lyricPlacements = before.context.lyricPlacements)
    (children : after.draft.model.children score =
      before.draft.model.children score ++ new)
    (isChild : option ∈ after.draft.model.children score)
    (inside : ∀ child ∈ new, child < after.draft.model.size)
    (options : after.draft.model.options score =
      (before.draft.model.options score).enter (name, value))
    (reports : after.draft.optionReports = before.draft.optionReports) :
    Declares score [node] before after := by
  have isDeclared : node.declared? = some (name, value) := by
    rw [Node.declared?, declared]
    rfl
  have noRefusal : node.refusal? = none := by rw [Node.refusal?, declared]
  refine ⟨by omega, ?_, placements, fun handle => ?_, fun isScore => ?_, ?_,
    ⟨fun child listed => ?_, ?_⟩, ?_, ?_⟩
  · funext handle
    rw [Model.part?_eq_bind, content?]
    split
    · rename_i same
      rw [same, noPart]
      rfl
    · exact (Model.part?_eq_bind ..).symm
  · rw [Model.heading?_eq_filter, content?]
    split
    · rename_i same
      exact Or.inr (Or.inr ⟨same ▸ isChild, name, value, rfl⟩)
    · exact Or.inl (Model.heading?_eq_filter ..).symm
  · have other : score ≠ option := fun same => noScore (same ▸ isScore)
    rw [Model.IsScore, content?, if_neg other]
    exact isScore
  · rw [children]
    exact List.prefix_append ..
  · rw [children] at listed
    rcases List.mem_append.mp listed with isOld | isNew
    · exact Nat.lt_of_lt_of_le (tidy.inside child isOld) (by omega)
    · exact inside child isNew
  · rw [options]
    exact ScoreOptions.nodup_names_enter tidy.distinct _
  · rw [options, List.filterMap_cons, isDeclared]
    rfl
  · rw [reports, List.filterMap_cons, noRefusal]
    exact (List.append_nil _).symm

end Analysis.Declares

theorem Draft.optionReports_report
    (draft : Draft) (location : Location) {problem : Problem}
    (isAboutOption : problem.isAboutOption) :
    (draft.report location problem).optionReports =
      draft.optionReports ++ [⟨problem, location⟩] := by
  have isReported : [(⟨problem, location⟩ : Diagnostic)].filter
      (fun diagnostic => diagnostic.problem.isAboutOption) = [⟨problem, location⟩] :=
    List.filter_cons_of_pos isAboutOption
  rw [optionReports, Draft.report, Array.toList_push, List.filter_append, isReported]
  rfl

namespace Node

open Analyser (take?)

/-- The elements of the options of a score: those that stand after the version, the
language, the titles and the cursor. -/
def declarations (node : Node) : List Node :=
  let versioned := (take? .version node.children).2
  let titled := (take? .language versioned).2.dropWhile fun child => child.is .title
  (take? .cursor titled).2.takeWhile fun child => child.is .option

end Node

namespace Analyser

variable {score : Handle}

/-- What reading the element of an option does: nothing but reporting a refusal. -/
structure ReadsOption (node : Node) (before : Analysis)
    (result : Option (String × OptionValue)) (after : Analysis) : Prop where
  result : result = node.declared?
  model : after.draft.model = before.draft.model
  placements : after.context.lyricPlacements = before.context.lyricPlacements
  reports : after.draft.optionReports =
    before.draft.optionReports ++ node.refusal?.toList

theorem readsOption_readOption (node : Node) (before : Analysis) :
    Ensures (readOption node) before (ReadsOption node before) := by
  have taken : Ensures (mandatory node .label node.children) before
      fun result middle => before.Overlooks middle ∧
        middle.draft.model = before.draft.model ∧
        result = take? .label node.children :=
    ⟨overlooking_mandatory _ _ _ before, (quiet_mandatory _ _ _ before).1.draft.model,
      yields_mandatory _ _ _ before⟩
  rw [readOption]
  apply taken.bind
  rintro _ middle ⟨overlooks, sameModel, rfl⟩
  have refused : ∀ {problem location}, problem.isAboutOption →
      node.declare = .error ⟨problem, location⟩ →
      Ensures (do
        report location problem
        return (none : Option (String × OptionValue))) middle
        (ReadsOption node before) := by
    intro problem location isAboutOption isError
    refine ⟨?_, sameModel, overlooks.placements, ?_⟩
    · rw [Node.declared?, isError]
      rfl
    · rw [Node.refusal?, isError]
      refine (Draft.optionReports_report _ _ isAboutOption).trans ?_
      rw [overlooks.draft.reports]
      rfl
  dsimp only
  split
  · rename_i noValue
    exact refused rfl (by simp only [Node.declare, noValue])
  · rename_i valueNode rest isValue
    split
    · rename_i noType
      exact refused rfl (by simp only [Node.declare, isValue, noType])
    · rename_i type isType
      split
      · rename_i notRead
        exact refused rfl (by simp only [Node.declare, isValue, isType, notRead])
      · rename_i value isRead
        have declared : node.declare = .ok (OptionValue.modernize
            (((take? .label node.children).1.map Node.text).getD "") value) := by
          simp only [Node.declare, isValue, isType, isRead]
        have ended : Ensures (reportExtra node rest) middle fun _ after =>
            middle.Overlooks after ∧ after.draft.model = middle.draft.model :=
          ⟨overlooking_reportExtra node rest middle,
            (reads_reportExtra node rest middle).1.draft.model⟩
        apply ended.bind
        rintro _ after ⟨later, stillSame⟩
        have later := overlooks.trans later
        refine ⟨?_, stillSame.trans sameModel, later.placements, ?_⟩
        · rw [Node.declared?, declared]
          rfl
        · rw [Node.refusal?, declared]
          exact later.draft.reports.trans (List.append_nil _).symm

/-- The option that is there is replaced. -/
theorem declares_replaceOption
    {before : Analysis} {node : Node} {name : String} {value : OptionValue}
    {option : Handle} (tidy : before.draft.model.IsTidy score)
    (declared : node.declare = .ok (name, value))
    (found : before.draft.model.optionHandle? score name = some option) :
    Ensures (do
      modifyModel fun model =>
        model.modifyContent option fun _ => .scoreOption name value
      return some option) before fun _ after => before.Declares score [node] after := by
  obtain ⟨isChild, old, isOption⟩ := Model.optionHandle?_eq_some found
  rw [Model.option?_eq_some_iff] at isOption
  let replaced := before.draft.model.modifyContent option fun _ =>
    .scoreOption name value
  have content? : ∀ handle, replaced.content? handle =
      if handle = option then some (.scoreOption name value)
      else before.draft.model.content? handle := by
    intro handle
    rw [Model.content?_modifyContent]
    split
    · rename_i same
      rw [same, isOption]
      rfl
    · rw [Option.map_id']
  have isElement : before.draft.model.isElement option := by
    rw [Model.isElement, isOption]
    rfl
  have children : replaced.children score = before.draft.model.children score :=
    congrFun (Model.KeepsTrees.replaceContent isElement rfl).children score
  have noPart : before.draft.model.part? option = none := by
    rw [Model.part?_eq_bind, isOption]
    rfl
  have options : replaced.options score =
      (before.draft.model.options score).enter (name, value) := by
    refine Model.options_of_replaced tidy found children fun handle => ?_
    rw [Model.option?, content?]
    split <;> rfl
  have noScore : ¬ before.draft.model.IsScore option := by
    rintro ⟨version, language, isScore⟩
    cases isOption.symm.trans isScore
  exact .of_entered option [] tidy declared (Model.size_modifyContent ..) content? noPart
    noScore rfl (children.trans (List.append_nil _).symm) (children ▸ isChild)
    (fun child listed => absurd listed List.not_mem_nil) options rfl

/-- A new option is added below the score. -/
theorem declares_addOption
    {before : Analysis} {node : Node} {name : String} {value : OptionValue}
    (anchored : before.draft.model.HasAnchor (some score))
    (tidy : before.draft.model.IsTidy score)
    (declared : node.declare = .ok (name, value))
    (missing : before.draft.model.optionHandle? score name = none) :
    Ensures (do
      return some (← addObject node (some score) (.scoreOption name value))) before
      fun _ after => before.Declares score [node] after := by
  have content? := before.draft.content?_addObject_eq node.id? node.location (some score)
    (.scoreOption name value)
  have size := before.draft.size_addObject node.id? node.location (some score)
    (.scoreOption name value)
  have sprouts := before.draft.sprouts_addObject node.id? node.location anchored
    (show (Content.scoreOption name value).members? = none from rfl)
  have children := sprouts.children score
  rw [if_pos rfl] at children
  have options : (before.draft.addObject node.id? node.location (some score)
      (.scoreOption name value)).2.model.options score =
        (before.draft.model.options score).enter (name, value) := by
    refine Model.options_of_appended missing (fun child listed => ?_) children
      fun handle => ?_
    · exact Nat.ne_of_lt (tidy.inside child listed)
    · rw [Model.option?, content?]
      split <;> rfl
  have noScore : ¬ before.draft.model.IsScore before.draft.model.size := by
    rintro ⟨version, language, isScore⟩
    exact Nat.lt_irrefl _ (Model.lt_size_of_content? isScore)
  refine .of_entered before.draft.model.size [before.draft.model.size] tidy declared size
    content? (Model.part?_of_size_le (Nat.le_refl _)) noScore rfl children ?_ ?_ options
    (before.draft.optionReports_addObject node.id? node.location (some score) _)
  · exact children ▸ List.mem_append_right _ List.mem_cons_self
  · intro child listed
    rw [List.mem_singleton.mp listed]
    exact Nat.lt_of_lt_of_eq (Nat.lt_succ_self _) size.symm

/-- The element of an option is refused, or it is entered into the options. -/
theorem declares_analyseOption
    {before : Analysis} (anchored : before.draft.model.HasAnchor (some score))
    (tidy : before.draft.model.IsTidy score) (node : Node) :
    Ensures (analyseOption node (some score)) before fun _ after =>
      before.Declares score [node] after := by
  rw [analyseOption]
  apply (readsOption_readOption node before).bind
  intro result middle reads
  cases declared : node.declare with
  | error refusal =>
      have noOption : result = none := by
        rw [reads.result, Node.declared?, declared]
        rfl
      rw [noOption]
      refine .of_refused tidy declared reads.model reads.placements ?_
      have reports := reads.reports
      rw [Node.refusal?, declared] at reports
      exact reports
  | ok option =>
      obtain ⟨name, value⟩ := option
      have isOption : result = some (name, value) := by
        rw [reads.result, Node.declared?, declared]
        rfl
      have reports : middle.draft.optionReports = before.draft.optionReports := by
        rw [reads.reports, Node.refusal?, declared]
        exact List.append_nil _
      rw [isOption]
      refine Ensures.readModel ?_
      rw [Option.bind_some]
      rw [← reads.model] at anchored tidy
      cases found : middle.draft.model.optionHandle? score name with
      | some option =>
          exact (declares_replaceOption tidy declared found).mono fun _ _ declares =>
            .of_same reads.model reads.placements reports declares
      | none =>
          exact (declares_addOption anchored tidy declared found).mono fun _ _ declares =>
            .of_same reads.model reads.placements reports declares

/-- The elements of options are declared one after the other. -/
theorem declares_leadingOptions
    {before : Analysis} (anchored : before.draft.model.HasAnchor (some score))
    (tidy : before.draft.model.IsTidy score) (children : List Node) :
    Ensures (leadingOptions score children) before fun _ after =>
      before.Declares score (children.takeWhile fun child => child.is .option) after := by
  induction children generalizing before with
  | nil => exact .refl tidy
  | cons child rest induction =>
      rw [leadingOptions, List.takeWhile_cons]
      split
      · have declared : Ensures (discard (analyseOption child (some score))) before
            fun _ middle => before.Declares score [child] middle :=
          declares_analyseOption anchored tidy child
        apply declared.bind
        intro _ middle declares
        have stillAnchored : middle.draft.model.HasAnchor (some score) :=
          fun handle isScore =>
            Nat.lt_of_lt_of_le (anchored handle isScore) declares.size_le
        exact (induction stillAnchored declares.tidy).mono fun _ _ later =>
          declares.trans later
      · exact .refl tidy

/-! ## The head of a score -/

/-- What grows below the score while the landmarks are overlooked declares nothing. -/
theorem declares_of_overlooking
    {Value : Type} {action : Analyser Value} {property : Value → List Handle → Prop}
    (overlooking : Overlooking action) (growing : Growing (some score) action property)
    {before : Analysis} (isAnchor : before.draft.model.IsAnchor (some score))
    (tidy : before.draft.model.IsTidy score) :
    Ensures action before fun _ after => before.Declares score [] after := by
  obtain ⟨tops, grows, _⟩ := growing before isAnchor
  exact .of_overlooks tidy (isAnchor.hasAnchor score rfl) (overlooking before) grows

/-- A score stands in a tree. -/
theorem isAnchor_of_isScore {model : Model} (isScore : model.IsScore score) :
    model.IsAnchor (some score) := by
  rintro _ ⟨⟩
  obtain ⟨version, language, found⟩ := isScore
  rw [Model.isElement, found]
  rfl

theorem declares_scoreHead
    {before : Analysis} (isScore : before.draft.model.IsScore score)
    (tidy : before.draft.model.IsTidy score) (node : Node) :
    Ensures (scoreHead node score) before fun rest after =>
      before.Declares score node.declarations after ∧ rest = node.afterOptions := by
  suffices declared : Ensures (scoreHead node score) before fun _ after =>
      before.Declares score node.declarations after from
    ⟨declared, yields_scoreHead node score before⟩
  have read : ∀ {Value : Type} {action : Analyser Value} {state : Analysis},
      Overlooking action → Reads action → state.draft.model.IsScore score →
      state.draft.model.IsTidy score →
      Ensures action state fun _ after => state.Declares score [] after := by
    intro Value action state overlooking reads isScore tidy
    have growing : GrowingAny (some score) action :=
      .of_keeping (.of_quiet reads) fun _ _ => trivial
    exact declares_of_overlooking overlooking growing (isAnchor_of_isScore isScore) tidy
  rw [scoreHead, Node.declarations]
  have versioned : Ensures (mandatory node .version node.children) before
      fun result first => before.Declares score [] first ∧
        result = take? .version node.children :=
    ⟨read (overlooking_mandatory _ _ _) ((quiet_mandatory _ _ _).mono fun _ _ => trivial)
      isScore tidy, yields_mandatory _ _ _ before⟩
  apply versioned.bind
  rintro _ first ⟨toFirst, rfl⟩
  dsimp only
  apply (read (.optional overlooking_analyseVersion _)
    (reads_analyseOptional reads_analyseVersion _) (toFirst.isScore isScore)
    toFirst.tidy).bind
  intro _ second later
  have toSecond := toFirst.trans later
  refine Ensures.readContext ?_
  have replaced : ∀ version language, Ensures (modifyModel fun model =>
      model.modifyContent score fun _ => .score version language) second
        fun _ third => second.Declares score [] third :=
    fun version language => .of_replaced toSecond.tidy (toSecond.isScore isScore) rfl rfl
  apply (replaced _ _).bind
  intro _ third later
  have toThird := toSecond.trans later
  have titled : Ensures (leadingTitles score (take? .language
      (take? .version node.children).2).2) third fun result fourth =>
        third.Declares score [] fourth ∧ result = (take? .language
          (take? .version node.children).2).2.dropWhile fun child => child.is .title :=
    ⟨declares_of_overlooking (overlooking_leadingTitles _ _) (growing_leadingTitles _)
      (isAnchor_of_isScore (toThird.isScore isScore)) toThird.tidy,
      yields_leadingTitles _ _ third⟩
  apply titled.bind
  rintro _ fourth ⟨later, rfl⟩
  have toFourth := toThird.trans later
  have obsolete : ∀ cursor : Node, Overlooking
      (report cursor.location .obsoleteCursor) := fun _ => overlooking_report _ rfl
  apply (read (.optional obsolete _) (reads_analyseOptional
    (fun cursor => reads_report cursor.location (by simp)) _)
    (toFourth.isScore isScore) toFourth.tidy).bind
  intro _ fifth later
  have toFifth := toFourth.trans later
  have anchored := (isAnchor_of_isScore (toFifth.isScore isScore)).hasAnchor
  exact (declares_leadingOptions anchored toFifth.tidy _).mono fun _ _ later =>
    toFifth.trans later

end Analyser

end LdpScore
