import LdpScore.Proofs.Analysis.Concluding
import LdpScore.Proofs.Analysis.Run

/-!
# The last declaration of an option wins

The options of a score are those that its element declares.  Each name stands where it
was first declared, an old name counting as the one that took its place, and has the
value that was declared last.  What is refused changes no option and is reported once.
-/

namespace LdpScore

open Analyser

/-- The elements of options that a tree declares: those of its scores, or the tree
itself. -/
def Node.optionElements (tree : Node) : List Node :=
  if tree.is .option then [tree] else tree.scores.flatMap declarations

/-- The options of a score are those that its element declares. -/
structure Model.HasOptions (model : Model) (element : Node) (score : Handle) : Prop where
  isScore : model.IsScore score
  /-- There is one option for each name. -/
  distinct : ((model.options score).map Prod.fst).Nodup
  /-- The names stand in the order in which they were first declared. -/
  names : (model.options score).map Prod.fst =
    (element.declaredOptions.map Prod.fst).eraseDups
  /-- The value of a name is the one declared last. -/
  value : ∀ name, model.scoreOption? score name =
    List.lookup name element.declaredOptions.reverse
  isTyped : ∀ option ∈ model.options score, IsTypedOption option

theorem Model.IsSetUp.hasOptions
    {model : Model} {element : Node} {score : Handle}
    (isSetUp : model.IsSetUp element score) :
    model.HasOptions element score := by
  refine ⟨isSetUp.isScore, isSetUp.tidy.distinct, ?_, fun name => ?_,
    fun option listed => ?_⟩
  · rw [isSetUp.options, ScoreOptions.names_enterAll]
  · rw [scoreOption?_eq_lookup, isSetUp.options, ScoreOptions.lookup_enterAll]
  · rw [isSetUp.options] at listed
    obtain ⟨element, _, isDeclared⟩ :=
      List.mem_filterMap.mp (ScoreOptions.mem_of_mem_enterAll listed)
    exact Node.isTypedOption_of_declared? isDeclared

/-- Without scores there is none to be found. -/
theorem Model.findAll_score_eq_nil
    {model : Model} (noScore : ∀ handle, ¬ model.IsScore handle) :
    model.findAll "score" = [] := by
  rw [findAll, List.filter_eq_nil_iff]
  exact fun handle _ isScore => noScore handle (any_name_eq_score_iff.mp isScore)

/-- The scores of a tree are set up, and every refusal is reported. -/
theorem Analysis.Concludes.hasOptions
    {tree : Node} {last : Analysis} (concludes : last.Concludes tree) :
    List.Forall₂ last.draft.model.HasOptions tree.scores
        (last.draft.model.findAll "score") ∧
      last.draft.optionReports = tree.optionElements.filterMap Node.refusal? := by
  -- A tree of any other kind has no scores, and nothing to say of options.
  have without : tree.scores = [] → ¬ tree.is .option →
      (∀ handle, last.draft.model.heading? handle = none) →
      last.draft.optionReports = [] →
      List.Forall₂ last.draft.model.HasOptions tree.scores
          (last.draft.model.findAll "score") ∧
        last.draft.optionReports = tree.optionElements.filterMap Node.refusal? := by
    intro noElement noOption noHeading noReport
    rw [Node.optionElements, if_neg noOption, noElement, noReport,
      Model.findAll_score_eq_nil fun handle isScore => ?_]
    · exact ⟨.nil, rfl⟩
    · obtain ⟨version, language, isHeading⟩ := Model.isScore_iff.mp isScore
      cases (noHeading handle).symm.trans isHeading
  cases concludes with
  | scores isKind surveys =>
      obtain ⟨handles, listed, setUp⟩ := surveys.setsUp.listed
      have noOption : ¬ tree.is .option := by
        intro isOption
        rw [Node.is, Node.is, Node.is, beq_iff_eq.mp isOption] at isKind
        revert isKind
        decide
      have listed : last.draft.model.findAll "score" = handles := listed
      rw [Node.optionElements, if_neg noOption, listed, surveys.setsUp.reports,
        List.filterMap_flatMap]
      exact ⟨setUp.imp fun _ _ isSetUp => isSetUp.hasOptions, rfl⟩
  | instrument isInstrument sings _ =>
      refine without ?_ ?_ (fun handle => ?_) sings.reports
      · rw [Node.scores, beq_iff_eq.mp isInstrument]
      · rw [Node.is, beq_iff_eq.mp isInstrument]
        decide
      · rw [sings.headings]
        exact Model.heading?_of_size_le (Nat.zero_le handle)
  | option isOption _ noScore reports =>
      rw [Node.optionElements, if_pos isOption, Node.scores, beq_iff_eq.mp isOption,
        Model.findAll_score_eq_nil noScore, reports, List.filterMap_cons,
        List.filterMap_nil]
      refine ⟨.nil, ?_⟩
      cases tree.refusal? <;> rfl
  | fragment other isFragment =>
      refine without ?_ ?_ isFragment.noHeading isFragment.noReport
      · rw [Node.scores]
        split
        · exact absurd ‹_› (other _ (by decide))
        · exact absurd ‹_› (other _ (by decide))
        · exact absurd ‹_› (other _ (by decide))
        · rfl
      · exact fun isOption => other .option (by decide) (beq_iff_eq.mp isOption)

/--
The last declaration of an option wins: every score of a tree has one option for each
name that its element declares, in the order in which they are first declared, with the
value that is declared last.  Every option that is refused is reported once, and it
changes nothing.
-/
theorem lastDeclarationWins_analyse (tree : Node) :
    List.Forall₂ (analyse tree).1.HasOptions tree.scores
        ((analyse tree).1.findAll "score") ∧
      ((analyse tree).2.toList.filter fun diagnostic =>
        diagnostic.problem.isAboutOption) =
          tree.optionElements.filterMap Node.refusal? :=
  (concludes_analyseRoot tree).hasOptions

/-- An old name takes the place of the new one, and what cannot be read is ignored. -/
example : (analyseSource
    ("(score (vers 2.0) (opt StaffLines.StopAtFinalBarline true) " ++
      "(opt StaffLines.Truncate 2) (opt Staff.DrawLeftBarline no) " ++
      "(opt StaffLines.StopAtFinalBarline yes) (opt StaffLines.Truncate none) " ++
      "(instrument (musicData)))") "").result.toOption.map (fun model =>
        model.options 0) =
      some [("StaffLines.Truncate", .long 1), ("Staff.DrawLeftBarline", .bool false)] := by
  decide +kernel

end LdpScore
