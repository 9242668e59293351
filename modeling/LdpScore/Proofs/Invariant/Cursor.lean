import LdpScore.Proofs.Analysis.Advancing
import Mathlib.Algebra.Order.Group.Int

/-!
# The cursor stays within its measure

Music of several voices moves the cursor back and forth, and a barline ends the
measure at the furthest place that any voice has reached.  However the motions of
the clock are mixed, the cursor never slips out of its measure and the measures
follow each other, as long as no duration is below zero; and none is, whatever the
analysis reads.

The marks of the clock are taken as exact numbers here.  The durations are those of
the analysis itself, in double precision.
-/

namespace LdpScore.Analyser

open Clock

/-- Along motions by durations that are not below zero, the start of the measure, the
cursor and the end of the measure keep their order, the start of the measure goes back
only where an instrument starts, and a new measure starts at the furthest place that
the cursor has reached in the one before.  An analysis only makes such motions. -/
theorem cursor_stays_in_measure :
    (∀ (Time : Type) [AddCommGroup Time] [LinearOrder Time] [IsOrderedAddMonoid Time]
      (earlier later : List (Motion Time)),
      (∀ motion ∈ earlier ++ later, motion.IsNonneg) →
        (initial.run earlier).IsOrdered ∧
        (.start ∉ later →
          (initial.run earlier).measureStart ≤
            (initial.run (earlier ++ later)).measureStart) ∧
        ((∀ motion ∈ earlier.getLast?, motion.opensMeasure = true) →
          (∀ motion ∈ later, motion.opensMeasure = false) →
            IsGreatest {time | time ∈ (initial.run earlier).cursors later}
              (initial.run (earlier ++ later ++ [.endMeasure])).measureStart)) ∧
    ∀ root : Node, ∃ motions : List (Motion Float),
      Moves (analyseRoot root) {} motions ∧
      (∀ motion ∈ motions, motion.IsNonneg) ∧
      ((analyseRoot root).run {}).run.2.context.clock = initial.run motions := by
  constructor
  · intro Time _ _ _ earlier later nonneg
    obtain ⟨nonnegEarlier, nonnegLater⟩ := List.forall_mem_append.mp nonneg
    have initially : (initial : Clock Time).IsOrdered := isOrdered_initial
    have ordered := initially.run nonnegEarlier
    refine ⟨ordered, fun goesOn => ?_, fun opened goesOn => ?_⟩
    · rw [run_append]
      exact ordered.measureStart_le_run nonnegLater goesOn
    · rw [run_append, run_append]
      exact ordered.isGreatest_cursors (measureEnd_eq_cursor opened) nonnegLater goesOn
  · intro root
    have fit : Analysis.TupletsFit {} := fun _ waits => absurd waits List.not_mem_nil
    obtain ⟨motions, moves, nonneg, _⟩ := spreads_advancing.root root {} fit
    exact ⟨motions, moves, nonneg, moves.clock_eq_run⟩

/-- The second voice of a measure starts at its start and goes back too far; the next
measure starts where the first voice has ended.  An analysis of a measure for two
voices ends it there as well. -/
theorem cursor_stays_in_measure_of_two_voices :
    let opened : List (Motion Int) := [.start, .advance 64, .endMeasure]
    let voices : List (Motion Int) :=
      [.advance 128, .goToMeasureStart, .advance 32, .goBack 200]
    let place : Location := ⟨"", 0, 0, 0, 0⟩
    let element name words := Node.element name none
      (words.map fun word => Node.leaf .label word place) place
    let music := Node.element "musicData" none
      [element "n" ["c4", "h"], element "goBack" ["start"], element "n" ["e4", "q"],
        element "barline" []] place
    ((initial.run opened).IsOrdered ∧
      (initial.run opened).measureStart ≤ (initial.run (opened ++ voices)).measureStart ∧
      IsGreatest {time | time ∈ (initial.run opened).cursors voices} (192 : Int)) ∧
    ∃ motions : List (Motion Float),
      Moves (analyseRoot music) {} motions ∧
      (∀ motion ∈ motions, motion.IsNonneg) ∧
      initial.run motions = ⟨128, 128, 128⟩ := by
  intro opened voices place element music
  constructor
  · obtain ⟨ordered, onward, furthest⟩ := cursor_stays_in_measure.1 Int opened voices
      (by simp [opened, voices, Motion.IsNonneg])
    exact ⟨ordered, onward (by decide), furthest (by decide) (by decide)⟩
  · obtain ⟨motions, moves, nonneg, moved⟩ := cursor_stays_in_measure.2 music
    exact ⟨motions, moves, nonneg, moved.symm.trans (by decide +kernel)⟩

end LdpScore.Analyser
