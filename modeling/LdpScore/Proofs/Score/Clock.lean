import LdpScore.Score.Clock
import Mathlib.Algebra.Order.Group.Defs
import Mathlib.Order.Bounds.Basic

/-!
# The order of the marks of a clock

Six motions move the marks of a clock, and they may come in any order.  As long as
no duration is below zero, the cursor stays between the start and the end of its
measure.  The start of the measure only ever moves forward until another instrument
starts.

The end of the measure is the furthest place that the cursor has reached in the
measure.  This is what a barline needs: the next measure starts after all voices of
the one before.
-/

namespace LdpScore.Clock

variable {Time : Type}

/-- What moves the marks of a clock. -/
inductive Motion (Time : Type) where
  /-- An instrument starts. -/
  | start
  | advance (duration : Time)
  | goBack (duration : Time)
  | goToMeasureStart
  | goToMeasureEnd
  | endMeasure
deriving DecidableEq, Repr

namespace Motion

/-- The clock after a motion. -/
def apply [OfNat Time 0] [Add Time] [Sub Time] [LT Time] [DecidableLT Time]
    (clock : Clock Time) : Motion Time → Clock Time
  | .start => .initial
  | .advance duration => clock.advance duration
  | .goBack duration => clock.goBack duration
  | .goToMeasureStart => clock.goToMeasureStart
  | .goToMeasureEnd => clock.goToMeasureEnd
  | .endMeasure => clock.endMeasure

/-- A motion by a duration that is not below zero, or without a duration. -/
def IsNonneg [OfNat Time 0] [LE Time] : Motion Time → Prop
  | .advance duration | .goBack duration => 0 ≤ duration
  | _ => True

/-- Whether a measure starts with a motion. -/
def opensMeasure : Motion Time → Bool
  | .start | .endMeasure => true
  | _ => false

end Motion

section Run

variable [OfNat Time 0] [Add Time] [Sub Time] [LT Time] [DecidableLT Time]

/-- The clock after some motions. -/
def run (clock : Clock Time) (motions : List (Motion Time)) : Clock Time :=
  motions.foldl Motion.apply clock

@[simp]
theorem run_nil (clock : Clock Time) : clock.run [] = clock :=
  rfl

@[simp]
theorem run_cons (clock : Clock Time) (motion : Motion Time)
    (motions : List (Motion Time)) :
    clock.run (motion :: motions) = (motion.apply clock).run motions :=
  rfl

@[simp]
theorem run_append (clock : Clock Time) (earlier later : List (Motion Time)) :
    clock.run (earlier ++ later) = (clock.run earlier).run later :=
  List.foldl_append

/-- Where the cursor is before, between and after some motions. -/
def cursors (clock : Clock Time) : List (Motion Time) → List Time
  | [] => [clock.cursor]
  | motion :: motions => clock.cursor :: (motion.apply clock).cursors motions

theorem cursor_mem_cursors (clock : Clock Time) (motions : List (Motion Time)) :
    clock.cursor ∈ clock.cursors motions := by
  cases motions <;> simp [cursors]

end Run

/-- The cursor is between the start and the end of its measure. -/
structure IsOrdered [OfNat Time 0] [LE Time] (clock : Clock Time) : Prop where
  nonneg : 0 ≤ clock.measureStart
  started : clock.measureStart ≤ clock.cursor
  reached : clock.cursor ≤ clock.measureEnd

/-! ## One motion -/

variable [AddCommGroup Time] [LinearOrder Time]
variable {clock : Clock Time} {motion : Motion Time} {motions : List (Motion Time)}

theorem isOrdered_initial : (initial : Clock Time).IsOrdered :=
  ⟨le_rfl, le_rfl, le_rfl⟩

theorem measureEnd_advance (clock : Clock Time) (duration : Time) :
    (clock.advance duration).measureEnd =
      max clock.measureEnd (clock.cursor + duration) :=
  (max_def_lt clock.measureEnd (clock.cursor + duration)).symm

theorem cursor_goBack (clock : Clock Time) (duration : Time) :
    (clock.goBack duration).cursor =
      max clock.measureStart (clock.cursor - duration) :=
  (max_def_lt clock.measureStart (clock.cursor - duration)).symm

theorem IsOrdered.measureStart_le (ordered : clock.IsOrdered)
    (goesOn : motion ≠ .start) :
    clock.measureStart ≤ (motion.apply clock).measureStart := by
  cases motion with
  | start => exact absurd rfl goesOn
  | endMeasure => exact ordered.started.trans ordered.reached
  | _ => exact le_rfl

/-- At the start of a measure the cursor is at its end too. -/
theorem measureEnd_eq_cursor {motions : List (Motion Time)}
    (opened : ∀ motion ∈ motions.getLast?, motion.opensMeasure = true) :
    (initial.run motions : Clock Time).measureEnd = (initial.run motions).cursor := by
  rcases List.eq_nil_or_concat motions with rfl | ⟨earlier, motion, rfl⟩
  · rfl
  · have isOpening : motion.opensMeasure = true := opened motion (by simp)
    rw [List.concat_eq_append, run_append]
    cases motion <;> first | rfl | cases isOpening

variable [IsOrderedAddMonoid Time]

theorem IsOrdered.apply (ordered : clock.IsOrdered) (nonneg : motion.IsNonneg) :
    (motion.apply clock).IsOrdered := by
  have measure : clock.measureStart ≤ clock.measureEnd :=
    ordered.started.trans ordered.reached
  cases motion with
  | start => exact isOrdered_initial
  | advance duration =>
      refine ⟨ordered.nonneg, ?_, ?_⟩
      · exact ordered.started.trans (le_add_of_nonneg_right nonneg)
      · rw [Motion.apply, measureEnd_advance]
        exact le_max_right _ _
  | goBack duration =>
      have shorter : clock.cursor - duration ≤ clock.cursor := sub_le_self _ nonneg
      refine ⟨ordered.nonneg, ?_, ?_⟩
      · rw [Motion.apply, cursor_goBack]
        exact le_max_left _ _
      · rw [Motion.apply, cursor_goBack]
        exact max_le measure (shorter.trans ordered.reached)
  | goToMeasureStart => exact ⟨ordered.nonneg, le_rfl, measure⟩
  | goToMeasureEnd => exact ⟨ordered.nonneg, measure, le_rfl⟩
  | endMeasure => exact ⟨ordered.nonneg.trans measure, le_rfl, le_rfl⟩

/-- The end of a measure follows the cursor, but not back. -/
theorem IsOrdered.measureEnd_apply (ordered : clock.IsOrdered)
    (nonneg : motion.IsNonneg) (goesOn : motion.opensMeasure = false) :
    (motion.apply clock).measureEnd =
      max clock.measureEnd (motion.apply clock).cursor := by
  have reached := (ordered.apply nonneg).reached
  cases motion with
  | start => cases goesOn
  | endMeasure => cases goesOn
  | advance duration => exact measureEnd_advance clock duration
  | _ => exact (max_eq_left reached).symm

/-! ## Any number of motions -/

theorem IsOrdered.run (ordered : clock.IsOrdered)
    (nonneg : ∀ motion ∈ motions, motion.IsNonneg) :
    (clock.run motions).IsOrdered := by
  induction motions generalizing clock with
  | nil => exact ordered
  | cons motion motions induction =>
      obtain ⟨first, later⟩ := List.forall_mem_cons.mp nonneg
      exact induction (ordered.apply first) later

theorem IsOrdered.measureStart_le_run (ordered : clock.IsOrdered)
    (nonneg : ∀ motion ∈ motions, motion.IsNonneg) (goesOn : .start ∉ motions) :
    clock.measureStart ≤ (clock.run motions).measureStart := by
  induction motions generalizing clock with
  | nil => exact le_rfl
  | cons motion motions induction =>
      obtain ⟨first, later⟩ := List.forall_mem_cons.mp nonneg
      have isMotion : motion ≠ .start :=
        fun isStart => goesOn (isStart ▸ List.mem_cons_self)
      exact (ordered.measureStart_le isMotion).trans
        (induction (ordered.apply first) later (mt (List.mem_cons_of_mem _) goesOn))

/-- Within a measure, its end is the furthest of where it was and where the cursor
has been since. -/
theorem IsOrdered.isGreatest_measureEnd (ordered : clock.IsOrdered)
    (nonneg : ∀ motion ∈ motions, motion.IsNonneg)
    (goesOn : ∀ motion ∈ motions, motion.opensMeasure = false) :
    IsGreatest {time | time = clock.measureEnd ∨ time ∈ clock.cursors motions}
      (clock.run motions).measureEnd := by
  induction motions generalizing clock with
  | nil =>
      refine ⟨.inl rfl, ?_⟩
      rintro time (rfl | reached)
      · exact le_rfl
      · rw [List.mem_singleton.mp reached]
        exact ordered.reached
  | cons motion motions induction =>
      obtain ⟨nonnegFirst, nonnegLater⟩ := List.forall_mem_cons.mp nonneg
      obtain ⟨goesOnFirst, goesOnLater⟩ := List.forall_mem_cons.mp goesOn
      have next := ordered.apply nonnegFirst
      obtain ⟨reached, furthest⟩ := induction next nonnegLater goesOnLater
      have follows := ordered.measureEnd_apply nonnegFirst goesOnFirst
      have visited := (motion.apply clock).cursor_mem_cursors motions
      constructor
      · rcases reached with same | reached
        · rw [run_cons, same, follows]
          rcases max_choice clock.measureEnd (motion.apply clock).cursor with old | new
          · exact .inl old
          · rw [new]
            exact .inr (List.mem_cons_of_mem _ visited)
        · exact .inr (List.mem_cons_of_mem _ reached)
      · have before : clock.measureEnd ≤ ((motion.apply clock).run motions).measureEnd :=
          le_trans (follows ▸ le_max_left _ _) (furthest (.inl rfl))
        rintro time (rfl | visited)
        · exact before
        · rcases List.mem_cons.mp visited with rfl | later
          · exact ordered.reached.trans before
          · exact furthest (.inr later)

/-- From the start of a measure on, its end is the furthest place that the cursor has
reached. -/
theorem IsOrdered.isGreatest_cursors (ordered : clock.IsOrdered)
    (opened : clock.measureEnd = clock.cursor)
    (nonneg : ∀ motion ∈ motions, motion.IsNonneg)
    (goesOn : ∀ motion ∈ motions, motion.opensMeasure = false) :
    IsGreatest {time | time ∈ clock.cursors motions} (clock.run motions).measureEnd := by
  obtain ⟨reached, furthest⟩ := ordered.isGreatest_measureEnd nonneg goesOn
  refine ⟨?_, fun time visited => furthest (.inr visited)⟩
  rcases reached with same | visited
  · rw [same, opened]
    exact clock.cursor_mem_cursors motions
  · exact visited

end LdpScore.Clock
