import LdpScore.Proofs.Decimal.Normal
import LdpScore.Proofs.Notation.Spelling
import LdpScore.Relation.Tuplet

/-!
# Durations are above zero

A note lasts longer than no time at all, however many dots and tuplets it has.  The
dots halve what they add up to 255 times, which is not yet too small for double
precision, and the counts of a tuplet divide to a factor that is neither zero nor
infinite.  The factors of many nested tuplets may well multiply to zero or infinity,
yet not to a number below zero.
-/

namespace LdpScore

open Decimal

theorem NoteType.isNormal_units (type : NoteType) : IsNormal (-52) (-18) type.units := by
  cases type <;> simp only [units] <;> exact isNormal_ofNat (by decide) (by decide)

namespace NoteValue

/-- With every dot, the exponent of the total rises by two at most, and that of what
is added falls by two at most. -/
theorem isPositive_addDots
    {dots : Nat} {last total : Float} {least greatest high : Int}
    (lastNormal : IsNormal least greatest last)
    (totalNormal : IsNormal (-52) high total)
    (limited : -970 + 2 * dots ≤ least ∧ greatest ≤ high ∧ high + 2 * dots ≤ 969) :
    IsPositive (addDots dots last total) := by
  induction dots generalizing last total least high with
  | zero => exact totalNormal.isPositive
  | succ dots induction =>
      have half := lastNormal.half (by omega)
      have more := totalNormal.add half (by omega)
      exact induction half more (by omega)

theorem isPositive_units {value : NoteValue} (dots : value.dots < 256) :
    IsPositive value.units :=
  isPositive_addDots value.type.isNormal_units value.type.isNormal_units (by omega)

theorem dots_of_ofText? {text : List Char} {value : NoteValue}
    (isValue : ofText? text = some value) : value.dots < 256 :=
  Nat.lt_succ_of_le (ofText?_eq_some_iff.mp isValue).1

end NoteValue

theorem isPositive_one : IsPositive 1 :=
  (isNormal_ofNat (by decide) (by decide)).isPositive

namespace TimeModification

/-- A modification whose counts can be written in 32 bits. -/
def IsLimited (modification : TimeModification) : Prop :=
  modification.normal ≤ maxCount ∧ modification.actual ≤ maxCount

theorem IsLimited.isPositive_ratio {modification : TimeModification}
    (limited : modification.IsLimited) : IsPositive modification.ratio := by
  unfold IsLimited maxCount at limited
  rw [ratio]
  split
  · exact isPositive_one
  · have normal : IsNormal (-52) (-18) modification.normal.toFloat :=
      isNormal_toFloat (by omega) (by omega)
    have actual : IsNormal (-52) (-18) modification.actual.toFloat :=
      isNormal_toFloat (by omega) (by omega)
    exact (normal.div actual (by decide)).isPositive

end TimeModification

namespace Tuplet

theorem isPlus_foldl_ratio
    {starts : List TupletPoint} {factor : Float} (plus : IsPlus factor)
    (limited : ∀ start ∈ starts, start.modification.IsLimited) :
    IsPlus (starts.foldl (fun product start => product * start.modification.ratio)
      factor) := by
  induction starts generalizing factor with
  | nil => exact plus
  | cons start rest induction =>
      obtain ⟨first, others⟩ := List.forall_mem_cons.mp limited
      exact induction (plus.mul first.isPositive_ratio) others

/-- The factor of any number of open tuplets is a number that is not below zero. -/
theorem isPlus_openRatio {pending : List TupletPoint}
    (limited : ∀ point ∈ pending, point.modification.IsLimited) :
    IsPlus (openRatio pending) :=
  isPlus_foldl_ratio isPositive_one.isPlus fun point isOpen =>
    limited point (List.mem_filter.mp isOpen).1

end Tuplet

end LdpScore
