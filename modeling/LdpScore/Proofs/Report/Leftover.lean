import LdpScore.Proofs.Report.Document
import LdpScore.Proofs.Invariant.Tree

/-!
# Nothing is left over

An element that is read to its end reports what it cannot use.  So a child of
unknown kind cannot be slipped in after its last child.  The analysers of versions,
of the number of staves, of ties, slurs and beams, and of the end of a tuplet stop
before that, and to them it does not apply.
-/

namespace LdpScore

open Node

/-- An element of unknown kind. -/
def Node.junk : Node :=
  element "junk" none [] Location.nowhere

/--
No junk is accepted silently.  If the analysis of a tree comes to an element that is
read to its end, and that element gets one more child of unknown kind after the last
one, then something is reported about the tree.
-/
theorem reports_appendAt
    {root inner extra : Node} {path : List Nat}
    (reached : root.analysedAt? path = some inner) (readsOn : inner.readsOn)
    (unknown : extra.kind? = none) : (analyse (appendAt extra path root)).2 ≠ #[] := by
  intro silent
  have anywhere : (appendAt extra path root).Lies fun _ => True := fun _ _ => trivial
  exact not_sound_appendAt reached readsOn unknown ((reports_analyse anywhere).2 silent)

/-- Junk in the curve of a tie. -/
theorem reports_junk_in_curve :
    ∃ root inner,
      (Node.read (Token.lex
        ("(musicData (n c4 q (tie 1 start (bezier))) (n c4 q (tie 1 stop)))")
        "")).result = .ok root ∧
      root.analysedAt? [0, 2, 2] = some inner ∧ inner.readsOn ∧ junk.kind? = none ∧
      (analyse (appendAt junk [0, 2, 2] root)).2 ≠ #[] := by
  obtain ⟨root, isRoot, checked⟩ := exists_tree_of_any
    (fun root => (root.analysedAt? [0, 2, 2]).any Node.readsOn)
    (by decide +kernel : (Node.read (Token.lex
      ("(musicData (n c4 q (tie 1 start (bezier))) (n c4 q (tie 1 stop)))")
      "")).result.toOption.any _)
  obtain ⟨inner, reached, readsOn⟩ := Option.any_eq_true _ _ |>.mp checked
  exact ⟨root, inner, isRoot, reached, readsOn, rfl, reports_appendAt reached readsOn rfl⟩

/-! ## What is left unread -/

/-- Nothing is reported about a tree, and nothing if an element of some kind has
junk after its last child. -/
def Node.HidesJunk (kind : ElementKind) (root : Node) (path : List Nat) : Prop :=
  (analyse root).2 = #[] ∧ (root.analysedAt? path).any (fun inner => inner.is kind) ∧
    (analyse (appendAt junk path root)).2 = #[]

theorem exists_hidesJunk_of_source
    (source : String) (kind : ElementKind) (path : List Nat)
    (hides : (Node.read (Token.lex source "")).result.toOption.any fun root =>
      (analyse root).2.isEmpty && (root.analysedAt? path).any (fun inner => inner.is kind) &&
        (analyse (appendAt junk path root)).2.isEmpty) :
    ∃ root path, HidesJunk kind root path := by
  obtain ⟨root, _, checked⟩ := exists_tree_of_any _ hides
  obtain ⟨both, silentAfter⟩ := Bool.and_eq_true_iff.mp checked
  obtain ⟨silent, isKind⟩ := Bool.and_eq_true_iff.mp both
  exact ⟨root, path, Array.isEmpty_iff.mp silent, isKind, Array.isEmpty_iff.mp silentAfter⟩

/-- There are elements of six kinds in which junk is not noticed. -/
theorem exists_hidesJunk :
    ∀ kind ∈ [ElementKind.version, .staves, .tie, .slur, .beam, .tuplet],
      ∃ root path, HidesJunk kind root path := by
  simp only [List.forall_mem_cons]
  refine ⟨?_, ?_, ?_, ?_, ?_, ?_, fun _ => List.not_mem_nil.elim⟩
  · exact exists_hidesJunk_of_source "(score (vers 1.6) (instrument (musicData)))"
      .version [0] (by decide +kernel)
  · exact exists_hidesJunk_of_source "(instrument (staves 2) (musicData))"
      .staves [0] (by decide +kernel)
  · exact exists_hidesJunk_of_source
      "(musicData (n c4 q (tie 1 start)) (n c4 q (tie 1 stop)))"
      .tie [0, 2] (by decide +kernel)
  · exact exists_hidesJunk_of_source
      "(musicData (n c4 q (slur 1 start)) (n c4 q (slur 1 stop)))"
      .slur [0, 2] (by decide +kernel)
  · exact exists_hidesJunk_of_source
      "(musicData (n c4 e (beam 1 +)) (n c4 e (beam 1 -)))"
      .beam [0, 2] (by decide +kernel)
  · exact exists_hidesJunk_of_source
      "(musicData (n c4 e (t + 3 2)) (n c4 e (t -)))"
      .tuplet [1, 2] (by decide +kernel)

/-- Junk after the number of a version is not reported. -/
theorem not_all_junk_reported :
    ¬ ∀ (root inner extra : Node) (path : List Nat), (analyse root).2 = #[] →
      root.analysedAt? path = some inner →
      inner.is .language = false → inner.is .cursor = false → extra.kind? = none →
      (analyse (appendAt extra path root)).2 ≠ #[] := by
  intro reported
  obtain ⟨root, path, silent, isVersion, silentAfter⟩ :=
    exists_hidesJunk .version List.mem_cons_self
  obtain ⟨inner, reached, isVersion⟩ := Option.any_eq_true _ _ |>.mp isVersion
  have isOther : ∀ kind, kind ≠ .version → inner.is kind = false := by
    intro kind other
    rw [Node.is, eq_of_beq isVersion]
    exact beq_eq_false_iff_ne.mpr fun same => other (Option.some.inj same).symm
  exact reported root inner junk path silent reached (isOther _ (by decide))
    (isOther _ (by decide)) rfl silentAfter

end LdpScore
