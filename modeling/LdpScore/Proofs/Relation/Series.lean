import LdpScore.Proofs.Relation.Waiting
import LdpScore.Relation.Tuplet
import Mathlib.Data.List.Induction

/-!
# Series of descriptors

A builder is given one descriptor after the other, and answers each of them: with
a chain that it completes, with a report, or not at all.  In the end it gives up
all that still waits.  A `Session` is a builder at work together with its answers.

Nothing is taken for granted about the descriptors: any number of them may have
the same number, the same object, or both.
-/

namespace LdpScore

/-- What was reported since an earlier moment. -/
def Draft.reportsSince (after before : Draft) : List Diagnostic :=
  after.diagnostics.toList.drop before.diagnostics.size

namespace Pairing

/-- How a descriptor comes to a builder. -/
inductive Arrival (Point : Type) where
  /-- The builder decides what becomes of it. -/
  | offered (point : Point)
  /-- It waits at once, like that of a note inside an open tuplet. -/
  | saved (point : Point)

/-- The descriptor that arrives. -/
def Arrival.point {Point : Type} : Arrival Point → Point
  | offered point => point
  | saved point => point

/-- What a builder answers to a descriptor. -/
structure Answer (Point : Type) where
  point : Point
  /-- The chain that the descriptor completes. -/
  chain? : Option (List Point)
  /-- What is reported when it arrives. -/
  reports : List Diagnostic

/-- A builder at work. -/
structure Session (Point : Type) where
  pending : List Point
  draft : Draft
  /-- The answers so far, in the order of the descriptors. -/
  answers : List (Answer Point)

variable {Point : Type} [Descriptor Point]

namespace Session

/-- A builder for which nothing waits yet. -/
def start (draft : Draft) : Session Point :=
  ⟨[], draft, []⟩

/-- The builder is given one more descriptor. -/
def take
    (relation : PairedRelation) (session : Session Point) :
    Arrival Point → Session Point
  | .offered point =>
      let (chain?, pending, draft) :=
        add relation session.pending point session.draft
      ⟨pending, draft, session.answers ++
        [⟨point, chain?, draft.reportsSince session.draft⟩]⟩
  | .saved point =>
      ⟨session.pending ++ [point], session.draft, session.answers ++
        [⟨point, none, []⟩]⟩

/-- The builder is given some descriptors, one after the other. -/
def run
    (relation : PairedRelation) (session : Session Point)
    (arrivals : List (Arrival Point)) :
    Session Point :=
  arrivals.foldl (take relation) session

/-- The chains that were completed, in order. -/
def chains (session : Session Point) : List (List Point) :=
  session.answers.filterMap Answer.chain?

/-- The descriptors about which something was reported when they arrived. -/
def rejected (session : Session Point) : List Point :=
  (session.answers.filter fun answer => !answer.reports.isEmpty).map
    Answer.point

theorem run_concat
    (relation : PairedRelation) (session : Session Point)
    (arrivals : List (Arrival Point)) (arrival : Arrival Point) :
    session.run relation (arrivals ++ [arrival]) =
      (session.run relation arrivals).take relation arrival :=
  List.foldl_append

end Session

/-! ## The answer to one descriptor -/

namespace Outcome

/-- The chain, if there is one. -/
def chain? : Outcome Point → Option (List Point)
  | complete chain => some chain
  | _ => none

/-- A rejection is reported where the descriptor is written. -/
def reports (relation : PairedRelation) (point : Point) :
    Outcome Point → List Diagnostic
  | rejected reason =>
      [⟨reason.problem relation (number point), location point⟩]
  | _ => []

end Outcome

theorem diagnostics_report
    (draft : Draft) (location : Location) (problem : Problem) :
    (draft.report location problem).diagnostics.toList =
      draft.diagnostics.toList ++ [⟨problem, location⟩] :=
  Array.toList_push

section Add

variable (relation : PairedRelation) (pending : List Point) (point : Point)
variable (draft : Draft)

theorem add_chain? :
    (add relation pending point draft).1 = (offer pending point).chain? := by
  rw [add]
  cases offer pending point <;> rfl

theorem add_pending :
    (add relation pending point draft).2.1 =
      remaining pending point (offer pending point) := by
  rw [add]
  cases offer pending point <;> rfl

theorem add_diagnostics :
    (add relation pending point draft).2.2.diagnostics.toList =
      draft.diagnostics.toList ++
        (offer pending point).reports relation point := by
  rw [add]
  cases offer pending point with
  | rejected reason => exact diagnostics_report ..
  | waiting => exact (List.append_nil _).symm
  | complete chain => exact (List.append_nil _).symm

theorem reportsSince_add :
    (add relation pending point draft).2.2.reportsSince draft =
      (offer pending point).reports relation point := by
  rw [Draft.reportsSince, add_diagnostics, ← Array.length_toList,
    List.drop_left]

end Add

namespace Session

variable (relation : PairedRelation) (session : Session Point)

/-- The answer to a descriptor that is offered. -/
def answerTo (point : Point) : Answer Point :=
  let outcome := offer session.pending point
  ⟨point, outcome.chain?, outcome.reports relation point⟩

@[simp]
theorem pending_take_offered (point : Point) :
    (session.take relation (.offered point)).pending =
      remaining session.pending point (offer session.pending point) :=
  add_pending ..

@[simp]
theorem answers_take_offered (point : Point) :
    (session.take relation (.offered point)).answers =
      session.answers ++ [session.answerTo relation point] := by
  rw [answerTo, ← add_chain? relation session.pending point session.draft,
    ← reportsSince_add relation session.pending point session.draft]
  rfl

@[simp]
theorem pending_take_saved (point : Point) :
    (session.take relation (.saved point)).pending =
      session.pending ++ [point] := rfl

@[simp]
theorem answers_take_saved (point : Point) :
    (session.take relation (.saved point)).answers =
      session.answers ++ [⟨point, none, []⟩] := rfl

/-- Every report that a builder makes is one of its answers. -/
theorem diagnostics_run
    (pending : List Point) (draft : Draft) (arrivals : List (Arrival Point)) :
    (run relation ⟨pending, draft, []⟩ arrivals).draft.diagnostics.toList =
      draft.diagnostics.toList ++
        (run relation ⟨pending, draft, []⟩ arrivals).answers.flatMap
          Answer.reports := by
  induction arrivals using List.reverseRecOn with
  | nil => exact (List.append_nil _).symm
  | append_singleton arrivals arrival induction =>
      rw [run_concat]
      generalize run relation ⟨pending, draft, []⟩ arrivals = session
        at induction ⊢
      cases arrival with
      | offered point =>
          rw [answers_take_offered, List.flatMap_append,
            List.flatMap_singleton, ← List.append_assoc, ← induction]
          exact add_diagnostics ..
      | saved point =>
          rw [answers_take_saved, List.flatMap_append,
            List.flatMap_singleton, List.append_nil]
          exact induction

end Session

/-- Joining the open tuplets saves one descriptor for each of them, and all of
them continue. -/
theorem pending_run_join
    (session : Session TupletPoint) (noteRest : Handle) (location : Location) :
    ∃ points : List TupletPoint,
      (∀ point ∈ points, phase point = .continue) ∧
        (session.run .tuplet (points.map .saved)).pending =
          Tuplet.join session.pending noteRest location := by
  have saves : ∀ (points : List TupletPoint) (session : Session TupletPoint),
      (session.run .tuplet (points.map .saved)).pending =
        session.pending ++ points := by
    intro points
    induction points with
    | nil => exact fun session => (List.append_nil _).symm
    | cons point rest induction =>
        intro session
        rw [List.map_cons, Session.run, List.foldl_cons]
        refine (induction _).trans ?_
        rw [Session.pending_take_saved, List.append_assoc]
        rfl
  refine ⟨_, ?_, saves _ session⟩
  intro point listed
  obtain ⟨start, _, rfl⟩ := List.mem_map.mp listed
  rfl

/-! ## The end of waiting -/

/-- The report about a number that nothing has ended. -/
def unended (relation : PairedRelation) (point : Point) : Diagnostic :=
  ⟨.neverEnded relation (number point), location point⟩

/-- What is reported when waiting comes to an end. -/
theorem diagnostics_clear
    (relation : PairedRelation) (pending : List Point) (draft : Draft) :
    (clear relation pending draft).diagnostics.toList =
      draft.diagnostics.toList ++
        (flush pending).map (unended relation) := by
  rw [clear]
  generalize flush pending = points
  induction points generalizing draft with
  | nil => exact (List.append_nil _).symm
  | cons point rest induction =>
      rw [List.foldl_cons, induction, diagnostics_report, List.append_assoc]
      rfl

end Pairing

end LdpScore
