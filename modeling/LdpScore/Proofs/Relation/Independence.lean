import LdpScore.Proofs.Relation.Series

/-!
# Numbers are independent

All descriptors wait in one list, but those with different numbers do not affect
each other: `answers_run_filter` says that a builder answers the descriptors with
one number as if they were all that arrives.  So relations with different numbers
may cross in any way.
-/

namespace LdpScore.Pairing

variable {Point : Type} [Descriptor Point]

/-! ## One number at a time -/

/-- What becomes of a descriptor depends on what waits under its number. -/
theorem offer_under (pending : List Point) (point : Point) :
    offer (under (number point) pending) point = offer pending point := by
  have found : ∀ test : Point → Bool,
      ((under (number point) pending).find? fun other =>
          test other && sameNumber point other) =
        pending.find? fun other => test other && sameNumber point other := by
    intro test
    rw [under, List.find?_filter]
    congr 1
    funext other
    have isSame : (number other == number point) = sameNumber point other := rfl
    rw [isSame]
    cases sameNumber point other <;> simp
  have waiting : (under (number point) pending).filter (sameNumber point) =
      pending.filter (sameNumber point) := by
    rw [under, List.filter_filter]
    exact List.filter_congr fun other _ => Bool.and_self _
  rw [offer, offer, found, found, waiting]

/-- Under the number of a descriptor, who waits afterwards depends on what waited
under it. -/
theorem under_remaining
    (pending : List Point) (point : Point) (outcome : Outcome Point) :
    under (number point) (remaining pending point outcome) =
      remaining (under (number point) pending) point outcome := by
  cases outcome with
  | rejected reason => rfl
  | waiting => rw [remaining, under_append, if_pos rfl]; rfl
  | complete chain =>
      rw [remaining, under_filter_sameNumber, if_pos rfl, remaining, under,
        List.filter_filter]
      refine (List.filter_eq_nil_iff.mpr fun other _ both => ?_).symm
      simp [sameNumber] at both

/-- Under every other number nothing changes. -/
theorem under_remaining_of_ne
    {key : Int} {point : Point} (other : number point ≠ key)
    (pending : List Point) (outcome : Outcome Point) :
    under key (remaining pending point outcome) = under key pending := by
  cases outcome with
  | rejected reason => rfl
  | waiting => rw [remaining, under_append, if_neg other, List.append_nil]
  | complete chain => rw [remaining, under_filter_sameNumber, if_neg other]

/-- Numbers that do not wait need not be remembered as reported. -/
theorem firstOfEach_congr
    {seen also : List Int} {points : List Point}
    (same : ∀ point ∈ points,
      seen.contains (number point) = also.contains (number point)) :
    firstOfEach seen points = firstOfEach also points := by
  induction points generalizing seen also with
  | nil => rfl
  | cons point rest induction =>
      obtain ⟨atPoint, atRest⟩ := List.forall_mem_cons.mp same
      have later : ∀ other ∈ rest,
          (number point :: seen).contains (number other) =
            (number point :: also).contains (number other) := by
        intro other listed
        rw [List.contains_cons, List.contains_cons, atRest other listed]
      rw [firstOfEach, firstOfEach, atPoint, induction atRest, induction later]

theorem under_firstOfEach
    (key : Int) (seen : List Int) (points : List Point) :
    under key (firstOfEach seen points) = firstOfEach seen (under key points) := by
  induction points generalizing seen with
  | nil => rfl
  | cons point rest induction =>
      by_cases isKey : number point = key
      · have kept : ∀ others : List Point,
            under key (point :: others) = point :: under key others :=
          fun _ => List.filter_cons_of_pos (beq_iff_eq.mpr isKey)
        rw [kept, firstOfEach, firstOfEach]
        split
        · exact induction seen
        · rw [kept, induction]
      · have passed : ∀ others : List Point,
            under key (point :: others) = under key others :=
          fun _ => List.filter_cons_of_neg (by simpa using isKey)
        rw [passed, firstOfEach]
        split
        · exact induction seen
        · rw [passed, induction]
          apply firstOfEach_congr
          intro other listed
          have isOther : number other = key :=
            beq_iff_eq.mp (List.mem_filter.mp listed).2
          have differs : (key == number point) = false := by
            simpa using Ne.symm isKey
          rw [List.contains_cons, isOther, differs, Bool.false_or]

/-- In the end a number is reported as if nothing else had waited. -/
theorem under_flush (key : Int) (pending : List Point) :
    under key (flush pending) = flush (under key pending) :=
  under_firstOfEach key [] pending

/-! ## Series -/

namespace Session

/-- The answers to the descriptors with a number. -/
def answersUnder (key : Int) (answers : List (Answer Point)) :
    List (Answer Point) :=
  answers.filter fun answer => number answer.point == key

/-- The descriptors with a number among those that arrive. -/
def arrivalsUnder (key : Int) (arrivals : List (Arrival Point)) :
    List (Arrival Point) :=
  arrivals.filter fun arrival => number arrival.point == key

/-- What the end of waiting is answered with: a report about the first descriptor
of every number. -/
def ending
    (relation : PairedRelation) (session : Session Point) :
    List (Answer Point) :=
  (flush session.pending).map fun point =>
    ⟨point, none, [unended relation point]⟩

/-- One builder is at work on the descriptors with one number that another is at
work on. -/
structure Projects (key : Int) (whole part : Session Point) : Prop where
  pending : part.pending = under key whole.pending
  answers : part.answers = answersUnder key whole.answers

namespace Projects

variable {key : Int} {whole part : Session Point}

theorem answer
    (projects : Projects key whole part) {answer : Answer Point}
    (isKey : number answer.point = key) :
    part.answers ++ [answer] = answersUnder key (whole.answers ++ [answer]) := by
  have itself : answersUnder key [answer] = [answer] :=
    List.filter_cons_of_pos (beq_iff_eq.mpr isKey)
  rw [answersUnder, List.filter_append, ← answersUnder, ← answersUnder,
    projects.answers, itself]

theorem skip
    (projects : Projects key whole part) {answer : Answer Point}
    (other : number answer.point ≠ key) :
    part.answers = answersUnder key (whole.answers ++ [answer]) := by
  have nothing : answersUnder key [answer] = [] :=
    List.filter_cons_of_neg (by simpa using other)
  rw [answersUnder, List.filter_append, ← answersUnder, ← answersUnder,
    projects.answers, nothing, List.append_nil]

/-- Both are given a descriptor with the number. -/
theorem take
    (projects : Projects key whole part) (relation : PairedRelation)
    {arrival : Arrival Point} (isKey : number arrival.point = key) :
    Projects key (whole.take relation arrival) (part.take relation arrival) := by
  cases arrival with
  | saved point =>
      refine ⟨?_, projects.answer isKey⟩
      change number point = key at isKey
      rw [pending_take_saved, pending_take_saved, projects.pending,
        under_append, if_pos isKey]
  | offered point =>
      subst isKey
      have same : offer part.pending point = offer whole.pending point :=
        projects.pending ▸ offer_under whole.pending point
      constructor
      · rw [pending_take_offered, pending_take_offered, same, projects.pending]
        exact (under_remaining whole.pending point _).symm
      · rw [answers_take_offered, answers_take_offered, answerTo, answerTo, same]
        exact projects.answer rfl

/-- One is given a descriptor with another number. -/
theorem pass
    (projects : Projects key whole part) (relation : PairedRelation)
    {arrival : Arrival Point} (other : number arrival.point ≠ key) :
    Projects key (whole.take relation arrival) part := by
  cases arrival with
  | saved point =>
      refine ⟨?_, projects.skip other⟩
      change number point ≠ key at other
      rw [pending_take_saved, under_append, if_neg other, List.append_nil]
      exact projects.pending
  | offered point =>
      change number point ≠ key at other
      constructor
      · rw [pending_take_offered, under_remaining_of_ne other]
        exact projects.pending
      · rw [answers_take_offered]
        exact projects.skip other

/-- Both are given a series, one of them only the descriptors with the number. -/
theorem run
    (projects : Projects key whole part) (relation : PairedRelation)
    (arrivals : List (Arrival Point)) :
    Projects key (whole.run relation arrivals)
      (part.run relation (arrivalsUnder key arrivals)) := by
  induction arrivals generalizing whole part with
  | nil => exact projects
  | cons arrival rest induction =>
      by_cases isKey : number arrival.point = key
      · rw [arrivalsUnder, List.filter_cons_of_pos (by simpa using isKey)]
        exact induction (projects.take relation isKey)
      · rw [arrivalsUnder, List.filter_cons_of_neg (by simpa using isKey)]
        exact induction (projects.pass relation isKey)

theorem ending
    (projects : Projects key whole part) (relation : PairedRelation) :
    answersUnder key (whole.ending relation) = part.ending relation := by
  rw [Session.ending, Session.ending, projects.pending, ← under_flush,
    answersUnder, List.filter_map]
  rfl

end Projects

/-- Every report from first to last is one of the answers. -/
theorem diagnostics_clear_run
    (relation : PairedRelation) (pending : List Point) (draft : Draft)
    (arrivals : List (Arrival Point)) :
    (clear relation
        (run relation ⟨pending, draft, []⟩ arrivals).pending
        (run relation ⟨pending, draft, []⟩ arrivals).draft).diagnostics.toList =
      draft.diagnostics.toList ++
        ((run relation ⟨pending, draft, []⟩ arrivals).answers ++
          (run relation ⟨pending, draft, []⟩ arrivals).ending relation).flatMap
            Answer.reports := by
  rw [diagnostics_clear, diagnostics_run, List.flatMap_append,
    List.append_assoc, Session.ending, List.flatMap_map]
  congr 2
  exact (List.map_eq_flatMap ..)

end Session

open Session

/--
Correlation numbers are independent.  Whatever waits at first, whatever arrives
and until waiting has come to an end, the answers to the descriptors with one
number are those of a builder to which nothing else arrives and for which nothing
else waits: the same chains and the same reports in the same order.  In both cases
the answers are all that is reported.
-/
theorem answers_run_filter
    (relation : PairedRelation) (pending : List Point) (draft other : Draft)
    (arrivals : List (Arrival Point)) (key : Int) :
    let whole := run relation ⟨pending, draft, []⟩ arrivals
    let part := run relation ⟨under key pending, other, []⟩
      (arrivalsUnder key arrivals)
    answersUnder key (whole.answers ++ whole.ending relation) =
        part.answers ++ part.ending relation ∧
      (clear relation whole.pending whole.draft).diagnostics.toList =
        draft.diagnostics.toList ++
          (whole.answers ++ whole.ending relation).flatMap Answer.reports ∧
      (clear relation part.pending part.draft).diagnostics.toList =
        other.diagnostics.toList ++
          (part.answers ++ part.ending relation).flatMap Answer.reports := by
  intro whole part
  have first : Projects key ⟨pending, draft, []⟩
      ⟨under key pending, other, []⟩ := ⟨rfl, rfl⟩
  have projects : Projects key whole part := first.run relation arrivals
  refine ⟨?_, diagnostics_clear_run .., diagnostics_clear_run ..⟩
  rw [answersUnder, List.filter_append, ← answersUnder, ← answersUnder,
    projects.ending relation, projects.answers]

end LdpScore.Pairing
