import LdpScore.Proofs.Analysis.Element

/-!
# The tuplets of a note or rest

When the turn of its tuplets has come, a note or rest joins those around it and
offers the descriptor that its element gives: it joins before it starts a tuplet,
and after it has stopped one.  A legacy label offers a descriptor of its own, and
then the note or rest joins nothing else.  `Tupling` lists all that can come of
this turn.
-/

namespace LdpScore

open Analyser

namespace Analysis

/-- A descriptor is offered to the tuplets that are open. -/
def offerTuplet (state : Analysis) (point : TupletPoint) : Analysis :=
  let (tuplets, draft) := Tuplet.add state.pending.tuplets point state.draft
  { state with
    pending := { state.pending with tuplets := tuplets }
    draft := draft }

/-- A note or rest joins every tuplet that is open. -/
def joinTuplets (state : Analysis) (noteRest : Handle) (location : Location) :
    Analysis :=
  { state with
    pending :=
      { state.pending with
        tuplets := Tuplet.join state.pending.tuplets noteRest location } }

/-- Something is reported. -/
def report (state : Analysis) (location : Location) (problem : Problem) :
    Analysis :=
  { state with draft := state.draft.report location problem }

end Analysis

namespace Node

/-- Whether the label of a legacy tuplet stops one. -/
def isTupletStop (label : Node) : Bool :=
  label.text.toList.tail == ['-']

/-- The counts that the label of a legacy tuplet gives.  A normal count that is
missing is the usual one, and zero if there is none. -/
def labelCounts? (label : Node) : Option (Nat × Nat) :=
  (legacyCounts? label.text.toList).map fun (actual, normal) =>
    (actual,
      if normal = 0 then (Tuplet.defaultNormal? actual).getD 0 else normal)

end Node

/-- What becomes of the label of a legacy tuplet. -/
inductive Labelling
    (label : Node) (noteRest : Handle) (before : Analysis) : Analysis → Prop where
  /-- It stops a tuplet. -/
  | stop (point : TupletPoint) (stops : label.isTupletStop)
      (isOwn : point.noteRest = noteRest) (isStop : point.phase = .stop)
      (noActual : point.actual = 0) (noNormal : point.normal = 0) :
      Labelling label noteRest before (before.offerTuplet point)
  /-- It gives no counts. -/
  | unknown (noStop : label.isTupletStop = false)
      (noCounts : label.labelCounts? = none) :
      Labelling label noteRest before
        (before.report label.location (.invalidAbbreviation label.text))
  /-- There is an open tuplet. -/
  | inside (isOpen : Tuplet.isOpen before.pending.tuplets)
      (counts : label.labelCounts?.isSome) :
      Labelling label noteRest before
        (before.report label.location .tupletAlreadyOpen)
  /-- It starts a tuplet. -/
  | start (point : TupletPoint) (noStop : label.isTupletStop = false)
      (isOwn : point.noteRest = noteRest) (isStart : point.phase = .start)
      (counts : label.labelCounts? = some (point.actual, point.normal)) :
      Labelling label noteRest before (before.offerTuplet point)

/-- What becomes of the tuplets at the turn of a note or rest. -/
inductive Tupling
    (note : Written) (decorations : Decorations) (before : Analysis) :
    Analysis → Prop where
  /-- A legacy label is of no use. -/
  | useless (after : Analysis)
      (legacy : decorations.legacyTuplet.isSome)
      (agrees : before.Agrees after) :
      Tupling note decorations before after
  /-- A legacy label offers a descriptor. -/
  | legacy (point : TupletPoint)
      (legacy : decorations.legacyTuplet.isSome)
      (isOwn : point.noteRest = note.handle) (fits : CountsFit point)
      (noContinue : point.phase ≠ .continue) :
      Tupling note decorations before (before.offerTuplet point)
  /-- The note or rest is inside the tuplets around it. -/
  | inside
      (noLegacy : decorations.legacyTuplet = none)
      (noPoint : decorations.tuplet = none) :
      Tupling note decorations before
        (before.joinTuplets note.handle note.node.location)
  /-- Inside the tuplets around it, one more may start. -/
  | starting (point : TupletPoint)
      (noLegacy : decorations.legacyTuplet = none)
      (isPoint : decorations.tuplet = some point)
      (noStop : point.phase ≠ .stop) :
      Tupling note decorations before
        ((before.joinTuplets note.handle note.node.location).offerTuplet
          point)
  /-- One of the tuplets stops, and the note or rest is inside the others. -/
  | stopping (point : TupletPoint)
      (noLegacy : decorations.legacyTuplet = none)
      (isPoint : decorations.tuplet = some point)
      (isStop : point.phase = .stop) :
      Tupling note decorations before
        ((before.offerTuplet point).joinTuplets note.handle
          note.node.location)

/-- What can be joined with a note or rest is in the model. -/
theorem Turn.Due.lt_size_of_waiting
    {turn : Turn} {note : Written} {decorations : Decorations}
    {state : Analysis} (due : turn.Due note decorations state)
    {points : List TupletPoint} {point : TupletPoint}
    (waiting : Pairing.Waiting (note.handle + 1) points)
    (isOwn : point.noteRest = note.handle) :
    ∀ other ∈ points ++ [point],
      other.noteRest < state.draft.model.size := by
  have inside : note.handle < state.draft.model.size :=
    due.isNoteRest.lt_size
  intro other listed
  rcases List.mem_append.mp listed with old | new
  · exact Nat.lt_of_le_of_lt (Nat.le_of_lt_succ (waiting.below other old))
      inside
  · rw [List.mem_singleton.mp new, isOwn]
    exact inside

namespace Analyser

variable {note : Written} {decorations : Decorations} {before : Analysis}

/-- The counts of a legacy label are digits. -/
theorem legacyCounts?_le
    {characters : List Char} {counts : Nat × Nat}
    (read : legacyCounts? characters = some counts) :
    counts.1 ≤ 9 ∧ counts.2 ≤ 9 := by
  have digit : ∀ character : Char, character.isDigit →
      character.toNat - '0'.toNat ≤ 9 := by
    intro character isDigit
    have bound : character.toNat ≤ 57 :=
      (Bool.and_eq_true_iff.mp isDigit).2 |> decide_eq_true_iff.mp
    show character.toNat - 48 ≤ 9
    omega
  unfold legacyCounts? at read
  split at read
  · split at read
    · cases read
      exact ⟨digit _ ‹_›, Nat.zero_le 9⟩
    · cases read
  · split at read
    · rename_i areDigits
      cases read
      obtain ⟨isActual, isNormal⟩ := Bool.and_eq_true_iff.mp areDigits
      exact ⟨digit _ isActual, digit _ isNormal⟩
    · cases read
  · cases read

theorem labelCounts?_le
    {label : Node} {counts : Nat × Nat}
    (given : label.labelCounts? = some counts) :
    counts.1 ≤ maxCount ∧ counts.2 ≤ maxCount := by
  obtain ⟨⟨actual, normal⟩, read, rfl⟩ := Option.map_eq_some_iff.mp given
  obtain ⟨actualFits, normalFits⟩ := legacyCounts?_le read
  have bound : 9 ≤ maxCount := by decide
  refine ⟨Nat.le_trans actualFits bound, ?_⟩
  dsimp only
  split
  · exact defaultNormal?_le actual
  · exact Nat.le_trans normalFits bound

/-- A label gives a normal count of zero only where there is no usual one. -/
theorem labelCounts?_no_normal
    {label : Node} {actual : Nat}
    (given : label.labelCounts? = some (actual, 0)) :
    Tuplet.defaultNormal? actual = none := by
  obtain ⟨⟨digit, normal⟩, _, isCounts⟩ := Option.map_eq_some_iff.mp given
  obtain ⟨rfl, isNormal⟩ := Prod.mk.inj isCounts
  split at isNormal
  · unfold Tuplet.defaultNormal? at isNormal ⊢
    split at isNormal <;> first | rfl | cases isNormal
  · rename_i notZero
    exact absurd isNormal notZero

/-- The label of a legacy tuplet offers a descriptor or is reported. -/
theorem labelling_settleLegacyTuplet (label : Node) (noteRest : Handle) :
    Ensures (settleLegacyTuplet label noteRest) before
      fun _ after => Labelling label noteRest before after := by
  rw [settleLegacyTuplet]
  dsimp only
  split
  · rename_i isStop
    exact .stop _ (beq_iff_eq.mpr isStop) rfl rfl rfl rfl
  · rename_i isOther
    have noStop : label.isTupletStop = false := beq_eq_false_iff_ne.mpr isOther
    split
    · rename_i noCounts
      refine .unknown noStop ?_
      rw [Node.labelCounts?, noCounts]
      rfl
    · rename_i actual normal isCounts
      have counts := congrArg (Option.map fun (actual, normal) => (actual,
        if normal = 0 then (Tuplet.defaultNormal? actual).getD 0 else normal))
          isCounts
      have reads : Ensures pending before fun waiting after =>
          waiting = before.pending ∧ after = before := ⟨rfl, rfl⟩
      apply reads.bind
      rintro _ _ ⟨rfl, rfl⟩
      split
      · rename_i isOpen
        exact .inside isOpen (congrArg Option.isSome counts)
      · exact .start _ noStop rfl rfl counts

theorem tupling_settleLegacyTuplet
    {label : Node} (isLabel : decorations.legacyTuplet = some label) :
    Ensures (settleLegacyTuplet label note.handle) before
      fun _ after => Tupling note decorations before after := by
  have legacy : decorations.legacyTuplet.isSome := by
    rw [isLabel]
    rfl
  have useless : ∀ problem, problem ≠ .idTaken →
      Tupling note decorations before
        (before.report label.location problem) :=
    fun problem other =>
      .useless _ legacy (reads_report label.location other before).1
  apply Ensures.mono (labelling_settleLegacyTuplet label note.handle)
  intro _ after labelling
  cases labelling with
  | stop point _ isOwn isStop noActual noNormal =>
      refine .legacy point legacy isOwn ⟨?_, ?_⟩ (by simp [isStop])
      · exact noActual ▸ Nat.zero_le _
      · exact noNormal ▸ Nat.zero_le _
  | unknown => exact useless _ (by simp)
  | inside => exact useless _ (by simp)
  | start point _ isOwn isStart counts =>
      obtain ⟨actual, normal⟩ := labelCounts?_le counts
      exact .legacy point legacy isOwn ⟨actual, normal⟩ (by simp [isStart])

theorem tupling_settleTuplets (noLegacy : decorations.legacyTuplet = none) :
    Ensures (settleTuplets decorations.tuplet note.handle note.node) before
      fun _ after => Tupling note decorations before after := by
  unfold settleTuplets
  split
  · rename_i point isPoint
    split
    · rename_i isStop
      exact .stopping point noLegacy isPoint isStop
    · rename_i noStop
      exact .starting point noLegacy isPoint noStop
  · rename_i noPoint
    exact .inside noLegacy noPoint

/-- The turn of the tuplets. -/
theorem tupling_action (value : NoteValue) :
    Tupling note decorations before
      ((Turn.tuplets.action note value decorations).run before).run.2 := by
  have settled : Ensures (tupletFactor decorations note.handle note.node)
      before fun _ after => Tupling note decorations before after := by
    rw [tupletFactor]
    split
    · rename_i label isLabel
      exact tupling_settleLegacyTuplet isLabel
    · rename_i noLegacy
      exact tupling_settleTuplets noLegacy
  exact settled

end Analyser

end LdpScore
