import LdpScore.Proofs.Analysis.Stopping
import LdpScore.Proofs.Invariant.Passing
import LdpScore.Proofs.Layout.NoteRest

/-!
# Ending a tuplet by a label or by its number

What waits to become a tuplet is on notes and rests that have been heard, so a new
one can stop the tuplet that was opened last.  Wherever an analysis has come to, it
stops it with a legacy label as with the number of the tuplet: the model and the
cursor are the same.  But with the label it does not join the tuplets that stay
open, so what waits is the same, up to locations, only if none stays open.
-/

namespace LdpScore

open Analyser

/-! ## What waits to become a tuplet -/

/-- An offered descriptor is all that can be added to those that wait. -/
theorem Analysis.mem_offerTuplet
    {state : Analysis} {point other : TupletPoint}
    (waits : other ∈ (state.offerTuplet point).pending.tuplets) :
    other ∈ state.pending.tuplets ∨ other = point := by
  change other ∈ (Tuplet.add state.pending.tuplets point state.draft).1 at waits
  rw [Tuplet.add_eq_settleWith, Pairing.settleWith_fst] at waits
  exact Pairing.mem_remaining_offer waits

/-- At the turn of its tuplets a note or rest adds only descriptors of its own. -/
theorem Tupling.mem_tuplets
    {note : Written} {decorations : Decorations} {before after : Analysis}
    (tupling : Tupling note decorations before after)
    (own : ∀ point, decorations.tuplet = some point →
      point.noteRest = note.handle)
    {other : TupletPoint} (waits : other ∈ after.pending.tuplets) :
    other ∈ before.pending.tuplets ∨ other.noteRest = note.handle := by
  cases tupling with
  | useless after legacy agrees =>
      rw [agrees.pending] at waits
      exact Or.inl waits
  | legacy point legacy isOwn fits noContinue =>
      refine (Analysis.mem_offerTuplet waits).imp_right ?_
      rintro rfl
      exact isOwn
  | inside noLegacy noPoint => exact Tuplet.mem_join waits
  | starting point noLegacy isPoint noStop =>
      rcases Analysis.mem_offerTuplet waits with joined | rfl
      · exact Tuplet.mem_join joined
      · exact Or.inr (own other isPoint)
  | stopping point noLegacy isPoint isStop =>
      rcases Tuplet.mem_join waits with offered | isOwn
      · refine (Analysis.mem_offerTuplet offered).imp_right ?_
        rintro rfl
        exact own other isPoint
      · exact Or.inr isOwn

namespace Passage

/-- What waits to become a tuplet is below what has been heard. -/
def TupletsBelow (passage : Passage) : Prop :=
  ∀ point ∈ passage.pending.tuplets,
    point.noteRest < passage.bound .tuplets

theorem Step.tupletsBelow
    {before after : Passage} (step : Step before after)
    (orderly : before.Orderly) (below : before.TupletsBelow) :
    after.TupletsBelow := by
  by_cases own : ∃ note, before.due = some (note, .tuplets)
  · obtain ⟨note, isDue⟩ := own
    cases step with
    | turn state heard other turn =>
        cases isDue
        have areOf := orderly.areOf note (orderly.due_mem rfl)
        intro point waits
        rcases (tupling_action note.value).mem_tuplets areOf.tuplet waits with
          old | isOwn
        · exact Nat.lt_succ_of_lt (below point old)
        · exact Nat.lt_succ_of_le (Nat.le_of_eq isOwn)
    | _ => cases isDue
  · have cases := step.pending_cases Pending.tuplets .tuplets
      (fun other changes => changes.same_tuplets other)
      (fun note turn isDue isTuplets => own ⟨note, isTuplets ▸ isDue⟩)
    intro point waits
    rcases cases with none | same
    · rw [none] at waits
      exact absurd waits List.not_mem_nil
    · rw [same] at waits
      exact Nat.lt_of_lt_of_le (below point waits)
        (step.bound_le orderly .tuplets)

theorem Run.tupletsBelow {passage : Passage} (run : start.Run passage) :
    passage.TupletsBelow := by
  induction run with
  | refl => exact fun _ impossible => absurd impossible List.not_mem_nil
  | tail run step induction => exact step.tupletsBelow (Run.orderly run) induction

end Passage

/-! ## A label and a number -/

/-- Joining changes nothing only where no tuplet is open. -/
theorem Tuplet.join_eq_self_iff
    {pending : List TupletPoint} (noteRest : Handle) (location : Location) :
    join pending noteRest location = pending ↔ ¬ isOpen pending := by
  rw [join, List.append_right_eq_self, List.map_eq_nil_iff, isOpen]
  simp

/-- What comes of a note or rest that stops the tuplet with a number, first with a
label and then with an option.  It is the same but for the tuplets that stay open:
only with the option does the note or rest join them. -/
structure StopsAlike
    (number : Int) (location : Location) (before : Analysis)
    (labelled optioned : Handle × Analysis) : Prop where
  isNew : labelled.1 = before.draft.model.size
  sameHandle : optioned.1 = labelled.1
  sameModel : optioned.2.draft.model = labelled.2.draft.model
  sameContext : optioned.2.context = labelled.2.context
  left : labelled.2.pending.tuplets.map TupletPoint.bare =
    (before.pending.tuplets.filter fun other => other.number != number).map
      TupletPoint.bare
  joined : optioned.2.bare =
    (labelled.2.joinTuplets labelled.1 location).bare
  alike_iff : optioned.2.pending.tuplets.map TupletPoint.bare =
      labelled.2.pending.tuplets.map TupletPoint.bare ↔
    ¬ Tuplet.isOpen
      (before.pending.tuplets.filter fun other => other.number != number)

/-- A note or rest that is analysed is the next object. -/
theorem Analyser.isNew_analyseNoteRest
    (flavor : Flavor) (node : Node) (anchor : Option Handle)
    (state : Analysis) :
    ((analyseNoteRest flavor node anchor).run state).run.1 =
      state.draft.model.size :=
  Introduced.isNew (introduced_addNoteRest node anchor
    (if flavor = .chordNote then state.context.lastNote else none) state)

/--
Wherever an analysis has come to, let the tuplet that was opened last have a number
that counts.  A note or rest that stops it with a legacy label then gives the same
model and the same cursor as one that stops it by its number, and leaves the same
tuplets open.  By its number it also joins those that stay open; with the label it
does not, so that what waits is the same, up to locations, only if none stays open.
-/
theorem stopsAlike_analyseNoteRest
    {state : Analysis} {heard : List Heard} {flavor : Flavor}
    {anchor : Option Handle} {number : String} {value : Int}
    {byLabel byOption : Node}
    (reached : Passage.start.Run ⟨state, heard, none⟩)
    (innermost : Tuplet.innermostOpen? state.pending.tuplets = some value)
    (isNumber : signedInterval.read? number = some value)
    (counts : lastVersionWithoutTupletNumbers < state.context.version ∨
      value = 0)
    (alike : EndsAlike flavor number byLabel.bare byOption.bare) :
    StopsAlike value byLabel.location state
      ((analyseNoteRest flavor byLabel anchor).run state).run
      ((analyseNoteRest flavor byOption anchor).run state).run := by
  -- Without locations both elements are in the same place.
  have counts : lastVersionWithoutTupletNumbers < state.bare.context.version ∨
      value = 0 := counts
  have earlier : ∀ other ∈ state.bare.pending.tuplets,
      other.noteRest < state.bare.draft.model.size :=
    List.forall_mem_map.mpr reached.tupletsBelow
  have innermost : Tuplet.innermostOpen? state.bare.pending.tuplets =
      some value := (Tuplet.innermostOpen?_bare _).trans innermost
  have sameLocation : byOption.bare.location = byLabel.bare.location := by
    rw [Node.location_bare, Node.location_bare]
  have joinsAfter : JoinsAfter _ _ _
      (analyseNoteRest flavor byOption.bare anchor)
      (analyseNoteRest flavor byLabel.bare anchor) state.bare :=
    joinsAfter_analyseNoteRest alike sameLocation earlier innermost isNumber
      counts
  obtain ⟨joins, left⟩ := joinsAfter
  rw [blind_analyseNoteRest] at left
  rw [blind_analyseNoteRest, blind_analyseNoteRest, Node.location_bare] at joins
  have isNew := isNew_analyseNoteRest flavor byLabel anchor state
  generalize ((analyseNoteRest flavor byLabel anchor).run state).run =
    labelled at isNew joins left ⊢
  generalize ((analyseNoteRest flavor byOption anchor).run state).run =
    optioned at joins ⊢
  obtain ⟨sameHandle, joined⟩ := Prod.mk.inj joins
  have joined : optioned.2.bare =
      labelled.2.bare.joinTuplets state.draft.model.size .nowhere := joined
  have sameContext : optioned.2.bare.context = labelled.2.bare.context := by
    rw [joined]
    rfl
  have sameModel : optioned.2.bare.draft.model =
      labelled.2.bare.draft.model := by
    rw [joined]
    rfl
  have sameTuplets : optioned.2.pending.tuplets.map TupletPoint.bare =
      Tuplet.join (labelled.2.pending.tuplets.map TupletPoint.bare)
        state.draft.model.size .nowhere :=
    congrArg (fun after : Analysis => after.pending.tuplets) joined
  have leftBare : labelled.2.pending.tuplets.map TupletPoint.bare =
      (state.pending.tuplets.filter fun other => other.number != value).map
        TupletPoint.bare := left.trans List.filter_map
  constructor
  · exact isNew
  · exact sameHandle
  · exact sameModel
  · exact sameContext
  · exact leftBare
  · rw [isNew, joined]
    exact congrArg (fun tuplets => labelled.2.bare.withTuplets tuplets)
      (Tuplet.join_bare labelled.2.pending.tuplets state.draft.model.size
        byLabel.location)
  · rw [sameTuplets, Tuplet.join_eq_self_iff, leftBare, Tuplet.isOpen_bare]

/-- An eighth, with what else its element says. -/
def eighth (more : List Node) : Node :=
  .element "n" none
    (.leaf .label "e4" .nowhere :: .leaf .label "e" .nowhere :: more) .nowhere

theorem endsAlike_eighth :
    EndsAlike .note "2" (eighth [stopLabel]).bare
      (eighth [stopOption "2"]).bare := by
  refine ⟨rfl, ⟨[.leaf .label "e4" .nowhere, .leaf .label "e" .nowhere], [], [],
    [], []⟩, [], [], [], [], ⟨?_, ?_⟩, rfl, rfl, rfl, rfl⟩
  · exact List.forall_mem_nil _
  · exact List.forall_mem_nil _

/-- What waits to become a tuplet after one more note, up to locations. -/
def tupletsAfter (state : Analysis) (node : Node) : List TupletPoint :=
  ((analyseNoteRest .note node none).run state).run.2.pending.tuplets.map
    TupletPoint.bare

/-- After two tuplets have been opened, one inside the other, a label and a number
leave different descriptors. -/
theorem exists_nested_tuplets :
    ∃ state heard, Passage.start.Run ⟨state, heard, none⟩ ∧
      Tuplet.innermostOpen? state.pending.tuplets = some 2 ∧
      lastVersionWithoutTupletNumbers < state.context.version ∧
      tupletsAfter state (eighth [stopOption "2"]) ≠
        tupletsAfter state (eighth [stopLabel]) := by
  obtain ⟨root, _, checked⟩ := exists_tree_of_any
    (fun root =>
      let state := ((analyseNode root none).run {}).run.2
      Tuplet.innermostOpen? state.pending.tuplets == some 2 &&
        decide (lastVersionWithoutTupletNumbers < state.context.version) &&
        tupletsAfter state (eighth [stopOption "2"]) !=
          tupletsAfter state (eighth [stopLabel]))
    (by decide +kernel : (Node.read (Token.lex
      ("(score (vers 2.0) (instrument (musicData (n c4 e (t 1 + 3 2)) " ++
        "(n d4 e (t 2 + 3 2)))))") "")).result.toOption.any _)
  obtain ⟨facts, differ⟩ := Bool.and_eq_true_iff.mp checked
  obtain ⟨innermost, counts⟩ := Bool.and_eq_true_iff.mp facts
  obtain ⟨heard, _, run⟩ := (passes_analyseNode root {}).1
  exact ⟨_, _, run [], beq_iff_eq.mp innermost, of_decide_eq_true counts,
    bne_iff_ne.mp differ⟩

/-- Inside another tuplet an inner one is stopped with a label and by its number. -/
theorem stopsAlike_inside_tuplet :
    ∃ state heard, Passage.start.Run ⟨state, heard, none⟩ ∧
      Tuplet.innermostOpen? state.pending.tuplets = some 2 ∧
      StopsAlike 2 .nowhere state
        ((analyseNoteRest .note (eighth [stopLabel]) none).run state).run
        ((analyseNoteRest .note (eighth [stopOption "2"]) none).run
          state).run := by
  obtain ⟨state, heard, reached, innermost, counts, _⟩ := exists_nested_tuplets
  have isNumber : signedInterval.read? "2" = some 2 := by decide
  exact ⟨state, heard, reached, innermost,
    stopsAlike_analyseNoteRest reached innermost isNumber (Or.inl counts)
      endsAlike_eighth⟩

/-- A label does not always do what the number of the tuplet does. -/
theorem not_all_stops_alike :
    ¬ ∀ (state : Analysis) (heard : List Heard) (number : String) (value : Int)
      (byLabel byOption : Node),
      Passage.start.Run ⟨state, heard, none⟩ →
      Tuplet.innermostOpen? state.pending.tuplets = some value →
      signedInterval.read? number = some value →
      lastVersionWithoutTupletNumbers < state.context.version ∨ value = 0 →
      EndsAlike .note number byLabel.bare byOption.bare →
      tupletsAfter state byOption = tupletsAfter state byLabel := by
  intro alike
  obtain ⟨state, heard, reached, innermost, counts, differ⟩ :=
    exists_nested_tuplets
  have isNumber : signedInterval.read? "2" = some 2 := by decide
  exact differ (alike state heard "2" 2 _ _ reached innermost isNumber
    (Or.inl counts) endsAlike_eighth)

end LdpScore
