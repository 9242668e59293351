import LdpScore.Proofs.Analysis.Performing
import LdpScore.Proofs.Analysis.Tupling
import LdpScore.Proofs.Relation.Reporting

/-!
# Reports stay

Nothing that is performed takes back a report, whatever the score is like.
-/

namespace LdpScore

open Analyser

/-- Offering a descriptor of a tuplet reports a rejection at most. -/
theorem Analysis.keepsReports_offerTuplet
    (state : Analysis) (point : TupletPoint) :
    state.draft.KeepsReports (state.offerTuplet point).draft := by
  show state.draft.KeepsReports
    (Tuplet.add state.pending.tuplets point state.draft).2
  rw [Tuplet.add_eq_settleWith]
  exact Pairing.keepsReports_settleWith
    (fun chain draft => .of_eq (Tuplet.diagnostics_linkChain chain draft)) ..

theorem Tupling.keepsReports
    {note : Written} {decorations : Decorations} {before after : Analysis}
    (tupling : Tupling note decorations before after) :
    before.draft.KeepsReports after.draft := by
  cases tupling with
  | useless _ _ agrees => exact agrees.draft.reports
  | legacy point => exact before.keepsReports_offerTuplet point
  | inside => exact .refl before.draft
  | starting point =>
      exact (before.joinTuplets note.handle
        note.node.location).keepsReports_offerTuplet point
  | stopping point => exact before.keepsReports_offerTuplet point

namespace Analyser

variable {note : Written} {value : NoteValue} {decorations : Decorations}
variable {state : Analysis}

theorem keepsReports_settleLegacyBeam (type : NoteType) :
    Ensures (settleLegacyBeam decorations note.handle type note.node) state
      fun _ after => state.draft.KeepsReports after.draft := by
  have same : state.draft.KeepsReports state.draft := .refl state.draft
  have read : Ensures pending state fun _ after => after = state := rfl
  rw [settleLegacyBeam]
  apply read.bind
  rintro waiting _ rfl
  dsimp only
  split
  · split
    · split
      · exact .report ..
      · split
        · exact .report ..
        · exact same
    · split
      · exact .of_eq (Beam.diagnostics_linkChain ..)
      · exact .report ..
    · exact .report ..
  · split
    · exact same
    · exact same

/-- Every turn keeps what was reported. -/
theorem keepsReports_action (turn : Turn) :
    state.draft.KeepsReports
      ((turn.action note value decorations).run state).run.2.draft := by
  cases turn with
  | legacyTie =>
      show state.draft.KeepsReports ((settleLegacyTie decorations.legacyTie
        note.handle).run state).run.2.draft
      rw [settleLegacyTie]
      cases decorations.legacyTie <;> exact LegacyTie.keepsReports_offer ..
  | tie =>
      rw [Turn.action, offerTie]
      split
      · rename_i point _
        show state.draft.KeepsReports
          (Tie.add state.pending.ties point state.draft).2
        rw [Tie.add_eq_settleWith]
        exact Pairing.keepsReports_settleWith Tie.keepsReports_linkChain ..
      · exact .refl state.draft
  | modification =>
      rw [Turn.action]
      cases decorations.timeModification <;> exact .refl state.draft
  | tuplets =>
      have tupling : Tupling note decorations state _ := tupling_action value
      exact tupling.keepsReports
  | legacyBeam => exact keepsReports_settleLegacyBeam value.type
  | beam =>
      rw [Turn.action, offerBeam]
      split
      · rename_i point _
        show state.draft.KeepsReports
          (Beam.add state.pending.beams point state.draft).2
        rw [Beam.add_eq_settleWith]
        exact Pairing.keepsReports_settleWith
          (fun _ _ => .of_eq (Beam.diagnostics_linkChain ..)) ..
      · exact .refl state.draft
  | slur =>
      rw [Turn.action, settleSlur]
      split
      · rename_i point _
        show state.draft.KeepsReports
          (Slur.add state.pending.slurs point state.draft).2
        rw [Slur.add_eq_settleWith]
        exact Pairing.keepsReports_settleWith
          (fun _ _ => .of_eq (Slur.diagnostics_linkChain ..)) ..
      · exact .refl state.draft
  | chord => exact .refl state.draft

theorem diagnostics_chordOf (base : Handle) (draft : Draft) :
    (chordOf base draft).2.diagnostics = draft.diagnostics := by
  unfold chordOf
  split <;> rfl

theorem diagnostics_joinChord (base note : Handle) (draft : Draft) :
    (joinChord base note draft).diagnostics = draft.diagnostics :=
  diagnostics_chordOf base draft

/-- What every turn and the chord hand on, whatever the place in the music is, has
come about when a note or rest has been settled. -/
theorem turns_settleNoteRest
    (note : Written) (base : Option Handle) (value : NoteValue)
    (comes : Turn → Analysis → Prop)
    (take : ∀ turn state, comes turn state →
      Ensures (turn.action note value decorations) state fun _ after =>
        comes turn.next after)
    (join : ∀ last state, comes .chord state → comes .chord
      { state with draft := joinChord last note.handle state.draft })
    (place : ∀ context state, comes .chord state →
      comes .chord { state with context := context })
    {before : Analysis} (starts : comes (Turn.first note.flavor) before) :
    Ensures (settleNoteRest note.flavor note.node base note.handle value
        decorations) before fun _ after => comes .chord after := by
  rw [settleNoteRest]
  apply Ensures.bind (turns_settleRelations value comes take starts)
  intro factor settled chord
  have joined : Ensures (joinOrAdvance base note.handle
      (value.units * (decorations.timeModification.map
        TimeModification.ratio).getD factor)) settled fun _ after =>
      comes .chord after := by
    cases base with
    | none => exact place _ _ chord
    | some last => exact join last _ chord
  apply joined.bind
  intro _ last chord
  split
  · exact place _ _ chord
  · exact chord

/-- A note or rest that is played keeps what was reported. -/
theorem keepsReports_analyseNoteRest
    (flavor : Flavor) (node : Node) (anchor : Option Handle) :
    Ensures (analyseNoteRest flavor node anchor) state fun _ after =>
      state.draft.KeepsReports after.draft := by
  rw [analyseNoteRest]
  apply Ensures.readContext
  apply Ensures.bind (introduced_addNoteRest node anchor _ state)
  rintro ⟨handle, value, decorations⟩ middle introduced
  apply Ensures.bind (turns_settleNoteRest ⟨handle, flavor, node⟩ _ value
    (fun _ later => state.draft.KeepsReports later.draft)
    (fun turn _ reports => reports.trans (keepsReports_action turn))
    (fun last _ reports => reports.trans (.of_eq (diagnostics_joinChord ..)))
    (fun _ _ reports => reports) introduced.reports)
  intro _ last reports
  exact reports

end Analyser

/-- Nothing that is performed takes back a report. -/
theorem Performs.keepsReports
    {cues : List Cue} {before after : Analysis}
    (performs : Performs cues before after) :
    before.draft.KeepsReports after.draft := by
  induction performs with
  | done state => exact .refl state.draft
  | aside aside _ induction => exact aside.reports.trans induction
  | @flush _ first _ _ induction =>
      exact (first.pending.silent_reportAll first.draft).reports.trans induction
  | start _ induction => exact induction
  | play anchor _ induction =>
      exact .trans (keepsReports_analyseNoteRest _ _ anchor) induction

end LdpScore
