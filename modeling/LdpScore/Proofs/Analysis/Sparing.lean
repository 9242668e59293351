import LdpScore.Proofs.Analysis.Element

/-!
# What leaves the tuplets alone

Of all the turns of a note or rest only two concern how long it lasts: that of its
own modification and that of its tuplets.  At every other turn an analysis
`Spares` the tuplets: those that are open, those that there are, and the
modifications of notes and rests.
-/

namespace LdpScore

/-- The tuplets are left alone, and so is how long notes and rests last. -/
structure Analysis.Spares (before after : Analysis) : Prop where
  model : before.draft.model.Spares after.draft.model
  chords : before.draft.model.FindsNoChord after.draft.model
  tuplets : after.pending.tuplets = before.pending.tuplets

namespace Analysis.Spares

variable {first middle last before after : Analysis}

theorem trans
    (earlier : Spares first middle) (later : Spares middle last) :
    Spares first last :=
  ⟨earlier.model.trans later.model,
    fun handle chord linked =>
      earlier.chords handle chord (later.chords handle chord linked),
    later.tuplets.trans earlier.tuplets⟩

theorem of_amends (amends : before.Amends after) : Spares before after :=
  ⟨amends.model, amends.chords, congrArg Pending.tuplets amends.pending⟩

end Analysis.Spares

instance : Tracing fun _ => Analysis.Spares where
  of_agrees agrees := .of_amends (.of_agrees agrees)
  trans := .trans
  mono spares _ := spares

/-- Joining notes and rests leaves the tuplets alone unless it makes one. -/
theorem Draft.Relates.spares
    {kind : PairedRelation} {joining : List Handle} {before after : Draft}
    (relates : Relates kind joining before after) (other : kind ≠ .tuplet) :
    before.model.Spares after.model ∧
      before.model.FindsNoChord after.model := by
  rcases relates with silent | ⟨content, created, admitted, named, _⟩
  · rw [silent.model]
    exact ⟨.refl _, fun _ _ linked => linked⟩
  · have noTuplet : content.name ≠ "tuplet" := by
      rw [named]
      cases kind <;> simp_all [PairedRelation.word]
    exact ⟨created.spares admitted.isRelation
      (Content.tuplet?_eq_none_of_name noTuplet),
      (created.keepsNotes admitted.isRelation
        (named ▸ kind.word_ne_chord)).chords⟩

namespace Analyser

variable {before : Analysis} {handle : Handle}

/-- A step leaves the tuplets alone. -/
abbrev SparesTuplets
    {Value : Type} (action : Analyser Value) (before : Analysis) : Prop :=
  Traces (fun _ => Analysis.Spares) [] action before fun _ _ => True

theorem SparesTuplets.of_reads
    {Value : Type} {action : Analyser Value} (reads : Reads action) :
    SparesTuplets action before :=
  .of_quiet reads fun _ _ _ holds => holds

theorem spares_settle
    {change : Pending → Draft → Pending × Draft}
    {kind : PairedRelation} {joining : List Handle}
    (relates : Draft.Relates kind joining before.draft
      (change before.pending before.draft).2)
    (other : kind ≠ .tuplet)
    (tuplets : (change before.pending before.draft).1.tuplets =
      before.pending.tuplets) :
    SparesTuplets (settle change) before :=
  ⟨⟨(relates.spares other).1, (relates.spares other).2, tuplets⟩, trivial⟩

/-- A note or rest joins the legacy beam or ends it. -/
theorem spares_settleLegacyBeam
    (decorations : Decorations) (type : NoteType) (node : Node)
    {ties tuplets slurs : Handle}
    (isNoteRest : before.draft.model.IsNoteRest handle)
    (ready : before.pending.Ready before.draft.model ties tuplets handle
      slurs) :
    SparesTuplets (settleLegacyBeam decorations handle type node) before := by
  have joined : ∀ {state : Analysis} (location : Location),
      SparesTuplets (joinLegacyBeam handle location) state := by
    intro state location
    have related : Draft.Relates .beam [] state.draft state.draft :=
      .silent (.refl state.draft)
    exact spares_settle related (by simp) rfl
  have closed : ∀ location, before.pending.legacyBeam ≠ [] →
      SparesTuplets (closeLegacyBeam handle location) before := by
    intro location someWait
    have rising := ready.legacyRising
      ⟨0, BeamLevels.empty, handle, location⟩ rfl
    have related : Draft.Relates .beam _ before.draft _ :=
      LegacyBeam.relates_close rising someWait fun other listed => by
        rcases List.mem_append.mp listed with old | new
        · exact (ready.legacyMembers other old).1
        · rw [List.mem_singleton.mp new]
          exact isNoteRest
    exact spares_settle related (by simp) rfl
  have reported : ∀ {state : Analysis} location problem, problem ≠ .idTaken →
      SparesTuplets (report location problem) state :=
    fun location _ other => .of_reads (reads_report location other)
  rw [settleLegacyBeam]
  apply Traces.readPending
  dsimp only
  split
  · split
    · split
      · exact reported _ _ (by simp)
      · split
        · exact .read (reads_report _ (by simp)) fun _ _ _ _ => joined _
        · exact joined _
    · split
      · rename_i isOpen
        refine closed _ fun noneWaits => ?_
        rw [noneWaits] at isOpen
        cases isOpen
      · exact reported _ _ (by simp)
    · exact reported _ _ (by simp)
  · split
    · exact joined _
    · exact .pure trivial

/-- All turns but two leave the tuplets alone. -/
theorem spares_action
    {note : Written} {decorations : Decorations} {turn : Turn}
    (value : NoteValue) (due : turn.Due note decorations before)
    (noModification : turn ≠ .modification) (noTuplets : turn ≠ .tuplets) :
    SparesTuplets (turn.action note value decorations) before := by
  have nothing : SparesTuplets (Pure.pure ()) before := .pure trivial
  have ready := due.ready
  cases turn with
  | modification => exact absurd rfl noModification
  | tuplets => exact absurd rfl noTuplets
  | legacyTie =>
      have isNote := due.isNote fun isRest => (due.comes isRest).1 rfl
      have related : Draft.Relates .tie _ before.draft _ :=
        LegacyTie.relates_offer
          (fun member waits => (ready.legacyTie member waits).1) isNote
          fun member waits => (ready.legacyTie member waits).2
      rw [Turn.action, settleLegacyTie]
      cases decorations.legacyTie with
      | none => exact spares_settle related (by simp) rfl
      | some label => exact spares_settle related (by simp) rfl
  | tie =>
      rw [Turn.action, offerTie]
      cases isPoint : decorations.tie with
      | none => exact nothing
      | some point =>
          have isOwn := due.areOf.tie point isPoint
          have isNote := due.isNote fun isRest => (due.comes isRest).2 rfl
          exact spares_settle (Tie.settles_add ready.tiesWait isOwn
            (forall_offered ready.tieNotes isOwn isNote)).relates (by simp) rfl
  | legacyBeam =>
      exact spares_settleLegacyBeam decorations value.type note.node
        due.isNoteRest ready
  | beam =>
      rw [Turn.action, offerBeam]
      cases isPoint : decorations.beam with
      | none => exact nothing
      | some point =>
          have isOwn := due.areOf.beam point isPoint
          exact spares_settle (Beam.settles_add ready.beamsWait isOwn
            (forall_offered ready.beamMembers isOwn
              due.isNoteRest)).relates (by simp) rfl
  | slur =>
      rw [Turn.action, settleSlur]
      cases isPoint : decorations.slur with
      | none => exact nothing
      | some point =>
          have isOwn := due.areOf.slur point isPoint
          have isNote := due.isNote fun isRest => by
            rw [due.areOf.onlyNotes isRest] at isPoint
            cases isPoint
          exact spares_settle (Slur.settles_add
            (ready.slursWait.mono (Nat.le_succ note.handle)) isOwn
            (forall_offered ready.slurNotes isOwn isNote)).relates (by simp)
            rfl
  | chord => exact nothing

end Analyser

end LdpScore
