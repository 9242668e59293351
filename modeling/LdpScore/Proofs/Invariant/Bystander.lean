import LdpScore.Proofs.Analysis.Handing
import LdpScore.Proofs.Analysis.Passage
import LdpScore.Proofs.Invariant.Record
import LdpScore.Proofs.Relation.Adding

/-!
# What a step does not concern

Every turn of a note or rest adds relations of one kind, and everything else is a
bystander.  For each kind of relation the steps of a passage are therefore of two
sorts: the turns of that kind, of which this module says nothing, and all others,
which `Passage.Passes` by the relations of that kind, what waits of them and the
tunes of the notes.
-/

namespace LdpScore

open Analyser

namespace Model

/-- Where no chord is found and all chords stay, notes go on knowing chords. -/
theorem LinksChords.of_finds
    {before after : Model} (linked : before.LinksChords)
    (finds : before.FindsNoChord after)
    (keeps : before.KeepsNames after) :
    after.LinksChords := by
  intro note chord known
  obtain ⟨content, found, named⟩ := linked note chord (finds note chord known)
  obtain ⟨later, foundLater, sameName⟩ := keeps chord content found
  exact ⟨later, foundLater, sameName.trans named⟩

/-- A new member of a chord finds nothing. -/
theorem findsNoChord_includeMember
    (model : Model) (chord member : Handle) (role : Role) :
    model.FindsNoChord (model.includeMember chord member role) := by
  apply FindsNoChord.of_map (model.content?_includeMember chord member role)
  intro handle content _
  split
  · cases content <;> rfl
  · rfl

/-- A note may be told of a chord. -/
theorem LinksChords.modifyNote
    {model : Model} {chord : Handle} (linked : model.LinksChords)
    (isChord : model.IsNamed "chord" chord) (inside : chord < model.size)
    (note : Handle) :
    (model.modifyNote note fun it =>
      { it with chord := some chord }).LinksChords := by
  have changed := model.content?_modifyContent note
    (Content.mapNote fun it => { it with chord := some chord })
  have stillChord : ∀ handle content, model.content? handle = some content →
      content.name = "chord" → ∃ later,
        (model.modifyNote note fun it =>
          { it with chord := some chord }).content? handle = some later ∧
            later.name = "chord" := by
    intro handle content found named
    refine ⟨_, (changed handle).trans (congrArg _ found), ?_⟩
    dsimp only
    split
    · rw [Content.name_mapNote, named]
    · exact named
  intro handle known isKnown
  obtain ⟨content, foundContent, ofContent⟩ := Option.bind_eq_some_iff.mp isKnown
  obtain ⟨old, foundOld, rfl⟩ :=
    Option.map_eq_some_iff.mp ((changed handle).symm.trans foundContent)
  split at ofContent
  · obtain ⟨content, found⟩ := exists_content?_of_lt_size inside
    rw [chord?_mapNote_chord ofContent]
    exact stillChord chord content found (isChord content found)
  · obtain ⟨content, found, named⟩ := linked handle known (by
      rw [Model.chord?, foundOld]
      exact ofContent)
    exact stillChord known content found named

end Model

namespace Draft

/-- A note is put into a chord that is there. -/
theorem adds_sound
    {draft : Draft} {chord : Handle} (linked : draft.model.LinksChords)
    (isChord : draft.model.IsNamed "chord" chord)
    (inside : chord < draft.model.size) (note : Handle) :
    draft.model.Adds "chord"
        ((draft.includeMember chord note .chord).mapModel fun model =>
          model.modifyNote note fun it => { it with chord := some chord }).model ∧
      ((draft.includeMember chord note .chord).mapModel fun model =>
        model.modifyNote note fun it =>
          { it with chord := some chord }).model.LinksChords := by
  have included := adds_includeMember isChord note .chord
  have linkedThen := linked.of_finds
    (draft.model.findsNoChord_includeMember chord note .chord) included.names
  constructor
  · exact included.trans (.modifyContent _ note fun content _ =>
      .mapChord (some chord) content)
  · exact linkedThen.modifyNote (included.isNamed isChord)
      (Nat.lt_of_lt_of_le inside included.size_le) note

/-- A new chord is known to no note. -/
theorem linksChords_create
    {draft : Draft} (linked : draft.model.LinksChords) :
    (draft.create (.chord [])).2.model.LinksChords := by
  refine linked.of_finds ?_ (draft.adds_create (.chord [])).names
  refine .of_add (.chord []) (fun _ old => old) (fun handle => ?_)
    (fun _ _ _ => rfl) rfl
  rw [Option.map_id']
  exact draft.model.content?_add draft.ids.next.1 (.chord []) handle

end Draft

/-- Joining a chord, or making one, adds chords at most, and notes know them. -/
theorem adds_joinChord
    {draft : Draft} (linked : draft.model.LinksChords) (base note : Handle) :
    draft.model.Adds "chord" (joinChord base note draft).model ∧
      (joinChord base note draft).model.LinksChords := by
  rw [joinChord, chordOf]
  cases joined : (draft.model.note? base).bind Note.chord with
  | none =>
      have created := draft.adds_create (.chord [])
      have isChord := draft.isNamed_create (.chord [])
      have inside : draft.model.size <
          (draft.create (.chord [])).2.model.size :=
        Model.lt_size_of_content? (draft.content?_create (.chord []))
      obtain ⟨first, linkedThen⟩ :=
        Draft.adds_sound (Draft.linksChords_create linked) isChord inside base
      obtain ⟨second, linkedLast⟩ := Draft.adds_sound linkedThen
        (first.isNamed isChord) (Nat.lt_of_lt_of_le inside first.size_le) note
      exact ⟨created.trans (first.trans second), linkedLast⟩
  | some chord =>
      obtain ⟨content, found, named⟩ :=
        linked base chord ((draft.model.chord?_eq_bind base).trans joined)
      refine Draft.adds_sound linked (fun other foundOther => ?_)
        (Model.lt_size_of_content? found) note
      rw [found] at foundOther
      cases foundOther
      exact named

/-! ## Turns -/

namespace Turn

/-- The name of the relations that a turn may make. -/
def word : Turn → String
  | .legacyTie | .tie => "tie"
  | .modification | .tuplets => "tuplet"
  | .legacyBeam | .beam => "beam"
  | .slur => "slur"
  | .chord => "chord"

end Turn

/-- What a tuplet needs of a descriptor goes with tuplets. -/
theorem Tupling.adds
    {note : Written} {decorations : Decorations} {before after : Analysis}
    (tupling : Tupling note decorations before after) :
    before.draft.model.Adds "tuplet" after.draft.model := by
  have offered : ∀ (state : Analysis) point, state.draft.model.Adds "tuplet"
      (state.offerTuplet point).draft.model := by
    intro state point
    show state.draft.model.Adds "tuplet"
      (Tuplet.add state.pending.tuplets point state.draft).2.model
    rw [Tuplet.add_eq_settleWith]
    exact Pairing.adds_settleWith Tuplet.adds_linkChain ..
  cases tupling with
  | useless _ _ agrees =>
      rw [agrees.draft.model]
      exact .refl _ _
  | legacy point => exact offered before point
  | inside => exact .refl _ _
  | starting point =>
      exact offered (before.joinTuplets note.handle note.node.location) point
  | stopping point => exact offered before point

namespace Analyser

variable {note : Written} {value : NoteValue} {decorations : Decorations}
variable {state : Analysis}

theorem adds_settleLegacyBeam (type : NoteType) :
    Ensures (settleLegacyBeam decorations note.handle type note.node) state
      fun _ after => state.draft.model.Adds "beam" after.draft.model := by
  have same : state.draft.model.Adds "beam" state.draft.model := .refl _ _
  have read : Ensures pending state fun _ after => after = state := rfl
  rw [settleLegacyBeam]
  apply read.bind
  rintro waiting _ rfl
  dsimp only
  split
  · split
    · split
      · exact same
      · split
        · exact same
        · exact same
    · split
      · exact Beam.adds_linkChain ..
      · exact same
    · exact same
  · split
    · exact same
    · exact same

/-- Every turn adds relations of its own kind at most. -/
theorem adds_action (turn : Turn) :
    state.draft.model.Adds turn.word
      ((turn.action note value decorations).run state).run.2.draft.model := by
  cases turn with
  | legacyTie =>
      show state.draft.model.Adds "tie" ((settleLegacyTie decorations.legacyTie
        note.handle).run state).run.2.draft.model
      rw [settleLegacyTie]
      cases decorations.legacyTie <;> exact LegacyTie.adds_offer ..
  | tie =>
      rw [Turn.action, offerTie]
      split
      · rename_i point _
        show state.draft.model.Adds "tie"
          (Tie.add state.pending.ties point state.draft).2.model
        rw [Tie.add_eq_settleWith]
        exact Pairing.adds_settleWith Tie.adds_linkChain ..
      · exact .refl _ _
  | modification =>
      rw [Turn.action]
      cases decorations.timeModification with
      | none => exact .refl _ _
      | some modification =>
          refine .modifyContent _ note.handle fun content _ =>
            .mapNoteRest _ ?_ ?_ ?_ content
          · exact fun _ => rfl
          · exact fun _ => rfl
          · exact fun _ => rfl
  | tuplets =>
      have tupling : Tupling note decorations state _ := tupling_action value
      exact tupling.adds
  | legacyBeam => exact adds_settleLegacyBeam value.type
  | beam =>
      rw [Turn.action, offerBeam]
      split
      · rename_i point _
        show state.draft.model.Adds "beam"
          (Beam.add state.pending.beams point state.draft).2.model
        rw [Beam.add_eq_settleWith]
        exact Pairing.adds_settleWith
          (fun chain draft => Beam.adds_linkChain chain _ draft) ..
      · exact .refl _ _
  | slur =>
      rw [Turn.action, settleSlur]
      split
      · rename_i point _
        show state.draft.model.Adds "slur"
          (Slur.add state.pending.slurs point state.draft).2.model
        rw [Slur.add_eq_settleWith]
        exact Pairing.adds_settleWith Slur.adds_linkChain ..
      · exact .refl _ _
  | chord => exact .refl _ _

end Analyser

end LdpScore
