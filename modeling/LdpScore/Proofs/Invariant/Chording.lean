import LdpScore.Proofs.Invariant.Sounding

/-!
# The chords of a score

A `Performs` run keeps a model `Harmonious`, and what it plays can be told from its
cues: they say for every note or rest which note was played last in the same
instrument.  A chord note shares the chord of that note, whatever stands between the
two.
-/

namespace LdpScore

open Analyser

/-- A note or rest that has been played, and the last note before it in the same
instrument. -/
structure Played where
  handle : Handle
  flavor : Flavor
  previous : Option Handle

namespace Cue

/-- What is played when some cues are given, where the notes and rests are created
as the handles say.  A rest is not a note, and a new instrument knows of no note
before it. -/
def record : Option Handle → List Cue → List Handle → List Played
  | previous, .play flavor _ :: cues, handle :: handles =>
      ⟨handle, flavor, previous⟩ ::
        record (if flavor = .rest then previous else some handle) cues handles
  | _, .instrument :: cues, handles => record none cues handles
  | _, _, _ => []

end Cue

namespace Model

/-- A played note is a note and a played rest is none, and a chord note is in the
chord of the last note before it. -/
structure Hears (model : Model) (played : Played) : Prop where
  isNoteRest : model.IsNoteRest played.handle
  isNote : model.IsNote played.handle ↔ played.flavor ≠ .rest
  together : played.flavor = .chordNote →
    ∀ previous, played.previous = some previous →
      ∃ chord, model.chord? previous = some chord ∧
        model.chord? played.handle = some chord

/-- What has been played is heard as long as notes stay notes and keep their
chords. -/
theorem Hears.later
    {before after : Model} {played : Played} (hears : before.Hears played)
    (names : before.KeepsNames after)
    (links : ∀ note chord, before.chord? note = some chord →
      after.chord? note = some chord) :
    after.Hears played := by
  have inside := hears.isNoteRest.lt_size
  refine ⟨(names.isNoteRest_iff inside).mpr hears.isNoteRest,
    (names.isNote_iff inside).trans hears.isNote,
    fun isChordNote previous given => ?_⟩
  obtain ⟨chord, first, second⟩ := hears.together isChordNote previous given
  exact ⟨chord, links _ _ first, links _ _ second⟩

end Model

/-- The last note, if it is known, is a note. -/
def Analysis.KnowsLast (state : Analysis) : Prop :=
  ∀ last, state.context.lastNote = some last → state.draft.model.IsNote last

theorem Sounds.knowsLast
    {flavor : Flavor} {before after : Analysis} {handle : Handle}
    (sounds : Sounds flavor before handle after) (knowsLast : before.KnowsLast) :
    after.KnowsLast := by
  intro last isLast
  rw [sounds.lastNote] at isLast
  split at isLast
  · exact sounds.names.isNote (knowsLast last isLast)
  · rename_i noRest
    cases isLast
    exact sounds.isNote.mpr noRest

/-- What is known of some notes and rests that have been played. -/
structure Resounds
    (cues : List Cue) (before : Analysis) (handles : List Handle)
    (after : Analysis) : Prop where
  harmonious : after.draft.model.Harmonious
  names : before.draft.model.KeepsNames after.draft.model
  links : ∀ note chord, before.draft.model.chord? note = some chord →
    after.draft.model.chord? note = some chord
  noteRests : after.draft.model.noteRests =
    before.draft.model.noteRests ++ handles
  length : handles.length = (Cue.nodes cues).length
  hears : ∀ played ∈ Cue.record before.context.lastNote cues handles,
    after.draft.model.Hears played

namespace Resounds

variable {cues : List Cue} {handles : List Handle}
variable {first middle last : Analysis}

/-- What leaves the notes, the rests and their chords as they are can go before. -/
theorem after_endures
    (resounds : Resounds cues middle handles last)
    (endures : first.draft.model.Endures middle.draft.model)
    (sameNote : middle.context.lastNote = first.context.lastNote) :
    Resounds cues first handles last :=
  ⟨resounds.harmonious, endures.names.trans resounds.names,
    fun note chord linked => resounds.links note chord
      ((endures.links note chord).mpr linked),
    resounds.noteRests.trans (congrArg (· ++ handles) endures.noteRests),
    resounds.length, sameNote ▸ resounds.hears⟩

/-- One more note or rest can go before. -/
theorem after_sounds
    {flavor : Flavor} {node : Node} {handle : Handle}
    (resounds : Resounds cues middle handles last)
    (sounds : Sounds flavor first handle middle) :
    Resounds (.play flavor node :: cues) first (handle :: handles) last := by
  refine ⟨resounds.harmonious, sounds.names.trans resounds.names,
    fun note chord linked => resounds.links note chord
      (sounds.links note chord linked), ?_, ?_, ?_⟩
  · rw [resounds.noteRests, sounds.noteRests, List.append_assoc,
      List.singleton_append]
  · exact congrArg (· + 1) resounds.length
  · rw [Cue.record, List.forall_mem_cons]
    rw [← sounds.lastNote]
    refine ⟨?_, resounds.hears⟩
    have isNoteRest : middle.draft.model.IsNoteRest handle := by
      rw [← Model.mem_noteRests_iff, sounds.noteRests]
      exact List.mem_concat_self
    exact Model.Hears.later ⟨isNoteRest, sounds.isNote, sounds.joins⟩
      resounds.names resounds.links

end Resounds

/-- Every performance keeps a model harmonious, and all that it plays is heard. -/
theorem Performs.resounds
    {cues : List Cue} {before after : Analysis}
    (performs : Performs cues before after)
    (harmonious : before.draft.model.Harmonious) (knowsLast : before.KnowsLast) :
    ∃ handles, Resounds cues before handles after := by
  induction performs with
  | done state =>
      exact ⟨[], harmonious, .refl _, fun _ _ linked => linked,
        (List.append_nil _).symm, rfl, by simp [Cue.record]⟩
  | @aside cues first middle last aside _ induction =>
      have leaves := aside.model
      have endures : first.draft.model.Endures middle.draft.model :=
        ⟨.of_leaves leaves, leaves.names, aside.noteRests⟩
      obtain ⟨handles, resounds⟩ := induction
        (harmonious.keep endures.toKeepsHarmony) fun note isLast =>
          leaves.names.isNote (knowsLast note (aside.lastNote ▸ isLast))
      exact ⟨handles, resounds.after_endures endures aside.lastNote⟩
  | @flush cues first last _ induction =>
      have silent : (clearPending.run first).run.2.draft.model =
          first.draft.model :=
        (first.pending.silent_reportAll first.draft).model
      have endures : first.draft.model.Endures
          (clearPending.run first).run.2.draft.model := by
        rw [silent]
        exact .refl _
      obtain ⟨handles, resounds⟩ := induction
        (harmonious.keep endures.toKeepsHarmony) fun note isLast =>
          endures.names.isNote (knowsLast note isLast)
      exact ⟨handles, resounds.after_endures endures rfl⟩
  | start _ induction =>
      obtain ⟨handles, resounds⟩ := induction harmonious nofun
      exact ⟨handles, resounds.harmonious, resounds.names, resounds.links,
        resounds.noteRests, resounds.length, resounds.hears⟩
  | @play flavor node _ _ _ anchor _ induction =>
      have sounds := sounds_analyseNoteRest flavor node anchor harmonious knowsLast
      obtain ⟨handles, resounds⟩ := induction sounds.harmonious
        (sounds.knowsLast knowsLast)
      exact ⟨_ :: handles, resounds.after_sounds sounds⟩

/-! ## Whole texts -/

/-- The chords of a score.  The notes of a chord start together, every note is in at
most one chord, and it knows that chord; and every chord note of the tree is in a
chord with the last note before it in the same instrument. -/
structure Model.ChordsAgree (root : Node) (model : Model) : Prop where
  areNotes : ∀ chord members, model.content? chord = some (.chord members) →
    ∀ note ∈ members.map Prod.fst, model.IsNote note
  onsets : ∀ chord members, model.content? chord = some (.chord members) →
    ∀ first ∈ members.map Prod.fst, ∀ second ∈ members.map Prod.fst,
      model.onset? first = model.onset? second
  single : ∀ note first firstMembers second secondMembers,
    model.content? first = some (.chord firstMembers) →
    model.content? second = some (.chord secondMembers) →
    note ∈ firstMembers.map Prod.fst → note ∈ secondMembers.map Prod.fst →
      first = second
  knows : ∀ note chord, model.chord? note = some chord ↔
    ∃ members, model.content? chord = some (.chord members) ∧
      note ∈ members.map Prod.fst
  played : model.noteRests.length = (Cue.nodes root.cues).length
  areHeard : ∀ played ∈ Cue.record none root.cues model.noteRests,
    (model.IsNote played.handle ↔ played.flavor ≠ .rest) ∧
      (played.flavor = .chordNote →
        ∀ previous, played.previous = some previous →
          ∃ chord members, model.content? chord = some (.chord members) ∧
            previous ∈ members.map Prod.fst ∧
            played.handle ∈ members.map Prod.fst)

/-- The chords of an analysed tree. -/
theorem chordsAgree_analyse (root : Node) :
    (analyse root).1.ChordsAgree root := by
  obtain ⟨handles, resounds⟩ := (performs_analyse root).resounds
    Model.harmonious_empty nofun
  have harmonious : (analyse root).1.Harmonious := resounds.harmonious
  have noteRests : (analyse root).1.noteRests = handles := resounds.noteRests
  refine ⟨fun chord members isChord note listed => ?_,
    fun chord members isChord first firstListed second secondListed => ?_,
    fun note first firstMembers second secondMembers => harmonious.single,
    harmonious.knows, noteRests ▸ resounds.length, fun played isPlayed => ?_⟩
  · exact Model.isNote_of_chord?
      ((harmonious.knows note chord).mpr ⟨members, isChord, listed⟩)
  · exact harmonious.onsets first second chord
      ((harmonious.knows first chord).mpr ⟨members, isChord, firstListed⟩)
      ((harmonious.knows second chord).mpr ⟨members, isChord, secondListed⟩)
  · rw [noteRests] at isPlayed
    have hears := resounds.hears played isPlayed
    refine ⟨hears.isNote, fun isChordNote previous given => ?_⟩
    obtain ⟨chord, first, second⟩ := hears.together isChordNote previous given
    obtain ⟨members, isChord, previousListed⟩ :=
      (harmonious.knows previous chord).mp first
    obtain ⟨_, isSame, listed⟩ :=
      (harmonious.knows played.handle chord).mp second
    cases isChord.symm.trans isSame
    exact ⟨chord, members, isChord, previousListed, listed⟩

/-- The chords of every text that is accepted. -/
theorem chordsAgree_analyseSource
    {source file : String} {model : Model}
    (accepted : (analyseSource source file).result = .ok model) :
    ∃ root, (Node.read (Token.lex source file)).result = .ok root ∧
      model.ChordsAgree root := by
  obtain ⟨root, isTree, rfl, _⟩ := exists_tree_of_accepted accepted
  exact ⟨root, isTree, chordsAgree_analyse root⟩

/-- A chord note finds the last note beyond a rest and a barline. -/
theorem chordsAgree_beyond_rest :
    ∃ model root,
      (analyseSource
        "(musicData (n c4 q) (r q) (barline) (na e4 q) (na g4 q))"
        "").result = .ok model ∧
      (model.content? 5).map Content.members? = some (some
        [(1, .chord), (4, .chord), (6, .chord)]) ∧
      model.ChordsAgree root := by
  obtain ⟨model, accepted, members⟩ := exists_model_of_any
    (fun model => (model.content? 5).map Content.members? = some (some
      [(1, .chord), (4, .chord), (6, .chord)]))
    (by decide +kernel : (analyseSource
      "(musicData (n c4 q) (r q) (barline) (na e4 q) (na g4 q))"
      "").result.toOption.any _)
  obtain ⟨root, _, agrees⟩ := chordsAgree_analyseSource accepted
  exact ⟨model, root, accepted, of_decide_eq_true members, agrees⟩

end LdpScore
