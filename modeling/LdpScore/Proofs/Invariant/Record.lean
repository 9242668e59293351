import LdpScore.Proofs.Analysis.Run
import LdpScore.Proofs.Analysis.Sparing
import Mathlib.Data.List.Nodup

/-!
# The record of the notes and rests

At every moment of an analysis the notes and rests of the model are those written
so far, in the order of their handles, and the one in the making is the last of
them.  What a note takes for its chord is one.
-/

namespace LdpScore

open Analyser

namespace Model

/-- What notes take for their chords are chords. -/
def LinksChords (model : Model) : Prop :=
  ∀ handle chord, model.chord? handle = some chord →
    ∃ content, model.content? chord = some content ∧ content.name = "chord"

theorem LinksChords.keep
    {before after : Model} (linked : before.LinksChords)
    (keeps : before.KeepsNotes after) :
    after.LinksChords := by
  intro handle chord isChord
  obtain ⟨content, found, named⟩ :=
    linked handle chord (keeps.chords handle chord isChord)
  obtain ⟨later, foundLater, sameName⟩ := keeps.old chord content found
  exact ⟨later, foundLater, sameName.trans named⟩

/-- Kinds are retained, so that a chord remains one. -/
theorem Spares.chord
    {before after : Model} (spares : before.Spares after) {chord : Handle}
    (isChord : ∃ content, before.content? chord = some content ∧
      content.name = "chord") :
    ∃ content, after.content? chord = some content ∧
      content.name = "chord" := by
  obtain ⟨content, found, named⟩ := isChord
  obtain ⟨later, foundLater, retains⟩ := spares.old chord content found
  exact ⟨later, foundLater, retains.name.trans named⟩

end Model

namespace Analyser

variable {draft : Draft} {base note : Handle}

/-- Joining a chord, or making one, leaves the rest of the music alone. -/
theorem spares_joinChord
    (linked : draft.model.LinksChords)
    (baseIs : draft.model.IsNote base) (isNote : draft.model.IsNote note) :
    draft.model.Spares (joinChord base note draft).model := by
  cases joined : (draft.model.note? base).bind Note.chord with
  | none =>
      exact (creates_joinChord joined baseIs.lt_size isNote.lt_size).spares
        rfl rfl
  | some chord =>
      refine Draft.spares_joinChord joined fun content found => ?_
      obtain ⟨other, foundOther, named⟩ :=
        linked base chord ((draft.model.chord?_eq_bind base).trans joined)
      rw [found] at foundOther
      cases foundOther
      exact named

theorem chord?_mapNote_chord
    {content : Content} {chord found : Handle}
    (linked : (content.mapNote fun it =>
      { it with chord := some chord }).chord? = some found) :
    found = chord := by
  cases content <;> cases linked
  rfl

/-- A note finds the chord that it joins, and no other note finds any. -/
theorem linksChords_joinChord
    (linked : draft.model.LinksChords)
    (baseIs : draft.model.IsNote base) (isNote : draft.model.IsNote note) :
    (joinChord base note draft).model.LinksChords := by
  have spares := spares_joinChord linked baseIs isNote
  intro handle found isFound
  cases joined : (draft.model.note? base).bind Note.chord with
  | none =>
      have created := creates_joinChord joined baseIs.lt_size isNote.lt_size
      have isNew : (joinChord base note draft).model.content?
          draft.model.size =
            some (.chord [(base, .chord), (note, .chord)]) := by
        rw [created.content?, if_pos rfl]
      rw [Model.chord?, created.content?] at isFound
      split at isFound
      · cases isFound
      · obtain ⟨content, isContent, isLinked⟩ :=
          Option.bind_eq_some_iff.mp isFound
        obtain ⟨old, foundOld, rfl⟩ := Option.map_eq_some_iff.mp isContent
        rw [Content.effectOn] at isLinked
        split at isLinked
        · rw [chord?_mapNote_chord isLinked]
          exact ⟨_, isNew, rfl⟩
        · apply spares.chord
          apply linked handle found
          rw [Model.chord?, foundOld]
          exact isLinked
  | some chord =>
      have isChord := linked base chord
        ((draft.model.chord?_eq_bind base).trans joined)
      rw [Model.chord?, joinChord_of_joined joined] at isFound
      change (((draft.model.includeMember chord note .chord).modifyContent
        note _).content? handle).bind Content.chord? = some found at isFound
      rw [Model.content?_modifyContent, Model.content?_includeMember,
        Option.map_map] at isFound
      obtain ⟨content, isContent, isLinked⟩ :=
        Option.bind_eq_some_iff.mp isFound
      obtain ⟨old, foundOld, rfl⟩ := Option.map_eq_some_iff.mp isContent
      dsimp only [Function.comp_apply] at isLinked
      split at isLinked
      · rw [chord?_mapNote_chord isLinked]
        exact spares.chord isChord
      · apply spares.chord
        apply linked handle found
        rw [Model.chord?, foundOld]
        split at isLinked
        · cases old <;> exact isLinked
        · exact isLinked

end Analyser

/-- The note or rest that is in the making, if there is one. -/
def Focus.note? : Focus → Option Written
  | .between => none
  | .reading note => some note
  | .settling note _ _ _ => some note

/-- The decorations of the note or rest in the making are those that its element
gives. -/
def Focus.Says : Focus → Prop
  | .settling note _ decorations _ => note.Says decorations
  | _ => True

/-- Notes are made from the elements of notes, and rests from those of rests. -/
def Written.IsMade (note : Written) : Prop :=
  ∃ value pitch, (noteRestContent note.flavor value pitch).isFrom note.node

/-- The notes and rests of the model are those written so far, in order. -/
structure Moment.Recorded (moment : Moment) : Prop where
  rising : (moment.written.map Written.handle).Pairwise (· < ·)
  made : ∀ note ∈ moment.written, note.IsMade
  notes : ∀ handle, moment.model.IsNoteRest handle ↔
    handle ∈ moment.written.map Written.handle
  newest : ∀ note, moment.focus.note? = some note →
    moment.written.getLast? = some note
  decorated : moment.focus.Says
  chords : moment.model.LinksChords

namespace Moment

/-- What keeps the notes and rests keeps their record. -/
theorem Recorded.keep
    {before : Moment} (recorded : before.Recorded)
    {after : Analysis} {focus : Focus}
    (notes : ∀ handle, after.draft.model.IsNoteRest handle ↔
      before.model.IsNoteRest handle)
    (chords : after.draft.model.LinksChords)
    (same : ∀ note, focus.note? = some note →
      before.focus.note? = some note)
    (decorated : focus.Says) :
    Recorded ⟨after, before.written, focus⟩ :=
  ⟨recorded.rising, recorded.made,
    fun handle => (notes handle).trans (recorded.notes handle),
    fun note isFocus => recorded.newest note (same note isFocus), decorated,
    chords⟩

theorem Recorded.lt_size
    {moment : Moment} (recorded : moment.Recorded) {note : Written}
    (listed : note ∈ moment.written) :
    note.handle < moment.model.size :=
  ((recorded.notes note.handle).mpr (List.mem_map_of_mem listed)).lt_size

/-- No two notes or rests have one handle. -/
theorem Recorded.eq_of_handle
    {moment : Moment} (recorded : moment.Recorded) {first second : Written}
    (isFirst : first ∈ moment.written) (isSecond : second ∈ moment.written)
    (same : first.handle = second.handle) :
    first = second := by
  have distinct : (moment.written.map Written.handle).Nodup :=
    recorded.rising.imp Nat.ne_of_lt
  exact List.inj_on_of_nodup_map distinct isFirst isSecond same

/-- A new note or rest comes last in the record. -/
theorem Recorded.write
    {state : Analysis} {written : List Written}
    (recorded : Recorded ⟨state, written, .between⟩) (note : Written)
    {anchor : Option Handle} (value : NoteValue) (pitch : Option Pitch)
    (anchored : state.draft.model.HasAnchor anchor)
    (isNew : note.handle = state.draft.model.size)
    (isFrom : (noteRestContent note.flavor value pitch).isFrom note.node) :
    Recorded
      ⟨{ state with
          draft := (state.draft.addObject note.node.id? note.node.location
            anchor (noteRestContent note.flavor value pitch)).2 },
        written ++ [note], .reading note⟩ := by
  have content : ∀ handle,
      Model.content? (state.draft.addObject note.node.id? note.node.location
        anchor (noteRestContent note.flavor value pitch)).2.model handle =
          if handle = note.handle then
            some (noteRestContent note.flavor value pitch)
          else state.draft.model.content? handle := by
    intro handle
    rw [Draft.content?_addObject _ _ _ anchored, isNew]
  have isNoteRest := noteRest?_noteRestContent note.flavor value pitch
  constructor
  · rw [List.map_append, List.map_singleton, List.pairwise_append]
    refine ⟨recorded.rising, List.pairwise_singleton .., ?_⟩
    intro earlier listed last isLast
    rw [List.mem_singleton.mp isLast, isNew]
    exact ((recorded.notes earlier).mpr listed).lt_size
  · intro other listed
    rcases List.mem_append.mp listed with old | new
    · exact recorded.made other old
    · rw [List.mem_singleton.mp new]
      exact ⟨value, pitch, isFrom⟩
  · intro handle
    rw [List.map_append, List.mem_append, ← recorded.notes handle,
      List.map_singleton, List.mem_singleton]
    dsimp only [Model.IsNoteRest, Model.noteRest?, Moment.model]
    rw [content handle]
    split
    · rename_i isOwn
      exact ⟨fun _ => Or.inr isOwn, fun _ => isNoteRest⟩
    · rename_i isOther
      exact ⟨Or.inl, fun listed => listed.resolve_right isOther⟩
  · rintro other ⟨⟩
    exact List.getLast?_concat
  · trivial
  · intro handle chord linked
    dsimp only [Model.chord?, Moment.model] at linked ⊢
    rw [content handle] at linked
    split at linked
    · rw [Option.bind_some, Content.chord?_eq,
        (isFresh_noteRestContent note.flavor value pitch).links] at linked
      cases linked
    · obtain ⟨old, found, named⟩ := recorded.chords handle chord linked
      have isOther : chord ≠ note.handle := by
        rw [isNew]
        exact Nat.ne_of_lt (Model.lt_size_of_content? found)
      rw [content chord, if_neg isOther]
      exact ⟨old, found, named⟩

/-- Every turn keeps the notes and rests as they are. -/
theorem keepsNotes_turn
    {note : Written} {decorations : Decorations} {turn : Turn}
    {state : Analysis} (value : NoteValue)
    (due : turn.Due note decorations state) :
    state.draft.model.KeepsNotes
      ((turn.action note value decorations).run state).run.2.draft.model := by
  obtain ⟨content, found⟩ :=
    Model.exists_get?_of_lt_size due.isNoteRest.lt_size
  exact (joins_action value due ⟨content, found, rfl⟩).1.notes

theorem Step.recorded
    {before after : Moment} (step : Step before after)
    (recorded : before.Recorded) :
    after.Recorded := by
  cases step with
  | amend _ amends =>
      refine recorded.keep amends.model.keepsKinds.isNoteRest_iff ?_
        (fun _ => id) recorded.decorated
      exact recorded.chords.keep (.of_spares amends.model amends.chords)
  | write state written note anchor value pitch anchored isNew isFrom =>
      exact recorded.write note value pitch anchored isNew isFrom
  | read state written note value decorations reads =>
      exact recorded.keep (fun _ => Iff.rfl) recorded.chords (fun _ => id)
        reads.decorated
  | turn state written note value decorations turn due =>
      have keeps := keepsNotes_turn value due
      exact recorded.keep keeps.isNoteRest_iff (recorded.chords.keep keeps)
        (fun _ => id) recorded.decorated
  | sound state written note value decorations base baseIs isNote =>
      have spares := spares_joinChord recorded.chords baseIs isNote
      exact recorded.keep spares.keepsKinds.isNoteRest_iff
        (linksChords_joinChord recorded.chords baseIs isNote) (fun _ => id)
        recorded.decorated
  | finish state written note value decorations =>
      exact recorded.keep (fun _ => Iff.rfl) recorded.chords nofun trivial
  | flush state written =>
      have silent := Pending.silent_reportAll state.pending state.draft
      refine recorded.keep (fun handle => ?_) ?_ (fun _ => id) recorded.decorated
      · show Model.IsNoteRest (state.pending.reportAll state.draft).model _ ↔
          _
        rw [silent.model]
      · show Model.LinksChords (state.pending.reportAll state.draft).model
        rw [silent.model]
        exact recorded.chords

theorem recorded_start : start.Recorded := by
  refine ⟨List.Pairwise.nil, nofun, fun handle => ?_, nofun, trivial,
    fun handle chord linked => ?_⟩
  · constructor
    · intro isNoteRest
      exact absurd isNoteRest.lt_size (Nat.not_lt_zero handle)
    · exact fun listed => absurd listed List.not_mem_nil
  · obtain ⟨content, found, _⟩ := Option.bind_eq_some_iff.mp linked
    exact absurd (Model.lt_size_of_content? found) (Nat.not_lt_zero handle)

/-- Every moment of an analysis has its notes and rests recorded. -/
theorem Run.recorded {moment : Moment} (run : start.Run moment) :
    moment.Recorded :=
  run.preserves (fun step => step.recorded) recorded_start

/-- Nothing is taken out of the record. -/
theorem Run.written_prefix
    {before after : Moment} (run : Run before after) :
    before.written <+: after.written := by
  induction run with
  | refl => exact List.prefix_refl _
  | tail _ step induction =>
      refine induction.trans ?_
      cases step with
      | write => exact List.prefix_append _ _
      | _ => exact List.prefix_refl _

/-- A moment on the way of an analysis of a tree to a model. -/
def Leads (moment : Moment) (root : Node) (model : Model) : Prop :=
  start.Run moment ∧
    ∃ last, Run moment last ∧ last.focus = .between ∧ last.model = model ∧
      (last.written.map Written.node).Sublist root.nodes

theorem Leads.mem_nodes
    {moment : Moment} {root : Node} {model : Model}
    (leads : moment.Leads root model)
    {note : Written} (listed : note ∈ moment.written) :
    note.node ∈ root.nodes := by
  obtain ⟨_, last, run, _, _, nodes⟩ := leads
  have listedLast : note ∈ last.written := run.written_prefix.subset listed
  exact nodes.subset (List.mem_map_of_mem listedLast)

/-- The way of an analysis begins with nothing. -/
theorem Leads.start
    {moment : Moment} {root : Node} {model : Model}
    (leads : moment.Leads root model) :
    Moment.start.Leads root model := by
  obtain ⟨earlier, last, later, facts⟩ := leads
  exact ⟨.refl, last, earlier.trans later, facts⟩

/-- The last moment of an analysis that accepts a text: nothing is in the making,
nothing waits, and all has been reported. -/
structure IsLast
    (last : Moment) (source file : String) (root : Node) (model : Model) :
    Prop where
  leads : last.Leads root model
  idle : last.focus = .between
  nothing : last.state.pending = {}
  isModel : last.model = model
  reports : (analyseSource source file).diagnostics =
    (Node.read (Token.lex source file)).diagnostics ++ last.draft.diagnostics

/-- Every analysis that accepts a text ends. -/
theorem exists_last_of_accepted
    {source file : String} {model : Model}
    (accepted : (analyseSource source file).result = .ok model) :
    ∃ root last, (Node.read (Token.lex source file)).result = .ok root ∧
      IsLast last source file root model := by
  obtain ⟨root, isTree, isModel, reports⟩ := exists_tree_of_accepted accepted
  obtain ⟨last, run, idle, nothing, isLast, areReports, nodes⟩ :=
    exists_moments_analyse root
  have toModel := isLast.trans isModel
  refine ⟨root, last, isTree, ⟨run, last, .refl, idle, toModel, nodes⟩, idle,
    nothing, toModel, ?_⟩
  rw [reports, areReports]

end Moment

end LdpScore
