import LdpScore.Proofs.Analysis.Performing
import LdpScore.Proofs.Invariant.Bystander

/-!
# Chords and their notes

In a `Harmonious` model a note takes a chord for its own exactly when the chord
lists it, and all notes of a chord start at the same time.  Only one step of an
analysis concerns this: a note joins the chord of the note before it.  All others
leave chords, the notes that take them for their own, and their onsets as they are.
-/

namespace LdpScore

open Analyser

namespace Content

theorem isRelation_of_chord
    (content : Content) (named : content.name = "chord") :
    content.members?.isSome := by
  rw [members?_isSome_iff, named]
  decide

theorem isMusic_of_noteRest?
    {content : Content} {noteRest : NoteRest}
    (isNoteRest : content.noteRest? = some noteRest) :
    content.isMusic := by
  rw [isMusic, isNoteRest]
  rfl

theorem noteRest?_of_note?
    {content : Content} {note : Note} (isNote : content.note? = some note) :
    content.noteRest? = some note.noteRest := by
  cases content <;> cases isNote
  rfl

/-- A note takes a chord for its own. -/
theorem chord?_mapNote_some
    {content : Content} (isNote : content.note?.isSome) (chord : Handle) :
    (content.mapNote fun note => { note with chord := some chord }).chord? =
      some chord := by
  cases content <;> first | rfl | cases isNote

@[simp]
theorem chord?_mapMembers (content : Content) (change : Members → Members) :
    (content.mapMembers change).chord? = content.chord? := by
  cases content <;> rfl

@[simp]
theorem mapNote_eq_chord_iff
    (content : Content) (change : Note → Note) (members : Members) :
    content.mapNote change = .chord members ↔ content = .chord members := by
  cases content <;> simp [mapNote]

end Content

namespace Model

/-- Notes and chords know each other, and the notes of a chord start together. -/
structure Harmonious (model : Model) : Prop where
  knows : ∀ note chord, model.chord? note = some chord ↔
    ∃ members, model.content? chord = some (.chord members) ∧
      note ∈ members.map Prod.fst
  onsets : ∀ first second chord, model.chord? first = some chord →
    model.chord? second = some chord →
      model.onset? first = model.onset? second

/-- Chords, the notes that take them for their own, and when these start, are left
as they are. -/
structure KeepsHarmony (before after : Model) : Prop where
  chords : ∀ chord members, after.content? chord = some (.chord members) ↔
    before.content? chord = some (.chord members)
  links : ∀ note chord, after.chord? note = some chord ↔
    before.chord? note = some chord
  onset? : ∀ note < before.size, after.onset? note = before.onset? note

theorem lt_size_of_chord?
    {model : Model} {note chord : Handle}
    (linked : model.chord? note = some chord) :
    note < model.size := by
  obtain ⟨content, found, _⟩ := Option.bind_eq_some_iff.mp linked
  exact lt_size_of_content? found

theorem isNote_of_chord?
    {model : Model} {note chord : Handle}
    (linked : model.chord? note = some chord) :
    model.IsNote note := by
  obtain ⟨content, found, ofContent⟩ := Option.bind_eq_some_iff.mp linked
  obtain ⟨own, isNote, _⟩ := Option.bind_eq_some_iff.mp ofContent
  rw [IsNote, note?, found, Option.bind_some, isNote]
  rfl

theorem exists_content?_of_isNote
    {model : Model} {handle : Handle} (isNote : model.IsNote handle) :
    ∃ content, model.content? handle = some content ∧ content.note?.isSome := by
  obtain ⟨own, found⟩ := Option.isSome_iff_exists.mp isNote
  obtain ⟨content, isContent, ofContent⟩ := Option.bind_eq_some_iff.mp found
  exact ⟨content, isContent, by rw [ofContent]; rfl⟩

theorem harmonious_empty : ({} : Model).Harmonious := by
  constructor
  · intro note chord
    constructor
    · intro linked
      exact absurd (lt_size_of_chord? linked) (Nat.not_lt_zero note)
    · rintro ⟨members, found, _⟩
      exact absurd (lt_size_of_content? found) (Nat.not_lt_zero chord)
  · intro first second chord linked
    exact absurd (lt_size_of_chord? linked) (Nat.not_lt_zero first)

/-- A note is in at most one chord. -/
theorem Harmonious.single
    {model : Model} (harmonious : model.Harmonious)
    {note first second : Handle} {firstMembers secondMembers : Members}
    (isFirst : model.content? first = some (.chord firstMembers))
    (isSecond : model.content? second = some (.chord secondMembers))
    (inFirst : note ∈ firstMembers.map Prod.fst)
    (inSecond : note ∈ secondMembers.map Prod.fst) :
    first = second := by
  have linkedFirst := (harmonious.knows note first).mpr ⟨_, isFirst, inFirst⟩
  have linkedSecond := (harmonious.knows note second).mpr ⟨_, isSecond, inSecond⟩
  exact Option.some.inj (linkedFirst.symm.trans linkedSecond)

theorem Harmonious.keep
    {before after : Model} (harmonious : before.Harmonious)
    (keeps : before.KeepsHarmony after) :
    after.Harmonious := by
  constructor
  · intro note chord
    rw [keeps.links, harmonious.knows]
    exact exists_congr fun members => and_congr_left fun _ =>
      (keeps.chords chord members).symm
  · intro first second chord linked linkedToo
    rw [keeps.links] at linked linkedToo
    rw [keeps.onset? first (lt_size_of_chord? linked),
      keeps.onset? second (lt_size_of_chord? linkedToo)]
    exact harmonious.onsets first second chord linked linkedToo

theorem Harmonious.linksChords
    {model : Model} (harmonious : model.Harmonious) : model.LinksChords := by
  intro note chord linked
  obtain ⟨members, isChord, _⟩ := (harmonious.knows note chord).mp linked
  exact ⟨_, isChord, rfl⟩

/-- Below the bound nothing starts at another time. -/
theorem Leaves.onset?
    {before after : Model} {bound : Handle} (leaves : before.Leaves bound after)
    {handle : Handle} (inside : handle < bound) :
    after.onset? handle = before.onset? handle := by
  apply Option.ext
  intro onset
  rw [Model.onset?, Model.onset?, Option.bind_eq_some_iff,
    Option.bind_eq_some_iff]
  refine exists_congr fun content => and_congr_left fun starts => ?_
  obtain ⟨own, isNoteRest, _⟩ := Option.map_eq_some_iff.mp starts
  exact leaves.content?_iff inside (Content.isMusic_of_noteRest? isNoteRest)

namespace KeepsHarmony

variable {first middle last before after : Model}

theorem of_eq (same : after = before) : KeepsHarmony before after := by
  subst same
  exact ⟨fun _ _ => Iff.rfl, fun _ _ => Iff.rfl, fun _ _ => rfl⟩

theorem trans
    (earlier : KeepsHarmony first middle) (later : KeepsHarmony middle last)
    (size : first.size ≤ middle.size) :
    KeepsHarmony first last :=
  ⟨fun chord members =>
      (later.chords chord members).trans (earlier.chords chord members),
    fun note chord => (later.links note chord).trans (earlier.links note chord),
    fun note inside =>
      (later.onset? note (Nat.lt_of_lt_of_le inside size)).trans
        (earlier.onset? note inside)⟩

/-- What goes on beside the music does not concern chords. -/
theorem of_leaves (leaves : before.Leaves before.size after) :
    KeepsHarmony before after := by
  have omits := leaves.omits Content.isRelation_of_chord
  refine ⟨fun chord members => omits.same chord (.chord members) rfl,
    fun note chord => ⟨leaves.findsNoChord note chord, fun linked => ?_⟩,
    fun note inside => ?_⟩
  · obtain ⟨content, found, ofContent⟩ := Option.bind_eq_some_iff.mp linked
    have isMusic : content.isMusic := by
      obtain ⟨own, isNote, _⟩ := Option.bind_eq_some_iff.mp ofContent
      exact Content.isMusic_of_noteRest? (Content.noteRest?_of_note? isNote)
    rw [chord?, (leaves.content?_iff (lt_size_of_chord? linked) isMusic).mpr found]
    exact ofContent
  · exact leaves.onset? inside

/-- Nor does what is added of other relations. -/
theorem of_adds
    {word : String} (adds : before.Adds word after) (noChord : word ≠ "chord")
    (noNote : word ≠ "note") :
    KeepsHarmony before after := by
  have omits := adds.omits noChord.symm Content.isRelation_of_chord
  refine ⟨fun chord members => omits.same chord (.chord members) rfl,
    fun note chord => ⟨adds.findsNoChord noChord noNote note chord,
      fun linked => ?_⟩, fun note inside => adds.onset? inside⟩
  obtain ⟨content, found, ofContent⟩ := Option.bind_eq_some_iff.mp linked
  obtain ⟨later, foundLater, stays⟩ := adds.stays note content found
  rw [chord?, foundLater, Option.bind_some, stays.chord? noChord]
  exact ofContent

end KeepsHarmony

/-- What is added is neither note nor rest. -/
theorem Adds.noteRests
    {word : String} {before after : Model} (adds : before.Adds word after)
    (other : word ∉ ["note", "rest"]) :
    after.noteRests = before.noteRests := by
  refine adds.names.noteRests_eq fun handle outside isNoteRest => other ?_
  obtain ⟨own, found⟩ := Option.isSome_iff_exists.mp isNoteRest
  obtain ⟨content, isContent, ofContent⟩ := Option.bind_eq_some_iff.mp found
  have named := adds.isNew handle content outside isContent
  have sounds : content.noteRest?.isSome := by
    rw [ofContent]
    rfl
  rw [Content.noteRest?_isSome_iff, named] at sounds
  simpa using sounds

/-- Chords stay as they are, and so do all notes and rests. -/
structure Endures (before after : Model) : Prop
    extends KeepsHarmony before after where
  names : before.KeepsNames after
  noteRests : after.noteRests = before.noteRests

namespace Endures

variable {first middle last before after : Model}

theorem refl (model : Model) : Endures model model :=
  ⟨.of_eq rfl, .refl model, rfl⟩

theorem trans
    (earlier : Endures first middle) (later : Endures middle last) :
    Endures first last :=
  ⟨earlier.toKeepsHarmony.trans later.toKeepsHarmony earlier.names.size_le,
    earlier.names.trans later.names, later.noteRests.trans earlier.noteRests⟩

/-- Relations other than chords are added. -/
theorem of_adds
    {word : String} (adds : before.Adds word after) (noChord : word ≠ "chord")
    (noNoteRest : word ∉ ["note", "rest"]) :
    Endures before after := by
  have noNote : word ≠ "note" := fun isNote => noNoteRest (by simp [isNote])
  exact ⟨.of_adds adds noChord noNote, adds.names, adds.noteRests noNoteRest⟩

end Endures

/-! ## A note joins another one -/

/-- A note sounds with another one: both take one chord for their own, which was
that of the other note before or is a new one, and all others stay as they are. -/
structure Joins
    (base note chord : Handle) (earlier : Members) (before after : Model) :
    Prop where
  links : ∀ handle, after.chord? handle =
    if handle = note ∨ handle = base then some chord else before.chord? handle
  chords : ∀ other members, after.content? other = some (.chord members) ↔
    if other = chord then members = earlier ++ [(note, .chord)]
    else before.content? other = some (.chord members)
  listed : ∀ handle, handle ∈ earlier.map Prod.fst ↔
    handle = base ∨ before.chord? handle = some chord
  known : before.chord? base = some chord ∨
    before.chord? base = none ∧ ∀ handle, before.chord? handle ≠ some chord

namespace Joins

variable {base note chord : Handle} {earlier : Members} {before after : Model}

theorem knows
    (joins : Joins base note chord earlier before after)
    (harmonious : before.Harmonious) (single : before.chord? note = none)
    (handle other : Handle) :
    after.chord? handle = some other ↔
      ∃ members, after.content? other = some (.chord members) ∧
        handle ∈ members.map Prod.fst := by
  have last : note ∈ (earlier ++ [(note, Role.chord)]).map Prod.fst := by
    simp
  have before_iff : ∀ {member : Handle},
      member ∈ (earlier ++ [(note, Role.chord)]).map Prod.fst ↔
        member = base ∨ before.chord? member = some chord ∨ member = note := by
    intro member
    rw [List.map_append, List.mem_append, joins.listed, or_assoc]
    simp
  rw [joins.links]
  by_cases sounds : handle = note ∨ handle = base
  · rw [if_pos sounds]
    constructor
    · rintro ⟨⟩
      refine ⟨_, (joins.chords chord _).mpr (by rw [if_pos rfl]), ?_⟩
      rw [before_iff]
      exact sounds.elim (fun isNote => Or.inr (Or.inr isNote)) Or.inl
    · rintro ⟨members, isChord, listed⟩
      rw [joins.chords] at isChord
      split at isChord
      · rename_i isOwn
        rw [isOwn]
      · rename_i isOther
        have linked := (harmonious.knows handle other).mpr
          ⟨members, isChord, listed⟩
        rcases sounds with rfl | rfl
        · rw [single] at linked
          cases linked
        · rcases joins.known with known | ⟨none, _⟩
          · exact absurd (Option.some.inj (linked.symm.trans known)) isOther
          · rw [none] at linked
            cases linked
  · rw [if_neg sounds]
    obtain ⟨noNote, noBase⟩ := not_or.mp sounds
    constructor
    · intro linked
      by_cases isOwn : other = chord
      · subst isOwn
        refine ⟨_, (joins.chords other _).mpr (by rw [if_pos rfl]), ?_⟩
        rw [before_iff]
        exact Or.inr (Or.inl linked)
      · obtain ⟨members, isChord, listed⟩ :=
          (harmonious.knows handle other).mp linked
        refine ⟨members, (joins.chords other members).mpr ?_, listed⟩
        rw [if_neg isOwn]
        exact isChord
    · rintro ⟨members, isChord, listed⟩
      rw [joins.chords] at isChord
      split at isChord
      · rename_i isOwn
        subst isOwn isChord
        rw [before_iff] at listed
        exact (listed.resolve_left noBase).resolve_right noNote
      · exact (harmonious.knows handle other).mpr ⟨members, isChord, listed⟩

/-- A note that is in no chord yet and starts together with another one may join
it. -/
theorem harmonious
    (joins : Joins base note chord earlier before after)
    (harmonious : before.Harmonious) (single : before.chord? note = none)
    (onset? : ∀ handle < before.size,
      after.onset? handle = before.onset? handle)
    (inside : base < before.size)
    (together : after.onset? note = after.onset? base) :
    after.Harmonious := by
  have withBase : ∀ handle, after.chord? handle = some chord →
      after.onset? handle = after.onset? base := by
    intro handle linked
    rw [joins.links] at linked
    split at linked
    · rename_i sounds
      rcases sounds with rfl | rfl
      · exact together
      · rfl
    · rcases joins.known with known | ⟨_, unknown⟩
      · rw [onset? handle (lt_size_of_chord? linked), onset? base inside]
        exact harmonious.onsets handle base chord linked known
      · exact absurd linked (unknown handle)
  refine ⟨joins.knows harmonious single, fun first second other => ?_⟩
  intro linked linkedToo
  by_cases isOwn : other = chord
  · subst isOwn
    exact (withBase first linked).trans (withBase second linkedToo).symm
  · have old : ∀ handle, after.chord? handle = some other →
        before.chord? handle = some other := by
      intro handle isLinked
      rw [joins.links] at isLinked
      split at isLinked
      · exact absurd (Option.some.inj isLinked).symm isOwn
      · exact isLinked
    have firstOld := old first linked
    have secondOld := old second linkedToo
    rw [onset? first (lt_size_of_chord? firstOld),
      onset? second (lt_size_of_chord? secondOld)]
    exact harmonious.onsets first second other firstOld secondOld

end Joins

end Model

namespace Analyser

variable {base note chord : Handle} {draft : Draft}

theorem chord?_joinChord_of_single
    (baseIs : draft.model.IsNote base) (noteIs : draft.model.IsNote note)
    (single : draft.model.chord? base = none) (handle : Handle) :
    (joinChord base note draft).model.chord? handle =
      if handle = note ∨ handle = base then some draft.model.size
      else draft.model.chord? handle := by
  have created := creates_joinChord ((draft.model.chord?_eq_bind base).symm.trans
    single) baseIs.lt_size noteIs.lt_size
  rw [Model.chord?, created.content?]
  by_cases sounds : handle = note ∨ handle = base
  · have isNote : draft.model.IsNote handle :=
      sounds.elim (fun same => same ▸ noteIs) fun same => same ▸ baseIs
    obtain ⟨content, found, ofContent⟩ := Model.exists_content?_of_isNote isNote
    have listed : handle ∈ [(base, Role.chord), (note, Role.chord)].map
        Prod.fst := by
      simpa [or_comm] using sounds
    rw [if_neg (Nat.ne_of_lt isNote.lt_size), if_pos sounds, found,
      Option.map_some, Option.bind_some, Content.effectOn, if_pos listed]
    exact Content.chord?_mapNote_some ofContent _
  · have unlisted : handle ∉ [(base, Role.chord), (note, Role.chord)].map
        Prod.fst := by
      simpa [or_comm] using sounds
    rw [if_neg sounds, Model.chord?]
    split
    · rename_i isNew
      rw [isNew, Model.content?_size]
      rfl
    · cases draft.model.content? handle with
      | none => rfl
      | some content =>
          rw [Option.map_some, Option.bind_some, Content.effectOn,
            if_neg unlisted]
          rfl

theorem isChord_joinChord_of_single
    (baseOld : base < draft.model.size) (noteOld : note < draft.model.size)
    (single : draft.model.chord? base = none) (other : Handle)
    (members : Members) :
    (joinChord base note draft).model.content? other = some (.chord members) ↔
      if other = draft.model.size then
        members = [(base, .chord)] ++ [(note, .chord)]
      else draft.model.content? other = some (.chord members) := by
  have created := creates_joinChord ((draft.model.chord?_eq_bind base).symm.trans
    single) baseOld noteOld
  rw [created.content?]
  split
  · rw [Option.some_inj, Content.chord.injEq]
    exact eq_comm
  · constructor
    · intro found
      obtain ⟨content, isContent, isChord⟩ := Option.map_eq_some_iff.mp found
      rw [isContent]
      rw [Content.effectOn] at isChord
      split at isChord
      · rw [Content.mapNote_eq_chord_iff] at isChord
        rw [isChord]
      · rw [isChord]
    · intro found
      rw [found, Option.map_some, Content.effectOn_of_members? rfl]

/-- A note that joins one without a chord sounds with it in a new one. -/
theorem joins_of_single
    (harmonious : draft.model.Harmonious) (baseIs : draft.model.IsNote base)
    (noteIs : draft.model.IsNote note)
    (single : draft.model.chord? base = none) :
    Model.Joins base note draft.model.size [(base, .chord)] draft.model
      (joinChord base note draft).model := by
  have unknown : ∀ handle, draft.model.chord? handle ≠ some draft.model.size := by
    intro handle linked
    obtain ⟨members, found, _⟩ := (harmonious.knows handle _).mp linked
    exact Nat.lt_irrefl _ (Model.lt_size_of_content? found)
  refine ⟨chord?_joinChord_of_single baseIs noteIs single,
    isChord_joinChord_of_single baseIs.lt_size noteIs.lt_size single,
    fun handle => ?_, Or.inr ⟨single, unknown⟩⟩
  rw [List.map_cons, List.map_nil, List.mem_singleton]
  exact ⟨Or.inl, fun sounds => sounds.resolve_right (unknown handle)⟩

/-- Joining a note to one with a chord lists it there, and tells it of that chord. -/
theorem content?_joinChord_of_joined
    (joined : draft.model.chord? base = some chord) (handle : Handle) :
    (joinChord base note draft).model.content? handle =
      (draft.model.content? handle).map fun old =>
        let joined := if handle = chord then
          old.mapMembers fun members => members ++ [(note, .chord)] else old
        if handle = note then
          joined.mapNote fun it => { it with chord := some chord } else joined := by
  rw [joinChord_of_joined ((draft.model.chord?_eq_bind base).symm.trans joined)]
  show ((draft.model.includeMember chord note .chord).modifyContent note
    _).content? handle = _
  rw [Model.content?_modifyContent, Model.content?_includeMember,
    Option.map_map]
  rfl

theorem chord?_joinChord_of_joined
    (joined : draft.model.chord? base = some chord)
    (noteIs : draft.model.IsNote note) (noChord : note ≠ chord)
    (handle : Handle) :
    (joinChord base note draft).model.chord? handle =
      if handle = note ∨ handle = base then some chord
      else draft.model.chord? handle := by
  rw [Model.chord?, content?_joinChord_of_joined joined]
  by_cases isNote : handle = note
  · subst isNote
    obtain ⟨own, found, ofNote⟩ := Model.exists_content?_of_isNote noteIs
    rw [if_pos (Or.inl rfl), found, Option.map_some, Option.bind_some,
      if_neg noChord, if_pos rfl]
    exact Content.chord?_mapNote_some ofNote chord
  · have same : ((draft.model.content? handle).map fun old =>
        if handle = chord then
          old.mapMembers fun members => members ++ [(note, Role.chord)]
        else old).bind Content.chord? = draft.model.chord? handle := by
      rw [Model.chord?]
      cases draft.model.content? handle with
      | none => rfl
      | some old =>
          rw [Option.map_some, Option.bind_some, Option.bind_some]
          split
          · exact Content.chord?_mapMembers old _
          · rfl
    simp only [isNote, if_false, false_or]
    rw [same]
    split
    · rename_i isBase
      rw [isBase, joined]
    · rfl

theorem isChord_joinChord_of_joined
    {earlier : Members} (joined : draft.model.chord? base = some chord)
    (isChord : draft.model.content? chord = some (.chord earlier))
    (noChord : note ≠ chord) (other : Handle) (members : Members) :
    (joinChord base note draft).model.content? other = some (.chord members) ↔
      if other = chord then members = earlier ++ [(note, .chord)]
      else draft.model.content? other = some (.chord members) := by
  rw [content?_joinChord_of_joined joined]
  by_cases isOwn : other = chord
  · subst isOwn
    rw [if_pos rfl, isChord, Option.map_some, if_pos rfl,
      if_neg (Ne.symm noChord), Option.some_inj, Content.mapMembers,
      Content.chord.injEq]
    exact eq_comm
  · simp only [if_neg isOwn]
    rw [Option.map_eq_some_iff]
    constructor
    · rintro ⟨old, isOld, becomes⟩
      split at becomes
      · rw [Content.mapNote_eq_chord_iff] at becomes
        rw [isOld, becomes]
      · rw [isOld, becomes]
    · intro isOther
      refine ⟨_, isOther, ?_⟩
      split <;> rfl

/-- A note that joins one with a chord sounds with it in that chord. -/
theorem joins_of_joined
    (harmonious : draft.model.Harmonious) (noteIs : draft.model.IsNote note)
    (joined : draft.model.chord? base = some chord) :
    ∃ earlier, Model.Joins base note chord earlier draft.model
      (joinChord base note draft).model := by
  obtain ⟨earlier, isChord, listed⟩ := (harmonious.knows base chord).mp joined
  have noChord : note ≠ chord := by
    rintro rfl
    obtain ⟨own, found, ofNote⟩ := Model.exists_content?_of_isNote noteIs
    rw [isChord] at found
    cases found
    cases ofNote
  refine ⟨earlier, chord?_joinChord_of_joined joined noteIs noChord,
    isChord_joinChord_of_joined joined isChord noChord, fun handle => ?_,
    Or.inl joined⟩
  constructor
  · intro listed
    exact Or.inr ((harmonious.knows handle chord).mpr ⟨earlier, isChord, listed⟩)
  · rintro (rfl | linked)
    · exact listed
    · obtain ⟨members, found, listed⟩ :=
        (harmonious.knows handle chord).mp linked
      rw [isChord] at found
      cases found
      exact listed

theorem exists_joins
    (harmonious : draft.model.Harmonious) (baseIs : draft.model.IsNote base)
    (noteIs : draft.model.IsNote note) :
    ∃ chord earlier, Model.Joins base note chord earlier draft.model
      (joinChord base note draft).model := by
  cases joined : draft.model.chord? base with
  | none => exact ⟨_, _, joins_of_single harmonious baseIs noteIs joined⟩
  | some chord => exact ⟨chord, joins_of_joined harmonious noteIs joined⟩

end Analyser

/-- A note sounds with the one before it, if there is one, and apart from that the
music is left as it is. -/
structure Model.Accords
    (base : Option Handle) (note : Handle) (before after : Model) : Prop where
  harmonious : after.Harmonious
  names : before.KeepsNames after
  links : ∀ other chord, before.chord? other = some chord →
    after.chord? other = some chord
  noteRests : after.noteRests = before.noteRests
  together : ∀ last, base = some last →
    ∃ chord, after.chord? last = some chord ∧ after.chord? note = some chord

/-- A new note that starts together with another one can be put into its chord. -/
theorem Analyser.accords_joinChord
    {base note : Handle} {draft : Draft}
    (harmonious : draft.model.Harmonious) (baseIs : draft.model.IsNote base)
    (noteIs : draft.model.IsNote note) (single : draft.model.chord? note = none)
    (together : draft.model.onset? note = draft.model.onset? base) :
    draft.model.Accords (some base) note (joinChord base note draft).model := by
  obtain ⟨chord, earlier, joins⟩ := exists_joins harmonious baseIs noteIs
  have adds := (adds_joinChord harmonious.linksChords base note).1
  have onset? : ∀ handle < draft.model.size, _ := fun _ => adds.onset?
  have sounds : (joinChord base note draft).model.chord? base = some chord ∧
      (joinChord base note draft).model.chord? note = some chord := by
    rw [joins.links, joins.links, if_pos (Or.inr rfl), if_pos (Or.inl rfl)]
    exact ⟨rfl, rfl⟩
  refine ⟨joins.harmonious harmonious single onset? baseIs.lt_size ?_, adds.names,
    fun other found linked => ?_, adds.noteRests (by decide),
    fun last isLast => ⟨chord, Option.some.inj isLast ▸ sounds⟩⟩
  · rw [onset? note noteIs.lt_size, onset? base baseIs.lt_size]
    exact together
  · rw [joins.links]
    split
    · rename_i sounds
      rcases sounds with rfl | rfl
      · rw [single] at linked
        cases linked
      · rcases joins.known with known | ⟨none, _⟩
        · exact known.symm.trans linked
        · rw [none] at linked
          cases linked
    · exact linked

end LdpScore
