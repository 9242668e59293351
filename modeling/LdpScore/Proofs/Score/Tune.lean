import LdpScore.Proofs.Analysis.Amending
import LdpScore.Proofs.Relation.Group

/-!
# How notes sound and what ties they know

A tie depends on the voice, the staff and the pitch of its ends, and its ends know
it.  That part of a note is its `Tune`.

When relations of one kind are made, whatever their members are, all others stay as
they are: `Model.Adds`.  Unless these are ties, no tune changes.
-/

namespace LdpScore

/-- How a note sounds, and the ties that it knows. -/
structure Tune where
  voice : Int
  staff : Nat
  pitch : Option Pitch
  tieNext : Option Handle
  tiePrevious : Option Handle
deriving DecidableEq

/-- Two notes sound the same. -/
structure Tune.Matches (first second : Tune) : Prop where
  voice : first.voice = second.voice
  staff : first.staff = second.staff
  pitch : first.pitch = second.pitch

def Note.tune (note : Note) : Tune :=
  ⟨note.noteRest.voice, note.noteRest.appearance.staff, note.pitch, note.tieNext,
    note.tiePrevious⟩

namespace Content

/-- The tune of an object; only notes have one. -/
def tune? (content : Content) : Option Tune :=
  content.note?.map Note.tune

/-- When a note or rest starts. -/
def onset? (content : Content) : Option Float :=
  content.noteRest?.map NoteRest.onset

/-- Whether an object is a note, a rest or a relation. -/
def isMusic (content : Content) : Bool :=
  content.noteRest?.isSome || content.members?.isSome

theorem isMusic_of_tune?
    {content : Content} {tune : Tune} (tuned : content.tune? = some tune) :
    content.isMusic := by
  cases content <;> first | rfl | cases tuned

theorem isMusic_of_members?
    {content : Content} (isRelation : content.members?.isSome) :
    content.isMusic := by
  rw [isMusic, isRelation, Bool.or_true]

theorem tune?_isSome_iff (content : Content) :
    content.tune?.isSome ↔ content.name = "note" := by
  rw [tune?, Option.isSome_map, note?_isSome_iff]

/-- What an element becomes knows no ties. -/
theorem IsFresh.tune?
    {content : Content} (fresh : content.IsFresh) {tune : Tune}
    (tuned : content.tune? = some tune) :
    tune.tieNext = none ∧ tune.tiePrevious = none := by
  obtain ⟨note, isNote, rfl⟩ := Option.map_eq_some_iff.mp tuned
  have links := fresh.links
  rw [Content.links, isNote] at links
  exact ⟨congrArg Links.tieNext links, congrArg Links.tiePrevious links⟩

/-! ## Changes that go with relations of one kind -/

/-- What becomes of an object while relations of one kind are made: another
relation stays as it is, only ties change tunes, only chords are found, and nothing
starts at another time. -/
structure Stays (word : String) (old new : Content) : Prop where
  name : new.name = old.name
  relation : old.members?.isSome → old.name ≠ word → new = old
  tune? : word ≠ "tie" → new.tune? = old.tune?
  chord? : word ≠ "chord" → new.chord? = old.chord?
  onset? : new.onset? = old.onset?

namespace Stays

variable {word : String} {first middle last : Content}

theorem refl (word : String) (content : Content) : Stays word content content :=
  ⟨rfl, fun _ _ => rfl, fun _ => rfl, fun _ => rfl, rfl⟩

theorem trans
    (earlier : Stays word first middle) (later : Stays word middle last) :
    Stays word first last := by
  refine ⟨later.name.trans earlier.name, fun isRelation other => ?_,
    fun noTie => (later.tune? noTie).trans (earlier.tune? noTie),
    fun noChord => (later.chord? noChord).trans (earlier.chord? noChord),
    later.onset?.trans earlier.onset?⟩
  have same := earlier.relation isRelation other
  rw [← same] at isRelation other ⊢
  exact later.relation isRelation other

/-- Notes and rests may last longer or shorter. -/
theorem mapNoteRest
    {change : NoteRest → NoteRest} (word : String)
    (voice : ∀ noteRest, (change noteRest).voice = noteRest.voice)
    (appearance : ∀ noteRest,
      (change noteRest).appearance = noteRest.appearance)
    (onset : ∀ noteRest, (change noteRest).onset = noteRest.onset)
    (content : Content) :
    Stays word content (content.mapNoteRest change) := by
  refine ⟨name_mapNoteRest change content,
    fun isRelation _ => mapNoteRest_of_members? isRelation change, fun _ => ?_,
    fun _ => chord?_mapNoteRest change content, ?_⟩
  · cases content <;>
      simp [Content.mapNoteRest, Content.tune?, note?, Note.tune, voice, appearance]
  · cases content <;>
      simp [Content.mapNoteRest, Content.onset?, noteRest?, onset]

/-- The members of a relation of that kind change. -/
theorem mapMembers
    {content : Content} (named : content.name = word)
    (change : Members → Members) :
    Stays word content (content.mapMembers change) := by
  refine ⟨name_mapMembers change content,
    fun _ other => absurd named other, fun _ => ?_, fun _ => ?_, ?_⟩
  · cases content <;> rfl
  · cases content <;> rfl
  · cases content <;> rfl

/-- A note finds its chord. -/
theorem mapChord (chord : Option Handle) (content : Content) :
    Stays "chord" content
      (content.mapNote fun note => { note with chord := chord }) := by
  refine ⟨name_mapNote _ content,
    fun isRelation _ => mapNote_of_members? isRelation _, fun _ => ?_,
    fun noChord => absurd rfl noChord, ?_⟩
  · cases content <;> rfl
  · cases content <;> rfl

/-- A tie becomes known to a note. -/
theorem mapTies
    {change : Note → Note}
    (same : ∀ note, (change note).chord = note.chord)
    (onset : ∀ note, (change note).noteRest.onset = note.noteRest.onset)
    (content : Content) :
    Stays "tie" content (content.mapNote change) := by
  refine ⟨name_mapNote change content,
    fun isRelation _ => mapNote_of_members? isRelation change,
    fun noTie => absurd rfl noTie, fun _ => ?_, ?_⟩
  · cases content <;> simp [Content.mapNote, Content.chord?, note?, same]
  · cases content <;>
      simp [Content.mapNote, Content.onset?, noteRest?, onset]

end Stays

end Content

namespace Model

/-- The tune of the note at a handle. -/
def tune? (model : Model) (handle : Handle) : Option Tune :=
  (model.content? handle).bind Content.tune?

/-- When the note or rest at a handle starts. -/
def onset? (model : Model) (handle : Handle) : Option Float :=
  (model.content? handle).bind Content.onset?

theorem tune?_eq_bind (model : Model) (handle : Handle) :
    model.tune? handle = (model.note? handle).map Note.tune := by
  rw [tune?, note?, Option.map_bind]
  rfl

theorem isNote_of_tune?
    {model : Model} {handle : Handle} {tune : Tune}
    (tuned : model.tune? handle = some tune) :
    model.IsNote handle := by
  rw [tune?_eq_bind] at tuned
  obtain ⟨note, isNote, _⟩ := Option.map_eq_some_iff.mp tuned
  rw [IsNote, isNote]
  rfl

theorem IsNote.exists_tune?
    {model : Model} {handle : Handle} (isNote : model.IsNote handle) :
    ∃ tune, model.tune? handle = some tune := by
  obtain ⟨note, found⟩ := Option.isSome_iff_exists.mp isNote
  exact ⟨note.tune, by rw [tune?_eq_bind, found]; rfl⟩

theorem lt_size_of_tune?
    {model : Model} {handle : Handle} {tune : Tune}
    (tuned : model.tune? handle = some tune) :
    handle < model.size :=
  (isNote_of_tune? tuned).lt_size

/-! ## What is left as it is -/

/-- Objects keep their kind. -/
def KeepsNames (before after : Model) : Prop :=
  ∀ handle content, before.content? handle = some content →
    ∃ later, after.content? handle = some later ∧ later.name = content.name

namespace KeepsNames

variable {before after : Model}

theorem of_eq (same : after = before) : KeepsNames before after := by
  subst same
  exact fun _ content found => ⟨content, found, rfl⟩

theorem refl (model : Model) : KeepsNames model model :=
  .of_eq rfl

theorem trans
    {first middle last : Model} (earlier : KeepsNames first middle)
    (later : KeepsNames middle last) :
    KeepsNames first last := by
  intro handle content found
  obtain ⟨between, foundBetween, named⟩ := earlier handle content found
  obtain ⟨final, foundFinal, namedToo⟩ := later handle between foundBetween
  exact ⟨final, foundFinal, namedToo.trans named⟩

theorem size_le (keeps : KeepsNames before after) :
    before.size ≤ after.size := by
  apply Nat.le_of_not_lt
  intro shrunk
  obtain ⟨content, found⟩ := exists_content?_of_lt_size shrunk
  obtain ⟨later, foundLater, _⟩ := keeps _ content found
  exact Nat.lt_irrefl _ (lt_size_of_content? foundLater)

theorem isNote
    (keeps : KeepsNames before after) {handle : Handle}
    (isNote : before.IsNote handle) :
    after.IsNote handle := by
  obtain ⟨note, isNote⟩ := Option.isSome_iff_exists.mp isNote
  obtain ⟨content, found, ofContent⟩ := Option.bind_eq_some_iff.mp isNote
  obtain ⟨later, foundLater, named⟩ := keeps handle content found
  rw [IsNote, note?, foundLater, Option.bind_some, Content.note?_isSome_iff,
    named, ← Content.note?_isSome_iff, ofContent]
  rfl

end KeepsNames

/-- Objects keep their kind, and relations of one kind stay as they are: none is
made and none is changed. -/
structure Omits (word : String) (before after : Model) : Prop where
  names : before.KeepsNames after
  same : ∀ handle content, content.name = word →
    (after.content? handle = some content ↔
      before.content? handle = some content)

/-- No tune changes, and the tune of a new note knows no ties. -/
structure KeepsTunes (before after : Model) : Prop where
  old : ∀ handle < before.size, after.tune? handle = before.tune? handle
  new : ∀ handle tune, before.size ≤ handle → after.tune? handle = some tune →
    tune.tieNext = none ∧ tune.tiePrevious = none

theorem KeepsTunes.of_eq
    {before after : Model} (same : after = before) :
    KeepsTunes before after := by
  subst same
  exact ⟨fun _ _ => rfl, fun _ _ outside tuned =>
    absurd (lt_size_of_tune? tuned) (Nat.not_lt.mpr outside)⟩

theorem KeepsTunes.refl (model : Model) : KeepsTunes model model :=
  .of_eq rfl

theorem KeepsTunes.tune?
    {before after : Model} (keeps : KeepsTunes before after) {handle : Handle}
    {tune : Tune} (tuned : before.tune? handle = some tune) :
    after.tune? handle = some tune :=
  (keeps.old handle (lt_size_of_tune? tuned)).trans tuned

/-! ## Relations of one kind are made -/

/-- Whether what stands at a handle, if anything does, has a given name. -/
def IsNamed (model : Model) (word : String) (handle : Handle) : Prop :=
  ∀ content, model.content? handle = some content → content.name = word

/-- Relations of one kind are made, and every object stays what it is. -/
structure Adds (word : String) (before after : Model) : Prop where
  stays : ∀ handle content, before.content? handle = some content →
    ∃ later, after.content? handle = some later ∧ content.Stays word later
  isNew : ∀ handle content, before.size ≤ handle →
    after.content? handle = some content → content.name = word

namespace Adds

variable {word : String} {first middle last before after : Model}

theorem refl (word : String) (model : Model) : Adds word model model :=
  ⟨fun _ content found => ⟨content, found, .refl word content⟩,
    fun _ _ outside found =>
      absurd (lt_size_of_content? found) (Nat.not_lt.mpr outside)⟩

theorem names (adds : Adds word before after) : before.KeepsNames after :=
  fun handle content found =>
    let ⟨later, foundLater, stays⟩ := adds.stays handle content found
    ⟨later, foundLater, stays.name⟩

theorem size_le (adds : Adds word before after) : before.size ≤ after.size :=
  adds.names.size_le

/-- What stands at an old handle afterwards stood there before. -/
theorem of_lt
    (adds : Adds word before after) {handle : Handle} {later : Content}
    (found : after.content? handle = some later)
    (inside : handle < before.size) :
    ∃ content, before.content? handle = some content ∧
      content.Stays word later := by
  obtain ⟨content, isContent⟩ := exists_content?_of_lt_size inside
  obtain ⟨other, foundOther, stays⟩ := adds.stays handle content isContent
  rw [found] at foundOther
  cases foundOther
  exact ⟨content, isContent, stays⟩

theorem isNamed
    (adds : Adds word before after) {handle : Handle}
    (named : before.IsNamed word handle) :
    after.IsNamed word handle := by
  intro later found
  by_cases inside : handle < before.size
  · obtain ⟨content, isContent, stays⟩ := adds.of_lt found inside
    exact stays.name.trans (named content isContent)
  · exact adds.isNew handle later (Nat.not_lt.mp inside) found

theorem trans
    (earlier : Adds word first middle) (later : Adds word middle last) :
    Adds word first last := by
  constructor
  · intro handle content found
    obtain ⟨between, foundBetween, stays⟩ := earlier.stays handle content found
    obtain ⟨final, foundFinal, staysToo⟩ :=
      later.stays handle between foundBetween
    exact ⟨final, foundFinal, stays.trans staysToo⟩
  · intro handle content outside found
    by_cases inside : handle < middle.size
    · obtain ⟨between, foundBetween, stays⟩ := later.of_lt found inside
      exact stays.name.trans (earlier.isNew handle between outside foundBetween)
    · exact later.isNew handle content (Nat.not_lt.mp inside) found

/-- Objects are changed in place. -/
theorem of_map
    {change : Handle → Content → Content}
    (changed : ∀ handle,
      after.content? handle = (before.content? handle).map (change handle))
    (stays : ∀ handle content, before.content? handle = some content →
      content.Stays word (change handle content)) :
    Adds word before after := by
  constructor
  · intro handle content found
    refine ⟨change handle content, ?_, stays handle content found⟩
    rw [changed handle, found, Option.map_some]
  · intro handle content outside found
    rw [changed handle] at found
    obtain ⟨old, foundOld, _⟩ := Option.map_eq_some_iff.mp found
    exact absurd (lt_size_of_content? foundOld) (Nat.not_lt.mpr outside)

theorem modifyContent
    (model : Model) (changed : Handle) {change : Content → Content}
    (stays : ∀ content, model.content? changed = some content →
      content.Stays word (change content)) :
    Adds word model (model.modifyContent changed change) := by
  apply of_map (content?_modifyContent model changed change)
  intro handle content found
  split
  · rename_i isChanged
    exact stays content (isChanged ▸ found)
  · exact .refl word content

theorem includeMember
    {model : Model} {relation : Handle} (named : model.IsNamed word relation)
    (member : Handle) (role : Role) :
    Adds word model (model.includeMember relation member role) := by
  apply of_map (content?_includeMember model relation member role)
  intro handle content found
  split
  · rename_i isRelation
    exact .mapMembers (named content (isRelation ▸ found)) _
  · exact .refl word content

/-- Relations of other kinds are left as they are. -/
theorem omits
    (adds : Adds word before after) {other : String} (differs : other ≠ word)
    (isRelation : ∀ content : Content, content.name = other →
      content.members?.isSome) :
    Omits other before after := by
  constructor
  · exact adds.names
  · intro handle content named
    constructor
    · intro found
      have inside : handle < before.size := by
        apply Nat.lt_of_not_le
        intro outside
        exact differs (named.symm.trans
          (adds.isNew handle content outside found))
      obtain ⟨old, isOld, stays⟩ := adds.of_lt found inside
      have oldNamed : old.name = other := stays.name.symm.trans named
      rw [isOld, stays.relation (isRelation old oldNamed)
        (oldNamed ▸ differs)]
    · intro found
      obtain ⟨later, foundLater, stays⟩ := adds.stays handle content found
      rw [foundLater, stays.relation (isRelation content named)
        (named ▸ differs)]

/-- Only ties change tunes. -/
theorem keepsTunes
    (adds : Adds word before after) (noTie : word ≠ "tie")
    (noNote : word ≠ "note") :
    KeepsTunes before after := by
  constructor
  · intro handle inside
    obtain ⟨content, found⟩ := exists_content?_of_lt_size inside
    obtain ⟨later, foundLater, stays⟩ := adds.stays handle content found
    rw [Model.tune?, Model.tune?, found, foundLater]
    exact stays.tune? noTie
  · intro handle tune outside tuned
    obtain ⟨content, found, ofContent⟩ := Option.bind_eq_some_iff.mp tuned
    have named := adds.isNew handle content outside found
    have isNote : content.name = "note" := by
      rw [← Content.tune?_isSome_iff, ofContent]
      rfl
    exact absurd (named.symm.trans isNote) noNote

/-- Nothing starts at another time. -/
theorem onset?
    (adds : Adds word before after) {handle : Handle}
    (inside : handle < before.size) :
    after.onset? handle = before.onset? handle := by
  obtain ⟨content, found⟩ := exists_content?_of_lt_size inside
  obtain ⟨later, foundLater, stays⟩ := adds.stays handle content found
  rw [Model.onset?, Model.onset?, found, foundLater]
  exact stays.onset?

/-- Only new chords are found. -/
theorem findsNoChord
    (adds : Adds word before after) (noChord : word ≠ "chord")
    (noNote : word ≠ "note") :
    FindsNoChord before after := by
  intro note chord linked
  obtain ⟨later, foundLater, ofLater⟩ := Option.bind_eq_some_iff.mp linked
  by_cases inside : note < before.size
  · obtain ⟨content, found, stays⟩ := adds.of_lt foundLater inside
    rw [Model.chord?, found, Option.bind_some, ← stays.chord? noChord]
    exact ofLater
  · have named := adds.isNew note later (Nat.not_lt.mp inside) foundLater
    obtain ⟨own, isNote, _⟩ := Option.bind_eq_some_iff.mp ofLater
    have isNamed : later.name = "note" := by
      rw [← Content.note?_isSome_iff, isNote]
      rfl
    exact absurd (named.symm.trans isNamed) noNote

end Adds

end Model

end LdpScore
