import LdpScore.Proofs.Score.Tune

/-!
# What is added beside the music

Objects that are no relations are added, and changed afterwards, without regard to
the notes, rests and relations that there were.  `Model.Leaves` says so for all
handles below a bound: there the music stays as it is, and what stands from the
bound on is joined with nothing.
-/

namespace LdpScore

namespace Content

/-- Whether an object belongs to the music can be told from its name. -/
theorem isMusic_of_name
    {content other : Content} (named : other.name = content.name)
    (isMusic : content.isMusic) :
    other.isMusic := by
  rw [Content.isMusic, Bool.or_eq_true] at isMusic ⊢
  rwa [noteRest?_isSome_iff, members?_isSome_iff, named,
    ← noteRest?_isSome_iff, ← members?_isSome_iff]

end Content

namespace Model

/-- What stands at a handle, if it belongs to the music. -/
def music? (model : Model) (handle : Handle) : Option Content :=
  (model.content? handle).filter Content.isMusic

theorem music?_eq_some_iff
    {model : Model} {handle : Handle} {content : Content} :
    model.music? handle = some content ↔
      model.content? handle = some content ∧ content.isMusic :=
  Option.filter_eq_some_iff

/-- All notes and rests in the order of their creation. -/
def noteRests (model : Model) : List Handle :=
  model.handles.filter fun handle => (model.noteRest? handle).isSome

theorem mem_noteRests_iff
    {model : Model} {handle : Handle} :
    handle ∈ model.noteRests ↔ model.IsNoteRest handle := by
  rw [noteRests, List.mem_filter, handles, List.mem_range]
  exact ⟨fun listed => listed.2, fun isNoteRest =>
    ⟨isNoteRest.lt_size, isNoteRest⟩⟩

theorem nodup_noteRests (model : Model) : model.noteRests.Nodup :=
  List.nodup_range.filter _

namespace KeepsNames

variable {before after : Model}

theorem isNoteRest_iff
    (names : before.KeepsNames after) {handle : Handle}
    (inside : handle < before.size) :
    after.IsNoteRest handle ↔ before.IsNoteRest handle := by
  obtain ⟨content, found⟩ := exists_content?_of_lt_size inside
  obtain ⟨later, foundLater, named⟩ := names handle content found
  rw [IsNoteRest, IsNoteRest, noteRest?, noteRest?, found, foundLater,
    Option.bind_some, Option.bind_some, Content.noteRest?_isSome_iff,
    Content.noteRest?_isSome_iff, named]

theorem isNote_iff
    (names : before.KeepsNames after) {handle : Handle}
    (inside : handle < before.size) :
    after.IsNote handle ↔ before.IsNote handle := by
  obtain ⟨content, found⟩ := exists_content?_of_lt_size inside
  obtain ⟨later, foundLater, named⟩ := names handle content found
  rw [IsNote, IsNote, note?, note?, found, foundLater, Option.bind_some,
    Option.bind_some, Content.note?_isSome_iff, Content.note?_isSome_iff, named]

/-- The old notes and rests come first. -/
theorem noteRests_append (names : before.KeepsNames after) :
    after.noteRests = before.noteRests ++
      (List.range' before.size (after.size - before.size)).filter fun handle =>
        (after.noteRest? handle).isSome := by
  have old : ∀ handle ∈ before.handles, (after.noteRest? handle).isSome =
      (before.noteRest? handle).isSome := by
    intro handle listed
    rw [Bool.eq_iff_iff]
    exact names.isNoteRest_iff (List.mem_range.mp listed)
  have split : after.handles = before.handles ++
      List.range' before.size (after.size - before.size) := by
    rw [handles, handles, List.range_eq_range', List.range_eq_range']
    have whole : List.range' 0 before.size ++
        List.range' (0 + before.size) (after.size - before.size) =
          List.range' 0 (before.size + (after.size - before.size)) :=
      List.range'_append_1
    rw [Nat.zero_add, Nat.add_sub_of_le names.size_le] at whole
    exact whole.symm
  rw [noteRests, split, List.filter_append, List.filter_congr old, noteRests]

/-- No new note or rest is there. -/
theorem noteRests_eq
    (names : before.KeepsNames after)
    (isOther : ∀ handle, before.size ≤ handle → ¬ after.IsNoteRest handle) :
    after.noteRests = before.noteRests := by
  have nothing : (List.range' before.size (after.size - before.size)).filter
      (fun handle => (after.noteRest? handle).isSome) = [] := by
    rw [List.filter_eq_nil_iff]
    intro handle listed
    exact isOther handle (List.mem_range'_1.mp listed).1
  rw [names.noteRests_append, nothing, List.append_nil]

/-- One object is there in addition, a note or a rest. -/
theorem noteRests_concat
    (names : before.KeepsNames after) (size : after.size = before.size + 1)
    (isNoteRest : after.IsNoteRest before.size) :
    after.noteRests = before.noteRests ++ [before.size] := by
  have isFound : (after.noteRest? before.size).isSome = true := isNoteRest
  rw [names.noteRests_append, size, Nat.add_sub_cancel_left, List.range'_one]
  simp only [List.filter_cons, isFound, if_true, List.filter_nil]

end KeepsNames

/-- From a handle on, no object is a relation or linked to one. -/
def IsFreshFrom (model : Model) (bound : Handle) : Prop :=
  ∀ handle content, bound ≤ handle → model.content? handle = some content →
    content.IsFresh

theorem isFreshFrom_size (model : Model) : model.IsFreshFrom model.size :=
  fun _ _ outside found =>
    absurd (lt_size_of_content? found) (Nat.not_lt.mpr outside)

/-- Objects keep their kind, below a bound the music stays as it is, and from there
on nothing is joined. -/
structure Leaves (bound : Handle) (before after : Model) : Prop where
  names : before.KeepsNames after
  music : ∀ handle < bound, after.music? handle = before.music? handle
  fresh : before.IsFreshFrom bound → after.IsFreshFrom bound

namespace Leaves

variable {bound : Handle} {first middle last before after : Model}

theorem refl (bound : Handle) (model : Model) : Leaves bound model model :=
  ⟨fun _ content found => ⟨content, found, rfl⟩, fun _ _ => rfl,
    fun fresh => fresh⟩

theorem trans
    (earlier : Leaves bound first middle) (later : Leaves bound middle last) :
    Leaves bound first last := by
  refine ⟨earlier.names.trans later.names, fun handle inside =>
    (later.music handle inside).trans (earlier.music handle inside),
    fun fresh => later.fresh (earlier.fresh fresh)⟩

theorem size_le (leaves : Leaves bound before after) :
    before.size ≤ after.size :=
  leaves.names.size_le

theorem setRoot (bound : Handle) (model : Model) (root : Handle) :
    Leaves bound model (model.setRoot root) :=
  ⟨(refl bound model).names, fun _ _ => rfl, (refl bound model).fresh⟩

/-- One object changes, which stands from the bound on or does not belong to the
music. -/
theorem modifyContent
    (model : Model) (changed : Handle) {change : Content → Content}
    (aside : ∀ content, model.content? changed = some content →
      bound ≤ changed ∨ ¬ content.isMusic)
    (named : ∀ content, model.content? changed = some content →
      (change content).name = content.name)
    (fresh : ∀ content, model.content? changed = some content →
      content.IsFresh → (change content).IsFresh) :
    Leaves bound model (model.modifyContent changed change) := by
  refine ⟨fun handle content found => ?_, fun handle inside => ?_,
    fun freshBefore handle later outside found => ?_⟩
  · rw [content?_modifyContent, found, Option.map_some]
    split
    · rename_i isChanged
      exact ⟨_, rfl, named content (isChanged ▸ found)⟩
    · exact ⟨content, rfl, rfl⟩
  · rw [music?, music?, content?_modifyContent]
    cases found : model.content? handle with
    | none => rfl
    | some content =>
        rw [Option.map_some]
        split
        · rename_i isChanged
          subst isChanged
          have noMusic := (aside content found).resolve_left
            (Nat.not_le.mpr inside)
          have stillNone : ¬ (change content).isMusic := fun isMusic =>
            noMusic (Content.isMusic_of_name (named content found).symm isMusic)
          simp [Option.filter_some, stillNone, noMusic]
        · rfl
  · rw [content?_modifyContent] at found
    obtain ⟨content, isContent, isLater⟩ := Option.map_eq_some_iff.mp found
    have freshOld := freshBefore handle content outside isContent
    split at isLater
    · rename_i isChanged
      rw [← isLater]
      exact fresh content (isChanged ▸ isContent) freshOld
    · rw [← isLater]
      exact freshOld

end Leaves

/-! ## What is left as it is -/

namespace Leaves

variable {before after : Model} {bound : Handle}

theorem content?_iff
    {handle : Handle} {content : Content}
    (leaves : Leaves bound before after) (inside : handle < bound)
    (isMusic : content.isMusic) :
    after.content? handle = some content ↔
      before.content? handle = some content := by
  have same : after.music? handle = some content ↔
      before.music? handle = some content := by
    rw [leaves.music handle inside]
  rw [music?_eq_some_iff, music?_eq_some_iff] at same
  exact ⟨fun found => (same.mp ⟨found, isMusic⟩).1,
    fun found => (same.mpr ⟨found, isMusic⟩).1⟩

/-- Relations are left as they are. -/
theorem omits
    (leaves : Leaves before.size before after) {word : String}
    (isRelation : ∀ content : Content, content.name = word →
      content.members?.isSome) :
    Omits word before after := by
  constructor
  · exact leaves.names
  · intro handle content named
    have related := isRelation content named
    by_cases inside : handle < before.size
    · exact leaves.content?_iff inside (Content.isMusic_of_members? related)
    · have outside := Nat.not_lt.mp inside
      constructor
      · intro found
        have fresh := leaves.fresh before.isFreshFrom_size handle content outside
          found
        rw [fresh.members?] at related
        cases related
      · intro found
        exact absurd (lt_size_of_content? found) inside

theorem keepsTunes (leaves : Leaves before.size before after) :
    KeepsTunes before after := by
  constructor
  · intro handle inside
    have same : ∀ tune, after.tune? handle = some tune ↔
        before.tune? handle = some tune := by
      intro tune
      rw [Model.tune?, Model.tune?, Option.bind_eq_some_iff,
        Option.bind_eq_some_iff]
      refine exists_congr fun content => and_congr_left fun tuned => ?_
      exact leaves.content?_iff inside (Content.isMusic_of_tune? tuned)
    exact Option.ext same
  · intro handle tune outside tuned
    obtain ⟨content, found, ofContent⟩ := Option.bind_eq_some_iff.mp tuned
    exact (leaves.fresh before.isFreshFrom_size handle content outside
      found).tune? ofContent

/-- No note finds a chord. -/
theorem findsNoChord (leaves : Leaves before.size before after) :
    FindsNoChord before after := by
  intro note chord linked
  obtain ⟨content, found, ofContent⟩ := Option.bind_eq_some_iff.mp linked
  obtain ⟨own, isNote, _⟩ := Option.bind_eq_some_iff.mp ofContent
  have isMusic : content.isMusic := by
    have tuned : content.tune? = some own.tune := by
      rw [Content.tune?, isNote]
      rfl
    exact Content.isMusic_of_tune? tuned
  have inside : note < before.size := by
    apply Nat.lt_of_not_le
    intro outside
    have fresh := leaves.fresh before.isFreshFrom_size note content outside found
    rw [Content.chord?_eq, fresh.links] at ofContent
    cases ofContent
  rw [Model.chord?, (leaves.content?_iff inside isMusic).mp found]
  exact ofContent

end Leaves

/-! ## New objects -/

theorem content?_modify
    (model : Model) (changed : Handle) {change : Object → Object}
    (same : ∀ object, (change object).content = object.content)
    (handle : Handle) :
    (model.modify changed change).content? handle = model.content? handle := by
  rw [content?, content?, get?_modify]
  split
  · rw [Option.map_map]
    exact Option.map_congr fun object _ => same object
  · rfl

/-- To become a child changes no object. -/
theorem content?_appendChild
    (model : Model) (parent child handle : Handle) :
    (model.appendChild parent child).content? handle =
      model.content? handle := by
  rw [appendChild, content?_modify, content?_modify, detach]
  · split
    · rw [content?_modify]
      exact fun _ => rfl
    · rfl
  · exact fun _ => rfl
  · exact fun _ => rfl

theorem content?_add
    (model : Model) (id : Int) (content : Content) (handle : Handle) :
    (model.add id content).content? handle =
      if handle = model.size then some content else model.content? handle := by
  rw [content?, get?_add]
  split <;> rfl

end Model

namespace Draft

/-- A new object changes no other one, wherever it stands. -/
theorem content?_addObject_eq
    (draft : Draft) (wanted : Option Int) (location : Location)
    (anchor : Option Handle) (content : Content) (handle : Handle) :
    (draft.addObject wanted location anchor content).2.model.content? handle =
      if handle = draft.model.size then some content
      else draft.model.content? handle := by
  cases anchor with
  | none =>
      simp only [addObject, mapModel, model_assignId, Model.content?_add]
  | some parent =>
      simp only [addObject, mapModel, model_assignId, Model.content?_appendChild,
        Model.content?_add]

theorem leaves_addObject
    (draft : Draft) (wanted : Option Int) (location : Location)
    (anchor : Option Handle) {content : Content} (fresh : content.IsFresh)
    {bound : Handle} (inside : bound ≤ draft.model.size) :
    Model.Leaves bound draft.model
      (draft.addObject wanted location anchor content).2.model := by
  have added := draft.content?_addObject_eq wanted location anchor content
  refine ⟨fun handle old found => ⟨old, ?_, rfl⟩, fun handle below => ?_,
    fun freshBefore handle later outside found => ?_⟩
  · rw [added, if_neg (Nat.ne_of_lt (Model.lt_size_of_content? found))]
    exact found
  · rw [Model.music?, Model.music?, added,
      if_neg (Nat.ne_of_lt (Nat.lt_of_lt_of_le below inside))]
  · rw [added] at found
    split at found
    · cases found
      exact fresh
    · exact freshBefore handle later outside found

/-- The number of notes and rests grows by one with a note or rest. -/
theorem noteRests_addObject
    (draft : Draft) (wanted : Option Int) (location : Location)
    (anchor : Option Handle) {content : Content} (fresh : content.IsFresh) :
    (draft.addObject wanted location anchor content).2.model.noteRests =
      if content.noteRest?.isSome then
        draft.model.noteRests ++ [draft.model.size]
      else draft.model.noteRests := by
  have names := (draft.leaves_addObject wanted location anchor fresh
    (Nat.le_refl _)).names
  have size := draft.size_addObject wanted location anchor content
  have isContent := draft.content?_addObject_eq wanted location anchor content
    draft.model.size
  rw [if_pos rfl] at isContent
  have isNoteRest : (draft.addObject wanted location anchor
      content).2.model.IsNoteRest draft.model.size ↔
        content.noteRest?.isSome := by
    rw [Model.IsNoteRest, Model.noteRest?, isContent, Option.bind_some]
  split
  · rename_i sounds
    exact names.noteRests_concat size (isNoteRest.mpr sounds)
  · rename_i silent
    refine names.noteRests_eq fun handle outside sounds => silent ?_
    have inside := sounds.lt_size
    rw [size] at inside
    rw [← isNoteRest, Nat.le_antisymm outside (Nat.lt_succ_iff.mp inside)]
    exact sounds

end Draft

end LdpScore
