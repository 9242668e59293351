import LdpScore.Analysis.NoteRest
import LdpScore.Proofs.Relation.Linking

/-!
# Notes that sound together

The first note to join another one creates the chord of both; every later one
becomes the last member of the chord that is there.
-/

namespace LdpScore

namespace Content

/-- A new chord is known to its notes. -/
theorem effectOn_chord
    (base note chord handle : Handle) (old : Content) :
    (Content.chord [(base, .chord), (note, .chord)]).effectOn
        chord handle old =
      if handle = note then
        (if handle = base then
          old.mapNote fun it => { it with chord := some chord }
        else old).mapNote fun it => { it with chord := some chord }
      else
        if handle = base then
          old.mapNote fun it => { it with chord := some chord }
        else old := by
  by_cases isNote : handle = note <;>
    by_cases isBase : handle = base <;>
      cases old <;> simp_all [effectOn, mapNote]

/-- Changing the members of what is no relation changes nothing. -/
theorem mapMembers_eq_self
    {content : Content} (noRelation : content.members? = none)
    (change : Members → Members) :
    content.mapMembers change = content := by
  cases content <;> simp_all [members?, mapMembers]

end Content

namespace Model

/-- Every chord and all its members are below a handle. -/
def ChordsBelow (model : Model) (bound : Handle) : Prop :=
  ∀ chord members, model.content? chord = some (.chord members) →
    chord < bound ∧ ∀ entry ∈ members, entry.1 < bound

theorem ChordsBelow.of_extends
    {before after : Model} {bound : Handle}
    (below : before.ChordsBelow bound) (extended : Extends before after) :
    after.ChordsBelow bound :=
  fun chord members found =>
    below chord members (extended.chords chord members found)

theorem ChordsBelow.mono
    {model : Model} {bound higher : Handle}
    (below : model.ChordsBelow bound) (le : bound ≤ higher) :
    model.ChordsBelow higher := by
  intro chord members found
  obtain ⟨chordBelow, membersBelow⟩ := below chord members found
  exact ⟨Nat.lt_of_lt_of_le chordBelow le, fun entry listed =>
    Nat.lt_of_lt_of_le (membersBelow entry listed) le⟩

/-- Of contents, a new member changes only that of the relation. -/
theorem content?_includeMember
    (model : Model) (relation member : Handle) (role : Role)
    (handle : Handle) :
    (model.includeMember relation member role).content? handle =
      (model.content? handle).map fun content =>
        if handle = relation then
          content.mapMembers fun members => members ++ [(member, role)]
        else content := by
  rcases related : model.members? relation with _ | earlier
  · simp only [includeMember, related]
    rcases found : model.content? handle with _ | content
    · rfl
    · rw [Option.map_some]
      by_cases isRelation : handle = relation
      · have noRelation : content.members? = none := by
          rw [members?, ← isRelation, found] at related
          exact related
        rw [if_pos isRelation, Content.mapMembers_eq_self noRelation]
      · rw [if_neg isRelation]
  · rw [content?, get?_includeMember related, content?, Option.map_map,
      Option.map_map]
    rfl

theorem Persists.includeMember
    (model : Model) (relation member : Handle) (role : Role) :
    Persists model (model.includeMember relation member role) := by
  rcases related : model.members? relation with _ | earlier
  · simp only [Model.includeMember, related]
    exact .refl model
  · intro handle object found
    have later := get?_includeMember related member role handle
    rw [found, Option.map_some] at later
    refine ⟨_, later, rfl, ?_⟩
    dsimp only
    split
    · exact Content.name_mapMembers ..
    · rfl

end Model

namespace Draft

/-- A new relation, even a chord, stays below the new size with its members. -/
theorem Creates.chordsBelow
    {content : Content} {before after : Draft}
    (created : Creates content before after)
    (members : ∀ member ∈ content.memberHandles,
      member < before.model.size)
    (below : before.model.ChordsBelow before.model.size) :
    after.model.ChordsBelow (before.model.size + 1) := by
  intro chord entries found
  rw [Model.content?, created.get? chord] at found
  by_cases isNew : chord = before.model.size
  · rw [if_pos isNew] at found
    have isChord : content = .chord entries := Option.some.inj found
    refine ⟨isNew ▸ Nat.lt_succ_self _, fun entry listed => ?_⟩
    refine Nat.lt_succ_of_lt (members entry.1 ?_)
    rw [isChord]
    exact List.mem_map_of_mem listed
  · rw [if_neg isNew, Option.map_map] at found
    obtain ⟨object, foundObject, equal⟩ := Option.map_eq_some_iff.mp found
    have sameMembers := congrArg Content.members? equal
    have sameName := congrArg Content.name equal
    simp only [Function.comp_apply, Content.name_effectOn,
      Content.members?_effectOn] at sameName sameMembers
    have isChord : before.model.content? chord = some (.chord entries) := by
      rw [Model.content?, foundObject, Option.map_some]
      congr 1
      exact Content.eq_chord sameName sameMembers
    obtain ⟨chordBelow, membersBelow⟩ := below chord entries isChord
    exact ⟨Nat.lt_succ_of_lt chordBelow, fun entry listed =>
      Nat.lt_succ_of_lt (membersBelow entry listed)⟩

/-- A note became the last member of a chord that was there before. -/
structure JoinsChord
    (chord note : Handle) (before after : Draft) : Prop where
  enrolls : Model.Enrolls chord [(note, .chord)]
    (fun handle old =>
      if handle = note then
        old.mapNote fun it => { it with chord := some chord }
      else old)
    before.model after.model

end Draft

namespace Analyser

/-- A note that joins one without a chord creates the chord of both. -/
theorem creates_joinChord
    {base note : Handle} {draft : Draft}
    (single : (draft.model.note? base).bind Note.chord = none)
    (baseOld : base < draft.model.size) (noteOld : note < draft.model.size) :
    draft.Creates (.chord [(base, .chord), (note, .chord)])
      (joinChord base note draft) := by
  have related := draft.members?_create (.chord [])
  have enrolled :=
    ((((Model.Enrolls.none (draft.create (.chord [])).2.model
      draft.model.size).join related base .chord).modifyContent
        (Nat.ne_of_lt baseOld)
        (Content.mapNote fun it =>
          { it with chord := some draft.model.size })).join
        related note .chord).modifyContent (Nat.ne_of_lt noteOld)
        (Content.mapNote fun it =>
          { it with chord := some draft.model.size })
  have joined : joinChord base note draft =
      (((((draft.create (.chord [])).2.includeMember draft.model.size base
        .chord).mapModel fun model =>
          model.modifyNote base fun it =>
            { it with chord := some draft.model.size }).includeMember
        draft.model.size note .chord).mapModel fun model =>
          model.modifyNote note fun it =>
            { it with chord := some draft.model.size }) := by
    rw [joinChord, chordOf]
    rw [single]
    rfl
  rw [joined]
  refine Draft.Creates.of_enrolls (.chord [])
    [(base, .chord), (note, .chord)] rfl ?_ rfl rfl enrolled ?_
  · intro entry listed
    simp only [List.mem_cons, List.not_mem_nil, or_false] at listed
    rcases listed with rfl | rfl
    · exact baseOld
    · exact noteOld
  · intro handle old
    exact (Content.effectOn_chord ..).symm

/-- A note that joins one with a chord joins that chord. -/
theorem joinsChord_joinChord
    {base note chord : Handle} {draft : Draft} {members : Members}
    (joined : (draft.model.note? base).bind Note.chord = some chord)
    (isChord : draft.model.content? chord = some (.chord members))
    (other : note ≠ chord) :
    draft.JoinsChord chord note (joinChord base note draft) := by
  have related : draft.model.members? chord = some members := by
    rw [Model.members?, isChord]
    rfl
  have enrolled :=
    ((Model.Enrolls.none draft.model chord).join related note
      .chord).modifyContent other
        (Content.mapNote fun it => { it with chord := some chord })
  have later : joinChord base note draft =
      (draft.includeMember chord note .chord).mapModel fun model =>
        model.modifyNote note fun it => { it with chord := some chord } := by
    rw [joinChord, chordOf]
    rw [joined]
  rw [later]
  exact ⟨enrolled⟩

/-- What remains of joining a chord that is there. -/
theorem joinChord_of_joined
    {base note chord : Handle} {draft : Draft}
    (joined : (draft.model.note? base).bind Note.chord = some chord) :
    joinChord base note draft =
      draft.mapModel fun model =>
        (model.includeMember chord note .chord).modifyNote note fun it =>
          { it with chord := some chord } := by
  rw [joinChord, chordOf]
  rw [joined]
  rfl

theorem persists_joinChord
    {base note chord : Handle} {draft : Draft}
    (joined : (draft.model.note? base).bind Note.chord = some chord) :
    Model.Persists draft.model (joinChord base note draft).model := by
  rw [joinChord_of_joined joined]
  apply (Model.Persists.includeMember draft.model chord note .chord).trans
  intro handle object found
  have later := Model.get?_modifyContent
    (draft.model.includeMember chord note .chord) note
    (Content.mapNote fun it => { it with chord := some chord }) handle
  rw [found, Option.map_some] at later
  refine ⟨_, later, rfl, ?_⟩
  dsimp only
  split
  · exact Content.name_mapNote ..
  · rfl

/-- A note that joins a chord stays below the bound of all chords. -/
theorem chordsBelow_joinChord
    {base note chord bound : Handle} {draft : Draft}
    (joined : (draft.model.note? base).bind Note.chord = some chord)
    (below : draft.model.ChordsBelow bound) (newest : note < bound) :
    (joinChord base note draft).model.ChordsBelow bound := by
  rw [joinChord_of_joined joined]
  intro handle members found
  have content : ((draft.model.includeMember chord note .chord).modifyContent
      note (Content.mapNote fun it => { it with chord := some chord })).content?
        handle = some (.chord members) := found
  rw [Model.content?_modifyContent, Model.content?_includeMember,
    Option.map_map, Option.map_eq_some_iff] at content
  obtain ⟨old, foundOld, equal⟩ := content
  have sameMembers := congrArg Content.members? equal
  have sameName := congrArg Content.name equal
  have isChord : ∃ earlier, old = .chord earlier := by
    simp only [Function.comp_apply, apply_ite Content.name,
      Content.name_mapNote, Content.name_mapMembers, ite_self] at sameName
    cases old <;> simp [Content.name] at sameName
    exact ⟨_, rfl⟩
  obtain ⟨earlier, rfl⟩ := isChord
  obtain ⟨chordBelow, membersBelow⟩ := below handle earlier foundOld
  refine ⟨chordBelow, fun entry listed => ?_⟩
  have parts : members = earlier ∨ members = earlier ++ [(note, .chord)] := by
    have before : (Content.chord earlier).members? = some earlier := rfl
    have after : (Content.chord members).members? = some members := rfl
    simp only [Function.comp_apply, apply_ite Content.members?,
      Content.members?_mapNote, Content.members?_mapMembers, ite_self,
      before, after, Option.map_some] at sameMembers
    split at sameMembers
    · exact Or.inr (Option.some.inj sameMembers).symm
    · exact Or.inl (Option.some.inj sameMembers).symm
  rcases parts with rfl | rfl
  · exact membersBelow entry listed
  · rcases List.mem_append.mp listed with old | new
    · exact membersBelow entry old
    · rw [List.mem_singleton.mp new]
      exact newest

/-- Two different notes in order suit a chord. -/
theorem admits_chord
    {model : Model} {base note : Handle}
    (baseIs : model.IsNote base) (noteIs : model.IsNote note)
    (ordered : base < note) :
    model.Admits (.chord [(base, .chord), (note, .chord)]) := by
  constructor
  · rfl
  · simpa [Content.memberHandles, Content.members?] using ordered
  · rfl
  · simp [Content.members?, Content.records]
  · intro member listed
    simp only [Content.memberHandles, Content.members?, Option.getD_some,
      List.map_cons, List.map_nil, List.mem_cons, List.not_mem_nil,
      or_false] at listed
    rcases listed with rfl | rfl
    · exact baseIs.content
    · exact noteIs.content
  · rfl

end Analyser

end LdpScore
