import LdpScore.Proofs.Analysis.Run
import LdpScore.Proofs.Invariant.Coherence

/-!
# Every model is closed and balanced

A new relation is listed by its members and no other object, and a note that
joins a chord is listed by it once more.  With that every step keeps a model
coherent.
-/

namespace LdpScore

/-! ## New relations -/

namespace Draft.Creates

variable {content : Content} {before after : Draft}

/-- An object that was there before a relation was created. -/
theorem get?_old
    (created : Creates content before after)
    {handle : Handle} {object : Object}
    (found : after.model.get? handle = some object)
    (old : handle ≠ before.model.size) :
    ∃ earlier, before.model.get? handle = some earlier ∧
      object =
        { earlier with
          content :=
            content.effectOn before.model.size handle earlier.content
          relations :=
            earlier.relations ++
              List.replicate (content.memberHandles.count handle)
                before.model.size } := by
  rw [created.get? handle, if_neg old] at found
  obtain ⟨earlier, foundEarlier, same⟩ := Option.map_eq_some_iff.mp found
  exact ⟨earlier, foundEarlier, same.symm⟩

theorem content?_new (created : Creates content before after) :
    after.model.content? before.model.size = some content := by
  rw [Model.content?, created.get?, if_pos rfl]
  rfl

theorem content?_old
    (created : Creates content before after)
    {handle : Handle} {found : Content}
    (isContent : after.model.content? handle = some found)
    (old : handle ≠ before.model.size) :
    ∃ earlier, before.model.content? handle = some earlier ∧
      found = content.effectOn before.model.size handle earlier := by
  obtain ⟨object, foundObject, rfl⟩ := Model.content?_eq_some_iff.mp isContent
  obtain ⟨earlier, foundEarlier, rfl⟩ := created.get?_old foundObject old
  exact ⟨earlier.content,
    Model.content?_eq_some_iff.mpr ⟨earlier, foundEarlier, rfl⟩, rfl⟩

theorem relations
    (created : Creates content before after)
    (members : ∀ member ∈ content.memberHandles, member < before.model.size)
    (member : Handle) :
    after.model.relations member =
      before.model.relations member ++
        List.replicate (content.memberHandles.count member)
          before.model.size := by
  rw [Model.relations, created.get? member, Model.relations]
  by_cases isNew : member = before.model.size
  · have absent : content.memberHandles.count member = 0 := by
      apply List.count_eq_zero.mpr
      intro listed
      exact Nat.ne_of_lt (members member listed) isNew
    rw [if_pos isNew, absent,
      Model.get?_eq_none_iff.mpr (Nat.le_of_eq isNew.symm)]
    rfl
  · rw [if_neg isNew]
    rcases found : before.model.get? member with _ | object
    · have absent : content.memberHandles.count member = 0 := by
        apply List.count_eq_zero.mpr
        intro listed
        exact Nat.not_lt.mpr (Model.get?_eq_none_iff.mp found)
          (members member listed)
      rw [absent]
      rfl
    · rfl

theorem memberHandles
    (created : Creates content before after) (relation : Handle) :
    after.model.memberHandles relation =
      if relation = before.model.size then content.memberHandles
      else before.model.memberHandles relation := by
  rw [Model.memberHandles, Model.content?, created.get? relation,
    Model.memberHandles, Model.content?]
  by_cases isNew : relation = before.model.size
  · simp only [if_pos isNew]
    rfl
  · simp only [if_neg isNew, Option.map_map]
    rcases before.model.get? relation with _ | object
    · rfl
    · exact Content.memberHandles_effectOn ..

/-- A relation has no links of its own. -/
theorem links_eq (admitted : before.model.Admits content) :
    content.links = {} := by
  obtain ⟨entries, related⟩ :=
    Option.isSome_iff_exists.mp admitted.isRelation
  rw [Content.links, Content.note?_eq_none_of_members? related]

theorem closed
    (created : Creates content before after)
    (members : ∀ member ∈ content.memberHandles, member < before.model.size)
    (noLinks : content.links = {}) (closed : before.model.Closed) :
    after.model.Closed := by
  constructor
  · intro root isRoot
    rw [created.root] at isRoot
    rw [created.size]
    exact Nat.lt_succ_of_lt (closed.root root isRoot)
  · intro handle object found
    rw [created.size]
    by_cases isNew : handle = before.model.size
    · rw [created.get? handle, if_pos isNew] at found
      cases found
      constructor
      · simp
      · simp
      · simp
      · exact fun member listed => Nat.lt_succ_of_lt (members member listed)
      · dsimp only
        rw [noLinks]
        exact Links.below_empty _
    · obtain ⟨earlier, foundEarlier, rfl⟩ := created.get?_old found isNew
      have below := (closed.objects handle earlier foundEarlier).mono
        (Nat.le_succ before.model.size)
      constructor
      · exact below.parent
      · exact below.children
      · intro relation listed
        rcases List.mem_append.mp listed with old | new
        · exact below.relations relation old
        · rw [List.eq_of_mem_replicate new]
          exact Nat.lt_succ_self _
      · dsimp only
        rw [Content.memberHandles_effectOn]
        exact below.members
      · exact (Content.linkedTo_effectOn ..).below below.links
          (Nat.lt_succ_self _)

theorem balanced
    (created : Creates content before after)
    (members : ∀ member ∈ content.memberHandles, member < before.model.size)
    (balanced : before.model.Balanced) :
    after.model.Balanced := by
  intro member relation
  rw [created.relations members, created.memberHandles, List.count_append,
    balanced member relation]
  by_cases isNew : relation = before.model.size
  · have missing : before.model.memberHandles relation = [] := by
      rw [Model.memberHandles, Model.content?,
        Model.get?_eq_none_iff.mpr (Nat.le_of_eq isNew.symm)]
      rfl
    rw [if_pos isNew, missing, isNew, List.count_replicate_self]
    exact Nat.zero_add _
  · have other : ¬ (before.model.size == relation) = true := by
      simpa using Ne.symm isNew
    rw [if_neg isNew, List.count_replicate, if_neg other]
    exact Nat.add_zero _

theorem rolesFit
    (created : Creates content before after)
    (admitted : before.model.Admits content)
    (roles : before.model.RolesFit) :
    after.model.RolesFit := by
  intro handle found isContent entry listed
  by_cases isNew : handle = before.model.size
  · rw [isNew, created.content?_new] at isContent
    cases isContent
    exact admitted.roles entry listed
  · obtain ⟨earlier, isEarlier, rfl⟩ := created.content?_old isContent isNew
    rw [Content.members?_effectOn] at listed
    have records := roles handle earlier isEarlier entry listed
    rw [Content.records_iff] at records ⊢
    rw [Content.name_effectOn]
    exact records

/-- Only a new chord is taken for one, and by its members. -/
theorem chordsKnown
    (created : Creates content before after) (noLinks : content.links = {})
    (chords : before.model.ChordsKnown) :
    after.model.ChordsKnown := by
  intro handle found isContent chord isLink
  by_cases isNew : handle = before.model.size
  · rw [isNew, created.content?_new] at isContent
    cases isContent
    rw [noLinks] at isLink
    cases isLink
  · obtain ⟨earlier, isEarlier, rfl⟩ := created.content?_old isContent isNew
    rcases (Content.linkedTo_effectOn content before.model.size handle
      earlier).chord with kept | ⟨new, ⟨members, isChord⟩, isMember⟩
    · obtain ⟨⟨entries, foundChord⟩, isMember⟩ :=
        chords handle earlier isEarlier chord (kept ▸ isLink)
      have old := Nat.ne_of_lt (Model.lt_size_of_content? foundChord)
      rw [created.memberHandles, if_neg old]
      exact ⟨created.persists.isChord ⟨entries, foundChord⟩, isMember⟩
    · cases new.symm.trans isLink
      rw [created.memberHandles, if_pos rfl]
      refine ⟨⟨members, ?_⟩, isMember⟩
      rw [created.content?_new, isChord]

theorem coherent
    (created : Creates content before after)
    (admitted : before.model.Admits content)
    (coherent : before.model.Coherent) :
    after.model.Coherent := by
  have members : ∀ member ∈ content.memberHandles,
      member < before.model.size := by
    intro member listed
    obtain ⟨object, found, _⟩ := admitted.members member listed
    exact Model.lt_size_of_content? found
  have noLinks := links_eq admitted
  constructor
  · exact created.closed members noLinks coherent.closed
  · exact created.balanced members coherent.balanced
  · exact created.rolesFit admitted coherent.roles
  · exact created.chordsKnown noLinks coherent.chords

end Draft.Creates

/-! ## Notes that join a chord -/

namespace Draft.JoinsChord

variable {chord note : Handle} {before after : Draft}

theorem get?_old
    (joins : JoinsChord chord note before after)
    {handle : Handle} {object : Object}
    (found : after.model.get? handle = some object) :
    ∃ earlier, before.model.get? handle = some earlier ∧
      object =
        { earlier with
          content :=
            if handle = chord then
              earlier.content.mapMembers fun members =>
                members ++ [(note, .chord)]
            else
              if handle = note then
                earlier.content.mapNote fun it =>
                  { it with chord := some chord }
              else earlier.content
          relations :=
            earlier.relations ++
              List.replicate ([note].count handle) chord } := by
  rw [joins.enrolls.get? handle] at found
  obtain ⟨earlier, foundEarlier, same⟩ := Option.map_eq_some_iff.mp found
  exact ⟨earlier, foundEarlier, same.symm⟩

theorem content?_old
    (joins : JoinsChord chord note before after)
    {handle : Handle} {found : Content}
    (isContent : after.model.content? handle = some found) :
    ∃ earlier, before.model.content? handle = some earlier ∧
      found =
        if handle = chord then
          earlier.mapMembers fun members => members ++ [(note, .chord)]
        else
          if handle = note then
            earlier.mapNote fun it => { it with chord := some chord }
          else earlier := by
  obtain ⟨object, foundObject, rfl⟩ := Model.content?_eq_some_iff.mp isContent
  obtain ⟨earlier, foundEarlier, rfl⟩ := joins.get?_old foundObject
  exact ⟨earlier.content,
    Model.content?_eq_some_iff.mpr ⟨earlier, foundEarlier, rfl⟩, rfl⟩

theorem relations
    (joins : JoinsChord chord note before after)
    (inside : note < before.model.size) (member : Handle) :
    after.model.relations member =
      before.model.relations member ++
        List.replicate ([note].count member) chord := by
  rw [Model.relations, joins.enrolls.get? member, Model.relations]
  rcases found : before.model.get? member with _ | object
  · have absent : [note].count member = 0 := by
      apply List.count_eq_zero.mpr
      intro listed
      rw [List.mem_singleton.mp listed] at found
      exact Nat.not_lt.mpr (Model.get?_eq_none_iff.mp found) inside
    rw [absent]
    rfl
  · rfl

/-- The members of what an object has become. -/
theorem memberHandles_joined
    (joins : JoinsChord chord note before after)
    {members : Members}
    (isChord : before.model.content? chord = some (.chord members))
    (relation : Handle) :
    after.model.memberHandles relation =
      before.model.memberHandles relation ++
        if relation = chord then [note] else [] := by
  rw [Model.memberHandles, Model.content?, joins.enrolls.get? relation,
    Model.memberHandles, Model.content?, Option.map_map, Option.map_map]
  by_cases isRelation : relation = chord
  · subst isRelation
    rw [Model.content?] at isChord
    obtain ⟨object, found, isContent⟩ := Option.map_eq_some_iff.mp isChord
    rw [found]
    simp [isContent, Content.mapMembers, Content.memberHandles,
      Content.members?]
  · rw [if_neg isRelation, List.append_nil]
    rcases before.model.get? relation with _ | object
    · rfl
    · simp only [Option.map_some, Option.getD_some, Function.comp_apply,
        if_neg isRelation, Content.memberHandles,
        apply_ite Content.members?, Content.members?_mapNote, ite_self]

/-- Only the note that joins links something else than before. -/
theorem linkedTo
    (chord note handle : Handle) (content : Content) :
    Links.LinkedTo chord (handle = note) content.links
      (if handle = chord then
        content.mapMembers fun members => members ++ [(note, .chord)]
      else
        if handle = note then
          content.mapNote fun it => { it with chord := some chord }
        else content).links := by
  split
  · rw [Content.links_mapMembers]
    exact .refl _ _ _
  · split
    · rename_i isNote
      exact Content.linkedTo_joined chord isNote content
    · exact .refl _ _ _

variable {entries : Members}

theorem closed
    (joins : JoinsChord chord note before after)
    (isChord : before.model.content? chord = some (.chord entries))
    (inside : note < before.model.size) (closed : before.model.Closed) :
    after.model.Closed := by
  have chordInside := Model.lt_size_of_content? isChord
  have size := joins.enrolls.size
  constructor
  · intro root isRoot
    rw [joins.enrolls.root] at isRoot
    rw [size]
    exact closed.root root isRoot
  · intro handle object found
    rw [size]
    obtain ⟨earlier, foundEarlier, rfl⟩ := joins.get?_old found
    have below := closed.objects handle earlier foundEarlier
    constructor
    · exact below.parent
    · exact below.children
    · intro relation listed
      rcases List.mem_append.mp listed with old | new
      · exact below.relations relation old
      · rw [List.eq_of_mem_replicate new]
        exact chordInside
    · intro member listed
      have joined := joins.memberHandles_joined isChord handle
      rw [Model.memberHandles, Model.content?, found, Option.map_some,
        Option.map_some, Option.getD_some, Model.memberHandles, Model.content?,
        foundEarlier, Option.map_some, Option.map_some,
        Option.getD_some] at joined
      rw [joined] at listed
      rcases List.mem_append.mp listed with old | new
      · exact below.members member old
      · split at new
        · rw [List.mem_singleton.mp new]
          exact inside
        · exact absurd new List.not_mem_nil
    · exact (linkedTo chord note handle earlier.content).below below.links
        chordInside

theorem balanced
    (joins : JoinsChord chord note before after)
    (isChord : before.model.content? chord = some (.chord entries))
    (inside : note < before.model.size) (balanced : before.model.Balanced) :
    after.model.Balanced := by
  intro member relation
  rw [joins.relations inside, joins.memberHandles_joined isChord,
    List.count_append, List.count_append, balanced member relation]
  congr 1
  by_cases isRelation : relation = chord
  · rw [if_pos isRelation, isRelation, List.count_replicate_self]
  · have other : ¬ (chord == relation) = true := by
      simpa using Ne.symm isRelation
    rw [if_neg isRelation, List.count_replicate, if_neg other]
    rfl

theorem rolesFit
    (joins : JoinsChord chord note before after)
    (isChord : before.model.content? chord = some (.chord entries))
    (roles : before.model.RolesFit) :
    after.model.RolesFit := by
  intro handle found isContent entry listed
  obtain ⟨earlier, isEarlier, rfl⟩ := joins.content?_old isContent
  have known := roles handle earlier isEarlier
  rw [Content.records_iff]
  by_cases isHandle : handle = chord
  · rw [isHandle, isChord] at isEarlier
    cases isEarlier
    rw [if_pos isHandle] at listed ⊢
    rw [Content.name_mapMembers]
    rcases List.mem_append.mp listed with old | new
    · exact (Content.records_iff ..).mp (known entry old)
    · rw [List.mem_singleton.mp new]
      rfl
  · have kept : (if handle = note then
        earlier.mapNote fun it => { it with chord := some chord }
      else earlier).members? = earlier.members? := by
      rw [apply_ite Content.members?, Content.members?_mapNote, ite_self]
    simp only [if_neg isHandle, kept] at listed
    simp only [if_neg isHandle, apply_ite Content.name,
      Content.name_mapNote, ite_self]
    exact (Content.records_iff ..).mp (known entry listed)

theorem chordsKnown
    (joins : JoinsChord chord note before after)
    (persists : before.model.Persists after.model)
    (isChord : before.model.content? chord = some (.chord entries))
    (chords : before.model.ChordsKnown) :
    after.model.ChordsKnown := by
  intro handle found isContent other isLink
  obtain ⟨earlier, isEarlier, rfl⟩ := joins.content?_old isContent
  rw [joins.memberHandles_joined isChord, List.mem_append]
  rcases (linkedTo chord note handle earlier).chord
    with kept | ⟨new, isNote⟩
  · obtain ⟨isOther, isMember⟩ :=
      chords handle earlier isEarlier other (kept ▸ isLink)
    exact ⟨persists.isChord isOther, Or.inl isMember⟩
  · cases new.symm.trans isLink
    rw [if_pos rfl, isNote]
    exact ⟨persists.isChord ⟨entries, isChord⟩,
      Or.inr (List.mem_singleton_self note)⟩

theorem coherent
    (joins : JoinsChord chord note before after)
    (persists : before.model.Persists after.model)
    (isChord : before.model.IsChord chord)
    (inside : note < before.model.size) (coherent : before.model.Coherent) :
    after.model.Coherent := by
  obtain ⟨entries, isChord⟩ := isChord
  constructor
  · exact joins.closed isChord inside coherent.closed
  · exact joins.balanced isChord inside coherent.balanced
  · exact joins.rolesFit isChord coherent.roles
  · exact joins.chordsKnown persists isChord coherent.chords

end Draft.JoinsChord

/-! ## Every run -/

theorem Stage.Step.coherent
    {before after : Stage} (step : Step before after)
    (coherent : before.model.Coherent) :
    after.model.Coherent := by
  cases step with
  | @attend after silent awaited =>
      show after.draft.model.Coherent
      rw [silent.model]
      exact coherent
  | enter scope nothing => exact coherent
  | element node anchor content anchored fresh isFrom =>
      exact coherent.addObject node.id? node.location anchored fresh
  | revise handle change keeps => exact coherent.modifyContent keeps
  | relate content created admitted listed =>
      exact created.coherent admitted coherent
  | sound waits joined isNote inScope newest =>
      obtain ⟨⟨members, found⟩, _⟩ := coherent.chords.isChord joined
      have other := Nat.ne_of_gt (newest _ members found).1
      exact (Analyser.joinsChord_joinChord joined found other).coherent
        (Analyser.persists_joinChord joined) ⟨members, found⟩ isNote.lt_size
        coherent
  | root handle known => exact coherent.setRoot known

theorem Model.coherent_empty : Model.Coherent {} := by
  have missing : ∀ handle, Model.get? {} handle = none := fun _ => rfl
  refine ⟨⟨nofun, ?_⟩, ?_, ?_, ?_⟩
  · intro handle object found
    cases found
  · intro member relation
    rfl
  · intro handle content found
    cases found
  · intro handle content found
    cases found

theorem coherent_analyse (root : Node) : (analyse root).1.Coherent := by
  obtain ⟨stage, run, isModel, _⟩ := exists_run_analyse root
  rw [← isModel]
  exact run.preserves Stage.Step.coherent Model.coherent_empty

/--
The model of every text is closed, each relation lists a member as often as the
member lists the relation, and relations record only roles of their own kind.
-/
theorem closed_balanced_analyseSource
    (source file : String) {model : Model}
    (accepted : (analyseSource source file).result = .ok model) :
    model.Closed ∧ model.Balanced ∧ model.RolesFit := by
  obtain ⟨root, _, isModel, _⟩ := exists_tree_of_accepted accepted
  have coherent := coherent_analyse root
  rw [isModel] at coherent
  exact ⟨coherent.closed, coherent.balanced, coherent.roles⟩

/-- A text whose notes are tied, beamed and sound together. -/
theorem closed_balanced_tied_chord :
    ∃ model,
      (analyseSource
        "(musicData (n c4 e g+ l)(n c4 e g-)(chord (n e4 q)(n g4 q)))"
        "").result = .ok model ∧
      model.size = 8 ∧
      model.Closed ∧ model.Balanced ∧ model.RolesFit := by
  obtain ⟨model, accepted, size⟩ := exists_model_of_any
    (fun model => model.size == 8)
    (by decide +kernel : (analyseSource
      "(musicData (n c4 e g+ l)(n c4 e g-)(chord (n e4 q)(n g4 q)))"
      "").result.toOption.any _)
  exact ⟨model, accepted, beq_iff_eq.mp size,
    closed_balanced_analyseSource _ _ accepted⟩

end LdpScore
