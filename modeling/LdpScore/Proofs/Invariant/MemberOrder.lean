import LdpScore.Proofs.Invariant.Balance

/-!
# The members of a relation

The members of a relation rise in the order of the text and are of the right kind
and number.  A relation is younger than the members it was created with; a chord
is created with its second note and older than all notes that join it later.
-/

namespace LdpScore

namespace Model

/-- What is known of the relation at a handle and its members. -/
structure MembersFit
    (model : Model) (relation : Handle) (content : Content) : Prop where
  rising : content.memberHandles.Pairwise (· < ·)
  founders : ∀ member ∈ content.founders, member < relation
  joiners : ∀ member ∈ content.joiners, relation < member
  count : content.admitsCount content.memberHandles.length
  kinds : ∀ member ∈ content.memberHandles,
    ∃ object, model.content? member = some object ∧ content.admits object

/-- Every relation of a model has fitting members. -/
def Ordered (model : Model) : Prop :=
  ∀ relation content, model.content? relation = some content →
    content.members?.isSome → model.MembersFit relation content

end Model

/-! ## Kinds by name -/

namespace Content

theorem founders_eq (content : Content) :
    content.founders =
      if content.name = "chord" then content.memberHandles.take 2
      else content.memberHandles := by
  cases content <;> simp [founders, name, memberHandles, members?]

theorem joiners_eq (content : Content) :
    content.joiners =
      if content.name = "chord" then content.memberHandles.drop 2 else [] := by
  cases content <;> simp [joiners, name, memberHandles, members?]

theorem admitsCount_iff (content : Content) (count : Nat) :
    content.admitsCount count ↔
      content.name = "tie" ∧ count = 2 ∨ content.name = "slur" ∨
        content.name ∈ ["beam", "tuplet", "chord"] ∧ 2 ≤ count := by
  cases content <;> simp [admitsCount, name]

theorem admits_iff (content member : Content) :
    content.admits member ↔
      content.name ∈ ["tie", "slur", "chord"] ∧ member.note?.isSome ∨
        content.name ∈ ["beam", "tuplet"] ∧ member.noteRest?.isSome := by
  cases content <;> simp [admits, name]

/-- Whether an object may be a member depends on the names only. -/
theorem admits_of_names
    {relation later member laterMember : Content}
    (admitted : relation.admits member)
    (sameRelation : later.name = relation.name)
    (sameMember : laterMember.name = member.name) :
    later.admits laterMember := by
  rw [admits_iff, note?_isSome_iff, noteRest?_isSome_iff] at admitted ⊢
  rw [sameRelation, sameMember]
  exact admitted

end Content

namespace Model

/-! ## Steps -/

variable {before after : Model} {relation : Handle} {old new : Content}

/-- Relations keep fitting members. -/
theorem MembersFit.of_persists
    (fits : before.MembersFit relation old) (persists : Persists before after)
    (name : new.name = old.name)
    (members : new.memberHandles = old.memberHandles) :
    after.MembersFit relation new := by
  constructor
  · rw [members]
    exact fits.rising
  · rw [Content.founders_eq, name, members, ← Content.founders_eq]
    exact fits.founders
  · rw [Content.joiners_eq, name, members, ← Content.joiners_eq]
    exact fits.joiners
  · rw [Content.admitsCount_iff, name, members, ← Content.admitsCount_iff]
    exact fits.count
  · intro member listed
    rw [members] at listed
    obtain ⟨object, found, admitted⟩ := fits.kinds member listed
    obtain ⟨later, foundLater, sameName⟩ := persists.exists_content found
    exact ⟨later, foundLater, Content.admits_of_names admitted name sameName⟩

theorem Ordered.of_persists
    (ordered : before.Ordered) (persists : Persists before after)
    (kept : ∀ relation new, after.content? relation = some new →
      new.members?.isSome →
        ∃ old, before.content? relation = some old ∧ new.name = old.name ∧
          new.members? = old.members?) :
    after.Ordered := by
  intro relation new found isRelation
  obtain ⟨old, foundOld, name, members⟩ := kept relation new found isRelation
  have sameHandles : new.memberHandles = old.memberHandles := by
    rw [Content.memberHandles, members, Content.memberHandles]
  exact (ordered relation old foundOld (members ▸ isRelation)).of_persists
    persists name sameHandles

/-- A new relation is younger than all its members. -/
theorem MembersFit.of_admits
    (admitted : before.Admits new) (persists : Persists before after) :
    after.MembersFit before.size new := by
  constructor
  · exact admitted.rising
  · intro member listed
    have isMember : member ∈ new.memberHandles := by
      rw [Content.founders_eq] at listed
      split at listed
      · exact List.mem_of_mem_take listed
      · exact listed
    obtain ⟨object, found, _⟩ := admitted.members member isMember
    exact lt_size_of_content? found
  · rw [admitted.joiners]
    simp
  · exact admitted.count
  · intro member listed
    obtain ⟨object, found, admits⟩ := admitted.members member listed
    obtain ⟨later, foundLater, sameName⟩ := persists.exists_content found
    exact ⟨later, foundLater, Content.admits_of_names admits rfl sameName⟩

/-- A note that is newer than a chord and all its members joins it last. -/
theorem MembersFit.append
    {members : Members} {note : Handle}
    (fits : before.MembersFit relation (.chord members))
    (persists : Persists before after) (isNote : before.IsNote note)
    (younger : relation < note)
    (newest : ∀ entry ∈ members, entry.1 < note) :
    after.MembersFit relation (.chord (members ++ [(note, .chord)])) := by
  have handles : ∀ entries, (Content.chord entries).memberHandles =
      entries.map Prod.fst := fun _ => rfl
  have several : 2 ≤ (members.map Prod.fst).length := by
    simpa [Content.admitsCount, handles] using fits.count
  constructor
  · rw [handles, List.map_append, List.pairwise_append]
    refine ⟨fits.rising, List.pairwise_singleton .., ?_⟩
    intro member listed last isLast
    obtain ⟨entry, isEntry, rfl⟩ := List.mem_map.mp listed
    rw [List.mem_singleton.mp isLast]
    exact newest entry isEntry
  -- The chord already has its founders, so the new member is no founder.
  · intro member listed
    rw [Content.founders, List.map_append,
      List.take_append_of_le_length several] at listed
    exact fits.founders member listed
  · intro member listed
    rw [Content.joiners, List.map_append,
      List.drop_append_of_le_length several] at listed
    rcases List.mem_append.mp listed with old | new
    · exact fits.joiners member old
    · rw [List.mem_singleton.mp new]
      exact younger
  · rw [handles, List.map_append, List.length_append]
    exact decide_eq_true (Nat.le_trans several (Nat.le_add_right _ _))
  · intro member listed
    rw [handles, List.map_append] at listed
    have wasNote : ∃ object, before.content? member = some object ∧
        object.note?.isSome := by
      rcases List.mem_append.mp listed with old | new
      · exact fits.kinds member old
      · rw [List.mem_singleton.mp new]
        exact isNote.content
    obtain ⟨object, found, admitted⟩ := wasNote
    obtain ⟨later, foundLater, sameName⟩ := persists.exists_content found
    refine ⟨later, foundLater, ?_⟩
    rw [Content.note?_isSome_iff, ← sameName,
      ← Content.note?_isSome_iff] at admitted
    exact admitted

end Model

namespace Draft

variable {content : Content} {before after : Draft}

theorem Creates.ordered
    (created : Creates content before after)
    (admitted : before.model.Admits content) (ordered : before.model.Ordered) :
    after.model.Ordered := by
  intro relation new found isRelation
  by_cases isNew : relation = before.model.size
  · rw [isNew, created.content?_new] at found
    cases found
    rw [isNew]
    exact .of_admits admitted created.persists
  · obtain ⟨earlier, isEarlier, rfl⟩ := created.content?_old found isNew
    rw [Content.members?_effectOn] at isRelation
    have fits := ordered relation earlier isEarlier isRelation
    exact fits.of_persists created.persists (Content.name_effectOn ..)
      (Content.memberHandles_effectOn ..)

theorem JoinsChord.ordered
    {chord note : Handle} {members : Members}
    (joins : JoinsChord chord note before after)
    (persists : before.model.Persists after.model)
    (isChord : before.model.content? chord = some (.chord members))
    (isNote : before.model.IsNote note)
    (newest : before.model.ChordsBelow note) (ordered : before.model.Ordered) :
    after.model.Ordered := by
  obtain ⟨younger, below⟩ := newest chord members isChord
  intro relation new found isRelation
  obtain ⟨earlier, isEarlier, rfl⟩ := joins.content?_old found
  by_cases isJoined : relation = chord
  · rw [isJoined, isChord] at isEarlier
    cases isEarlier
    rw [if_pos isJoined, isJoined]
    exact (ordered chord _ isChord rfl).append persists isNote younger below
  · simp only [if_neg isJoined] at isRelation ⊢
    rw [apply_ite Content.members?, Content.members?_mapNote,
      ite_self] at isRelation
    refine (ordered relation earlier isEarlier isRelation).of_persists
      persists ?_ ?_
    · rw [apply_ite Content.name, Content.name_mapNote, ite_self]
    · rw [Content.memberHandles, apply_ite Content.members?,
        Content.members?_mapNote, ite_self]
      rfl

end Draft

theorem Stage.Step.ordered
    {before after : Stage} (step : Step before after)
    (coherent : before.model.Coherent) (ordered : before.model.Ordered) :
    after.model.Ordered := by
  cases step with
  | @attend after silent awaited =>
      show after.draft.model.Ordered
      rw [silent.model]
      exact ordered
  | enter scope nothing => exact ordered
  | element node anchor content anchored fresh isFrom =>
      apply ordered.of_persists
        (Model.Extends.addObject before.draft node.id? node.location anchored
          fresh).persists
      intro relation new found isRelation
      rcases Model.content?_of_addObject node.id? node.location anchored fresh
        found with old | isFresh
      · exact ⟨new, old, rfl, rfl⟩
      · rw [isFresh.members?] at isRelation
        cases isRelation
  | revise handle change keeps =>
      apply ordered.of_persists
        (Model.Extends.modifyContent before.model handle keeps).persists
      intro relation new found isRelation
      obtain ⟨old, isOld, kept⟩ :=
        Model.exists_kept_of_modifyContent keeps found
      exact ⟨old, isOld, kept.name, kept.members?⟩
  | relate content created admitted listed =>
      exact created.ordered admitted ordered
  | sound waits joined isNote inScope newest =>
      obtain ⟨⟨members, isChord⟩, _⟩ := coherent.chords.isChord joined
      have other := Nat.ne_of_gt (newest _ members isChord).1
      exact (Analyser.joinsChord_joinChord joined isChord other).ordered
        (Analyser.persists_joinChord joined) isChord isNote newest ordered
  | root handle known =>
      exact ordered.of_persists (.setRoot before.model handle)
        fun relation new found _ => ⟨new, found, rfl, rfl⟩

theorem ordered_analyse (root : Node) : (analyse root).1.Ordered := by
  obtain ⟨stage, run, isModel, _⟩ := exists_run_analyse root
  rw [← isModel]
  have step : ∀ {before after}, Stage.Step before after →
      before.model.Coherent ∧ before.model.Ordered →
        after.model.Coherent ∧ after.model.Ordered :=
    fun step known =>
      ⟨step.coherent known.1, step.ordered known.1 known.2⟩
  have first : Model.Ordered {} := by
    intro relation content found
    cases found
  exact (run.preserves step ⟨Model.coherent_empty, first⟩).2

/--
The members of every relation rise in the order of the text, and they are of the
kind and the number that suit it.  The relation is younger than the members it was
created with and older than those that joined it later.
-/
theorem membersFit_analyseSource
    (source file : String) {model : Model}
    (accepted : (analyseSource source file).result = .ok model)
    {relation : Handle} {content : Content}
    (found : model.content? relation = some content)
    (isRelation : content.members?.isSome) :
    model.MembersFit relation content := by
  obtain ⟨root, _, isModel, _⟩ := exists_tree_of_accepted accepted
  have ordered := ordered_analyse root
  rw [isModel] at ordered
  exact ordered relation content found isRelation

/-- The third note of a chord is younger than the chord. -/
theorem exists_chord_of_three :
    ∃ model content,
      (analyseSource "(chord (n c4 q) (n e4 q) (n g4 q))" "").result =
        .ok model ∧
      model.content? 2 = some content ∧ content.members?.isSome ∧
      content.memberHandles = [0, 1, 3] :=
  exists_relation_of_any 2 [0, 1, 3] (by decide +kernel)

theorem membersFit_chord_of_three :
    ∃ model content,
      (analyseSource "(chord (n c4 q) (n e4 q) (n g4 q))" "").result =
        .ok model ∧
      model.content? 2 = some content ∧ content.memberHandles = [0, 1, 3] ∧
      model.MembersFit 2 content := by
  obtain ⟨model, content, accepted, found, isRelation, members⟩ :=
    exists_chord_of_three
  exact ⟨model, content, accepted, found, members,
    membersFit_analyseSource _ _ accepted found isRelation⟩

/-- Not every relation is younger than all of its members. -/
theorem not_all_relations_youngest :
    ¬ ∀ source file model, (analyseSource source file).result = .ok model →
      ∀ relation content, model.content? relation = some content →
        content.members?.isSome →
          ∀ member ∈ content.memberHandles, member < relation := by
  intro youngest
  obtain ⟨model, content, accepted, found, isRelation, members⟩ :=
    exists_chord_of_three
  have below := youngest _ _ model accepted 2 content found isRelation
  rw [members] at below
  exact absurd (below 3 (by decide)) (by decide)

end LdpScore
