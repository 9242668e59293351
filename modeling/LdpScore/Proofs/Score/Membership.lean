import LdpScore.Proofs.Score.Growth
import LdpScore.Relation.Tuplet

/-!
# How objects join relations

A membership is recorded on both sides: the relation lists the member, and the
member lists the relation.  Some relations also leave a mark on their members: a
tie links its ends, a chord its notes, and a tuplet modifies durations.

`Model.Enrolls` says that some members joined a relation, one after the other.
`Draft.Creates` says that a relation was created with all of its members; its
fields describe every object afterwards, and nothing else is known of how it
came about.
-/

namespace LdpScore

namespace Content

/-- The members of a relation without their roles. -/
def memberHandles (content : Content) : List Handle :=
  (content.members?.getD []).map Prod.fst

/--
What a new relation of a given content makes of an object with a given handle.
Ties link their two ends, tuplets modify durations, and chords are known to
their notes.
-/
def effectOn
    (content : Content) (relation handle : Handle) (old : Content) :
    Content :=
  match content with
  | .tie _ _ [(start, _), (finish, _)] =>
      old.mapNote fun note =>
        { note with
          tieNext := if handle = start then some relation else note.tieNext
          tiePrevious :=
            if handle = finish then some relation else note.tiePrevious }
  | .tuplet actual normal _ _ members =>
      if handle ∈ members.map Prod.fst then
        old.mapNoteRest (Tuplet.modify ⟨normal, actual⟩)
      else old
  | .chord members =>
      if handle ∈ members.map Prod.fst then
        old.mapNote fun note => { note with chord := some relation }
      else old
  | _ => old

/-- A tie is linked to its start first and to its end afterwards. -/
theorem effectOn_tie
    (number : Int) (color : Option Color)
    (start finish relation handle : Handle) (atStart atFinish : Role)
    (old : Content) :
    (tie number color [(start, atStart), (finish, atFinish)]).effectOn
        relation handle old =
      if handle = finish then
        (if handle = start then
          old.mapNote fun note => { note with tieNext := some relation }
        else old).mapNote fun note =>
          { note with tiePrevious := some relation }
      else
        if handle = start then
          old.mapNote fun note => { note with tieNext := some relation }
        else old := by
  simp only [effectOn]
  split <;> split <;> cases old <;> rfl

end Content

namespace Model

/--
The members in a list joined a relation in this order, and every object has what
`effect` makes of it.
-/
structure Enrolls
    (relation : Handle) (members : Members)
    (effect : Handle → Content → Content)
    (before after : Model) : Prop where
  root : after.root = before.root
  get? : ∀ handle, after.get? handle =
    (before.get? handle).map fun object =>
      { object with
        content :=
          if handle = relation then
            object.content.mapMembers fun earlier => earlier ++ members
          else effect handle object.content
        relations :=
          object.relations ++
            List.replicate ((members.map Prod.fst).count handle) relation }

theorem get?_includeMember
    {model : Model} {relation : Handle} {earlier : Members}
    (related : model.members? relation = some earlier)
    (member : Handle) (role : Role) (handle : Handle) :
    (model.includeMember relation member role).get? handle =
      (model.get? handle).map fun object =>
        { object with
          content :=
            if handle = relation then
              object.content.mapMembers fun members =>
                members ++ [(member, role)]
            else object.content
          relations :=
            if handle = member then object.relations ++ [relation]
            else object.relations } := by
  simp only [includeMember, related, get?_modify, get?_modifyContent]
  by_cases isMember : handle = member
  · simp only [isMember, if_true, Option.map_map]
    rfl
  · simp [isMember]

namespace Enrolls

variable {relation : Handle} {members : Members}
variable {effect : Handle → Content → Content} {before after : Model}

theorem size (enrolled : Enrolls relation members effect before after) :
    after.size = before.size := by
  have sameEnd : ∀ handle, before.size ≤ handle ↔ after.size ≤ handle := by
    intro handle
    rw [← get?_eq_none_iff, ← get?_eq_none_iff, enrolled.get? handle]
    simp
  exact Nat.le_antisymm
    ((sameEnd before.size).mp (Nat.le_refl _))
    ((sameEnd after.size).mpr (Nat.le_refl _))

/-- The relation is still one. -/
theorem members?
    (enrolled : Enrolls relation members effect before after)
    {earlier : Members} (related : before.members? relation = some earlier) :
    after.members? relation = some (earlier ++ members) := by
  simp only [Model.members?, Model.content?, Option.bind_eq_some_iff,
    Option.map_eq_some_iff] at related ⊢
  obtain ⟨content, ⟨object, found, rfl⟩, listed⟩ := related
  refine ⟨object.content.mapMembers fun earlier => earlier ++ members,
    ⟨_, by rw [enrolled.get? relation, found]; rfl, by simp⟩, ?_⟩
  simp [listed]

theorem none (model : Model) (relation : Handle) :
    Enrolls relation [] (fun _ content => content) model model := by
  refine ⟨rfl, fun handle => ?_⟩
  rcases found : model.get? handle with _ | object
  · rfl
  · simp [Content.mapMembers_self]

/-- One more member joins. -/
theorem join
    (enrolled : Enrolls relation members effect before after)
    {earlier : Members} (related : before.members? relation = some earlier)
    (member : Handle) (role : Role) :
    Enrolls relation (members ++ [(member, role)]) effect before
      (after.includeMember relation member role) := by
  have stillRelated := enrolled.members? related
  constructor
  · rw [← enrolled.root]
    simp [includeMember, stillRelated, modifyContent, modify]
  · intro handle
    rw [get?_includeMember stillRelated, enrolled.get? handle,
      Option.map_map]
    congr 1
    funext object
    have counted :
        ((members ++ [(member, role)]).map Prod.fst).count handle =
          (members.map Prod.fst).count handle +
            if handle = member then 1 else 0 := by
      rw [List.map_append, List.count_append, List.map_singleton]
      by_cases isMember : handle = member
      · simp [isMember]
      · simp [isMember, Ne.symm isMember]
    simp only [Function.comp_apply, counted]
    by_cases isRelation : handle = relation
    · by_cases isMember : handle = member
      · simp only [if_pos isRelation, if_pos isMember,
          Content.mapMembers_mapMembers, List.append_assoc,
          List.replicate_succ']
      · simp only [if_pos isRelation, if_neg isMember,
          Content.mapMembers_mapMembers, List.append_assoc, Nat.add_zero]
    · by_cases isMember : handle = member
      · simp only [if_neg isRelation, if_pos isMember,
          List.append_assoc, List.replicate_succ']
      · simp only [if_neg isRelation, if_neg isMember, Nat.add_zero]

/-- An object other than the relation is changed. -/
theorem modifyContent
    (enrolled : Enrolls relation members effect before after)
    {changed : Handle} (other : changed ≠ relation)
    (change : Content → Content) :
    Enrolls relation members
      (fun handle content =>
        if handle = changed then change (effect handle content)
        else effect handle content)
      before (after.modifyContent changed change) := by
  constructor
  · exact enrolled.root
  · intro handle
    rw [get?_modifyContent, enrolled.get? handle, Option.map_map]
    congr 1
    funext object
    simp only [Function.comp_apply]
    by_cases isChanged : handle = changed
    · have isOther : handle ≠ relation := isChanged ▸ other
      simp only [if_pos isChanged, if_neg isOther]
    · simp only [if_neg isChanged]

/-- The effect may be described in another way. -/
theorem congr
    (enrolled : Enrolls relation members effect before after)
    {described : Handle → Content → Content}
    (same : ∀ handle content, effect handle content = described handle content) :
    Enrolls relation members described before after := by
  have equal : effect = described := by
    funext handle content
    exact same handle content
  exact equal ▸ enrolled

end Enrolls

end Model

/-- Where one object was added after all others, the model is larger by one. -/
theorem Model.size_of_get?
    {before after : Model} {new : Object} {change : Handle → Object → Object}
    (found : ∀ handle, after.get? handle =
      if handle = before.size then some new
      else (before.get? handle).map (change handle)) :
    after.size = before.size + 1 := by
  have sameEnd : ∀ handle, after.size ≤ handle ↔ before.size + 1 ≤ handle := by
    intro handle
    rw [← get?_eq_none_iff, found handle]
    by_cases isNew : handle = before.size
    · simp [isNew]
    · simp only [if_neg isNew, Option.map_eq_none_iff, get?_eq_none_iff]
      omega
  exact Nat.le_antisymm
    ((sameEnd _).mpr (Nat.le_refl _)) ((sameEnd _).mp (Nat.le_refl _))

namespace Draft

/--
A relation was created under a generated id, and all of its members joined it.
-/
structure Creates (content : Content) (before after : Draft) : Prop where
  ids : after.ids = before.ids.next.2
  diagnostics : after.diagnostics = before.diagnostics
  root : after.model.root = before.model.root
  get? : ∀ handle, after.model.get? handle =
    if handle = before.model.size then
      some { id := before.ids.next.1, content := content }
    else
      (before.model.get? handle).map fun object =>
        { object with
          content :=
            content.effectOn before.model.size handle object.content
          relations :=
            object.relations ++
              List.replicate (content.memberHandles.count handle)
                before.model.size }

/--
A relation is created empty, and then its members join it.  They are older than
the relation, so that it does not become a member of itself.
-/
theorem get?_of_enrolls
    {before : Draft} {after : Model} (empty : Content) (members : Members)
    {effect : Handle → Content → Content}
    (isRelation : empty.members? = some [])
    (old : ∀ entry ∈ members, entry.1 < before.model.size)
    (enrolled : Model.Enrolls before.model.size members effect
      (before.create empty).2.model after)
    (handle : Handle) :
    after.get? handle =
      if handle = before.model.size then
        some { id := before.ids.next.1
               content := empty.mapMembers fun _ => members }
      else
        (before.model.get? handle).map fun object =>
          { object with
            content := effect handle object.content
            relations :=
              object.relations ++
                List.replicate
                  ((empty.mapMembers fun _ => members).memberHandles.count handle)
                  before.model.size } := by
  rw [enrolled.get? handle]
  show Option.map _ ((before.model.add before.ids.next.1 empty).get? handle) = _
  rw [Model.get?_add]
  by_cases isNew : handle = before.model.size
  · have absent : (members.map Prod.fst).count handle = 0 := by
      rw [List.count_eq_zero]
      intro listed
      obtain ⟨entry, isEntry, equal⟩ := List.mem_map.mp listed
      exact Nat.ne_of_lt (old entry isEntry) (equal.trans isNew)
    have joined :
        empty.mapMembers (fun earlier => earlier ++ members) =
          empty.mapMembers fun _ => members := by
      cases empty <;> simp_all [Content.members?, Content.mapMembers]
    simp only [if_pos isNew, Option.map_some, absent, joined,
      List.replicate_zero, List.append_nil]
  · have listed :
        (empty.mapMembers fun _ => members).memberHandles =
          members.map Prod.fst := by
      simp [Content.memberHandles, isRelation]
    simp only [if_neg isNew, listed]

namespace Creates

variable {content : Content} {before after : Draft}

theorem size (created : Creates content before after) :
    after.model.size = before.model.size + 1 :=
  Model.size_of_get? created.get?

theorem clashes (created : Creates content before after) :
    after.clashes = before.clashes := by
  rw [Draft.clashes, Draft.clashes, created.diagnostics]

/-- A relation that was created empty and then joined by its members has the effect
of the joining and nothing else. -/
theorem of_enrolls
    (empty : Content) (members : Members)
    {effect : Handle → Content → Content}
    (isRelation : empty.members? = some [])
    (old : ∀ entry ∈ members, entry.1 < before.model.size)
    (ids : after.ids = before.ids.next.2)
    (diagnostics : after.diagnostics = before.diagnostics)
    (enrolled : Model.Enrolls before.model.size members effect
      (before.create empty).2.model after.model)
    (described : ∀ handle old, effect handle old =
      (empty.mapMembers fun _ => members).effectOn
        before.model.size handle old) :
    Creates (empty.mapMembers fun _ => members) before after := by
  constructor
  · exact ids
  · exact diagnostics
  · rw [enrolled.root]
    rfl
  · intro handle
    rw [get?_of_enrolls empty members isRelation old enrolled handle]
    simp only [described]

end Creates

end Draft

end LdpScore
