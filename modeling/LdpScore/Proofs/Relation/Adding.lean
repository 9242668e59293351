import LdpScore.Proofs.Relation.Curve
import LdpScore.Proofs.Score.Leaving

/-!
# What the builders add

A builder makes relations of its own kind and nothing else, whatever waits and
whatever stands in the model.  One lemma for each of them says so: the model
afterwards `Adds` relations of that kind.
-/

namespace LdpScore

/-! ## Making relations -/

namespace Draft

variable {word : String} {relation : Handle}

theorem adds_create (draft : Draft) (content : Content) :
    draft.model.Adds content.name (draft.create content).2.model := by
  have added : ∀ handle, (draft.create content).2.model.content? handle =
      if handle = draft.model.size then some content
      else draft.model.content? handle :=
    draft.model.content?_add draft.ids.next.1 content
  constructor
  · intro handle old found
    refine ⟨old, ?_, .refl _ old⟩
    rw [added, if_neg (Nat.ne_of_lt (Model.lt_size_of_content? found))]
    exact found
  · intro handle later outside found
    rw [added] at found
    split at found
    · cases found
      rfl
    · exact absurd (Model.lt_size_of_content? found) (Nat.not_lt.mpr outside)

theorem content?_create (draft : Draft) (content : Content) :
    (draft.create content).2.model.content? draft.model.size = some content := by
  show (draft.model.add draft.ids.next.1 content).content? _ = _
  rw [Model.content?_add, if_pos rfl]

theorem isNamed_create (draft : Draft) (content : Content) :
    (draft.create content).2.model.IsNamed content.name draft.model.size := by
  intro other found
  rw [content?_create] at found
  cases found
  rfl

theorem adds_includeMember
    {draft : Draft} (named : draft.model.IsNamed word relation)
    (member : Handle) (role : Role) :
    draft.model.Adds word (draft.includeMember relation member role).model :=
  .includeMember named member role

/-- A relation that is found when one has been created is that one, or it was there
before. -/
theorem Creates.relation_cases
    {made content : Content} {before after : Draft}
    (created : before.Creates made after) {handle : Handle}
    (found : after.model.content? handle = some content)
    (isRelation : content.members?.isSome) :
    (handle = before.model.size ∧ content = made) ∨
      before.model.content? handle = some content := by
  rw [created.content?] at found
  split at found
  · rename_i isNew
    exact Or.inl ⟨isNew, (Option.some.inj found).symm⟩
  · obtain ⟨old, isOld, rfl⟩ := Option.map_eq_some_iff.mp found
    rw [Content.members?_effectOn] at isRelation
    rw [Content.effectOn_of_members? isRelation]
    exact Or.inr isOld

/-- What adds to one relation may be done over and over. -/
theorem adds_foldl
    {Item : Type} {step : Draft → Item → Draft}
    (each : ∀ (draft : Draft) item, draft.model.IsNamed word relation →
      draft.model.Adds word (step draft item).model)
    (items : List Item) {draft : Draft}
    (named : draft.model.IsNamed word relation) :
    draft.model.Adds word (items.foldl step draft).model := by
  induction items generalizing draft with
  | nil => exact .refl word draft.model
  | cons item rest induction =>
      have first := each draft item named
      exact first.trans (induction (first.isNamed named))

/-- A relation is created, and then added to. -/
theorem adds_create_foldl
    {Item : Type} (content : Content) (named : content.name = word)
    {step : Draft → Item → Draft} (draft : Draft)
    (each : ∀ (later : Draft) item,
      later.model.IsNamed word draft.model.size →
        later.model.Adds word (step later item).model)
    (items : List Item) :
    draft.model.Adds word
      (items.foldl step (draft.create content).2).model := by
  subst named
  exact (draft.adds_create content).trans
    (adds_foldl each items (draft.isNamed_create content))

end Draft

namespace Tie

theorem adds_link
    (start finish : End) (number : Option Int) (color : Option Color)
    (draft : Draft) :
    draft.model.Adds "tie" (link start finish number color draft).model := by
  have tied : ∀ tieNumber : Int, draft.model.Adds "tie"
      (link start finish (some tieNumber) color draft).model := by
    intro tieNumber
    have created := draft.adds_create (.tie tieNumber color [])
    have named := draft.isNamed_create (.tie tieNumber color [])
    have started := Draft.adds_includeMember named start.note
      (.tie true start.bezier)
    have finished := Draft.adds_includeMember (started.isNamed named) finish.note
      (.tie false finish.bezier)
    refine created.trans (started.trans (finished.trans ?_))
    refine (Model.Adds.modifyContent _ start.note fun content _ => ?_).trans
      (Model.Adds.modifyContent _ finish.note fun content _ => ?_)
    · refine .mapTies ?_ ?_ content
      · exact fun _ => rfl
      · exact fun _ => rfl
    · refine .mapTies ?_ ?_ content
      · exact fun _ => rfl
      · exact fun _ => rfl
  cases number with
  | some given => exact tied given
  | none => exact tied (numberOfId draft.ids.next.1)

theorem adds_linkChain (chain : List TiePoint) (draft : Draft) :
    draft.model.Adds "tie" (linkChain chain draft).model := by
  unfold linkChain
  split
  · dsimp only
    split
    · exact adds_link ..
    · exact .refl _ _
  · exact .refl _ _

end Tie

theorem LegacyTie.adds_offer
    (pending : Option LegacyTie) (note : Handle) (draft : Draft) :
    draft.model.Adds "tie" (offer pending note draft).2.model := by
  unfold offer
  split
  · exact .refl _ _
  · split
    · dsimp only
      exact Tie.adds_link ..
    · split
      · exact .refl _ _
      · exact .refl _ _

theorem Slur.adds_linkChain (chain : List SlurPoint) (draft : Draft) :
    draft.model.Adds "slur" (linkChain chain draft).model := by
  have each : ∀ (later : Draft) point,
      later.model.IsNamed "slur" draft.model.size →
        later.model.Adds "slur"
          (includePoint draft.model.size later point).model := by
    intro later point named
    unfold includePoint
    split
    · exact .refl _ _
    · exact Draft.adds_includeMember named _ _
    · exact Draft.adds_includeMember named _ _
  unfold linkChain
  split
  · rename_i start finish _ _
    exact Draft.adds_create_foldl (.slur finish.number start.color []) rfl draft
      each chain
  · exact .refl _ _

theorem Beam.adds_linkChain
    (chain : List BeamPoint) (isAutomatic : Bool) (draft : Draft) :
    draft.model.Adds "beam" (linkChain chain isAutomatic draft).model := by
  have each : ∀ (later : Draft) (point : BeamPoint),
      later.model.IsNamed "beam" draft.model.size →
        later.model.Adds "beam" (later.includeMember draft.model.size
          point.noteRest (.beam point.levels)).model :=
    fun later point named => Draft.adds_includeMember named _ _
  have created : draft.model.Adds "beam" (create chain draft).2.model :=
    Draft.adds_create_foldl (.beam []) rfl draft each chain
  rw [linkChain]
  dsimp only
  split
  · refine created.trans (.modifyContent _ _ fun content found => ?_)
    exact .mapMembers (created.isNew _ content (Nat.le_refl _) found) _
  · exact created

theorem Tuplet.adds_linkChain (chain : List TupletPoint) (draft : Draft) :
    draft.model.Adds "tuplet" (linkChain chain draft).model := by
  have each : ∀ modification (later : Draft) point,
      later.model.IsNamed "tuplet" draft.model.size →
        later.model.Adds "tuplet"
          (includePoint draft.model.size modification later point).model := by
    intro modification later point named
    refine (Draft.adds_includeMember named _ _).trans
      (.modifyContent _ _ fun content _ => ?_)
    refine .mapNoteRest _ (fun noteRest => ?_) (fun noteRest => ?_)
      (fun noteRest => ?_) content
    · rw [Tuplet.modify]
      split <;> rfl
    · rw [Tuplet.modify]
      split <;> rfl
    · rw [Tuplet.modify]
      split <;> rfl
  unfold linkChain
  split
  · exact .refl _ _
  · rename_i start rest
    exact Draft.adds_create_foldl
      (.tuplet start.actual start.normal start.bracket start.display []) rfl draft
      (each start.modification) (start :: rest)

/-- A builder adds what it makes of chains. -/
theorem Pairing.adds_settleWith
    {Point : Type} [Descriptor Point] {link : List Point → Draft → Draft}
    {word : String}
    (links : ∀ chain (draft : Draft), draft.model.Adds word (link chain draft).model)
    (relation : PairedRelation) (pending : List Point) (point : Point)
    (draft : Draft) :
    draft.model.Adds word
      (settleWith link relation pending point draft).2.model := by
  rcases offer_cases pending point with
    ⟨reason, rejected⟩ | ⟨waits, _⟩ | ⟨complete, _⟩
  · rw [settleWith_of_rejected link relation draft rejected]
    exact .refl word draft.model
  · rw [settleWith_of_waiting link relation draft waits]
    exact .refl word draft.model
  · rw [settleWith_of_complete link relation draft complete]
    exact links _ draft

end LdpScore
