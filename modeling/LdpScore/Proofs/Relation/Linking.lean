import LdpScore.Proofs.Relation.Waiting
import LdpScore.Proofs.Score.Frame

/-!
# What becomes of a chain

Each builder turns a chain of descriptors into at most one relation.  Whatever the
builder, `Draft.Relates` describes the outcome: either nothing but a report, or
one new relation whose members suit it, all of them taken from the chain.
-/

namespace LdpScore

namespace Content

/-- Whether a role is one that a relation of some kind records. -/
def records : Content → Role → Bool
  | tie _ _ _, .tie _ _ => true
  | slur _ _ _, .slur _ _ => true
  | beam _, .beam _ => true
  | tuplet _ _ _ _ _, .tuplet => true
  | chord _, .chord => true
  | _, _ => false

/-- Whether an object may be a member of a relation: ties, slurs and chords have
notes, beams and tuplets also rests. -/
def admits : Content → Content → Bool
  | tie _ _ _, member => member.note?.isSome
  | slur _ _ _, member => member.note?.isSome
  | chord _, member => member.note?.isSome
  | beam _, member => member.noteRest?.isSome
  | tuplet _ _ _ _ _, member => member.noteRest?.isSome
  | _, _ => false

/-- Whether a relation may have a number of members. -/
def admitsCount : Content → Nat → Bool
  | tie _ _ _, count => count == 2
  | slur _ _ _, _ => true
  | chord _, count => 2 ≤ count
  | beam _, count => 2 ≤ count
  | tuplet _ _ _ _ _, count => 2 ≤ count
  | _, _ => false

/-- The members that a relation has from the start: of a chord only the first
two. -/
def founders : Content → List Handle
  | chord members => (members.map Prod.fst).take 2
  | content => content.memberHandles

/-- The members that join a relation later; only chords have any. -/
def joiners : Content → List Handle
  | chord members => (members.map Prod.fst).drop 2
  | _ => []

end Content

namespace Model

/-- Whether there is a note at a handle. -/
def IsNote (model : Model) (handle : Handle) : Prop :=
  (model.note? handle).isSome

/-- Whether there is a note or rest at a handle. -/
def IsNoteRest (model : Model) (handle : Handle) : Prop :=
  (model.noteRest? handle).isSome

/-- A model has suitable members for a relation with some content. -/
structure Admits (model : Model) (content : Content) : Prop where
  isRelation : content.members?.isSome
  rising : content.memberHandles.Pairwise (· < ·)
  count : content.admitsCount content.memberHandles.length
  roles : ∀ entry ∈ content.members?.getD [], content.records entry.2
  members : ∀ member ∈ content.memberHandles,
    ∃ object, model.content? member = some object ∧ content.admits object
  joiners : content.joiners = []

theorem IsNote.content
    {model : Model} {handle : Handle} (isNote : model.IsNote handle) :
    ∃ object, model.content? handle = some object ∧ object.note?.isSome := by
  simpa [IsNote, note?, Option.isSome_bind, Option.any_eq_true] using isNote

theorem IsNoteRest.content
    {model : Model} {handle : Handle}
    (isNoteRest : model.IsNoteRest handle) :
    ∃ object, model.content? handle = some object ∧
      object.noteRest?.isSome := by
  simpa [IsNoteRest, noteRest?, Option.isSome_bind, Option.any_eq_true]
    using isNoteRest

theorem IsNote.lt_size
    {model : Model} {handle : Handle} (isNote : model.IsNote handle) :
    handle < model.size := by
  obtain ⟨object, found, _⟩ := isNote.content
  exact lt_size_of_content? found

theorem IsNoteRest.lt_size
    {model : Model} {handle : Handle}
    (isNoteRest : model.IsNoteRest handle) :
    handle < model.size := by
  obtain ⟨object, found, _⟩ := isNoteRest.content
  exact lt_size_of_content? found

end Model

namespace Draft

/-- Either nothing is changed but reports, or one relation of some kind is created
from some of the objects in a list. -/
def Relates
    (kind : PairedRelation) (joining : List Handle) (before after : Draft) :
    Prop :=
  Silent before after ∨
    ∃ content, Creates content before after ∧
      before.model.Admits content ∧ content.name = kind.word ∧
      content.memberHandles ⊆ joining

namespace Relates

variable {kind : PairedRelation} {joining more : List Handle}
variable {before after : Draft}

theorem silent (silent : Silent before after) :
    Relates kind joining before after :=
  Or.inl silent

theorem mono
    (relates : Relates kind joining before after) (part : joining ⊆ more) :
    Relates kind more before after := by
  rcases relates with silent | ⟨content, created, admitted, named, listed⟩
  · exact Or.inl silent
  · exact Or.inr
      ⟨content, created, admitted, named,
        fun member isMember => part (listed isMember)⟩

theorem extendsModel (relates : Relates kind joining before after) :
    Model.Extends before.model after.model := by
  rcases relates with silent | ⟨content, created, _, named, _⟩
  · rw [silent.model]
    exact .refl before.model
  · refine created.extendsModel ?_
    rw [named]
    cases kind <;> simp [PairedRelation.word]

end Relates

/-! ## Joining one after the other -/

theorem members?_create (draft : Draft) (content : Content) :
    (draft.create content).2.model.members? draft.model.size =
      content.members? := by
  simp [create, Model.members?, Model.content?, Model.get?_add]

/-- Changes of the model one after the other are one change of the model. -/
theorem foldl_mapModel
    {Item : Type} (step : Item → Model → Model)
    (items : List Item) (draft : Draft) :
    items.foldl (fun draft item => draft.mapModel (step item)) draft =
      draft.mapModel fun model =>
        items.foldl (fun model item => step item model) model := by
  induction items generalizing draft with
  | nil => rfl
  | cons item rest induction =>
      rw [List.foldl_cons, induction]
      rfl

end Draft

/-- Members join a relation one after the other. -/
theorem Model.Enrolls.foldl_includeMember
    {relation : Handle} {earlier : Members}
    {effect : Handle → Content → Content} {before after : Model}
    (enrolled : Enrolls relation earlier effect before after)
    (members : Members) {first : Members}
    (related : before.members? relation = some first) :
    Enrolls relation (earlier ++ members) effect before
      (members.foldl
        (fun model entry => model.includeMember relation entry.1 entry.2)
        after) := by
  induction members generalizing earlier after with
  | nil =>
      rw [List.append_nil]
      exact enrolled
  | cons entry rest induction =>
      have joined := enrolled.join related entry.1 entry.2
      have finished := induction joined
      rw [List.append_assoc] at finished
      exact finished

/-- A relation that leaves no mark on its members is created with all of them. -/
theorem Draft.Creates.of_members
    (empty : Content) (members : Members) (draft : Draft)
    (isRelation : empty.members? = some [])
    (old : ∀ entry ∈ members, entry.1 < draft.model.size)
    (plain : ∀ handle old,
      old = (empty.mapMembers fun _ => members).effectOn
        draft.model.size handle old) :
    Creates (empty.mapMembers fun _ => members) draft
      ((draft.create empty).2.mapModel fun model =>
        members.foldl
          (fun model entry =>
            model.includeMember draft.model.size entry.1 entry.2)
          model) := by
  have related := draft.members?_create empty
  rw [isRelation] at related
  have enrolled :=
    (Model.Enrolls.none (draft.create empty).2.model
      draft.model.size).foldl_includeMember members related
  exact of_enrolls empty members isRelation old rfl rfl enrolled plain

namespace Pairing

variable {Point : Type} [Descriptor Point]

/-- Offers a descriptor, and makes a relation of the chain that it completes. -/
def settleWith
    (link : List Point → Draft → Draft) (relation : PairedRelation)
    (pending : List Point) (point : Point) (draft : Draft) :
    List Point × Draft :=
  match add relation pending point draft with
  | (some chain, rest, draft) => (rest, link chain draft)
  | (none, rest, draft) => (rest, draft)

/-- Who waits afterwards does not depend on what a chain is used for. -/
theorem settleWith_fst
    (link : List Point → Draft → Draft) (relation : PairedRelation)
    (pending : List Point) (point : Point) (draft : Draft) :
    (settleWith link relation pending point draft).1 =
      remaining pending point (offer pending point) := by
  rw [settleWith, add]
  cases offer pending point <;> rfl

section Outcomes

variable {pending : List Point} {point : Point}
variable (link : List Point → Draft → Draft) (relation : PairedRelation)
variable (draft : Draft)

theorem settleWith_of_rejected
    {reason : Rejection} (rejected : offer pending point = .rejected reason) :
    settleWith link relation pending point draft =
      (pending,
        draft.report (location point)
          (reason.problem relation (number point))) := by
  rw [settleWith, add, rejected]
  rfl

theorem settleWith_of_waiting (waits : offer pending point = .waiting) :
    settleWith link relation pending point draft =
      (pending ++ [point], draft) := by
  rw [settleWith, add, waits]
  rfl

theorem settleWith_of_complete
    {chain : List Point} (complete : offer pending point = .complete chain) :
    settleWith link relation pending point draft =
      (pending.filter fun other => !sameNumber point other,
        link chain draft) := by
  rw [settleWith, add, complete]
  rfl

end Outcomes

/-- What is known after a descriptor of the newest object has been settled. -/
structure Settles
    (kind : PairedRelation) (bound : Handle) (pending : List Point)
    (point : Point) (draft : Draft) (result : List Point × Draft) :
    Prop where
  waiting : Waiting (bound + 1) result.1
  members : ∀ other ∈ result.1, other ∈ pending ∨ other = point
  relates :
    Draft.Relates kind ((pending ++ [point]).map member) draft result.2

/-- Every builder settles a descriptor if it links every chain. -/
theorem settles_settleWith
    {link : List Point → Draft → Draft}
    {bound : Handle} {pending : List Point} {point : Point} {draft : Draft}
    (waiting : Waiting (bound + 1) pending)
    (newest : member point = bound) (relation : PairedRelation)
    (links : ∀ chain : List Point,
      (chain.map member).Pairwise (· < ·) → 2 ≤ chain.length →
        chain ⊆ pending ++ [point] →
          Draft.Relates relation (chain.map member) draft
            (link chain draft)) :
    Settles relation bound pending point draft
      (settleWith link relation pending point draft) := by
  have waitingAfter := waiting.offer newest
  have membersAfter : ∀ other ∈ remaining pending point (offer pending point),
      other ∈ pending ∨ other = point :=
    fun other => mem_remaining_offer
  rw [settleWith, add]
  cases outcome : offer pending point with
  | rejected reason =>
      rw [outcome] at waitingAfter membersAfter
      refine ⟨waitingAfter, membersAfter, .silent (.report _ _ ?_)⟩
      cases reason <;> simp [Rejection.problem]
  | waiting =>
      rw [outcome] at waitingAfter membersAfter
      exact ⟨waitingAfter, membersAfter, .silent (.refl draft)⟩
  | complete chain =>
      rw [outcome] at waitingAfter membersAfter
      have ordered := waiting.chain newest outcome
      have listed : chain ⊆ pending ++ [point] := by
        intro other isListed
        rcases mem_of_complete outcome isListed with old | new
        · exact List.mem_append_left _ old
        · exact List.mem_append_right _ (List.mem_singleton.mpr new)
      constructor
      · exact waitingAfter
      · exact membersAfter
      · exact (links chain ordered.1 ordered.2 listed).mono
          (List.map_subset _ listed)

end Pairing

end LdpScore
