import LdpScore.Proofs.Score.Tree
import Mathlib.Data.List.Nodup
import Mathlib.Data.List.Perm.Subperm
import Mathlib.Logic.Relation
import Mathlib.Order.WellFounded

/-!
# Scores that are built step by step

A score is built by adding objects and by moving them below others, again and again.
As long as no object moves below itself, parents and children agree and every object
has only finitely many below it, `Model.IsWoven`.  That is enough for each visit to
come to an end: what is below an object is listed in preorder, each object once.
-/

namespace LdpScore.Model

open Relation (ReflTransGen TransGen)

/-- An object is a child of another one. -/
def HasChild (model : Model) (parent child : Handle) : Prop :=
  child ∈ model.children parent

/-- An object stands below another one, on any level. -/
def HasBelow (model : Model) : Handle → Handle → Prop :=
  TransGen model.HasChild

/-- Scores that are built from nothing.  An object may be moved as often as one likes,
but neither below itself nor below an object that is below it. -/
inductive IsBuilt : Model → Prop
  | empty : IsBuilt {}
  | add {model : Model} (isBuilt : IsBuilt model) (id : Int) (content : Content) :
      IsBuilt (model.add id content)
  | appendChild {model : Model} {parent child : Handle} (isBuilt : IsBuilt model)
      (parentInside : parent < model.size) (childInside : child < model.size)
      (noCycle : ¬ ReflTransGen model.HasChild child parent) :
      IsBuilt (model.appendChild parent child)

/-- Parents and children agree, and there is no way down without an end. -/
structure IsWoven (model : Model) : Prop where
  count_children : ∀ parent child, (model.children parent).count child =
    if model.parent? child = some parent then 1 else 0
  founded : WellFounded (flip model.HasChild)

/-! ## What moves where -/

section Changes

variable {model : Model}

theorem parent?_modify_of_same
    (changed : Handle) {change : Object → Object}
    (same : ∀ object, (change object).parent = object.parent) (handle : Handle) :
    (model.modify changed change).parent? handle = model.parent? handle := by
  rw [parent?, parent?, get?_modify]
  split
  · cases model.get? handle with
    | none => rfl
    | some object => exact same object
  · rfl

theorem children_modify
    (changed : Handle) {change : Object → Object} (edit : List Handle → List Handle)
    (edits : ∀ object, (change object).children = edit object.children)
    (inside : changed < model.size) (handle : Handle) :
    (model.modify changed change).children handle =
      if handle = changed then edit (model.children handle)
      else model.children handle := by
  rw [children_eq_getD, children_eq_getD, get?_modify]
  split
  case isFalse => rfl
  case isTrue isChanged =>
    obtain ⟨object, found⟩ := exists_get?_of_lt_size (isChanged ▸ inside)
    rw [found]
    exact edits object

theorem parent?_detach (child handle : Handle) :
    (model.detach child).parent? handle = model.parent? handle := by
  rw [detach]
  split
  · exact parent?_modify_of_same _ (fun _ => by rfl) handle
  · rfl

theorem parent?_appendChild
    {child : Handle} (inside : child < model.size) (parent handle : Handle) :
    (model.appendChild parent child).parent? handle =
      if handle = child then some parent else model.parent? handle := by
  rw [appendChild, parent?_modify_of_same parent (fun _ => by rfl), parent?, get?_modify]
  split
  case isTrue isChild =>
    rw [isChild, Option.bind_map]
    obtain ⟨object, found⟩ :=
      exists_get?_of_lt_size (inside.trans_eq (size_detach model child).symm)
    rw [found]
    rfl
  case isFalse => exact parent?_detach child handle

theorem parent?_add (id : Int) (content : Content) (handle : Handle) :
    (model.add id content).parent? handle = model.parent? handle := by
  by_cases isNew : handle = model.size
  · rw [isNew, parent?_add_size, parent?_of_size_le (Nat.le_refl _)]
  · rw [parent?, parent?, get?_add, if_neg isNew]

theorem children_add (id : Int) (content : Content) (handle : Handle) :
    (model.add id content).children handle = model.children handle := by
  rw [children_eq_getD, get?_add]
  split
  case isTrue isNew =>
    rw [isNew, children_of_size_le (Nat.le_refl _)]
    rfl
  case isFalse => rw [children_eq_getD]

end Changes

namespace IsWoven

variable {model : Model}

theorem mem_children_iff (isWoven : model.IsWoven) {parent child : Handle} :
    child ∈ model.children parent ↔ model.parent? child = some parent := by
  rw [← List.count_pos_iff, isWoven.count_children]
  split <;> simp [*]

theorem nodup_children (isWoven : model.IsWoven) (parent : Handle) :
    (model.children parent).Nodup := by
  refine List.nodup_iff_count_le_one.mpr fun child => ?_
  rw [isWoven.count_children]
  split <;> simp

theorem not_hasBelow_self (isWoven : model.IsWoven) (handle : Handle) :
    ¬ model.HasBelow handle handle := fun isBelow =>
  isWoven.founded.transGen.irrefl.irrefl handle (Relation.transGen_swap.mpr isBelow)

theorem children_detach (isWoven : model.IsWoven) (child handle : Handle) :
    (model.detach child).children handle =
      (model.children handle).filter (· != child) := by
  have stays : model.parent? child ≠ some handle →
      (model.children handle).filter (· != child) = model.children handle := by
    intro other
    refine List.filter_eq_self.mpr fun sibling isSibling => bne_iff_ne.mpr ?_
    rintro rfl
    exact other (isWoven.mem_children_iff.mp isSibling)
  rw [detach]
  split
  case h_1 previous isParent =>
    have inside : previous < model.size := by
      rw [← Nat.not_le]
      intro outside
      have isChild := isWoven.mem_children_iff.mpr isParent
      rw [children_of_size_le outside] at isChild
      cases isChild
    rw [children_modify previous (List.filter (· != child)) (fun _ => by rfl) inside]
    split
    · rfl
    · exact (stays fun isOther => ‹handle ≠ previous›
        (Option.some.inj (isOther.symm.trans isParent))).symm
  case h_2 noParent => exact (stays (by simp [noParent])).symm

theorem children_appendChild
    (isWoven : model.IsWoven) {parent : Handle} (inside : parent < model.size)
    (child handle : Handle) :
    (model.appendChild parent child).children handle =
      (model.children handle).filter (· != child) ++
        if handle = parent then [child] else [] := by
  have moved : ∀ handle, ((model.detach child).modify child fun object =>
      { object with parent := some parent }).children handle =
        (model.children handle).filter (· != child) := by
    intro handle
    rw [← isWoven.children_detach, children_eq_getD, children_eq_getD, get?_modify]
    split
    · rw [Option.map_map]
      rfl
    · rfl
  rw [appendChild, children_modify parent (· ++ [child]) (fun _ => by rfl)
    (by simpa using inside), moved]
  split <;> simp

theorem empty : IsWoven {} where
  count_children _ _ := rfl
  founded := ⟨fun _ => .intro _ fun _ isChild => absurd isChild List.not_mem_nil⟩

theorem add (isWoven : model.IsWoven) (id : Int) (content : Content) :
    (model.add id content).IsWoven := by
  have sameChildren : (model.add id content).HasChild = model.HasChild := by
    funext parent child
    rw [HasChild, children_add, HasChild]
  constructor
  case count_children =>
    intro parent child
    rw [children_add, parent?_add, isWoven.count_children]
  case founded => exact sameChildren ▸ isWoven.founded

/-- An object that does not move below itself leaves no way down without an end: below
it all is as before, and elsewhere it is the only way that is new. -/
theorem appendChild
    (isWoven : model.IsWoven) {parent child : Handle}
    (parentInside : parent < model.size) (childInside : child < model.size)
    (noCycle : ¬ ReflTransGen model.HasChild child parent) :
    (model.appendChild parent child).IsWoven := by
  have hasChild : ∀ {above below},
      (model.appendChild parent child).HasChild above below →
        model.HasChild above below ∨ (above = parent ∧ below = child) := by
    intro above below isChild
    rw [HasChild, isWoven.children_appendChild parentInside, List.mem_append] at isChild
    refine isChild.imp (fun isOld => List.mem_of_mem_filter isOld) fun isNew => ?_
    split at isNew
    · exact ⟨‹_›, List.mem_singleton.mp isNew⟩
    · cases isNew
  have belowChild : ∀ handle, ReflTransGen model.HasChild child handle →
      Acc (flip (model.appendChild parent child).HasChild) handle := by
    intro handle
    induction handle using isWoven.founded.induction with
    | _ handle induction =>
      refine fun isBelow => .intro _ fun below isChild => ?_
      rcases hasChild isChild with isOld | ⟨rfl, _⟩
      · exact induction below isOld (isBelow.tail isOld)
      · exact absurd isBelow noCycle
  constructor
  case count_children =>
    intro above below
    rw [isWoven.children_appendChild parentInside, List.count_append,
      parent?_appendChild childInside]
    by_cases isMoved : below = child
    · have isGone : ((model.children above).filter (· != child)).count below = 0 := by
        refine List.count_eq_zero.mpr fun stays => ?_
        simpa [isMoved] using (List.mem_filter.mp stays).2
      rw [isGone, if_pos isMoved, isMoved, Nat.zero_add]
      by_cases isParent : above = parent
      · simp [isParent]
      · simp [isParent, Ne.symm isParent]
    · have stays : ((model.children above).filter (· != child)).count below =
          (model.children above).count below :=
        List.count_filter (by simpa using isMoved)
      have notNew : (if above = parent then [child] else []).count below = 0 := by
        refine List.count_eq_zero.mpr fun isNew => isMoved ?_
        split at isNew
        · exact List.mem_singleton.mp isNew
        · cases isNew
      rw [stays, notNew, if_neg isMoved, isWoven.count_children, Nat.add_zero]
  case founded =>
    refine ⟨fun handle => ?_⟩
    induction handle using isWoven.founded.induction with
    | _ handle induction =>
      refine .intro _ fun below isChild => ?_
      rcases hasChild isChild with isOld | ⟨_, rfl⟩
      · exact induction below isOld
      · exact belowChild _ .refl

end IsWoven

theorem IsBuilt.isWoven {model : Model} (isBuilt : model.IsBuilt) : model.IsWoven := by
  induction isBuilt with
  | empty => exact .empty
  | add _ id content isWoven => exact isWoven.add id content
  | appendChild _ parentInside childInside noCycle isWoven =>
      exact isWoven.appendChild parentInside childInside noCycle

/-- What is older than its children cannot be below itself. -/
theorem Arranged.isWoven {tops : List Handle} {model : Model}
    (arranged : Arranged tops model) : model.IsWoven where
  count_children := arranged.count_children
  founded := by
    refine Subrelation.wf (r := InvImage (· < ·) fun handle => model.size - handle)
      (fun {child parent} isChild => ?_) (InvImage.wf _ Nat.lt_wfRel.wf)
    have below : model.parent? child = some parent := arranged.mem_children_iff.mp isChild
    have younger : parent < child := arranged.lt_of_parent? below
    have inside : child < model.size :=
      lt_size_of_isElement (arranged.isElement_of_parent? below)
    exact Nat.sub_lt_sub_left (Nat.lt_trans younger inside) younger

/-! ## What is listed in a forest -/

namespace Forest

variable {model : Model} {parent : Option Handle} {tops listed : List Handle}

theorem mem_iff (forest : model.Forest parent tops listed) {handle : Handle} :
    handle ∈ listed ↔ ∃ top ∈ tops, ReflTransGen model.HasChild top handle := by
  induction forest with
  | nil parent => simp
  | @cons parent first rest below others _ _ _ inner outer =>
      have fromFirst : handle = first ∨ handle ∈ below ↔
          ReflTransGen model.HasChild first handle := by
        rw [inner, Relation.ReflTransGen.cases_head_iff, eq_comm]
        rfl
      rw [List.mem_cons, List.mem_append, ← or_assoc, fromFirst, outer,
        List.exists_mem_cons_iff]

/-- In a score without cycles no object is listed twice. -/
theorem nodup
    (forest : model.Forest parent tops listed) (isWoven : model.IsWoven)
    (distinct : tops.Nodup) : listed.Nodup := by
  induction forest with
  | nil parent => exact .nil
  | @cons parent first rest below others isChild inner outer ofInner ofOuter =>
      obtain ⟨notLater, distinctRest⟩ := List.nodup_cons.mp distinct
      -- Parents are unique, so of two objects above a third one the first is above
      -- the second or the other way round; but tops are not above one another.
      have apart : ∀ {above other}, ReflTransGen model.HasChild above other →
          model.parent? above = parent → model.parent? other = parent →
            above = other := by
        intro above other isAbove aboveTop otherTop
        rcases Relation.ReflTransGen.cases_tail_iff .. |>.mp isAbove with
          same | ⟨middle, isAbove, isLast⟩
        · exact same.symm
        · have isParent := isWoven.mem_children_iff.mp isLast
          have first := isWoven.mem_children_iff.mpr
            (aboveTop.trans (otherTop.symm.trans isParent))
          exact absurd (TransGen.head' first isAbove) (isWoven.not_hasBelow_self middle)
      have unique : Relator.RightUnique (Function.swap model.HasChild) := by
        intro child above other isAbove isOther
        exact Option.some.inj ((isWoven.mem_children_iff.mp isAbove).symm.trans
          (isWoven.mem_children_iff.mp isOther))
      have noCommon : ∀ handle, ReflTransGen model.HasChild first handle →
          handle ∉ others := by
        intro handle fromFirst isOther
        obtain ⟨top, isTop, fromTop⟩ := outer.mem_iff.mp isOther
        have topChild := outer.parent? isTop
        refine notLater ?_
        rcases ReflTransGen.total_of_right_unique unique
            (Relation.reflTransGen_swap.mpr fromFirst)
            (Relation.reflTransGen_swap.mpr fromTop) with isAbove | isAbove
        · exact apart (Relation.reflTransGen_swap.mp isAbove) topChild isChild ▸ isTop
        · exact (apart (Relation.reflTransGen_swap.mp isAbove) isChild topChild).symm ▸
            isTop
      have fromFirst : ∀ {handle}, handle ∈ below → model.HasBelow first handle := by
        intro handle isBelow
        obtain ⟨child, isChild, isAbove⟩ := inner.mem_iff.mp isBelow
        exact TransGen.head' isChild isAbove
      rw [List.nodup_cons, List.mem_append, not_or, List.nodup_append']
      refine ⟨⟨fun isBelow => ?_, noCommon first .refl⟩,
        ofInner (isWoven.nodup_children first), ofOuter distinctRest, ?_⟩
      · exact isWoven.not_hasBelow_self first (fromFirst isBelow)
      · exact fun handle isBelow =>
          noCommon handle (fromFirst isBelow).to_reflTransGen

end Forest

/-! ## Visits -/

/-- A visit of the objects on a stack, one after another: the object on top is taken
and its children are put in its place, until nothing is left. -/
inductive Visits (model : Model) : List Handle → List Handle → Prop
  | done : Visits model [] []
  | next {current : Handle} {stack found : List Handle}
      (later : Visits model (model.children current ++ stack) found) :
      Visits model (current :: stack) (current :: found)

theorem Forest.visits
    {model : Model} {parent : Option Handle} {tops listed stack found : List Handle}
    (forest : model.Forest parent tops listed) (later : model.Visits stack found) :
    model.Visits (tops ++ stack) (listed ++ found) := by
  induction forest generalizing stack found with
  | nil parent => exact later
  | @cons parent first rest below others _ _ _ inner outer =>
      rw [List.cons_append, List.cons_append, List.append_assoc]
      exact .next (inner (outer later))

/-- Some objects with one parent stand in a forest, if each of them has its own. -/
theorem exists_forest
    {model : Model} {parent : Option Handle} {tops : List Handle}
    (each : ∀ top ∈ tops, model.parent? top = parent ∧
      ∃ below, model.Forest (some top) (model.children top) below) :
    ∃ listed, model.Forest parent tops listed := by
  induction tops with
  | nil => exact ⟨[], .nil parent⟩
  | cons first rest induction =>
      obtain ⟨⟨isChild, below, inner⟩, each⟩ := List.forall_mem_cons.mp each
      obtain ⟨others, outer⟩ := induction each
      exact ⟨_, .cons isChild inner outer⟩

/-- What is to be said about the trees of a score: parents and children agree, no
object is below itself, and what is below an object is visited in preorder until
nothing is left, each object once. -/
structure StandsInTrees (model : Model) : Prop where
  count_children : ∀ parent child, (model.children parent).count child =
    if model.parent? child = some parent then 1 else 0
  not_hasBelow_self : ∀ handle, ¬ model.HasBelow handle handle
  forest : ∀ handle,
    model.Forest (some handle) (model.children handle) (model.descendants handle)
  visits : ∀ handle,
    model.Visits (model.children handle) (model.descendants handle)
  nodup : ∀ handle, (handle :: model.descendants handle).Nodup
  mem_descendants : ∀ handle below,
    below ∈ model.descendants handle ↔ model.HasBelow handle below

namespace IsWoven

variable {model : Model}

theorem exists_below (isWoven : model.IsWoven) (handle : Handle) :
    ∃ below, model.Forest (some handle) (model.children handle) below := by
  induction handle using isWoven.founded.induction with
  | _ handle induction =>
    exact exists_forest fun child isChild =>
      ⟨isWoven.mem_children_iff.mp isChild, induction child isChild⟩

theorem mem_iff_hasBelow
    {handle : Handle} {below : List Handle}
    (forest : model.Forest (some handle) (model.children handle) below)
    (other : Handle) : other ∈ below ↔ model.HasBelow handle other := by
  rw [forest.mem_iff, HasBelow, TransGen.head'_iff]
  rfl

theorem lt_size_of_hasBelow
    (isWoven : model.IsWoven) {handle other : Handle}
    (isBelow : model.HasBelow handle other) : other < model.size := by
  obtain ⟨above, _, isChild⟩ := TransGen.tail'_iff.mp isBelow
  have isParent := isWoven.mem_children_iff.mp isChild
  rw [← Nat.not_le]
  intro outside
  rw [parent?_of_size_le outside] at isParent
  cases isParent

theorem length_le_of_nodup
    {listed : List Handle} (distinct : listed.Nodup)
    (inside : ∀ handle ∈ listed, handle < model.size) : listed.length ≤ model.size := by
  have part : listed ⊆ model.handles := fun handle isListed =>
    List.mem_range.mpr (inside handle isListed)
  simpa [handles] using (List.subperm_of_subset distinct part).length_le

/-- The objects of the score are budget enough to visit all that is below one. -/
theorem length_le_size
    (isWoven : model.IsWoven) {handle : Handle} {below : List Handle}
    (forest : model.Forest (some handle) (model.children handle) below) :
    below.length ≤ model.size := by
  refine length_le_of_nodup (forest.nodup isWoven (isWoven.nodup_children handle)) ?_
  exact fun other isBelow =>
    isWoven.lt_size_of_hasBelow ((mem_iff_hasBelow forest other).mp isBelow)

theorem descendants_eq
    (isWoven : model.IsWoven) {handle : Handle} {below : List Handle}
    (forest : model.Forest (some handle) (model.children handle) below) :
    model.descendants handle = below := by
  have visited := forest.visit (model.size - below.length) []
  rw [Nat.add_sub_of_le (isWoven.length_le_size forest), List.append_nil] at visited
  rw [descendants, visited]
  cases model.size - below.length <;> rw [visit, List.append_nil]

theorem forest_descendants (isWoven : model.IsWoven) (handle : Handle) :
    model.Forest (some handle) (model.children handle) (model.descendants handle) := by
  obtain ⟨below, forest⟩ := isWoven.exists_below handle
  exact (isWoven.descendants_eq forest).symm ▸ forest

theorem standsInTrees (isWoven : model.IsWoven) : model.StandsInTrees := by
  have forest := isWoven.forest_descendants
  constructor
  case count_children => exact isWoven.count_children
  case not_hasBelow_self => exact isWoven.not_hasBelow_self
  case forest => exact forest
  case visits =>
    intro handle
    have visits := (forest handle).visits .done
    rwa [List.append_nil, List.append_nil] at visits
  case nodup =>
    intro handle
    have distinct := (forest handle).nodup isWoven (isWoven.nodup_children handle)
    refine List.nodup_cons.mpr ⟨fun isBelow => ?_, distinct⟩
    exact isWoven.not_hasBelow_self handle
      ((mem_iff_hasBelow (forest handle) handle).mp isBelow)
  case mem_descendants => exact fun handle => mem_iff_hasBelow (forest handle)

end IsWoven

end LdpScore.Model
