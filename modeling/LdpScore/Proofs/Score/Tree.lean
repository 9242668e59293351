import LdpScore.Proofs.Score.Growth

/-!
# The tree of a score

Apart from relations, the objects of a score stand in trees.  `Model.Forest` lists
what stands in some trees, each object before those below it.

While a text is analysed the score `Grows` below an anchor: the trees that are new
become the last ones there, and their objects are listed in the order in which they
were created.  A score that comes from nothing in this way is `Arranged`.
-/

namespace LdpScore.Model

/-- Whether an object stands in a tree.  All but relations do. -/
def isElement (model : Model) (handle : Handle) : Bool :=
  (model.content? handle).any fun content => content.members?.isNone

/-- What stands in the trees from a handle on, in the order of creation. -/
def elementsFrom (model : Model) (start : Nat) : List Handle :=
  (List.range' start (model.size - start)).filter model.isElement

theorem lt_size_of_isElement
    {model : Model} {handle : Handle} (isElement : model.isElement handle) :
    handle < model.size := by
  obtain ⟨content, found, _⟩ := (Option.any_eq_true ..).mp isElement
  exact lt_size_of_content? found

/-- What is no relation stands in a tree. -/
theorem isElement_eq_isNone
    {model : Model} {handle : Handle} (inside : handle < model.size) :
    model.isElement handle = (model.members? handle).isNone := by
  obtain ⟨object, found⟩ := exists_get?_of_lt_size inside
  rw [isElement, members?, content?, found]
  rfl

theorem children_eq_getD (model : Model) (handle : Handle) :
    model.children handle =
      ((model.get? handle).map Object.children).getD [] := by
  rw [children]
  cases model.get? handle <;> rfl

section Outside

variable {model : Model} {handle : Handle}

theorem isElement_of_size_le (outside : model.size ≤ handle) :
    model.isElement handle = false := by
  rw [← Bool.not_eq_true]
  exact fun isElement =>
    Nat.not_lt.mpr outside (lt_size_of_isElement isElement)

theorem parent?_of_size_le (outside : model.size ≤ handle) :
    model.parent? handle = none := by
  rw [parent?, get?_eq_none_iff.mpr outside]
  rfl

theorem children_of_size_le (outside : model.size ≤ handle) :
    model.children handle = [] := by
  rw [children, get?_eq_none_iff.mpr outside]

end Outside

@[simp]
theorem mem_elementsFrom {model : Model} {start handle : Nat} :
    handle ∈ model.elementsFrom start ↔
      start ≤ handle ∧ model.isElement handle := by
  rw [elementsFrom, List.mem_filter, List.mem_range'_1]
  refine and_congr_left fun isElement => ?_
  have inside : handle < model.size := lt_size_of_isElement isElement
  omega

theorem pairwise_elementsFrom (model : Model) (start : Nat) :
    (model.elementsFrom start).Pairwise (· < ·) :=
  List.Pairwise.filter _ List.pairwise_lt_range'

/-- What there was comes before what is new. -/
theorem elementsFrom_append
    {before after : Model} {start : Nat} (inside : start ≤ before.size)
    (grown : before.size ≤ after.size)
    (same : ∀ handle < before.size,
      after.isElement handle = before.isElement handle) :
    after.elementsFrom start =
      before.elementsFrom start ++ after.elementsFrom before.size := by
  have split : List.range' start (after.size - start) =
      List.range' start (before.size - start) ++
        List.range' before.size (after.size - before.size) := by
    have between : before.size = start + (before.size - start) := by omega
    have whole : after.size - start =
        (before.size - start) + (after.size - before.size) := by omega
    rw [whole, ← List.range'_append_1, ← between]
  rw [elementsFrom, split, List.filter_append]
  congr 1
  refine List.filter_congr fun handle listed => same handle ?_
  have bounds := List.mem_range'_1.mp listed
  omega

/-- What stands in a tree comes before what is newer. -/
theorem elementsFrom_eq_cons
    {model : Model} {handle : Nat} (isElement : model.isElement handle) :
    model.elementsFrom handle = handle :: model.elementsFrom (handle + 1) := by
  have inside : handle < model.size := lt_size_of_isElement isElement
  have count : model.size - handle = model.size - (handle + 1) + 1 := by omega
  rw [elementsFrom, count, List.range'_succ, List.filter_cons_of_pos isElement]
  rfl

/-! ## Trees -/

/-- Some trees stand below a parent, and these are their objects, each before those
below it. -/
inductive Forest (model : Model) :
    Option Handle → List Handle → List Handle → Prop where
  | nil (parent : Option Handle) : Forest model parent [] []
  | cons {parent : Option Handle} {first : Handle}
      {rest below others : List Handle}
      (isChild : model.parent? first = parent)
      (inner : Forest model (some first) (model.children first) below)
      (outer : Forest model parent rest others) :
      Forest model parent (first :: rest) (first :: (below ++ others))

namespace Forest

variable {model : Model} {parent : Option Handle} {tops listed : List Handle}

theorem append
    {moreTops more : List Handle} (forest : model.Forest parent tops listed)
    (further : model.Forest parent moreTops more) :
    model.Forest parent (tops ++ moreTops) (listed ++ more) := by
  induction forest with
  | nil parent => exact further
  | cons isChild inner _ _ induction =>
      rw [List.cons_append, List.cons_append, List.append_assoc]
      exact .cons isChild inner (induction further)

/-- Trees stay as long as their objects keep their parents and children. -/
theorem congr
    {after : Model} (forest : model.Forest parent tops listed)
    (parents : ∀ handle ∈ listed,
      after.parent? handle = model.parent? handle)
    (kept : ∀ handle ∈ listed,
      after.children handle = model.children handle) :
    after.Forest parent tops listed := by
  induction forest with
  | nil parent => exact .nil parent
  | @cons parent first rest below others isChild _ _ inner outer =>
      obtain ⟨atFirst, atRest⟩ := List.forall_mem_cons.mp parents
      obtain ⟨childrenKept, restKept⟩ := List.forall_mem_cons.mp kept
      rw [List.forall_mem_append] at atRest restKept
      refine .cons (atFirst.trans isChild) ?_ (outer atRest.2 restKept.2)
      rw [childrenKept]
      exact inner atRest.1 restKept.1

/-- A visit of the trees lists their objects. -/
theorem visit
    (forest : model.Forest parent tops listed) (budget : Nat)
    (stack : List Handle) :
    model.visit (listed.length + budget) (tops ++ stack) =
      listed ++ model.visit budget stack := by
  induction forest generalizing budget stack with
  | nil parent => rw [List.length_nil, Nat.zero_add, List.nil_append]; rfl
  | @cons parent first rest below others _ _ _ inner outer =>
      have spent : (first :: (below ++ others)).length + budget =
          (below.length + (others.length + budget)) + 1 := by
        rw [List.length_cons, List.length_append]
        omega
      rw [spent, List.cons_append, Model.visit, inner, outer,
        List.cons_append, List.append_assoc]

theorem sublist (forest : model.Forest parent tops listed) :
    tops.Sublist listed := by
  induction forest with
  | nil parent => exact .slnil
  | cons _ _ _ _ outer =>
      exact (outer.trans (List.sublist_append_right ..)).cons_cons _

theorem parent?
    (forest : model.Forest parent tops listed) {top : Handle}
    (isTop : top ∈ tops) :
    model.parent? top = parent := by
  induction forest with
  | nil parent => cases isTop
  | cons isChild _ _ _ outer =>
      rcases List.mem_cons.mp isTop with rfl | later
      · exact isChild
      · exact outer later

/-- Below each object of some trees there are trees again. -/
theorem exists_below
    (forest : model.Forest parent tops listed) {handle : Handle}
    (isListed : handle ∈ listed) :
    ∃ below, model.Forest (some handle) (model.children handle) below ∧
      (handle :: below).Sublist listed := by
  induction forest with
  | nil parent => cases isListed
  | @cons parent first rest below others _ inner _ ofInner ofOuter =>
      rcases List.mem_cons.mp isListed with rfl | later
      · exact ⟨below, inner, (List.sublist_append_left ..).cons_cons _⟩
      · rcases List.mem_append.mp later with isBelow | isOther
        · obtain ⟨own, forest, part⟩ := ofInner isBelow
          exact ⟨own, forest,
            (part.trans (List.sublist_append_left ..)).cons _⟩
        · obtain ⟨own, forest, part⟩ := ofOuter isOther
          exact ⟨own, forest,
            (part.trans (List.sublist_append_right ..)).cons _⟩

/-- Each object of some trees is a top or a child of another one. -/
theorem isTop_or_isChild
    (forest : model.Forest parent tops listed) {handle : Handle}
    (isListed : handle ∈ listed) :
    handle ∈ tops ∨ ∃ above ∈ listed, handle ∈ model.children above := by
  induction forest with
  | nil parent => cases isListed
  | @cons parent first rest below others _ _ _ inner outer =>
      have isFirst : first ∈ first :: (below ++ others) := List.mem_cons_self ..
      rcases List.mem_cons.mp isListed with rfl | later
      · exact Or.inl (List.mem_cons_self ..)
      · rcases List.mem_append.mp later with isBelow | isOther
        · rcases inner isBelow with isChild | ⟨above, isAbove, isChild⟩
          · exact Or.inr ⟨first, isFirst, isChild⟩
          · exact Or.inr ⟨above, List.mem_cons_of_mem _
              (List.mem_append_left _ isAbove), isChild⟩
        · rcases outer isOther with isTop | ⟨above, isAbove, isChild⟩
          · exact Or.inl (List.mem_cons_of_mem _ isTop)
          · exact Or.inr ⟨above, List.mem_cons_of_mem _
              (List.mem_append_right _ isAbove), isChild⟩

end Forest

/-! ## Scores from nothing -/

/-- The objects of a score stand in trees, listed in the order of creation, and
relations stand apart. -/
structure Arranged (tops : List Handle) (model : Model) : Prop where
  forest : model.Forest none tops (model.elementsFrom 0)
  apart : ∀ handle, model.isElement handle = false →
    model.parent? handle = none ∧ model.children handle = []

namespace Arranged

variable {tops : List Handle} {model : Model}

theorem isElement_of_parent?
    (arranged : Arranged tops model) {child parent : Handle}
    (below : model.parent? child = some parent) :
    model.isElement child := by
  rw [← Bool.not_eq_false]
  intro isRelation
  rw [(arranged.apart child isRelation).1] at below
  cases below

/-- An object is a child of its parent. -/
theorem mem_children_iff
    (arranged : Arranged tops model) {child parent : Handle} :
    child ∈ model.children parent ↔ model.parent? child = some parent := by
  constructor
  · intro isChild
    cases isElement : model.isElement parent with
    | false =>
        rw [(arranged.apart parent isElement).2] at isChild
        cases isChild
    | true =>
        obtain ⟨_, inner, _⟩ := arranged.forest.exists_below
          (mem_elementsFrom.mpr ⟨Nat.zero_le _, isElement⟩)
        exact inner.parent? isChild
  · intro below
    have isElement := arranged.isElement_of_parent? below
    rcases arranged.forest.isTop_or_isChild
        (mem_elementsFrom.mpr ⟨Nat.zero_le _, isElement⟩) with
      isTop | ⟨above, isAbove, isChild⟩
    · rw [arranged.forest.parent? isTop] at below
      cases below
    · obtain ⟨_, inner, _⟩ := arranged.forest.exists_below isAbove
      rw [inner.parent? isChild] at below
      cases below
      exact isChild

/-- The children of an object are in order, and they are younger. -/
theorem pairwise_children (arranged : Arranged tops model) (parent : Handle) :
    (parent :: model.children parent).Pairwise (· < ·) := by
  cases isElement : model.isElement parent with
  | false =>
      rw [(arranged.apart parent isElement).2]
      exact List.pairwise_singleton ..
  | true =>
      obtain ⟨below, inner, part⟩ := arranged.forest.exists_below
        (mem_elementsFrom.mpr ⟨Nat.zero_le _, isElement⟩)
      exact (model.pairwise_elementsFrom 0).sublist
        ((inner.sublist.cons_cons _).trans part)

theorem count_children
    (arranged : Arranged tops model) (parent child : Handle) :
    (model.children parent).count child =
      if model.parent? child = some parent then 1 else 0 := by
  have distinct : (model.children parent).Nodup :=
    (List.pairwise_cons.mp (arranged.pairwise_children parent)).2.imp
      Nat.ne_of_lt
  split
  · rename_i below
    exact distinct.count.trans (if_pos (arranged.mem_children_iff.mpr below))
  · rename_i other
    exact List.count_eq_zero.mpr fun isChild =>
      other (arranged.mem_children_iff.mp isChild)

theorem lt_of_parent?
    (arranged : Arranged tops model) {child parent : Handle}
    (below : model.parent? child = some parent) :
    parent < child :=
  (List.pairwise_cons.mp (arranged.pairwise_children parent)).1 child
    (arranged.mem_children_iff.mpr below)

/-- Only tops and relations have no parent. -/
theorem parent?_eq_none_iff
    (arranged : Arranged tops model) {handle : Handle} :
    model.parent? handle = none ↔
      handle ∈ tops ∨ model.isElement handle = false := by
  constructor
  · intro noParent
    rw [Classical.or_iff_not_imp_right]
    intro isElement
    rw [Bool.not_eq_false] at isElement
    refine (arranged.forest.isTop_or_isChild (mem_elementsFrom.mpr
      ⟨Nat.zero_le _, isElement⟩)).resolve_right ?_
    rintro ⟨above, _, isChild⟩
    rw [arranged.mem_children_iff.mp isChild] at noParent
    cases noParent
  · rintro (isTop | isRelation)
    · exact arranged.forest.parent? isTop
    · exact (arranged.apart handle isRelation).1

/-- What is below the only top are all other objects that stand in a tree. -/
theorem cons_descendants
    {root : Handle} (arranged : Arranged [root] model) :
    root :: model.descendants root = model.elementsFrom 0 := by
  generalize isListed : model.elementsFrom 0 = listed
  have forest := isListed ▸ arranged.forest
  have small : listed.length ≤ model.size := by
    rw [← isListed, elementsFrom]
    exact Nat.le_trans (List.length_filter_le ..) (by simp)
  cases forest with
  | @cons _ _ _ below _ _ inner outer =>
      cases outer
      rw [List.append_nil] at small ⊢
      have visited := inner.visit (model.size - below.length) []
      rw [Nat.add_sub_of_le (Nat.le_of_succ_le small), List.append_nil] at visited
      rw [descendants, visited]
      cases model.size - below.length <;> rw [visit, List.append_nil]

/-- Below the only top come all other objects of the tree in the order of
creation. -/
theorem descendants_eq_filter
    {root : Handle} (arranged : Arranged [root] model) :
    model.descendants root = model.handles.filter fun handle =>
      handle != root && (model.members? handle).isNone := by
  have ordered : (root :: model.descendants root).Pairwise (· < ·) := by
    rw [arranged.cons_descendants]
    exact model.pairwise_elementsFrom 0
  have others : ∀ handle ∈ model.descendants root, (handle != root) = true :=
    fun handle isBelow =>
      bne_iff_ne.mpr (Nat.ne_of_gt ((List.pairwise_cons.mp ordered).1 _ isBelow))
  calc
    model.descendants root
      = (root :: model.descendants root).filter (· != root) := by
        rw [List.filter_cons_of_neg (by simp), List.filter_eq_self.mpr others]
    _ = (model.handles.filter model.isElement).filter (· != root) := by
        rw [arranged.cons_descendants, elementsFrom, handles,
          List.range_eq_range']
        rfl
    _ = model.handles.filter fun handle =>
          handle != root && (model.members? handle).isNone := by
        rw [List.filter_filter]
        refine List.filter_congr fun handle listed => ?_
        rw [isElement_eq_isNone (List.mem_range.mp listed)]

end Arranged

end LdpScore.Model
