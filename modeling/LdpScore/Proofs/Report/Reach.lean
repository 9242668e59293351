import LdpScore.Analysis
import LdpScore.Proofs.Analysis.Quiet

/-!
# Elements that are read to their end

An element whose analyser looks at every child reports those that it cannot use.
`Node.readsOn` says which elements are read like this.  A path leads from an
element to one below it, and as long as it leads through such elements, each of
them hands its child to the analyser of that child.  If nothing is reported, then
every element on the way has only children of known kinds: it is `Sound`.
-/

namespace LdpScore

open Analyser

/-! ## Which children are handed on -/

/-- Whether elements of a kind have an analyser. -/
def ElementKind.isAnalysed (kind : ElementKind) : Bool :=
  (analyserOf? kind none).isSome

/-- Whether the analyser of a kind leaves children unread and unreported. -/
def ElementKind.leavesRest : ElementKind → Bool
  | .language | .cursor | .version | .staves | .tie | .slur | .beam => true
  | _ => false

/-- Whether elements of a kind hand none of their children on. -/
def ElementKind.isClosed (kind : ElementKind) : Bool :=
  !kind.isAnalysed || kind.leavesRest && !(kind == .tie || kind == .slur)

namespace Node

def isAnalysed (node : Node) : Bool :=
  node.kind?.any ElementKind.isAnalysed

/-- Whether an element ends a tuplet.  Nothing after its label is read. -/
def endsTuplet (node : Node) : Bool :=
  node.is .tuplet && labelText? (take? .number node.children).2 == some "-"

/-- Whether the analyser of an element looks at all of its children. -/
def readsOn (node : Node) : Bool :=
  node.isAnalysed && !(node.kind?.any ElementKind.leavesRest) && !node.endsTuplet

/-- Whether an element is a tie or a slur. -/
def isCurve (node : Node) : Bool :=
  node.is .tie || node.is .slur

/-- Which children of a tie or slur are handed on: a curve and a color, right after
the number and the label. -/
def curveHandsOn : List Node → Nat → Bool
  | _ :: _ :: first :: _, 2 => first.is .bezier || first.is .color
  | _ :: _ :: first :: second :: _, 3 => first.is .bezier && second.is .color
  | _, _ => false

/-- Whether an element about which nothing is reported hands its child at some index
to the analyser of that child, if there is one. -/
def handsOn (node : Node) (index : Nat) : Bool :=
  node.readsOn || node.isCurve && curveHandsOn node.children index

/-- The element at the end of a path, if its analyser comes to it on the way from
the root. -/
def analysedAt? (node : Node) : List Nat → Option Node
  | [] => if node.isAnalysed then some node else none
  | index :: path =>
      if node.handsOn index then
        node.children[index]?.bind fun child => child.analysedAt? path
      else none

/-- A tree with one more child after the last one of the element at the end of a
path. -/
def appendAt (extra : Node) : List Nat → Node → Node
  | _, leaf kind text location => leaf kind text location
  | [], element name id children location =>
      element name id (children ++ [extra]) location
  | index :: path, element name id children location =>
      element name id (children.modify index (appendAt extra path)) location

/-- No element that is analysed and read to its end has a child of unknown kind. -/
def Sound (node : Node) : Prop :=
  ∀ path inner, node.analysedAt? path = some inner → inner.readsOn →
    ∀ child ∈ inner.children, child.kind?.isSome

/-- A child has been taken for what it is. -/
structure IsRead (child : Node) : Prop where
  known : child.kind?.isSome
  sound : child.Sound

/-! ## Sound elements -/

theorem isAnalysed_of_readsOn {node : Node} (readsOn : node.readsOn) :
    node.isAnalysed :=
  (Bool.and_eq_true_iff.mp (Bool.and_eq_true_iff.mp readsOn).1).1

theorem isAnalysed_of_is {node : Node} {kind : ElementKind} (isKind : node.is kind) :
    node.isAnalysed = kind.isAnalysed := by
  rw [isAnalysed, eq_of_beq isKind]
  rfl

theorem leavesRest_of_is {node : Node} {kind : ElementKind} (isKind : node.is kind) :
    node.kind?.any ElementKind.leavesRest = kind.leavesRest := by
  rw [eq_of_beq isKind]
  rfl

/-- The child at the end of the first step of a path is one of the children. -/
theorem exists_child_of_analysedAt?
    {node inner : Node} {index : Nat} {path : List Nat}
    (reached : node.analysedAt? (index :: path) = some inner) :
    node.handsOn index ∧ ∃ child, node.children[index]? = some child ∧
      child.analysedAt? path = some inner := by
  rw [analysedAt?] at reached
  split at reached
  case isTrue hands => exact ⟨hands, Option.bind_eq_some_iff.mp reached⟩
  case isFalse => cases reached

/-- An element is sound if its children are read, as far as it hands them on. -/
theorem sound_of_handsOn
    {node : Node} (known : node.readsOn → ∀ child ∈ node.children, child.kind?.isSome)
    (sound : ∀ index child, node.handsOn index → node.children[index]? = some child →
      child.Sound) : node.Sound := by
  intro path inner reached readsOn
  cases path with
  | nil =>
      rw [analysedAt?] at reached
      split at reached
      case isTrue =>
        obtain rfl := Option.some.inj reached
        exact known readsOn
      case isFalse => cases reached
  | cons index path =>
      obtain ⟨hands, child, isChild, reached⟩ := exists_child_of_analysedAt? reached
      exact sound index child hands isChild path inner reached readsOn

theorem sound_of_children {node : Node} (areRead : ∀ child ∈ node.children, child.IsRead) :
    node.Sound :=
  sound_of_handsOn (fun _ child isChild => (areRead child isChild).known)
    fun _ child _ isChild => (areRead child (List.mem_of_getElem? isChild)).sound

/-- An element that hands nothing on is sound. -/
theorem sound_of_not_handsOn {node : Node} (readsNot : node.readsOn = false)
    (isNoCurve : node.isCurve = false) : node.Sound := by
  refine sound_of_handsOn (fun readsOn => ?_) fun index child hands => ?_
  · rw [readsNot] at readsOn
    cases readsOn
  · rw [handsOn, readsNot, isNoCurve, Bool.false_and, Bool.or_false] at hands
    cases hands

theorem isCurve_of_is {node : Node} {kind : ElementKind} (isKind : node.is kind) :
    node.isCurve = (kind == .tie || kind == .slur) := by
  rw [isCurve, is, is, eq_of_beq isKind]
  rfl

/-- An element of a kind that hands nothing on is sound. -/
theorem sound_of_isClosed {node : Node} {kind : ElementKind} (isKind : node.is kind)
    (closed : kind.isClosed = true) : node.Sound := by
  refine sound_of_not_handsOn ?_ ?_
  · rw [readsOn, isAnalysed_of_is isKind, leavesRest_of_is isKind]
    rcases Bool.or_eq_true_iff.mp closed with plain | leaves
    · rw [Bool.not_eq_eq_eq_not.mp plain, Bool.not_true, Bool.false_and, Bool.false_and]
    · rw [(Bool.and_eq_true_iff.mp leaves).1, Bool.not_true, Bool.and_false,
        Bool.false_and]
  · rw [isCurve_of_is isKind, Bool.eq_false_iff]
    intro isCurve
    rcases Bool.or_eq_true_iff.mp isCurve with isTie | isSlur
    · rw [beq_iff_eq.mp isTie] at closed
      cases closed
    · rw [beq_iff_eq.mp isSlur] at closed
      cases closed

theorem IsRead.of_is {node : Node} {kind : ElementKind} (isKind : node.is kind)
    (sound : node.Sound) : node.IsRead := by
  refine ⟨?_, sound⟩
  rw [eq_of_beq isKind]
  rfl

/-- A child of a kind that hands nothing on is read when it is taken. -/
theorem IsRead.of_closed {node : Node} {kind : ElementKind} (isKind : node.is kind)
    (closed : kind.isClosed = true) : node.IsRead :=
  .of_is isKind (sound_of_isClosed isKind closed)

theorem IsRead.leaf (kind : LeafKind) (text : String) (location : Location) :
    (Node.leaf kind text location).IsRead := by
  have isKind : (Node.leaf kind text location).is kind.elementKind := beq_self_eq_true _
  refine .of_closed isKind ?_
  cases kind <;> rfl

/-- A tie or slur is sound if its curve and its color are. -/
theorem sound_of_curve
    {node number label : Node} {rest : List Node} (isCurve : node.isCurve)
    (isChildren : node.children = number :: label :: rest)
    (bezier : ∀ child, (take? .bezier rest).1 = some child → child.Sound)
    (color : ∀ child, (take? .color (take? .bezier rest).2).1 = some child →
      child.Sound) : node.Sound := by
  have readsNot : node.readsOn = false := by
    rcases Bool.or_eq_true_iff.mp isCurve with isTie | isSlur
    · rw [readsOn, leavesRest_of_is isTie]
      simp [ElementKind.leavesRest]
    · rw [readsOn, leavesRest_of_is isSlur]
      simp [ElementKind.leavesRest]
  refine sound_of_handsOn (fun readsOn => ?_) fun index child hands isChild => ?_
  · rw [readsNot] at readsOn
    cases readsOn
  · rw [handsOn, readsNot, isCurve, Bool.false_or, Bool.true_and, isChildren] at hands
    rw [isChildren] at isChild
    unfold curveHandsOn at hands
    split at hands
    case h_1 first others same =>
      obtain ⟨-, -, rfl⟩ : _ = _ ∧ _ = _ ∧ rest = first :: others := by simpa using same
      obtain rfl := Option.some.inj isChild
      by_cases isBezier : first.is .bezier
      · exact bezier first (by rw [take?, if_pos isBezier])
      · have isColor := (Bool.or_eq_true_iff.mp hands).resolve_left isBezier
        exact color first (by rw [take?, if_neg isBezier, take?, if_pos isColor])
    case h_2 first second others same =>
      obtain ⟨-, -, rfl⟩ : _ = _ ∧ _ = _ ∧ rest = first :: second :: others := by
        simpa using same
      obtain rfl := Option.some.inj isChild
      obtain ⟨isBezier, isColor⟩ := Bool.and_eq_true_iff.mp hands
      exact color second (by rw [take?, if_pos isBezier, take?, if_pos isColor])
    case h_3 => cases hands

/-! ## One more child -/

section Append

variable {extra : Node}

theorem kind?_appendAt (extra : Node) (path : List Nat) (node : Node) :
    (appendAt extra path node).kind? = node.kind? := by
  cases node <;> cases path <;> rfl

theorem text_appendAt (extra : Node) (path : List Nat) (node : Node) :
    (appendAt extra path node).text = node.text := by
  cases node <;> cases path <;> rfl

theorem is_appendAt (extra : Node) (path : List Nat) (node : Node) (kind : ElementKind) :
    (appendAt extra path node).is kind = node.is kind := by
  rw [is, is, kind?_appendAt]

/-- A child of unknown kind is never taken. -/
theorem is_of_unknown (unknown : extra.kind? = none) (kind : ElementKind) :
    extra.is kind = false := by
  rw [is, unknown]
  rfl

theorem labelText?_append (unknown : extra.kind? = none) (children : List Node) :
    labelText? (children ++ [extra]) = labelText? children := by
  cases children with
  | nil =>
      rw [List.nil_append, labelText?, take?, if_neg (by rw [is_of_unknown unknown]; decide)]
      rfl
  | cons first rest =>
      rw [List.cons_append, labelText?, labelText?, take?, take?]
      split <;> rfl

/-- After a number has been taken or not, the next child may be a label. -/
theorem tupletLabel_append (unknown : extra.kind? = none) (children : List Node) :
    labelText? (take? .number (children ++ [extra])).2 =
      labelText? (take? .number children).2 := by
  cases children with
  | nil =>
      have notTaken : take? .number [extra] = (none, [extra]) := by
        rw [take?, is_of_unknown unknown]
        rfl
      rw [List.nil_append, notTaken]
      exact labelText?_append unknown []
  | cons first rest =>
      rw [List.cons_append, take?, take?]
      split
      · exact labelText?_append unknown rest
      · exact labelText?_append unknown (first :: rest)

theorem labelText?_modify (extra : Node) (path : List Nat) (index : Nat)
    (children : List Node) :
    labelText? (children.modify index (appendAt extra path)) = labelText? children := by
  cases children with
  | nil => rw [List.modify_nil]
  | cons first rest =>
      cases index with
      | zero =>
          rw [List.modify_zero_cons, labelText?, labelText?, take?, take?, is_appendAt]
          split
          · exact congrArg some (text_appendAt ..)
          · rfl
      | succ index =>
          rw [List.modify_succ_cons, labelText?, labelText?, take?, take?]
          split <;> rfl

theorem tupletLabel_modify (extra : Node) (path : List Nat) (index : Nat)
    (children : List Node) :
    labelText? (take? .number (children.modify index (appendAt extra path))).2 =
      labelText? (take? .number children).2 := by
  cases children with
  | nil => rw [List.modify_nil]
  | cons first rest =>
      cases index with
      | zero =>
          have modified := labelText?_modify extra path 0 (first :: rest)
          rw [List.modify_zero_cons] at modified ⊢
          rw [take?, take?, is_appendAt]
          split
          · rfl
          · exact modified
      | succ index =>
          have modified := labelText?_modify extra path (index + 1) (first :: rest)
          rw [List.modify_succ_cons] at modified ⊢
          rw [take?, take?]
          split
          · exact labelText?_modify extra path index rest
          · exact modified

/-- An element is read to its end or not, whatever stands below its children. -/
theorem readsOn_congr
    {name : String} {id : Option Int} {children others : List Node} {location : Location}
    (same : labelText? (take? .number others).2 = labelText? (take? .number children).2) :
    (element name id others location).readsOn =
      (element name id children location).readsOn := by
  have sameStop : (element name id others location).endsTuplet =
      (element name id children location).endsTuplet := by
    rw [endsTuplet, endsTuplet]
    exact congrArg (fun text => _ && text == some "-") same
  rw [readsOn, readsOn, sameStop]
  rfl

/-- A child is handed on or not, whatever stands below it. -/
theorem handsOn_modify (extra : Node) (path : List Nat) (index : Nat)
    (name : String) (id : Option Int) (children : List Node) (location : Location) :
    (element name id (children.modify index (appendAt extra path)) location).handsOn index =
      (element name id children location).handsOn index := by
  have sameCurve : curveHandsOn (children.modify index (appendAt extra path)) index =
      curveHandsOn children index := by
    rcases children with _ | ⟨_, _ | ⟨_, _ | ⟨_, _ | ⟨_, _⟩⟩⟩⟩ <;>
      rcases index with _ | _ | _ | _ | _ <;> simp [curveHandsOn, is_appendAt]
  rw [handsOn, handsOn, readsOn_congr (tupletLabel_modify extra path index children)]
  exact congrArg (fun hands => _ || _ && hands) sameCurve

/-- The path to an element still leads there when the element has got one more
child. -/
theorem analysedAt?_appendAt
    {node inner : Node} {path : List Nat} (reached : node.analysedAt? path = some inner) :
    (appendAt extra path node).analysedAt? path = some (appendAt extra [] inner) := by
  induction path generalizing node with
  | nil =>
      rw [analysedAt?] at reached
      split at reached
      case isTrue isAnalysed =>
        obtain rfl := Option.some.inj reached
        rw [analysedAt?, Node.isAnalysed, kind?_appendAt, ← Node.isAnalysed,
          if_pos isAnalysed]
      case isFalse => cases reached
  | cons index path induction =>
      obtain ⟨hands, child, isChild, below⟩ := exists_child_of_analysedAt? reached
      cases node with
      | leaf kind text location => cases isChild
      | element name id children location =>
          rw [appendAt, analysedAt?, handsOn_modify, if_pos hands]
          show ((children.modify index (appendAt extra path))[index]?).bind _ = _
          rw [List.getElem?_modify_eq, show children[index]? = some child from isChild]
          exact induction below

theorem isAnalysed_leaf (kind : LeafKind) (text : String) (location : Location) :
    (leaf kind text location).isAnalysed = false := by
  cases kind <;> rfl

/-- Junk in an element that is read to its end makes a tree unsound. -/
theorem not_sound_appendAt
    {node inner : Node} {path : List Nat} (reached : node.analysedAt? path = some inner)
    (readsOn : inner.readsOn) (unknown : extra.kind? = none) :
    ¬ (appendAt extra path node).Sound := by
  intro sound
  cases inner with
  | leaf kind text location =>
      have isAnalysed := isAnalysed_of_readsOn readsOn
      rw [isAnalysed_leaf] at isAnalysed
      cases isAnalysed
  | element name id children location =>
      have known := sound path _ (analysedAt?_appendAt reached)
        ((readsOn_congr (tupletLabel_append unknown children)).trans readsOn) extra
        (List.mem_append_right _ List.mem_cons_self)
      rw [unknown] at known
      cases known

end Append

end Node

end LdpScore
