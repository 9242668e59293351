import LdpScore.Analysis.ScoreOption
import Mathlib.Data.List.Basic
import Mathlib.Data.List.Induction
import Mathlib.Data.List.Nodup

/-!
# The options of a score

The options of a score are entered one declaration after the other: an option that
is there already takes the new value where it stands, and a new one comes last.  So
each name stands where it was first declared, with the value declared last.

What an element declares can be read off it alone.  It is refused if it has no value,
an unknown name, or a value that cannot be read.
-/

namespace LdpScore

/-- The options of a score, in order. -/
abbrev ScoreOptions := List (String × OptionValue)

namespace ScoreOptions

/-- The options after one more declaration. -/
def enter (options : ScoreOptions) (declaration : String × OptionValue) : ScoreOptions :=
  if declaration.1 ∈ options.map Prod.fst then
    options.map fun option => if option.1 = declaration.1 then declaration else option
  else options ++ [declaration]

/-- The options after some declarations. -/
def enterAll (options : ScoreOptions) (declarations : List (String × OptionValue)) :
    ScoreOptions :=
  declarations.foldl enter options

theorem names_enter (options : ScoreOptions) (declaration : String × OptionValue) :
    (options.enter declaration).map Prod.fst =
      if declaration.1 ∈ options.map Prod.fst then options.map Prod.fst
      else options.map Prod.fst ++ [declaration.1] := by
  rw [enter]
  split
  · rw [List.map_map]
    refine List.map_congr_left fun option _ => ?_
    rw [Function.comp_apply]
    split
    · rename_i same
      exact same.symm
    · rfl
  · rw [List.map_append]
    rfl

theorem nodup_names_enter
    {options : ScoreOptions} (distinct : (options.map Prod.fst).Nodup)
    (declaration : String × OptionValue) :
    ((options.enter declaration).map Prod.fst).Nodup := by
  rw [names_enter]
  split
  · exact distinct
  · rename_i isNew
    rw [← List.concat_eq_append]
    exact distinct.concat isNew

theorem lookup_map_replace
    (options : ScoreOptions) (declaration : String × OptionValue) (name : String) :
    List.lookup name (options.map fun option =>
        if option.1 = declaration.1 then declaration else option) =
      if name = declaration.1 then
        (List.lookup name options).map fun _ => declaration.2
      else List.lookup name options := by
  induction options with
  | nil => split <;> rfl
  | cons option rest induction =>
      obtain ⟨own, value⟩ := option
      obtain ⟨declared, new⟩ := declaration
      rw [List.map_cons]
      by_cases isOwn : name = own
      · subst isOwn
        by_cases isDeclared : name = declared
        · subst isDeclared
          simp
        · simp [isDeclared]
      · have other : (name == own) = false := beq_false_of_ne isOwn
        by_cases isDeclared : own = declared
        · subst isDeclared
          rw [if_pos rfl, List.lookup_cons, other, List.lookup_cons, other]
          exact induction
        · rw [if_neg isDeclared, List.lookup_cons, other, List.lookup_cons, other]
          exact induction

theorem lookup_enter
    (options : ScoreOptions) (declaration : String × OptionValue) (name : String) :
    List.lookup name (options.enter declaration) =
      if name = declaration.1 then some declaration.2
      else List.lookup name options := by
  rw [enter]
  split
  · rename_i isOld
    rw [lookup_map_replace]
    split
    · rename_i same
      obtain ⟨option, listed, isOption⟩ := List.mem_map.mp isOld
      have found : (List.lookup name options).isSome :=
        List.lookup_isSome_iff.mpr
          ⟨option, listed, beq_iff_eq.mpr (same.trans isOption.symm)⟩
      obtain ⟨value, isValue⟩ := Option.isSome_iff_exists.mp found
      rw [isValue]
      rfl
    · rfl
  · rename_i isNew
    rw [List.lookup_append, List.lookup_cons]
    by_cases same : name = declaration.1
    · have nothing : List.lookup name options = none := by
        rw [List.lookup_eq_none_iff]
        intro option listed
        rw [bne_iff_ne, same]
        exact fun isOption => isNew (List.mem_map.mpr ⟨option, listed, isOption.symm⟩)
      rw [nothing, Option.none_or, if_pos same, same, beq_self_eq_true]
    · rw [if_neg same, beq_false_of_ne same, List.lookup_nil, Option.or_none]

theorem enterAll_concat
    (options : ScoreOptions) (declarations : List (String × OptionValue))
    (declaration : String × OptionValue) :
    options.enterAll (declarations ++ [declaration]) =
      (options.enterAll declarations).enter declaration :=
  List.foldl_append

/-- Each name stands where it was first declared. -/
theorem names_enterAll (declarations : List (String × OptionValue)) :
    (enterAll [] declarations).map Prod.fst =
      (declarations.map Prod.fst).eraseDups := by
  induction declarations using List.reverseRecOn with
  | nil => rfl
  | append_singleton declarations declaration induction =>
      rw [enterAll_concat, names_enter, induction, List.map_append,
        List.eraseDups_append]
      split
      · rename_i isOld
        rw [List.mem_eraseDups] at isOld
        have removed : (List.map Prod.fst [declaration]).removeAll
            (declarations.map Prod.fst) = [] := by
          simp [List.removeAll, isOld]
        rw [removed, List.eraseDups_nil, List.append_nil]
      · rename_i isNew
        rw [List.mem_eraseDups] at isNew
        have kept : (List.map Prod.fst [declaration]).removeAll
            (declarations.map Prod.fst) = [declaration.1] := by
          simp [List.removeAll, isNew]
        rw [kept]
        rfl

/-- The value of a name is the one declared last. -/
theorem lookup_enterAll
    (declarations : List (String × OptionValue)) (name : String) :
    List.lookup name (enterAll [] declarations) =
      List.lookup name declarations.reverse := by
  induction declarations using List.reverseRecOn with
  | nil => rfl
  | append_singleton declarations declaration induction =>
      rw [enterAll_concat, lookup_enter, induction, List.reverse_concat,
        List.lookup_cons]
      by_cases same : name = declaration.1
      · rw [if_pos same, same, beq_self_eq_true]
      · rw [if_neg same, beq_false_of_ne same]

/-- An option that is entered is one that was declared. -/
theorem mem_of_mem_enter
    {options : ScoreOptions} {declaration option : String × OptionValue}
    (listed : option ∈ options.enter declaration) :
    option = declaration ∨ option ∈ options := by
  rw [enter] at listed
  split at listed
  · obtain ⟨old, isOld, rfl⟩ := List.mem_map.mp listed
    split
    · exact Or.inl rfl
    · exact Or.inr isOld
  · rcases List.mem_append.mp listed with isOld | isNew
    · exact Or.inr isOld
    · exact Or.inl (List.mem_singleton.mp isNew)

theorem mem_of_mem_enterAll
    {declarations : List (String × OptionValue)} {option : String × OptionValue}
    (listed : option ∈ enterAll [] declarations) :
    option ∈ declarations := by
  induction declarations using List.reverseRecOn with
  | nil => exact listed
  | append_singleton declarations declaration induction =>
      rw [enterAll_concat] at listed
      rcases mem_of_mem_enter listed with rfl | isOld
      · exact List.mem_append_right _ List.mem_cons_self
      · exact List.mem_append_left _ (induction isOld)

end ScoreOptions

/-! ## Declarations -/

/-- The type of an option value. -/
def OptionValue.type : OptionValue → OptionType
  | bool _ => .bool
  | long _ => .long
  | float _ => .float

theorem OptionType.type_of_read?
    {type : OptionType} {text : String} {value : OptionValue}
    (isRead : type.read? text = some value) :
    value.type = type := by
  cases type with
  | bool =>
      unfold OptionType.read? at isRead
      dsimp only at isRead
      split at isRead <;> cases isRead <;> rfl
  | long =>
      obtain ⟨number, _, rfl⟩ := Option.map_eq_some_iff.mp isRead
      rfl
  | float =>
      obtain ⟨number, _, rfl⟩ := Option.map_eq_some_iff.mp isRead
      rfl

/-- An option with a current name and a value of the type that its name asks for. -/
structure IsTypedOption (option : String × OptionValue) : Prop where
  type : OptionType.ofName? option.1 = some option.2.type
  isCurrent : OptionValue.successor? option.1 = none

theorem OptionValue.isTypedOption_modernize
    {name : String} {value : OptionValue}
    (type : OptionType.ofName? name = some value.type) :
    IsTypedOption (modernize name value) := by
  rw [modernize]
  cases isOld : successor? name with
  | none => exact ⟨type, isOld⟩
  | some successor =>
      unfold successor? at isOld
      split at isOld <;> cases isOld
      · constructor
        · dsimp only
          split <;> rfl
        · rfl
      · constructor
        · dsimp only
          split <;> rfl
        · rfl

namespace Node

open Analyser (take? optionValueNode?)

/-- What the element of an option declares, or the report that it is refused with. -/
def declare (node : Node) : Except Diagnostic (String × OptionValue) :=
  let (label, rest) := take? .label node.children
  let name := (label.map Node.text).getD ""
  match optionValueNode? rest with
  | none => .error ⟨.missingOptionValue name, node.location⟩
  | some (valueNode, _) =>
      match OptionType.ofName? name with
      | none => .error ⟨.unknownOption name, valueNode.location⟩
      | some type =>
          match type.read? valueNode.text with
          | none => .error ⟨.invalidOptionValue name, valueNode.location⟩
          | some value => .ok (OptionValue.modernize name value)

/-- What the element of an option declares, unless it is refused. -/
def declared? (node : Node) : Option (String × OptionValue) :=
  node.declare.toOption

/-- The report that the element of an option is refused with. -/
def refusal? (node : Node) : Option Diagnostic :=
  match node.declare with
  | .error refusal => some refusal
  | .ok _ => none

theorem isTypedOption_of_declared?
    {node : Node} {option : String × OptionValue}
    (isDeclared : node.declared? = some option) :
    IsTypedOption option := by
  unfold declared? declare at isDeclared
  dsimp only at isDeclared
  split at isDeclared
  · cases isDeclared
  · split at isDeclared
    · cases isDeclared
    · rename_i type isType
      split at isDeclared
      · cases isDeclared
      · rename_i value isRead
        cases isDeclared
        rw [← OptionType.type_of_read? isRead] at isType
        exact OptionValue.isTypedOption_modernize isType

end Node

end LdpScore
