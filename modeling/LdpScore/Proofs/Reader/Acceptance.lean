import LdpScore.Proofs.Reader.Symbol
import LdpScore.Token.Lexer

/-!
# The grammar of elements

An element is an opening parenthesis, a label, items and a closing parenthesis; an
item is a label, a number, a text or an element.  `IsElement` and `AreItems` say so
of lists of tokens, with a bound on how many elements are nested.  Reading accepts
exactly the elements whose nesting is within the limit, and then the tree says what
the tokens say.
-/

namespace LdpScore

/-- Whether a token is an item by itself. -/
def Token.isLeaf : Token → Bool
  | .label _ => true
  | .number _ => true
  | .quoted _ => true
  | _ => false

namespace Node

mutual

/-- Tokens that are one element, with at most so many elements nested. -/
inductive IsElement : Nat → List LexedToken → Prop
  | enclose {depth : Nat} {opening tag closing : LexedToken} {name : String}
      {items : List LexedToken}
      (opens : opening.result = .ok .parenLeft)
      (isTag : tag.result = .ok (.label name))
      (areItems : AreItems depth items)
      (closes : closing.result = .ok .parenRight) :
      IsElement (depth + 1) (opening :: tag :: (items ++ [closing]))

/-- Tokens that are items, with at most so many elements nested in each. -/
inductive AreItems : Nat → List LexedToken → Prop
  | none {depth : Nat} : AreItems depth []
  | leaf {depth : Nat} {token : LexedToken} {word : Token} {rest : List LexedToken}
      (isWord : token.result = .ok word) (isLeaf : word.isLeaf = true)
      (areItems : AreItems depth rest) : AreItems depth (token :: rest)
  | element {depth : Nat} {first rest : List LexedToken}
      (isElement : IsElement depth first) (areItems : AreItems depth rest) :
      AreItems depth (first ++ rest)

end

namespace State

/-! ## Steps of the reader -/

theorem step_start_of_opens
    {token : LexedToken} (opens : token.result = .ok .parenLeft) :
    start.step token = .ok (opened token.location []) := by
  simp [step, opens]

theorem step_opened_of_label
    {token : LexedToken} {tag : String} (isTag : token.result = .ok (.label tag))
    (location : Location) (outer : List Frame) :
    (opened location outer).step token =
      .ok (inside ⟨tagName tag, tagId? tag, location, []⟩ outer) := by
  simp [step, isTag]

theorem step_inside_of_opens
    {token : LexedToken} (opens : token.result = .ok .parenLeft) (frame : Frame)
    {outer : List Frame} (shallow : outer.length + 1 < maxDepth) :
    (inside frame outer).step token =
      .ok (opened token.location (frame :: outer)) := by
  simp [step, opens, Nat.not_le.mpr shallow]

theorem step_inside_of_closes
    {token : LexedToken} (closes : token.result = .ok .parenRight) (frame : Frame)
    (outer : List Frame) :
    (inside frame outer).step token =
      .ok (leave (frame.close token.location) outer) := by
  simp [step, closes]

theorem step_inside_of_isLeaf
    {token : LexedToken} {word : Token} (isWord : token.result = .ok word)
    (isLeaf : word.isLeaf = true) (frame : Frame) (outer : List Frame) :
    ∃ child : Node, (inside frame outer).step token =
      .ok (inside (frame.add child) outer) := by
  cases word with
  | parenLeft | parenRight => cases isLeaf
  | label text => exact ⟨ofLabel text token.location, by simp [step, isWord]⟩
  | number text => exact ⟨leaf .number text token.location, by simp [step, isWord]⟩
  | quoted text => exact ⟨leaf .string text token.location, by simp [step, isWord]⟩

/-- The reader goes on inside an element with an item, with an element that is not
too deep, or it leaves the element. -/
theorem step_inside_cases
    {frame : Frame} {outer : List Frame} {token : LexedToken} {next : State}
    (stepped : (inside frame outer).step token = .ok next) :
    (token.result = .ok .parenLeft ∧ outer.length + 1 < maxDepth ∧
        next = opened token.location (frame :: outer)) ∨
      (token.result = .ok .parenRight ∧
        next = leave (frame.close token.location) outer) ∨
      ∃ word child, token.result = .ok word ∧ word.isLeaf = true ∧
        next = inside (frame.add child) outer := by
  obtain ⟨result, location⟩ := token
  rcases result with _ | _ | _ | _ | _ | _
  · cases stepped
  · dsimp only [step] at stepped
    split at stepped
    · cases stepped
    · rename_i notDeep
      cases stepped
      exact .inl ⟨rfl, Nat.not_le.mp notDeep, rfl⟩
  · cases stepped
    exact .inr (.inl ⟨rfl, rfl⟩)
  all_goals
    cases stepped
    exact .inr (.inr ⟨_, _, rfl, rfl, rfl⟩)

theorem step_start_cases
    {token : LexedToken} {next : State} (stepped : start.step token = .ok next) :
    token.result = .ok .parenLeft ∧ next = opened token.location [] := by
  obtain ⟨result, location⟩ := token
  rcases result with _ | _ | _ | _ | _ | _ <;> cases stepped
  exact ⟨rfl, rfl⟩

theorem step_opened_cases
    {location : Location} {outer : List Frame} {token : LexedToken} {next : State}
    (stepped : (opened location outer).step token = .ok next) :
    ∃ tag, token.result = .ok (.label tag) ∧
      next = inside ⟨tagName tag, tagId? tag, location, []⟩ outer := by
  obtain ⟨result, _⟩ := token
  rcases result with _ | _ | _ | tag | _ | _ <;> cases stepped
  exact ⟨tag, rfl, rfl⟩

theorem step_done_ne_ok (root : Node) (token : LexedToken) (next : State) :
    (done root).step token ≠ .ok next := by
  obtain ⟨result, _⟩ := token
  rcases result with _ | _ | _ | _ | _ | _ <;> exact nofun

/-- After a whole tree nothing may follow. -/
theorem run_done_eq_ok
    {root : Node} {tokens : List LexedToken} {final : State}
    (reached : (done root).run tokens = .ok final) :
    tokens = [] ∧ final = done root := by
  cases tokens with
  | nil =>
      cases reached
      exact ⟨rfl, rfl⟩
  | cons token rest =>
      obtain ⟨next, stepped, _⟩ := run_cons_eq_ok_iff.mp reached
      exact absurd stepped (step_done_ne_ok root token next)

end State

open State

/-! ## Elements are accepted -/

/-- Tokens that open an element and then lead out of it, unless it is too deep. -/
def Leads (depth : Nat) (tokens : List LexedToken) : Prop :=
  ∃ opening rest, tokens = opening :: rest ∧ opening.result = .ok .parenLeft ∧
    ∀ outer : List Frame, outer.length + depth ≤ maxDepth →
      ∃ node, (opened opening.location outer).run rest = .ok (leave node outer)

/-- Tokens that are taken up by the element around them, unless they are too deep. -/
def Stays (depth : Nat) (tokens : List LexedToken) : Prop :=
  ∀ (frame : Frame) (outer : List Frame), outer.length + 1 + depth ≤ maxDepth →
    ∃ last, (inside frame outer).run tokens = .ok (inside last outer)

theorem Leads.enclose
    {depth : Nat} {opening tag closing : LexedToken} {name : String}
    {items : List LexedToken} (opens : opening.result = .ok .parenLeft)
    (isTag : tag.result = .ok (.label name)) (stays : Stays depth items)
    (closes : closing.result = .ok .parenRight) :
    Leads (depth + 1) (opening :: tag :: (items ++ [closing])) := by
  refine ⟨opening, _, rfl, opens, fun outer within => ?_⟩
  obtain ⟨last, reached⟩ := stays
    ⟨tagName name, tagId? name, opening.location, []⟩ outer (by omega)
  refine ⟨last.close closing.location, ?_⟩
  rw [run_cons_of_step (step_opened_of_label isTag _ _),
    run_append_of_ok reached,
    run_cons_of_step (step_inside_of_closes closes _ _), run_nil]

theorem Stays.none (depth : Nat) : Stays depth [] :=
  fun frame _ _ => ⟨frame, rfl⟩

theorem Stays.leaf
    {depth : Nat} {token : LexedToken} {word : Token} {rest : List LexedToken}
    (isWord : token.result = .ok word) (isLeaf : word.isLeaf = true)
    (stays : Stays depth rest) : Stays depth (token :: rest) := by
  intro frame outer within
  obtain ⟨child, stepped⟩ := step_inside_of_isLeaf isWord isLeaf frame outer
  rw [run_cons_of_step stepped]
  exact stays (frame.add child) outer within

theorem Stays.element
    {depth : Nat} {first rest : List LexedToken} (positive : 0 < depth)
    (leads : Leads depth first) (stays : Stays depth rest) :
    Stays depth (first ++ rest) := by
  intro frame outer within
  obtain ⟨opening, others, rfl, opens, leads⟩ := leads
  have shallow : outer.length + 1 < maxDepth := by omega
  obtain ⟨node, left⟩ := leads (frame :: outer) within
  rw [List.cons_append, run_cons_of_step (step_inside_of_opens opens frame shallow),
    run_append_of_ok left]
  exact stays (frame.add node) outer within

theorem IsElement.depth_pos
    {depth : Nat} {tokens : List LexedToken} (isElement : IsElement depth tokens) :
    0 < depth := by
  cases isElement
  exact Nat.succ_pos _

mutual

theorem IsElement.leads
    {depth : Nat} {tokens : List LexedToken} :
    IsElement depth tokens → Leads depth tokens
  | .enclose opens isTag areItems closes =>
      .enclose opens isTag areItems.stays closes

theorem AreItems.stays
    {depth : Nat} {tokens : List LexedToken} :
    AreItems depth tokens → Stays depth tokens
  | .none => .none depth
  | .leaf isWord isLeaf areItems => .leaf isWord isLeaf areItems.stays
  | .element isElement areItems =>
      .element isElement.depth_pos isElement.leads areItems.stays

end

/-! ## What is accepted is an element -/

/-- From the inside of an element a run that ends in a whole tree goes through items
to the parenthesis that closes the element. -/
theorem exists_items_of_run
    {root : Node} (tokens : List LexedToken) (frame : Frame) (outer : List Frame)
    (reached : (inside frame outer).run tokens = .ok (done root)) :
    ∃ items closing rest node, tokens = items ++ closing :: rest ∧
      AreItems (maxDepth - (outer.length + 1)) items ∧
      closing.result = .ok .parenRight ∧
      (leave node outer).run rest = .ok (done root) := by
  -- The induction is on the number of tokens: an element among the items takes up
  -- some of them before the items after it begin.
  induction sized : tokens.length using Nat.strong_induction_on
    generalizing tokens frame outer with
  | _ size induction =>
    cases tokens with
    | nil => cases reached
    | cons token tokens =>
      obtain ⟨next, stepped, reached⟩ := run_cons_eq_ok_iff.mp reached
      rcases step_inside_cases stepped with
        ⟨opens, shallow, rfl⟩ | ⟨closes, rfl⟩ | ⟨word, child, isWord, isLeaf, rfl⟩
      · cases tokens with
        | nil => cases reached
        | cons tag tokens =>
          obtain ⟨next, stepped, reached⟩ := run_cons_eq_ok_iff.mp reached
          obtain ⟨name, isTag, rfl⟩ := step_opened_cases stepped
          have fewer : tokens.length < size := by
            simp only [List.length_cons] at sized
            omega
          obtain ⟨inner, innerClosing, rest, child, rfl, areInner, innerCloses,
            reached⟩ := induction tokens.length fewer tokens _ _ reached rfl
          have fewer : rest.length < size := by
            simp only [List.length_append, List.length_cons] at sized
            omega
          obtain ⟨items, closing, others, node, rfl, areItems, closes, reached⟩ :=
            induction rest.length fewer rest _ _ reached rfl
          refine ⟨token :: tag :: (inner ++ [innerClosing]) ++ items, closing,
            others, node, by simp, ?_, closes, reached⟩
          have isElement := IsElement.enclose opens isTag areInner innerCloses
          have sameDepth : maxDepth - ((frame :: outer).length + 1) + 1 =
              maxDepth - (outer.length + 1) := by
            rw [List.length_cons]
            omega
          rw [sameDepth] at isElement
          exact .element isElement areItems
      · exact ⟨[], token, tokens, _, rfl, .none, closes, reached⟩
      · have fewer : tokens.length < size := by
          simp only [List.length_cons] at sized
          omega
        obtain ⟨items, closing, rest, node, rfl, areItems, closes, reached⟩ :=
          induction tokens.length fewer tokens _ _ reached rfl
        exact ⟨token :: items, closing, rest, node, rfl,
          .leaf isWord isLeaf areItems, closes, reached⟩

theorem isElement_of_run
    {tokens : List LexedToken} {root : Node}
    (reached : start.run tokens = .ok (done root)) :
    IsElement maxDepth tokens := by
  cases tokens with
  | nil => cases reached
  | cons opening tokens =>
    obtain ⟨next, stepped, reached⟩ := run_cons_eq_ok_iff.mp reached
    obtain ⟨opens, rfl⟩ := step_start_cases stepped
    cases tokens with
    | nil => cases reached
    | cons tag tokens =>
      obtain ⟨next, stepped, reached⟩ := run_cons_eq_ok_iff.mp reached
      obtain ⟨name, isTag, rfl⟩ := step_opened_cases stepped
      obtain ⟨items, closing, rest, node, rfl, areItems, closes, reached⟩ :=
        exists_items_of_run tokens _ _ reached
      obtain ⟨rfl, _⟩ := run_done_eq_ok reached
      exact .enclose opens isTag areItems closes

/-- A list of tokens is accepted where it is one element within the limit. -/
theorem exists_result_read_iff (tokens : List LexedToken) :
    (∃ root, (read tokens).result = .ok root) ↔ IsElement maxDepth tokens := by
  simp only [result_read_eq_ok_iff]
  constructor
  · rintro ⟨root, reached⟩
    exact isElement_of_run reached
  · intro isElement
    obtain ⟨opening, rest, rfl, opens, leads⟩ := isElement.leads
    obtain ⟨root, reached⟩ := leads [] (Nat.le_of_eq (Nat.zero_add _))
    refine ⟨root, ?_⟩
    rw [run_cons_of_step (step_start_of_opens opens)]
    exact reached

/-! ## The grammar of the reader -/

/-- Reading accepts the elements whose nesting is within the limit and nothing else.
The tree then is the only one, up to locations, that says what the tokens say, where
a tag says its name and its id, and each tag with a bad id is reported once, in
order. -/
theorem accepts_iff_isElement (tokens : List LexedToken) :
    ((∃ root, (read tokens).result = .ok root) ↔ IsElement maxDepth tokens) ∧
    (∀ root, (read tokens).result = .ok root →
      root.symbols = LexedToken.symbolsOf false tokens ∧
      (∀ tree : Node, tree.symbols = LexedToken.symbolsOf false tokens →
        tree.bare = root.bare) ∧
      (read tokens).diagnostics.toList = LexedToken.badIdsOf false tokens) ∧
    ∀ (tag : String) (name : List Char) (id : Option Int) (isBad : Bool),
      Tagged tag.toList name id isBad ↔
        (tagName tag).toList = name ∧ tagId? tag = id ∧ hasBadId tag = isBad := by
  refine ⟨exists_result_read_iff tokens, fun root accepted => ?_,
    fun _ _ _ _ => tagged_iff⟩
  obtain ⟨said, reported⟩ := symbols_read accepted
  refine ⟨said, fun tree alsoSaid => ?_, reported⟩
  exact symbols_eq_iff.mp (alsoSaid.trans said.symm)

/-- A text with a signed id, a bad id and a `noVisible`. -/
theorem accepts_bad_id :
    ∃ root, IsElement maxDepth (Token.lex "(n#+7 c4 (x#2x) noVisible)" "") ∧
      (read (Token.lex "(n#+7 c4 (x#2x) noVisible)" "")).result = .ok root ∧
      root.symbols =
        [.opening, .tag "n" (some 7), .leaf .label "c4", .opening, .tag "x" none,
          .closing, .opening, .tag "visible" none, .leaf .label "no", .closing,
          .closing] ∧
      (read (Token.lex "(n#+7 c4 (x#2x) noVisible)" "")).diagnostics.toList =
        [⟨.badId "x#2x", ⟨"", 10, 14, 0, 10⟩⟩] := by
  obtain ⟨accepts, reads, _⟩ :=
    accepts_iff_isElement (Token.lex "(n#+7 c4 (x#2x) noVisible)" "")
  have accepted : (read (Token.lex "(n#+7 c4 (x#2x) noVisible)"
      "")).result.toBool = true := by
    decide +kernel
  cases outcome : (read (Token.lex "(n#+7 c4 (x#2x) noVisible)" "")).result with
  | error error =>
      rw [outcome] at accepted
      cases accepted
  | ok root =>
      obtain ⟨said, _, reported⟩ := reads root outcome
      refine ⟨root, accepts.mp ⟨root, outcome⟩, rfl, ?_, ?_⟩
      · rw [said]
        decide +kernel
      · rw [reported]
        decide +kernel

end Node

end LdpScore
