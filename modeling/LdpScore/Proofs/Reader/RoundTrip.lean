import LdpScore.Proofs.Reader.Acceptance
import LdpScore.Proofs.Reader.Spelling

/-!
# Writing a tree and reading it back

A tree that has been read can be written, and what is written reads as the same
tree.  All that the tree says is spelled, because it comes from tokens that were cut
out of a text; so the text that is written is cut into the tokens of the tree, and
these are an element that says what the tree says.
-/

namespace LdpScore

/-- The token that is a leaf. -/
def LeafKind.token : LeafKind → String → Token
  | .label, text => .label text
  | .number, text => .number text
  | .string, text => .quoted text

namespace Node

/-! ## The tokens of a tree -/

/-- The tag of an element with a name and perhaps an id. -/
def writtenTag (name : String) : Option Int → String
  | some number => name ++ "#" ++ toString number
  | none => name

mutual

/-- The tokens that a tree is written with. -/
def tokens : Node → List Token
  | leaf kind text _ => [kind.token text]
  | element name id children _ =>
      .parenLeft :: .label (writtenTag name id) ::
        (tokensOfAll children ++ [.parenRight])

def tokensOfAll : List Node → List Token
  | [] => []
  | first :: rest => first.tokens ++ tokensOfAll rest

end

mutual

/-- How many elements of a tree are nested. -/
def nesting : Node → Nat
  | leaf _ _ _ => 0
  | element _ _ children _ => nestingOfAll children + 1

def nestingOfAll : List Node → Nat
  | [] => 0
  | first :: rest => max first.nesting (nestingOfAll rest)

end

theorem toList_toLdp_leaf (kind : LeafKind) (text : String) (location : Location) :
    (leaf kind text location).toLdp.toList = (kind.token text).spelling := by
  cases kind <;> simp [toLdp, LeafKind.token, Token.spelling]

theorem toList_toLdp_element
    (name : String) (id : Option Int) (children : List Node)
    (location : Location) :
    (element name id children location).toLdp.toList =
      '(' :: ((writtenTag name id).toList ++
        ((childrenToLdp children).toList ++ [')'])) := by
  cases id <;> simp [toLdp, writtenTag]

theorem toList_childrenToLdp_cons (first : Node) (rest : List Node) :
    (childrenToLdp (first :: rest)).toList =
      ' ' :: (first.toLdp.toList ++ (childrenToLdp rest).toList) := by
  simp [childrenToLdp]

mutual

/-- Locations are not written. -/
theorem toLdp_bare (node : Node) : node.bare.toLdp = node.toLdp := by
  match node with
  | leaf kind text _ => cases kind <;> rfl
  | element name id children _ =>
      unfold bare toLdp
      rw [childrenToLdp_bareAll children]

theorem childrenToLdp_bareAll (nodes : List Node) :
    childrenToLdp (bareAll nodes) = childrenToLdp nodes := by
  match nodes with
  | [] => rfl
  | first :: rest =>
      rw [bareAll, childrenToLdp, childrenToLdp, toLdp_bare first,
        childrenToLdp_bareAll rest]

end

end Node

/-! ## Spelled symbols -/

/-- Whether a symbol is read again when it is written. -/
def Symbol.IsSpelled : Symbol → Prop
  | .tag name id =>
      (Token.label (Node.writtenTag name id)).IsSpelled ∧
        Node.Tagged (Node.writtenTag name id).toList name.toList id false
  | .leaf kind text =>
      (kind.token text).IsSpelled ∧ kind.token text ≠ .label "noVisible"
  | _ => True

namespace Node

/-- An id is written with its usual digits. -/
theorem toList_writtenTag (name : String) (number : Nat) :
    (writtenTag name (some (number : Int))).toList =
      name.toList ++ '#' :: Nat.toDigits 10 number := by
  rw [writtenTag, String.toList_append, String.toList_append, List.append_assoc]
  exact congrArg (fun digits => name.toList ++ ('#' :: digits)) Nat.toList_repr

/-- A tag that means a name and an id can be written with them. -/
theorem Tagged.isSpelled
    {tag name : String} {id : Option Int}
    (tagged : Tagged tag.toList name.toList id false)
    (isSpelled : (Token.label tag).IsSpelled) : (Symbol.tag name id).IsSpelled := by
  obtain ⟨isWord, isLabel⟩ := isSpelled
  generalize tag.toList = word at tagged isWord isLabel
  generalize isName : name.toList = chars at tagged
  cases tagged with
  | nameOnly noHash =>
      rw [Symbol.IsSpelled, Token.IsSpelled, writtenTag, isName]
      exact ⟨⟨isWord, isLabel⟩, .nameOnly noHash⟩
  | @withId _ _ id noHash isId notNegative =>
      obtain ⟨number, rfl⟩ := Int.eq_ofNat_of_zero_le notNegative
      have written : (writtenTag name (some (number : Int))).toList =
          chars ++ '#' :: Nat.toDigits 10 number := by
        rw [toList_writtenTag, isName]
      have areDigits := Decimal.areDigits_toDigits number
      have hash : '#' ∈ chars ++ '#' :: Nat.toDigits 10 number :=
        List.mem_append_right _ List.mem_cons_self
      rw [Symbol.IsSpelled, Token.IsSpelled, written, isName]
      refine ⟨⟨isWord.replace fun character listed =>
          Token.isLabelChar_of_isDigit (areDigits.2 character listed), ?_⟩,
        .withId noHash (.toDigits isId.le_maxInteger) notNegative⟩
      exact Bool.eq_false_iff.mpr fun isNumber =>
        Token.not_mem_of_isNumberWord isNumber hash

end Node

namespace LexedToken

/-- What a spelled token says is spelled. -/
theorem isSpelled_symbols
    {token : LexedToken} {isTag : Bool}
    (isSpelled : ∀ word, token.result = .ok word → word.IsSpelled)
    (noBadId : token.badIds isTag = []) :
    ∀ symbol ∈ token.symbols isTag, symbol.IsSpelled := by
  obtain ⟨result, location⟩ := token
  rcases result with _ | _ | _ | text | text | text
  case ok.label =>
    have isLabel : (Token.label text).IsSpelled := isSpelled _ rfl
    cases isTag with
    | true =>
        have tagged : Node.Tagged text.toList (Node.tagName text).toList
            (Node.tagId? text) false :=
          Node.tagged_iff.mpr ⟨rfl, rfl, by simpa [badIds] using noBadId⟩
        exact List.forall_mem_singleton.mpr (tagged.isSpelled isLabel)
    | false =>
        by_cases isNoVisible : text = "noVisible"
        · have isName : (Token.label "visible").IsSpelled := by decide
          have isValue : (Token.label "no").IsSpelled := by decide
          have isTag : (Symbol.tag "visible" none).IsSpelled :=
            ⟨isName, .nameOnly (by decide)⟩
          have said : symbols false ⟨.ok (.label text), location⟩ =
              [.opening, .tag "visible" none, .leaf .label "no", .closing] := by
            simp [symbols, isNoVisible]
          simp only [said, List.forall_mem_cons]
          exact ⟨trivial, isTag, ⟨isValue, by decide⟩, trivial, List.forall_mem_nil _⟩
        · simpa [symbols, isNoVisible, Symbol.IsSpelled, LeafKind.token] using isLabel
  case ok.number =>
    have isNumber : (Token.number text).IsSpelled := isSpelled _ rfl
    exact List.forall_mem_singleton.mpr ⟨isNumber, Token.noConfusion⟩
  case ok.quoted =>
    have isQuoted : (Token.quoted text).IsSpelled := isSpelled _ rfl
    exact List.forall_mem_singleton.mpr ⟨isQuoted, Token.noConfusion⟩
  case error => exact List.forall_mem_nil _
  all_goals exact List.forall_mem_singleton.mpr trivial

theorem isSpelled_symbolsOf
    {tokens : List LexedToken} {isTag : Bool}
    (areSpelled : ∀ token ∈ tokens, ∀ word, token.result = .ok word →
      word.IsSpelled)
    (noBadIds : badIdsOf isTag tokens = []) :
    ∀ symbol ∈ symbolsOf isTag tokens, symbol.IsSpelled := by
  induction tokens generalizing isTag with
  | nil => exact nofun
  | cons token rest induction =>
      obtain ⟨noBadId, noBadIds⟩ := List.append_eq_nil_iff.mp noBadIds
      obtain ⟨isSpelled, areSpelled⟩ := List.forall_mem_cons.mp areSpelled
      exact List.forall_mem_append.mpr
        ⟨isSpelled_symbols isSpelled noBadId, induction areSpelled noBadIds⟩

/-- A quoted text among the tokens is said. -/
theorem string_mem_symbolsOf
    {tokens : List LexedToken} {token : LexedToken} {content : String}
    (listed : token ∈ tokens) (isQuoted : token.result = .ok (.quoted content))
    (isTag : Bool) : .leaf .string content ∈ symbolsOf isTag tokens := by
  induction listed generalizing isTag with
  | head rest => simp [symbolsOf, symbols, isQuoted]
  | tail _ _ induction => exact List.mem_append_right _ (induction _)

end LexedToken

namespace Node

/-- All that a tree says that has been read is spelled. -/
theorem isSpelled_of_read
    {source file : String} {root : Node}
    (accepted : (read (Token.lex source file)).result = .ok root)
    (silent : (read (Token.lex source file)).diagnostics = #[])
    (noQuote : ∀ content, .leaf .string content ∈ root.symbols →
      '"' ∉ content.toList) :
    ∀ symbol ∈ root.symbols, symbol.IsSpelled := by
  obtain ⟨said, reported⟩ := symbols_read accepted
  rw [said] at noQuote ⊢
  refine LexedToken.isSpelled_symbolsOf (fun token listed word isWord => ?_) ?_
  · refine Token.isSpelled_of_mem_lex listed isWord ?_
    rintro content rfl
    exact noQuote content (LexedToken.string_mem_symbolsOf listed isWord false)
  · rw [← reported, silent]

theorem isSpelled_of_element
    {name : String} {id : Option Int} {children : List Node} {location : Location}
    (areSpelled : ∀ symbol ∈ (element name id children location).symbols,
      symbol.IsSpelled) :
    (Symbol.tag name id).IsSpelled ∧
      ∀ symbol ∈ symbolsOfAll children, symbol.IsSpelled := by
  rw [symbols, List.forall_mem_cons, List.forall_mem_cons,
    List.forall_mem_append] at areSpelled
  obtain ⟨_, isTag, areInner, _⟩ := areSpelled
  exact ⟨isTag, areInner⟩

/-! ## What is written is cut into the tokens of the tree -/

open Token (Spells EndsWord)

theorem endsWord_childrenToLdp
    (children : List Node) {rest : List Char} (ends : EndsWord rest) :
    EndsWord ((childrenToLdp children).toList ++ rest) := by
  cases children with
  | nil => exact ends
  | cons first children =>
      rw [toList_childrenToLdp_cons]
      rintro _ ⟨⟩
      exact .inl rfl

theorem endsWord_closing (rest : List Char) : EndsWord ([')'] ++ rest) := by
  rintro _ ⟨⟩
  exact .inr rfl

mutual

theorem spells_toLdp
    (node : Node) (areSpelled : ∀ symbol ∈ node.symbols, symbol.IsSpelled) :
    Spells node.toLdp.toList node.tokens := by
  match node with
  | leaf kind text location =>
      rw [toList_toLdp_leaf]
      exact (areSpelled _ (.head _)).1.spells
  | element name id children location =>
      obtain ⟨isTag, areInner⟩ := isSpelled_of_element areSpelled
      have spellsTag : Spells (writtenTag name id).toList _ := isTag.1.spells
      have spellsChildren := spells_childrenToLdp children areInner
      have spellsInside := spellsChildren.append .closing
        fun rest _ => endsWord_closing rest
      rw [toList_toLdp_element]
      refine (spellsTag.append spellsInside fun rest _ => ?_).opening
      rw [List.append_assoc]
      exact endsWord_childrenToLdp children (endsWord_closing rest)

theorem spells_childrenToLdp
    (children : List Node)
    (areSpelled : ∀ symbol ∈ symbolsOfAll children, symbol.IsSpelled) :
    Spells (childrenToLdp children).toList (tokensOfAll children) := by
  match children with
  | [] => exact .nil
  | first :: rest =>
      obtain ⟨ofFirst, ofRest⟩ := List.forall_mem_append.mp areSpelled
      rw [toList_childrenToLdp_cons]
      exact ((spells_toLdp first ofFirst).append (spells_childrenToLdp rest ofRest)
        fun _ => endsWord_childrenToLdp rest).blank

end

theorem results_lex_toLdp
    {node : Node} (areSpelled : ∀ symbol ∈ node.symbols, symbol.IsSpelled)
    (file : String) :
    (Token.lex node.toLdp file).map LexedToken.result = node.tokens.map .ok := by
  have spelled := spells_toLdp node areSpelled file { } [] nofun
  rw [List.append_nil] at spelled
  exact spelled.trans (List.append_nil _)

/-! ## The tokens of a tree are an element -/

/-- Tokens of a certain form that say certain symbols and have no bad id. -/
structure Says (form : List LexedToken → Prop) (tokens : List LexedToken)
    (symbols : List Symbol) : Prop where
  hasForm : form tokens
  symbolsOf : LexedToken.symbolsOf false tokens = symbols
  badIdsOf : LexedToken.badIdsOf false tokens = []
  endInOpening : LexedToken.endInOpening false tokens = false

namespace Says

variable {depth : Nat} {front rest : List LexedToken} {symbols others : List Symbol}

theorem none : Says (AreItems depth) [] [] :=
  ⟨.none, rfl, rfl, rfl⟩

theorem leaf
    {kind : LeafKind} {text : String} {token : LexedToken}
    (isWord : token.result = .ok (kind.token text))
    (notRewritten : kind.token text ≠ .label "noVisible")
    (saysRest : Says (AreItems depth) rest others) :
    Says (AreItems depth) (token :: rest) (.leaf kind text :: others) := by
  have isLeaf : (kind.token text).isLeaf = true := by
    cases kind <;> rfl
  have noOpening : token.isOpening = false := by
    cases kind <;> simp [LexedToken.isOpening, isWord, LeafKind.token]
  have noBadId : token.badIds false = [] := by
    cases kind <;> simp [LexedToken.badIds, isWord, LeafKind.token]
  have said : token.symbols false = [.leaf kind text] := by
    cases kind with
    | label =>
        have differs : text ≠ "noVisible" :=
          fun same => notRewritten (congrArg Token.label same)
        simp [LexedToken.symbols, isWord, LeafKind.token, differs]
    | number | string => simp [LexedToken.symbols, isWord, LeafKind.token]
  constructor
  case hasForm => exact .leaf isWord isLeaf saysRest.hasForm
  case symbolsOf =>
    rw [LexedToken.symbolsOf, said, noOpening, saysRest.symbolsOf, List.singleton_append]
  case badIdsOf =>
    rw [LexedToken.badIdsOf, noBadId, noOpening, saysRest.badIdsOf, List.nil_append]
  case endInOpening =>
    rw [LexedToken.endInOpening_cons, noOpening, saysRest.endInOpening]

theorem element
    (saysFirst : Says (IsElement depth) front symbols)
    (saysRest : Says (AreItems depth) rest others) :
    Says (AreItems depth) (front ++ rest) (symbols ++ others) := by
  constructor
  case hasForm => exact .element saysFirst.hasForm saysRest.hasForm
  case symbolsOf =>
    rw [LexedToken.symbolsOf_append, saysFirst.endInOpening, saysFirst.symbolsOf,
      saysRest.symbolsOf]
  case badIdsOf =>
    rw [LexedToken.badIdsOf_append, saysFirst.endInOpening, saysFirst.badIdsOf,
      saysRest.badIdsOf, List.nil_append]
  case endInOpening =>
    rw [LexedToken.endInOpening_append, saysFirst.endInOpening, saysRest.endInOpening]

theorem enclose
    {opening tag closing : LexedToken} {name : String} {id : Option Int}
    (opens : opening.result = .ok .parenLeft)
    (isTag : tag.result = .ok (.label (writtenTag name id)))
    (isSpelled : (Symbol.tag name id).IsSpelled)
    (saysItems : Says (AreItems depth) rest others)
    (closes : closing.result = .ok .parenRight) :
    Says (IsElement (depth + 1)) (opening :: tag :: (rest ++ [closing]))
      (.opening :: .tag name id :: (others ++ [.closing])) := by
  obtain ⟨sameName, sameId, noBadId⟩ := tagged_iff.mp isSpelled.2
  have isName : tagName (writtenTag name id) = name := String.toList_inj.mp sameName
  constructor
  case hasForm => exact .enclose opens isTag saysItems.hasForm closes
  case symbolsOf =>
    simp [LexedToken.symbolsOf, LexedToken.symbolsOf_append, LexedToken.isOpening,
      LexedToken.symbols, opens, isTag, closes, isName, sameId, saysItems.symbolsOf]
  case badIdsOf =>
    simp [LexedToken.badIdsOf, LexedToken.badIdsOf_append, LexedToken.isOpening,
      LexedToken.badIds, opens, isTag, closes, noBadId, saysItems.badIdsOf]
  case endInOpening =>
    rw [LexedToken.endInOpening_cons, LexedToken.endInOpening_cons,
      LexedToken.endInOpening_append]
    simp [LexedToken.endInOpening, LexedToken.isOpening, closes]

end Says

/-- The tokens of an element are an element, if those of its children are items. -/
theorem says_element
    {name : String} {id : Option Int} {children : List Node} {location : Location}
    {depth : Nat} {located : List LexedToken}
    (isTag : (Symbol.tag name id).IsSpelled)
    (saysChildren : ∀ items : List LexedToken,
      items.map LexedToken.result = (tokensOfAll children).map .ok →
        Says (AreItems depth) items (symbolsOfAll children))
    (same : located.map LexedToken.result =
      (element name id children location).tokens.map .ok) :
    Says (IsElement (depth + 1)) located
      (element name id children location).symbols := by
  rw [tokens, List.map_cons, List.map_cons, List.map_append] at same
  obtain ⟨opening, located, rfl, opens, same⟩ := List.map_eq_cons_iff.mp same
  obtain ⟨tag, located, rfl, isLabel, same⟩ := List.map_eq_cons_iff.mp same
  obtain ⟨items, located, rfl, areItems, same⟩ := List.map_eq_append_iff.mp same
  obtain ⟨closing, located, rfl, closes, same⟩ := List.map_eq_cons_iff.mp same
  cases List.map_eq_nil_iff.mp same
  rw [symbols]
  exact .enclose opens isLabel isTag (saysChildren items areItems) closes

/-- The tokens of children are items that say what the children say. -/
theorem says_tokensOfAll
    (children : List Node)
    (areSpelled : ∀ symbol ∈ symbolsOfAll children, symbol.IsSpelled)
    {depth : Nat} (within : nestingOfAll children ≤ depth)
    {located : List LexedToken}
    (same : located.map LexedToken.result = (tokensOfAll children).map .ok) :
    Says (AreItems depth) located (symbolsOfAll children) := by
  -- The recursion is on the children, and for an element among them on its own
  -- children too, for which one level less is left.
  match children with
  | [] =>
      cases List.map_eq_nil_iff.mp same
      exact .none
  | leaf kind text location :: rest =>
      obtain ⟨isSpelled, areSpelled⟩ := List.forall_mem_append.mp areSpelled
      obtain ⟨_, notRewritten⟩ := isSpelled (.leaf kind text) (.head _)
      rw [tokensOfAll, tokens, List.singleton_append, List.map_cons] at same
      obtain ⟨token, located, rfl, isWord, same⟩ := List.map_eq_cons_iff.mp same
      have withinRest := Nat.le_trans (Nat.le_max_right _ _) within
      exact .leaf isWord notRewritten
        (says_tokensOfAll rest areSpelled withinRest same)
  | element name id inner location :: rest =>
      obtain ⟨isSpelled, areSpelled⟩ := List.forall_mem_append.mp areSpelled
      rw [tokensOfAll, List.map_append] at same
      obtain ⟨front, located, rfl, sameFront, same⟩ := List.map_eq_append_iff.mp same
      rw [nestingOfAll, nesting, Nat.max_le] at within
      cases depth with
      | zero => cases within.1
      | succ depth =>
        obtain ⟨isTag, areInner⟩ := isSpelled_of_element isSpelled
        have saysFirst := says_element isTag (fun items sameItems =>
          says_tokensOfAll inner areInner (Nat.le_of_succ_le_succ within.1)
            sameItems) sameFront
        exact .element saysFirst (says_tokensOfAll rest areSpelled within.2 same)

/-- Only elements are accepted. -/
theorem exists_element_of_read
    {tokens : List LexedToken} {root : Node} (accepted : (read tokens).result = .ok root) :
    ∃ name id children location, root = element name id children location := by
  have said := (symbols_read accepted).1
  cases root with
  | element name id children location => exact ⟨name, id, children, location, rfl⟩
  | leaf kind text location =>
      obtain ⟨opens, isTag, areItems, closes⟩ :=
        (exists_result_read_iff tokens).mp ⟨_, accepted⟩
      simp [symbols, LexedToken.symbolsOf, LexedToken.symbols, opens] at said

/-- What is written of a tree with spelled symbols reads as the same tree. -/
theorem read_toLdp
    {root : Node} (isElement : ∃ name id children location,
      root = element name id children location)
    (areSpelled : ∀ symbol ∈ root.symbols, symbol.IsSpelled)
    (shallow : root.nesting ≤ maxDepth) (file : String) :
    ∃ copy, read (Token.lex root.toLdp file) = ⟨.ok copy, #[]⟩ ∧
      copy.bare = root.bare := by
  obtain ⟨name, id, children, location, rfl⟩ := isElement
  obtain ⟨isTag, areInner⟩ := isSpelled_of_element areSpelled
  have saysRoot : Says (IsElement maxDepth) (Token.lex _ file) _ :=
    says_element isTag (fun _ =>
        says_tokensOfAll children areInner (Nat.le_of_succ_le_succ shallow))
      (results_lex_toLdp areSpelled file)
  obtain ⟨copy, accepted⟩ := (exists_result_read_iff _).mpr saysRoot.hasForm
  obtain ⟨said, reported⟩ := symbols_read accepted
  have silent := Array.toList_eq_nil_iff.mp (reported.trans saysRoot.badIdsOf)
  refine ⟨copy, ?_, symbols_eq_iff.mp (said.trans saysRoot.symbolsOf)⟩
  rw [← accepted, ← silent]

/-- If a text reads as a tree and nothing is reported, no string in it has a quote
and its elements are not nested too deep, then the tree as it is written reads as the
same tree up to locations, nothing is reported, and this tree is written alike. -/
theorem roundTrip_toLdp
    (source file again : String) (root : Node)
    (accepted : read (Token.lex source file) = ⟨.ok root, #[]⟩)
    (noQuote : ∀ content, .leaf .string content ∈ root.symbols →
      '"' ∉ content.toList)
    (shallow : root.nesting ≤ maxDepth) :
    ∃ copy, read (Token.lex root.toLdp again) = ⟨.ok copy, #[]⟩ ∧
      copy.bare = root.bare ∧ copy.toLdp = root.toLdp := by
  have result : (read (Token.lex source file)).result = .ok root := by
    rw [accepted]
  have areSpelled := isSpelled_of_read result (by rw [accepted]) noQuote
  obtain ⟨copy, read, same⟩ :=
    read_toLdp (exists_element_of_read result) areSpelled shallow again
  refine ⟨copy, read, same, ?_⟩
  rw [← copy.toLdp_bare, same, root.toLdp_bare]

/-- An id with zeros before it, compact notation, a number that ends in a point, a
`noVisible` and a text on two lines. -/
theorem roundTrip_compact_and_lines :
    ∃ root copy : Node,
      read (Token.lex "(n#007 +c4 dx:-5. noVisible (text 'a\nb'))" "a") =
        ⟨.ok root, #[]⟩ ∧
      root.toLdp = "(n#7 +c4 (dx -5.) (visible no) (text \"a\nb\"))" ∧
      read (Token.lex root.toLdp "b") = ⟨.ok copy, #[]⟩ ∧
      copy.bare = root.bare ∧ copy.toLdp = root.toLdp := by
  obtain ⟨root, accepted, written, shallow⟩ : ∃ root : Node,
      read (Token.lex "(n#007 +c4 dx:-5. noVisible (text 'a\nb'))" "a") =
        ⟨.ok root, #[]⟩ ∧
      root.toLdp = "(n#7 +c4 (dx -5.) (visible no) (text \"a\nb\"))" ∧
      root.nesting ≤ maxDepth := ⟨_, rfl, by decide +kernel, by decide +kernel⟩
  have said : root.symbols = [.opening, .tag "n" (some 7), .leaf .label "+c4",
      .opening, .tag "dx" none, .leaf .number "-5.", .closing, .opening,
      .tag "visible" none, .leaf .label "no", .closing, .opening, .tag "text" none,
      .leaf .string "a\nb", .closing, .closing] := by
    rw [(symbols_read (congrArg Reading.result accepted)).1]
    decide +kernel
  have noQuote : ∀ content, .leaf .string content ∈ root.symbols →
      '"' ∉ content.toList := by
    intro content listed
    obtain rfl : content = "a\nb" := by simpa [said] using listed
    decide
  obtain ⟨copy, again, same, alike⟩ :=
    roundTrip_toLdp _ _ "b" root accepted noQuote shallow
  exact ⟨root, copy, accepted, written, again, same, alike⟩

end Node

end LdpScore
