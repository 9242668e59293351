import LdpScore.Proofs.Analysis.Tracing
import LdpScore.Proofs.Reader.Acceptance
import LdpScore.Proofs.Reader.LineBreak

/-!
# Locations nest as the tree does

`IsReadFrom` says which tokens a node is read from: a leaf from one token, and an
element from those between two parentheses, these included.  Among the tokens of a
text only a parenthesis of compact notation shares the place of its neighbour, and
neither does such a parenthesis open after a node nor close before one.  So an element
lies around its children and the children lie side by side, which is
`isNested_of_read`.
-/

namespace LdpScore

/-! ## Tokens in order -/

/-- Whether all of one location lies in another one. -/
def Location.Contains (outer inner : Location) : Prop :=
  outer.start ≤ inner.start ∧ inner.stop ≤ outer.stop

theorem Location.upTo_self (location : Location) : location.upTo location = location := by
  rw [upTo, Nat.max_self]

namespace LexedToken

/-- Whether some tokens stand one after the other, except for the parentheses of
compact notation. -/
structure AreInOrder (source : List Char) (tokens : List LexedToken) : Prop where
  proper : ∀ token ∈ tokens, token.location.start < token.location.stop
  ordered : tokens.Pairwise fun first second =>
    first.location.stop ≤ second.location.start ∨
      (first.location = second.location ∧ first.Adjoins second source)

namespace AreInOrder

variable {source : List Char} {tokens : List LexedToken}

theorem mono
    {part : List LexedToken} (inOrder : AreInOrder source tokens)
    (isPart : part.Sublist tokens) : AreInOrder source part :=
  ⟨fun token listed => inOrder.proper token (isPart.subset listed),
    inOrder.ordered.sublist isPart⟩

/-- No token starts before the first one. -/
theorem start_le
    {first : LexedToken} (inOrder : AreInOrder source tokens)
    (isFirst : tokens.head? = some first) :
    ∀ token ∈ tokens, first.location.start ≤ token.location.start := by
  obtain ⟨rest, rfl⟩ := List.head?_eq_some_iff.mp isFirst
  have proper := inOrder.proper first (.head _)
  refine List.forall_mem_cons.mpr ⟨Nat.le_refl _, fun token listed => ?_⟩
  rcases (List.pairwise_cons.mp inOrder.ordered).1 token listed with apart | ⟨same, _⟩
  · omega
  · rw [same]

/-- No token stops after the last one. -/
theorem le_stop
    {last : LexedToken} (inOrder : AreInOrder source tokens)
    (isLast : tokens.getLast? = some last) :
    ∀ token ∈ tokens, token.location.stop ≤ last.location.stop := by
  obtain ⟨front, rfl⟩ := List.getLast?_eq_some_iff.mp isLast
  have proper := inOrder.proper last (by simp)
  refine List.forall_mem_append.mpr ⟨fun token listed => ?_, by simp⟩
  rcases (List.pairwise_append.mp inOrder.ordered).2.2 token listed last (by simp) with
    apart | ⟨same, _⟩
  · omega
  · rw [same]

/-- Tokens are apart unless the one opens an element or the other closes one. -/
theorem stop_le_start
    {front rest : List LexedToken} {first second : LexedToken}
    (inOrder : AreInOrder source (front ++ rest)) (isFirst : first ∈ front)
    (isSecond : second ∈ rest) (opensNothing : first.result ≠ .ok .parenLeft)
    (closesNothing : second.result ≠ .ok .parenRight) :
    first.location.stop ≤ second.location.start := by
  rcases (List.pairwise_append.mp inOrder.ordered).2.2 first isFirst second isSecond with
    apart | ⟨_, ⟨opens, _⟩ | ⟨_, closes⟩⟩
  · exact apart
  · exact absurd opens opensNothing
  · exact absurd closes closesNothing

end AreInOrder

end LexedToken

open LexedToken (AreInOrder)

namespace Node

/-! ## The tokens of a node -/

mutual

/-- The tokens that a node is read from. -/
inductive IsReadFrom : Node → List LexedToken → Prop
  | label {token : LexedToken} {text : String}
      (isWord : token.result = .ok (.label text)) (plain : text ≠ "noVisible") :
      IsReadFrom (leaf .label text token.location) [token]
  | noVisible {token : LexedToken} (isWord : token.result = .ok (.label "noVisible")) :
      IsReadFrom
        (element "visible" none [leaf .label "no" token.location] token.location)
        [token]
  | number {token : LexedToken} {text : String}
      (isWord : token.result = .ok (.number text)) :
      IsReadFrom (leaf .number text token.location) [token]
  | quoted {token : LexedToken} {text : String}
      (isWord : token.result = .ok (.quoted text)) :
      IsReadFrom (leaf .string text token.location) [token]
  | enclose {opening tag closing : LexedToken} {text : String} {children : List Node}
      {inner : List LexedToken}
      (opens : opening.result = .ok .parenLeft)
      (isTag : tag.result = .ok (.label text))
      (areRead : AreReadFrom children inner)
      (closes : closing.result = .ok .parenRight) :
      IsReadFrom
        (element (tagName text) (tagId? text) children
          (opening.location.upTo closing.location))
        (opening :: tag :: (inner ++ [closing]))

/-- The tokens that siblings are read from. -/
inductive AreReadFrom : List Node → List LexedToken → Prop
  | nil : AreReadFrom [] []
  | cons {first : Node} {rest : List Node} {own others : List LexedToken}
      (isRead : first.IsReadFrom own) (areRead : AreReadFrom rest others) :
      AreReadFrom (first :: rest) (own ++ others)

end

theorem isReadFrom_ofLabel
    {token : LexedToken} {text : String} (isWord : token.result = .ok (.label text)) :
    (ofLabel text token.location).IsReadFrom [token] := by
  unfold ofLabel
  split
  case isTrue isNoVisible => exact .noVisible (isNoVisible ▸ isWord)
  case isFalse plain => exact .label isWord plain

namespace State

/-- The reader goes on inside an element with an element, it leaves the element, or
it adds a node that it has read from the token. -/
theorem exists_isReadFrom_of_step
    {frame : Frame} {outer : List Frame} {token : LexedToken} {next : State}
    (stepped : (inside frame outer).step token = .ok next) :
    (token.result = .ok .parenLeft ∧ next = opened token.location (frame :: outer)) ∨
      (token.result = .ok .parenRight ∧
        next = leave (frame.close token.location) outer) ∨
      ∃ child : Node, child.IsReadFrom [token] ∧
        next = inside (frame.add child) outer := by
  rcases isWord : token.result with _ | word
  · simp [step, isWord] at stepped
  cases word with
  | parenLeft =>
      rcases step_inside_cases stepped with
        ⟨opens, _, isNext⟩ | ⟨closes, _⟩ | ⟨_, _, isOther, isLeaf, _⟩
      · exact .inl ⟨rfl, isNext⟩
      · cases isWord.symm.trans closes
      · cases isWord.symm.trans isOther
        cases isLeaf
  | parenRight =>
      simp only [step, isWord, Except.ok.injEq] at stepped
      exact .inr (.inl ⟨rfl, stepped.symm⟩)
  | label text =>
      simp only [step, isWord, Except.ok.injEq] at stepped
      exact .inr (.inr ⟨_, isReadFrom_ofLabel isWord, stepped.symm⟩)
  | number text =>
      simp only [step, isWord, Except.ok.injEq] at stepped
      exact .inr (.inr ⟨_, .number isWord, stepped.symm⟩)
  | quoted text =>
      simp only [step, isWord, Except.ok.injEq] at stepped
      exact .inr (.inr ⟨_, .quoted isWord, stepped.symm⟩)

end State

open State

/-- From the inside of an element a run that ends in a whole tree reads children up
to the parenthesis that closes the element. -/
theorem exists_areReadFrom_of_run
    {root : Node} (tokens : List LexedToken) (frame : Frame) (outer : List Frame)
    (reached : (inside frame outer).run tokens = .ok (done root)) :
    ∃ inner closing rest children, tokens = inner ++ closing :: rest ∧
      AreReadFrom children inner ∧ closing.result = .ok .parenRight ∧
      (leave (element frame.name frame.id (frame.reversed.reverse ++ children)
        (frame.opened.upTo closing.location)) outer).run rest = .ok (done root) := by
  -- As in `exists_items_of_run`, an element among the children takes up some of the
  -- tokens before the children after it begin.
  induction sized : tokens.length using Nat.strong_induction_on
    generalizing tokens frame outer with
  | _ size induction =>
    cases tokens with
    | nil => cases reached
    | cons token tokens =>
      obtain ⟨next, stepped, reached⟩ := run_cons_eq_ok_iff.mp reached
      rcases exists_isReadFrom_of_step stepped with
        ⟨opens, rfl⟩ | ⟨closes, rfl⟩ | ⟨child, isRead, rfl⟩
      · cases tokens with
        | nil => cases reached
        | cons tag tokens =>
          obtain ⟨next, stepped, reached⟩ := run_cons_eq_ok_iff.mp reached
          obtain ⟨text, isTag, rfl⟩ := step_opened_cases stepped
          have fewer : tokens.length < size := by
            simp only [List.length_cons] at sized
            omega
          obtain ⟨within, ending, rest, grandchildren, rfl, areWithin, ends, reached⟩ :=
            induction tokens.length fewer tokens _ _ reached rfl
          have fewer : rest.length < size := by
            simp only [List.length_append, List.length_cons] at sized
            omega
          obtain ⟨inner, closing, others, children, rfl, areRead, closes, reached⟩ :=
            induction rest.length fewer rest _ _ reached rfl
          refine ⟨token :: tag :: (within ++ [ending]) ++ inner, closing, others,
            _ :: children, by simp, .cons (.enclose opens isTag areWithin ends) areRead,
            closes, ?_⟩
          simpa [Frame.add] using reached
      · refine ⟨[], token, tokens, [], rfl, .nil, closes, ?_⟩
        simpa [Frame.close] using reached
      · have fewer : tokens.length < size := by
          simp only [List.length_cons] at sized
          omega
        obtain ⟨inner, closing, rest, children, rfl, areRead, closes, reached⟩ :=
          induction tokens.length fewer tokens _ _ reached rfl
        refine ⟨token :: inner, closing, rest, child :: children, rfl,
          .cons isRead areRead, closes, ?_⟩
        simpa [Frame.add] using reached

/-- A tree that is accepted is read from all of the tokens. -/
theorem isReadFrom_of_read
    {tokens : List LexedToken} {root : Node}
    (accepted : (read tokens).result = .ok root) : root.IsReadFrom tokens := by
  have reached := result_read_eq_ok_iff.mp accepted
  cases tokens with
  | nil => cases reached
  | cons opening tokens =>
    obtain ⟨next, stepped, reached⟩ := run_cons_eq_ok_iff.mp reached
    obtain ⟨opens, rfl⟩ := step_start_cases stepped
    cases tokens with
    | nil => cases reached
    | cons tag tokens =>
      obtain ⟨next, stepped, reached⟩ := run_cons_eq_ok_iff.mp reached
      obtain ⟨text, isTag, rfl⟩ := step_opened_cases stepped
      obtain ⟨inner, closing, rest, children, rfl, areRead, closes, reached⟩ :=
        exists_areReadFrom_of_run tokens _ _ reached
      obtain ⟨rfl, isRoot⟩ := run_done_eq_ok reached
      cases isRoot
      exact .enclose opens isTag areRead closes

/-- Each of some siblings is read from tokens of its own. -/
theorem AreReadFrom.exists_isReadFrom
    {nodes : List Node} {tokens : List LexedToken}
    (areRead : AreReadFrom nodes tokens) {node : Node} (listed : node ∈ nodes) :
    ∃ own, own <:+: tokens ∧ node.IsReadFrom own := by
  induction nodes generalizing tokens with
  | nil => cases listed
  | cons first rest induction =>
      cases areRead with
      | @cons _ _ own others isRead areRead =>
        rcases List.mem_cons.mp listed with rfl | listed
        · exact ⟨own, (List.prefix_append own others).isInfix, isRead⟩
        · obtain ⟨part, isPart, isRead⟩ := induction areRead listed
          exact ⟨part, isPart.trans (List.suffix_append own others).isInfix, isRead⟩

/-! ## The span of a node -/

/-- Where the tokens of a node stand tells where the node stands.  The first of them
closes nothing and the last of them opens nothing. -/
structure Spans (node : Node) (tokens : List LexedToken) (first last : LexedToken) :
    Prop where
  isFirst : tokens.head? = some first
  isLast : tokens.getLast? = some last
  closesNothing : first.result ≠ .ok .parenRight
  opensNothing : last.result ≠ .ok .parenLeft
  starts : node.location.start = first.location.start
  stops : node.location.stop = last.location.stop
  line : node.location.line = first.location.line
  contains : ∀ token ∈ tokens, node.location.Contains token.location

variable {source : List Char}

theorem spans_of_ends
    {node : Node} {tokens : List LexedToken} {first last : LexedToken}
    (inOrder : AreInOrder source tokens) (isFirst : tokens.head? = some first)
    (isLast : tokens.getLast? = some last)
    (closesNothing : first.result ≠ .ok .parenRight)
    (opensNothing : last.result ≠ .ok .parenLeft)
    (isLocation : node.location = first.location.upTo last.location) :
    node.Spans tokens first last := by
  have starts : node.location.start = first.location.start := by
    rw [isLocation]
    rfl
  have stops : node.location.stop = last.location.stop := by
    rw [isLocation]
    exact Nat.max_eq_right
      (inOrder.le_stop isLast first (List.mem_of_mem_head? isFirst))
  refine ⟨isFirst, isLast, closesNothing, opensNothing, starts, stops,
    by rw [isLocation]; rfl, fun token listed => ⟨?_, ?_⟩⟩
  · rw [starts]
    exact inOrder.start_le isFirst token listed
  · rw [stops]
    exact inOrder.le_stop isLast token listed

/-- A node with the location of a word spans this word. -/
theorem spans_of_word
    {node : Node} {token : LexedToken} {word : Token}
    (inOrder : AreInOrder source [token]) (isWord : token.result = .ok word)
    (isLeaf : word.isLeaf = true) (isLocation : node.location = token.location) :
    node.Spans [token] token token := by
  refine spans_of_ends inOrder rfl rfl ?_ ?_ (isLocation.trans (Location.upTo_self _).symm)
  all_goals
    intro impossible
    cases isWord.symm.trans impossible
    cases isLeaf

theorem IsReadFrom.exists_spans
    {node : Node} {tokens : List LexedToken} (isRead : node.IsReadFrom tokens)
    (inOrder : AreInOrder source tokens) :
    ∃ first last, node.Spans tokens first last := by
  cases isRead with
  | label isWord | noVisible isWord | number isWord | quoted isWord =>
      exact ⟨_, _, spans_of_word inOrder isWord rfl rfl⟩
  | @enclose opening tag closing _ _ inner opens isTag areRead closes =>
      refine ⟨opening, closing, spans_of_ends inOrder rfl ?_ ?_ ?_ rfl⟩
      · exact List.getLast?_eq_some_iff.mpr ⟨opening :: tag :: inner, rfl⟩
      · rw [opens]
        exact nofun
      · rw [closes]
        exact nofun

namespace Spans

variable {node : Node} {tokens : List LexedToken} {first last : LexedToken}

theorem first_mem (spans : node.Spans tokens first last) : first ∈ tokens :=
  List.mem_of_mem_head? spans.isFirst

theorem last_mem (spans : node.Spans tokens first last) : last ∈ tokens :=
  List.mem_of_mem_getLast? spans.isLast

end Spans

/-- Siblings lie side by side, in order. -/
theorem AreReadFrom.apart
    {nodes : List Node} {tokens : List LexedToken}
    (areRead : AreReadFrom nodes tokens) (inOrder : AreInOrder source tokens) :
    nodes.Pairwise fun first second => first.location.stop ≤ second.location.start := by
  induction nodes generalizing tokens with
  | nil => exact .nil
  | cons first rest induction =>
      cases areRead with
      | @cons _ _ own others isRead areRead =>
        have inOwn := inOrder.mono (List.sublist_append_left own others)
        have inOthers := inOrder.mono (List.sublist_append_right own others)
        refine .cons (fun second listed => ?_) (induction areRead inOthers)
        obtain ⟨part, isPart, isSecond⟩ := areRead.exists_isReadFrom listed
        obtain ⟨_, last, firstSpans⟩ := isRead.exists_spans inOwn
        obtain ⟨begin, _, secondSpans⟩ :=
          isSecond.exists_spans (inOthers.mono isPart.sublist)
        rw [firstSpans.stops, secondSpans.starts]
        exact inOrder.stop_le_start firstSpans.last_mem
          (isPart.subset secondSpans.first_mem) firstSpans.opensNothing
          secondSpans.closesNothing

/-- A node lies in whatever contains its tokens. -/
theorem AreReadFrom.contains
    {nodes : List Node} {tokens : List LexedToken} {outer : Location}
    (areRead : AreReadFrom nodes tokens) (inOrder : AreInOrder source tokens)
    (contains : ∀ token ∈ tokens, outer.Contains token.location) :
    ∀ node ∈ nodes, outer.Contains node.location := by
  intro node listed
  obtain ⟨part, isPart, isRead⟩ := areRead.exists_isReadFrom listed
  obtain ⟨first, last, spans⟩ := isRead.exists_spans (inOrder.mono isPart.sublist)
  refine ⟨?_, ?_⟩
  · rw [spans.starts]
    exact (contains first (isPart.subset spans.first_mem)).1
  · rw [spans.stops]
    exact (contains last (isPart.subset spans.last_mem)).2

/-! ## Parentheses around an element -/

/-- Whether an element stands from its opening parenthesis, or the label before a
colon that stands for one, to its closing parenthesis, or the value that is followed
by none. -/
structure IsEnclosed
    (source : List Char) (tokens : List LexedToken) (node : Node)
    (opening tag : LexedToken) (inner : List LexedToken) (closing : LexedToken) :
    Prop where
  isPart : opening :: tag :: (inner ++ [closing]) <:+: tokens
  isRead : node.IsReadFrom (opening :: tag :: (inner ++ [closing]))
  opens : opening.result = .ok .parenLeft
  areRead : AreReadFrom node.children inner
  closes : closing.result = .ok .parenRight
  starts : node.location.start = opening.location.start
  stops : node.location.stop = closing.location.stop
  opensAt : opening.location.textIn source = ['('] ∨
    (opening.location = tag.location ∧ source[tag.location.stop]? = some ':')
  closesAt : closing.location.textIn source = [')'] ∨
    ∃ value, (tag :: inner).getLast? = some value ∧ closing.location = value.location

/-- The element that a label stands for, and the label in it. -/
def expanded (location : Location) : Node :=
  element "visible" none [leaf .label "no" location] location

/-- Where a node of the tree of a text stands. -/
structure IsNested (source : List Char) (tokens : List LexedToken) (node : Node) :
    Prop where
  proper : node.location.start < node.location.stop
  inside : node.location.stop ≤ source.length
  line : node.location.line = (source.take node.location.start).count '\n'
  contains : ∀ child ∈ node.children, node.location.Contains child.location
  apart : node.children.Pairwise fun first second =>
    first.location.stop ≤ second.location.start
  encloses : node.isLeaf = false →
    (∃ opening tag inner closing,
      IsEnclosed source tokens node opening tag inner closing) ∨
    ∃ label ∈ tokens, label.result = .ok (.label "noVisible") ∧
      node = expanded label.location

/-! ## Trees of a text -/

section Text

variable {tokens : List LexedToken}

theorem areInOrder_of_preserves (preserves : Token.Preserves source tokens) :
    AreInOrder source tokens :=
  ⟨fun token listed => (preserves.inside token listed).1, preserves.ordered⟩

/-- An opening parenthesis is written, or it is due to a colon after the tag. -/
theorem opensAt_of_preserves
    {before after : List LexedToken} {opening tag : LexedToken}
    (preserves : Token.Preserves source tokens)
    (isSplit : tokens = before ++ opening :: tag :: after)
    (opens : opening.result = .ok .parenLeft) :
    opening.location.textIn source = ['('] ∨
      (opening.location = tag.location ∧ source[tag.location.stop]? = some ':') := by
  rcases preserves.written before opening (tag :: after) isSplit with
    (⟨_, next, isNext, same⟩ | ⟨closes, _⟩) | isWritten
  · cases isNext
    refine .inr ⟨same.symm, ?_⟩
    have proper := (preserves.inside opening (by simp [isSplit])).1
    have ordered := preserves.ordered
    rw [isSplit] at ordered
    rcases (List.pairwise_cons.mp (List.pairwise_append.mp ordered).2.1).1 tag (.head _)
      with apart | ⟨_, ⟨_, _, isColon⟩ | ⟨opensNothing, _⟩⟩
    · rw [same] at apart
      exact absurd proper (Nat.not_lt.mpr apart)
    · exact isColon
    · exact absurd opens opensNothing
  · cases opens.symm.trans closes
  · have written := isWritten _ opens
    generalize opening.location.textIn source = text at written
    cases written
    exact .inl rfl

/-- A closing parenthesis is written, or it is due after the token before it. -/
theorem closesAt_of_preserves
    {before after : List LexedToken} {closing : LexedToken}
    (preserves : Token.Preserves source tokens)
    (isSplit : tokens = before ++ closing :: after)
    (closes : closing.result = .ok .parenRight) :
    closing.location.textIn source = [')'] ∨
      ∃ value, before.getLast? = some value ∧ closing.location = value.location := by
  rcases preserves.written before closing after isSplit with
    (⟨opens, _⟩ | ⟨_, value, isLast, same⟩) | isWritten
  · cases closes.symm.trans opens
  · exact .inr ⟨value, isLast, same.symm⟩
  · have written := isWritten _ closes
    generalize closing.location.textIn source = text at written
    cases written
    exact .inl rfl

/-- An element that is read from some of the tokens of a text is enclosed by two of
them. -/
theorem isEnclosed_of_preserves
    {opening tag closing : LexedToken} {text : String} {children : List Node}
    {inner : List LexedToken} (preserves : Token.Preserves source tokens)
    (isPart : opening :: tag :: (inner ++ [closing]) <:+: tokens)
    (opens : opening.result = .ok .parenLeft)
    (isTag : tag.result = .ok (.label text)) (areRead : AreReadFrom children inner)
    (closes : closing.result = .ok .parenRight) :
    IsEnclosed source tokens
      (element (tagName text) (tagId? text) children
        (opening.location.upTo closing.location))
      opening tag inner closing := by
  have inOrder := (areInOrder_of_preserves preserves).mono isPart.sublist
  have isLast : (opening :: tag :: (inner ++ [closing])).getLast? = some closing :=
    List.getLast?_eq_some_iff.mpr ⟨opening :: tag :: inner, rfl⟩
  obtain ⟨before, after, isSplit⟩ := id isPart
  refine ⟨isPart, .enclose opens isTag areRead closes, opens, areRead, closes, rfl,
    Nat.max_eq_right (inOrder.le_stop isLast opening (.head _)), ?_, ?_⟩
  · have atOpening : tokens =
        before ++ opening :: tag :: (inner ++ closing :: after) := by
      simp [← isSplit]
    exact opensAt_of_preserves preserves atOpening opens
  · have atEnd : tokens =
        (before ++ opening :: tag :: inner) ++ closing :: after := by
      simp [← isSplit]
    have atClosing := closesAt_of_preserves preserves atEnd closes
    have sameLast : (before ++ opening :: tag :: inner).getLast? =
        (tag :: inner).getLast? := by
      simp [List.getLast?_append, List.getLast?_cons]
    rwa [sameLast] at atClosing

/-- A node nests where its children do, if it spans some tokens of the text. -/
theorem Spans.isNested
    {node : Node} {own : List LexedToken} {first last : LexedToken}
    (spans : node.Spans own first last) (preserves : Token.Preserves source tokens)
    (placed : ∀ token ∈ tokens, token.IsPlaced source) (isPart : own <:+: tokens)
    (contains : ∀ child ∈ node.children, node.location.Contains child.location)
    (apart : node.children.Pairwise fun first second =>
      first.location.stop ≤ second.location.start)
    (encloses : node.isLeaf = false →
      (∃ opening tag inner closing,
        IsEnclosed source tokens node opening tag inner closing) ∨
      ∃ label ∈ tokens, label.result = .ok (.label "noVisible") ∧
        node = expanded label.location) :
    node.IsNested source tokens := by
  have firstListed := isPart.subset spans.first_mem
  have lastListed := isPart.subset spans.last_mem
  refine ⟨?_, ?_, ?_, contains, apart, encloses⟩
  · have proper := (preserves.inside first firstListed).1
    rw [← spans.starts] at proper
    exact Nat.lt_of_lt_of_le proper (spans.contains first spans.first_mem).2
  · rw [spans.stops]
    exact (preserves.inside last lastListed).2
  · rw [spans.line, spans.starts]
    exact (placed first firstListed).line

theorem isNested_leaf
    {token : LexedToken} {word : Token} (preserves : Token.Preserves source tokens)
    (placed : ∀ token ∈ tokens, token.IsPlaced source) (isPart : [token] <:+: tokens)
    (isWord : token.result = .ok word) (isLeaf : word.isLeaf = true)
    (kind : LeafKind) (text : String) :
    (leaf kind text token.location).IsNested source tokens := by
  have inOrder := (areInOrder_of_preserves preserves).mono isPart.sublist
  refine (spans_of_word inOrder isWord isLeaf rfl).isNested preserves placed isPart ?_
    .nil nofun
  exact fun _ impossible => absurd impossible List.not_mem_nil

theorem isNested_expanded
    {token : LexedToken} (preserves : Token.Preserves source tokens)
    (placed : ∀ token ∈ tokens, token.IsPlaced source) (isPart : [token] <:+: tokens)
    (isWord : token.result = .ok (.label "noVisible")) :
    (expanded token.location).IsNested source tokens := by
  have inOrder := (areInOrder_of_preserves preserves).mono isPart.sublist
  refine (spans_of_word inOrder isWord rfl rfl).isNested preserves placed isPart ?_
    (List.pairwise_singleton _ _)
    fun _ => .inr ⟨token, isPart.subset (.head _), isWord, rfl⟩
  intro child isChild
  obtain rfl := List.mem_singleton.mp isChild
  exact ⟨Nat.le_refl _, Nat.le_refl _⟩

mutual

/-- All nodes of a tree nest that is read from some of the tokens. -/
theorem IsReadFrom.isNested
    (preserves : Token.Preserves source tokens)
    (placed : ∀ token ∈ tokens, token.IsPlaced source)
    {node : Node} {own : List LexedToken} (isRead : node.IsReadFrom own)
    (isPart : own <:+: tokens) :
    ∀ part ∈ node.nodes, part.IsNested source tokens := by
  cases isRead with
  | label isWord _ | number isWord | quoted isWord =>
      exact List.forall_mem_singleton.mpr
        (isNested_leaf preserves placed isPart isWord rfl _ _)
  | noVisible isWord =>
      exact List.forall_mem_cons.mpr
        ⟨isNested_expanded preserves placed isPart isWord,
          List.forall_mem_singleton.mpr
            (isNested_leaf preserves placed isPart isWord rfl _ _)⟩
  | @enclose opening tag closing text children inner opens isTag areRead closes =>
      have inOrder := areInOrder_of_preserves preserves
      have isRead := IsReadFrom.enclose opens isTag areRead closes
      have isInner : inner <:+: opening :: tag :: (inner ++ [closing]) :=
        ⟨[opening, tag], [closing], by simp⟩
      have innerInOrder := inOrder.mono (isInner.trans isPart).sublist
      obtain ⟨first, last, spans⟩ := isRead.exists_spans (inOrder.mono isPart.sublist)
      rw [nodes_eq]
      refine List.forall_mem_cons.mpr
        ⟨spans.isNested preserves placed isPart ?_ (areRead.apart innerInOrder) ?_,
          areRead.areNested preserves placed (isInner.trans isPart)⟩
      · exact areRead.contains innerInOrder fun token listed =>
          spans.contains token (isInner.subset listed)
      · exact fun _ => .inl ⟨opening, tag, inner, closing,
          isEnclosed_of_preserves preserves isPart opens isTag areRead closes⟩

theorem AreReadFrom.areNested
    (preserves : Token.Preserves source tokens)
    (placed : ∀ token ∈ tokens, token.IsPlaced source)
    {nodes : List Node} {own : List LexedToken} (areRead : AreReadFrom nodes own)
    (isPart : own <:+: tokens) :
    ∀ part ∈ nodesOf nodes, part.IsNested source tokens := by
  cases areRead with
  | nil => exact fun _ impossible => absurd impossible List.not_mem_nil
  | @cons first rest own others isRead areRead =>
      rw [nodesOf, List.flatMap_cons]
      refine List.forall_mem_append.mpr ⟨?_, ?_⟩
      · exact isRead.isNested preserves placed
          ((List.prefix_append own others).isInfix.trans isPart)
      · exact areRead.areNested preserves placed
          ((List.suffix_append own others).isInfix.trans isPart)

end

end Text

/-- In the tree of a text, however it was written, an element lies from its opening
to its closing parenthesis or what stands for them, it contains its children, these
lie side by side in order, and each node gives the number of line breaks before it as
its line. -/
theorem isNested_of_read
    {source file : String} {root : Node}
    (accepted : (read (Token.lex source file)).result = .ok root) :
    ∀ node ∈ root.nodes, node.IsNested source.toList (Token.lex source file) := by
  have cuts := Token.cuts_lex source file
  exact (isReadFrom_of_read accepted).isNested cuts.preserves
    (cuts.isPlaced (Position.skip_nil _).symm) (List.infix_refl _)

/-- The element `b` lies from its label to the text after it, and both nodes of
`noVisible` lie on the line below. -/
theorem isNested_compact :
    ∃ root, (read (Token.lex "(a b:'c\n' noVisible)" "")).result = .ok root ∧
      root.nodes.map (fun node => (node.name, node.location)) =
        [("a", ⟨"", 0, 20, 0, 0⟩), ("b", ⟨"", 3, 9, 0, 3⟩),
          ("string", ⟨"", 5, 9, 0, 5⟩), ("visible", ⟨"", 10, 19, 1, 2⟩),
          ("label", ⟨"", 10, 19, 1, 2⟩)] ∧
      ∀ node ∈ root.nodes, node.IsNested "(a b:'c\n' noVisible)".toList
        (Token.lex "(a b:'c\n' noVisible)" "") := by
  exact ⟨_, rfl, by decide +kernel, isNested_of_read rfl⟩

end Node

end LdpScore
