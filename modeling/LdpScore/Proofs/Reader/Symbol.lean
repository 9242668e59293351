import LdpScore.Proofs.Layout.Bare
import LdpScore.Proofs.Reader.Tag

/-!
# What a tree says, in order

A tree is written from left to right as symbols: where an element opens, its tag,
its leaves and elements, and where it closes.  The tokens of a text say symbols too:
a label right after an opening parenthesis is a tag, and the leaf `noVisible` stands
for an element.  Reading loses nothing: the tree says what its tokens say, and one
report is made for each tag with a bad id.  No other tree says the same.
-/

namespace LdpScore

/-- One piece of what a tree says. -/
inductive Symbol where
  | opening
  | tag (name : String) (id : Option Int)
  | leaf (kind : LeafKind) (text : String)
  | closing
deriving DecidableEq, Repr

/-! ## What trees say -/

namespace Node

mutual

/-- All that a tree says, in order. -/
def symbols : Node → List Symbol
  | leaf kind text _ => [.leaf kind text]
  | element name id children _ =>
      .opening :: .tag name id :: (symbolsOfAll children ++ [.closing])

def symbolsOfAll : List Node → List Symbol
  | [] => []
  | first :: rest => first.symbols ++ symbolsOfAll rest

end

@[simp]
theorem symbolsOfAll_eq (nodes : List Node) :
    symbolsOfAll nodes = nodes.flatMap symbols := by
  induction nodes with
  | nil => rfl
  | cons first rest induction =>
      rw [symbolsOfAll, induction, List.flatMap_cons]

theorem symbols_element
    (name : String) (id : Option Int) (children : List Node)
    (location : Location) :
    (element name id children location).symbols =
      .opening :: .tag name id :: (children.flatMap symbols ++ [.closing]) := by
  rw [symbols, symbolsOfAll_eq]

theorem symbols_ne_closing (node : Node) (rest others : List Symbol) :
    node.symbols ++ rest ≠ .closing :: others := by
  cases node <;> exact nofun

mutual

/-- What a tree says tells where it ends, and which tree it is up to locations. -/
theorem bare_eq_of_symbols
    (node other : Node) {rest others : List Symbol}
    (same : node.symbols ++ rest = other.symbols ++ others) :
    node.bare = other.bare ∧ rest = others := by
  match node, other with
  | leaf kind text _, leaf otherKind otherText _ =>
      cases same
      exact ⟨rfl, rfl⟩
  | leaf _ _ _, element _ _ _ _ => cases same
  | element _ _ _ _, leaf _ _ _ => cases same
  | element name id children _, element otherName otherId otherChildren _ =>
      simp only [symbols, List.cons_append, List.append_assoc, List.nil_append,
        List.cons.injEq, Symbol.tag.injEq, true_and] at same
      obtain ⟨⟨rfl, rfl⟩, same⟩ := same
      obtain ⟨sameChildren, rfl⟩ :=
        bareAll_eq_of_symbols children otherChildren same
      exact ⟨by rw [bare, bare, sameChildren], rfl⟩

theorem bareAll_eq_of_symbols
    (nodes siblings : List Node) {rest others : List Symbol}
    (same : symbolsOfAll nodes ++ .closing :: rest =
      symbolsOfAll siblings ++ .closing :: others) :
    bareAll nodes = bareAll siblings ∧ rest = others := by
  match nodes, siblings with
  | [], [] =>
      cases same
      exact ⟨rfl, rfl⟩
  | [], sibling :: siblings =>
      rw [symbolsOfAll, symbolsOfAll, List.append_assoc] at same
      exact absurd same.symm (symbols_ne_closing sibling _ _)
  | node :: nodes, [] =>
      rw [symbolsOfAll, symbolsOfAll, List.append_assoc] at same
      exact absurd same (symbols_ne_closing node _ _)
  | node :: nodes, sibling :: siblings =>
      rw [symbolsOfAll, symbolsOfAll, List.append_assoc,
        List.append_assoc] at same
      obtain ⟨sameFirst, same⟩ := bare_eq_of_symbols node sibling same
      obtain ⟨sameRest, rfl⟩ := bareAll_eq_of_symbols nodes siblings same
      exact ⟨by rw [bareAll, bareAll, sameFirst, sameRest], rfl⟩

end

mutual

theorem symbols_bare (node : Node) : node.bare.symbols = node.symbols := by
  match node with
  | leaf _ _ _ => rfl
  | element name id children _ =>
      rw [bare, symbols, symbols, symbolsOfAll_bareAll children]

theorem symbolsOfAll_bareAll (nodes : List Node) :
    symbolsOfAll (bareAll nodes) = symbolsOfAll nodes := by
  match nodes with
  | [] => rfl
  | first :: rest =>
      rw [bareAll, symbolsOfAll, symbolsOfAll, symbols_bare first,
        symbolsOfAll_bareAll rest]

end

/-- Trees that say the same are the same up to locations. -/
theorem symbols_eq_iff {node other : Node} :
    node.symbols = other.symbols ↔ node.bare = other.bare := by
  constructor
  · intro same
    exact (bare_eq_of_symbols node other (congrArg (· ++ []) same)).1
  · intro same
    rw [← node.symbols_bare, same, other.symbols_bare]

end Node

/-! ## What tokens say -/

namespace LexedToken

/-- Whether the label after a token is a tag. -/
def isOpening (token : LexedToken) : Bool :=
  match token.result with
  | .ok .parenLeft => true
  | _ => false

/-- What a token says; the flag tells whether a label is a tag. -/
def symbols (isTag : Bool) (token : LexedToken) : List Symbol :=
  match token.result with
  | .ok .parenLeft => [.opening]
  | .ok .parenRight => [.closing]
  | .ok (.label text) =>
      if isTag then [.tag (Node.tagName text) (Node.tagId? text)]
      else if text = "noVisible" then
        [.opening, .tag "visible" none, .leaf .label "no", .closing]
      else [.leaf .label text]
  | .ok (.number text) => [.leaf .number text]
  | .ok (.quoted content) => [.leaf .string content]
  | .error _ => []

/-- What is to be reported about a token. -/
def badIds (isTag : Bool) (token : LexedToken) : List Diagnostic :=
  match token.result with
  | .ok (.label tag) =>
      if isTag && Node.hasBadId tag then [⟨.badId tag, token.location⟩] else []
  | _ => []

/-- Whether the label after some tokens is a tag. -/
def endInOpening (isTag : Bool) (tokens : List LexedToken) : Bool :=
  tokens.foldl (fun _ token => token.isOpening) isTag

theorem endInOpening_cons (isTag : Bool) (token : LexedToken) (rest : List LexedToken) :
    endInOpening isTag (token :: rest) = endInOpening token.isOpening rest :=
  rfl

theorem endInOpening_append (isTag : Bool) (front rest : List LexedToken) :
    endInOpening isTag (front ++ rest) = endInOpening (endInOpening isTag front) rest :=
  List.foldl_append

/-- All that some tokens say, in order. -/
def symbolsOf (isTag : Bool) : List LexedToken → List Symbol
  | [] => []
  | token :: rest => token.symbols isTag ++ symbolsOf token.isOpening rest

/-- One report for each tag with a bad id, in order. -/
def badIdsOf (isTag : Bool) : List LexedToken → List Diagnostic
  | [] => []
  | token :: rest => token.badIds isTag ++ badIdsOf token.isOpening rest

theorem symbolsOf_append (isTag : Bool) (front rest : List LexedToken) :
    symbolsOf isTag (front ++ rest) =
      symbolsOf isTag front ++ symbolsOf (endInOpening isTag front) rest := by
  induction front generalizing isTag with
  | nil => rfl
  | cons token front induction =>
      rw [List.cons_append, symbolsOf, symbolsOf, induction, List.append_assoc]
      rfl

theorem badIdsOf_append (isTag : Bool) (front rest : List LexedToken) :
    badIdsOf isTag (front ++ rest) =
      badIdsOf isTag front ++ badIdsOf (endInOpening isTag front) rest := by
  induction front generalizing isTag with
  | nil => rfl
  | cons token front induction =>
      rw [List.cons_append, badIdsOf, badIdsOf, induction, List.append_assoc]
      rfl

end LexedToken

/-! ## Runs of the reader -/

namespace Node

theorem symbols_ofLabel (text : String) (location : Location) :
    (ofLabel text location).symbols =
      LexedToken.symbols false ⟨.ok (.label text), location⟩ := by
  unfold ofLabel
  by_cases isNoVisible : text = "noVisible"
  · simp [LexedToken.symbols, isNoVisible, symbols]
  · simp [LexedToken.symbols, isNoVisible, symbols]

namespace State

/-- What some tokens do to what has been read. -/
def run (state : State) (tokens : List LexedToken) : Except SyntaxError State :=
  tokens.foldlM step state

@[simp]
theorem run_nil (state : State) : state.run [] = .ok state :=
  rfl

theorem run_cons_of_step
    {state next : State} {token : LexedToken}
    (stepped : state.step token = .ok next) (rest : List LexedToken) :
    state.run (token :: rest) = next.run rest := by
  rw [run, List.foldlM_cons, stepped]
  rfl

theorem run_cons_of_error
    {state : State} {token : LexedToken} {error : SyntaxError}
    (failed : state.step token = .error error) (rest : List LexedToken) :
    state.run (token :: rest) = .error error := by
  rw [run, List.foldlM_cons, failed]
  rfl

theorem run_cons_eq_ok_iff
    {state final : State} {token : LexedToken} {rest : List LexedToken} :
    state.run (token :: rest) = .ok final ↔
      ∃ next, state.step token = .ok next ∧ next.run rest = .ok final := by
  cases stepped : state.step token with
  | error error => simp [run_cons_of_error stepped]
  | ok next => simp [run_cons_of_step stepped]

theorem run_append_of_ok
    {state middle : State} {front : List LexedToken}
    (reached : state.run front = .ok middle) (rest : List LexedToken) :
    state.run (front ++ rest) = middle.run rest := by
  unfold run at reached ⊢
  rw [List.foldlM_append, reached]
  rfl

theorem run_append_of_error
    {state : State} {front : List LexedToken} {error : SyntaxError}
    (failed : state.run front = .error error) (rest : List LexedToken) :
    state.run (front ++ rest) = .error error := by
  unfold run at failed ⊢
  rw [List.foldlM_append, failed]
  rfl

/-- Whether the next label is a tag. -/
def awaitsTag : State → Bool
  | opened _ _ => true
  | _ => false

theorem problems_eq (state : State) (token : LexedToken) :
    state.problems token = token.badIds state.awaitsTag := by
  obtain ⟨result, location⟩ := token
  cases state with
  | start => rcases result with _ | _ | _ | _ | _ | _ <;> rfl
  | inside => rcases result with _ | _ | _ | _ | _ | _ <;> rfl
  | done => rcases result with _ | _ | _ | _ | _ | _ <;> rfl
  | opened =>
      rcases result with _ | _ | _ | tag | _ | _
      case ok.label => simp [problems, LexedToken.badIds, awaitsTag]
      all_goals rfl

/-! ## What has been read so far -/

/-- What the open elements say so far, the innermost one last. -/
def openSymbols : List Frame → List Symbol
  | [] => []
  | frame :: outer =>
      openSymbols outer ++
        (.opening :: .tag frame.name frame.id ::
          frame.reversed.reverse.flatMap Node.symbols)

/-- All that has been read so far, in order. -/
def symbols : State → List Symbol
  | start => []
  | opened _ outer => openSymbols outer ++ [.opening]
  | inside frame outer => openSymbols (frame :: outer)
  | done root => root.symbols

theorem symbols_add (frame : Frame) (outer : List Frame) (child : Node) :
    (inside (frame.add child) outer).symbols =
      (inside frame outer).symbols ++ child.symbols := by
  simp [symbols, openSymbols, Frame.add]

theorem symbols_leave (node : Node) (outer : List Frame) :
    (leave node outer).symbols = openSymbols outer ++ node.symbols := by
  cases outer with
  | nil => rfl
  | cons frame outer => exact symbols_add frame outer node

theorem awaitsTag_leave (node : Node) (outer : List Frame) :
    (leave node outer).awaitsTag = false := by
  cases outer <;> rfl

/-- One token adds what it says. -/
theorem symbols_step
    {state next : State} {token : LexedToken}
    (stepped : state.step token = .ok next) :
    next.symbols = state.symbols ++ token.symbols state.awaitsTag ∧
      next.awaitsTag = token.isOpening := by
  obtain ⟨result, location⟩ := token
  cases state with
  | start =>
      rcases result with _ | _ | _ | _ | _ | _ <;> cases stepped
      exact ⟨rfl, rfl⟩
  | opened opened outer =>
      rcases result with _ | _ | _ | tag | _ | _ <;> cases stepped
      refine ⟨?_, rfl⟩
      simp [symbols, openSymbols, LexedToken.symbols, awaitsTag]
  | inside frame outer =>
      rcases result with _ | _ | _ | text | text | text
      · cases stepped
      · dsimp only [step] at stepped
        split at stepped <;> cases stepped
        exact ⟨rfl, rfl⟩
      · cases stepped
        refine ⟨?_, awaitsTag_leave _ _⟩
        rw [symbols_leave, Frame.close, symbols_element]
        simp [symbols, openSymbols, LexedToken.symbols]
      · cases stepped
        exact ⟨by rw [symbols_add, symbols_ofLabel]; rfl, rfl⟩
      · cases stepped
        exact ⟨symbols_add _ _ _, rfl⟩
      · cases stepped
        exact ⟨symbols_add _ _ _, rfl⟩
  | done root => rcases result with _ | _ | _ | _ | _ | _ <;> cases stepped

/-- All tokens together add what they say. -/
theorem symbols_run
    {state final : State} {tokens : List LexedToken}
    (reached : state.run tokens = .ok final) :
    final.symbols =
      state.symbols ++ LexedToken.symbolsOf state.awaitsTag tokens := by
  induction tokens generalizing state with
  | nil =>
      cases reached
      exact (List.append_nil _).symm
  | cons token rest induction =>
      obtain ⟨next, stepped, reached⟩ := run_cons_eq_ok_iff.mp reached
      obtain ⟨said, opens⟩ := symbols_step stepped
      rw [induction reached, said, opens, List.append_assoc]
      rfl

end State

/-! ## Reading a tree -/

/-- Where the last of some tokens stands. -/
def lastLocation (before : Location) (tokens : List LexedToken) : Location :=
  tokens.foldl (fun _ token => token.location) before

theorem readFrom_of_run
    {state final : State} {tokens : List LexedToken}
    (reached : state.run tokens = .ok final) (diagnostics : Array Diagnostic)
    (before : Location) :
    readFrom state diagnostics before tokens =
      ⟨final.finish (lastLocation before tokens),
        diagnostics ++ LexedToken.badIdsOf state.awaitsTag tokens⟩ := by
  induction tokens generalizing state diagnostics before with
  | nil =>
      cases reached
      simp [readFrom, LexedToken.badIdsOf, lastLocation]
  | cons token rest induction =>
      obtain ⟨next, stepped, reached⟩ := State.run_cons_eq_ok_iff.mp reached
      rw [readFrom, stepped]
      dsimp only
      rw [induction reached, (State.symbols_step stepped).2, State.problems_eq]
      refine congrArg (Reading.mk _) ?_
      simp [LexedToken.badIdsOf, ← Array.toList_inj]

theorem result_readFrom_of_error
    {state : State} {tokens : List LexedToken} {error : SyntaxError}
    (failed : state.run tokens = .error error) (diagnostics : Array Diagnostic)
    (before : Location) :
    (readFrom state diagnostics before tokens).result = .error error := by
  induction tokens generalizing state diagnostics before with
  | nil => cases failed
  | cons token rest induction =>
      rw [readFrom]
      cases stepped : state.step token with
      | error other =>
          rw [State.run_cons_of_error stepped] at failed
          cases failed
          rfl
      | ok next =>
          rw [State.run_cons_of_step stepped] at failed
          exact induction failed _ _

theorem result_read_of_run
    {tokens : List LexedToken} {final : State}
    (reached : State.start.run tokens = .ok final) :
    (read tokens).result = final.finish (lastLocation .nowhere tokens) := by
  rw [read, readFrom_of_run reached]

theorem result_read_of_error
    {tokens : List LexedToken} {error : SyntaxError}
    (failed : State.start.run tokens = .error error) :
    (read tokens).result = .error error :=
  result_readFrom_of_error failed _ _

/-- Reading succeeds where the run ends in a whole tree. -/
theorem result_read_eq_ok_iff {tokens : List LexedToken} {root : Node} :
    (read tokens).result = .ok root ↔
      State.start.run tokens = .ok (.done root) := by
  cases reached : State.start.run tokens with
  | error error => simp [result_read_of_error reached]
  | ok final =>
      rw [result_read_of_run reached]
      cases final <;> simp [State.finish]

/-- The tree says what its tokens say, and the bad ids among them are reported. -/
theorem symbols_read
    {tokens : List LexedToken} {root : Node}
    (accepted : (read tokens).result = .ok root) :
    root.symbols = LexedToken.symbolsOf false tokens ∧
      (read tokens).diagnostics.toList = LexedToken.badIdsOf false tokens := by
  have reached := result_read_eq_ok_iff.mp accepted
  refine ⟨State.symbols_run reached, ?_⟩
  rw [read, readFrom_of_run reached]
  simp [State.awaitsTag]

end Node

end LdpScore
