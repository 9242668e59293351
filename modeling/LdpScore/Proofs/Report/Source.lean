import LdpScore.Proofs.Reader.Extent
import LdpScore.Proofs.Report.Document

/-!
# Reports of a source text

An element stands where its tokens do: from its opening parenthesis to the closing
one.  So the nodes of a tree that is read lie inside the text as its tokens do, and
every diagnostic of a text, whether of the reader or of the analysis, points inside
it.
-/

namespace LdpScore

variable {places : Location → Prop}

/-! ## Reading a tree -/

namespace Node

/-- An open element was opened at a certain place, and its children lie there too. -/
structure Frame.Lies (places : Location → Prop) (frame : Frame) : Prop where
  opened : places frame.opened
  children : Lie places frame.reversed

/-- Everything that has been read lies at certain places. -/
def State.Lies (places : Location → Prop) : State → Prop
  | start => True
  | opened location outer => places location ∧ ∀ frame ∈ outer, frame.Lies places
  | inside frame outer => frame.Lies places ∧ ∀ other ∈ outer, other.Lies places
  | done root => root.Lies places

theorem lies_ofLabel (text : String) {location : Location} (isPlace : places location) :
    (ofLabel text location).Lies places := by
  rw [ofLabel]
  split
  · refine .element isPlace fun child listed => ?_
    rw [List.mem_singleton.mp listed]
    exact .leaf isPlace
  · exact .leaf isPlace

theorem Frame.Lies.add {frame : Frame} {child : Node} (lies : frame.Lies places)
    (liesChild : child.Lies places) : (frame.add child).Lies places :=
  ⟨lies.opened, List.forall_mem_cons.mpr ⟨liesChild, lies.children⟩⟩

/-- An element lies where it is opened and closed. -/
theorem Frame.Lies.close
    (joins : ∀ {first last : Location}, places first → places last → places (first.upTo last))
    {frame : Frame} (lies : frame.Lies places) {closed : Location}
    (isPlace : places closed) : (frame.close closed).Lies places :=
  .element (joins lies.opened isPlace) fun child listed =>
    lies.children child (List.mem_reverse.mp listed)

theorem State.lies_leave {node : Node} (lies : node.Lies places) {outer : List Frame}
    (lieOuter : ∀ frame ∈ outer, frame.Lies places) : (leave node outer).Lies places := by
  cases outer with
  | nil => exact lies
  | cons frame outer =>
      obtain ⟨liesFrame, lieOuter⟩ := List.forall_mem_cons.mp lieOuter
      exact ⟨liesFrame.add lies, lieOuter⟩

/-- One token more keeps everything at its place. -/
theorem State.Lies.step
    (joins : ∀ {first last : Location}, places first → places last → places (first.upTo last))
    {state next : State} {token : LexedToken} (lies : state.Lies places)
    (isPlace : places token.location) (steps : state.step token = .ok next) :
    next.Lies places := by
  cases state with
  | start =>
      rw [State.step] at steps
      split at steps <;> cases steps
      exact ⟨isPlace, fun _ => List.not_mem_nil.elim⟩
  | opened location outer =>
      rw [State.step] at steps
      split at steps <;> cases steps
      exact ⟨⟨lies.1, .nil⟩, lies.2⟩
  | inside frame outer =>
      obtain ⟨liesFrame, lieOuter⟩ := lies
      rw [State.step] at steps
      split at steps
      case h_1 =>
        split at steps <;> cases steps
        exact ⟨isPlace, List.forall_mem_cons.mpr ⟨liesFrame, lieOuter⟩⟩
      case h_2 =>
        cases steps
        exact lies_leave (liesFrame.close joins isPlace) lieOuter
      case h_3 =>
        cases steps
        exact ⟨liesFrame.add (lies_ofLabel _ isPlace), lieOuter⟩
      case h_4 =>
        cases steps
        exact ⟨liesFrame.add (.leaf isPlace), lieOuter⟩
      case h_5 =>
        cases steps
        exact ⟨liesFrame.add (.leaf isPlace), lieOuter⟩
      case h_6 => cases steps
  | done root =>
      rw [State.step] at steps
      split at steps <;> cases steps

/-- A token is reported where it stands. -/
theorem State.location_problems
    {state : State} {token : LexedToken} {diagnostic : Diagnostic}
    (reported : diagnostic ∈ state.problems token) :
    diagnostic.location = token.location := by
  unfold State.problems at reported
  split at reported
  · split at reported
    · rw [List.mem_singleton.mp reported]
    · cases reported
  · cases reported

/-- What is read lies where the tokens do, and what is reported is reported there. -/
theorem lies_readFrom
    (joins : ∀ {first last : Location}, places first → places last → places (first.upTo last))
    {tokens : List LexedToken} (arePlaces : ∀ token ∈ tokens, places token.location)
    {state : State} (lies : state.Lies places) {diagnostics : Array Diagnostic}
    (reported : ∀ diagnostic ∈ diagnostics, places diagnostic.location)
    (lastLocation : Location) :
    (∀ root, (readFrom state diagnostics lastLocation tokens).result = .ok root →
        root.Lies places) ∧
      ∀ diagnostic ∈ (readFrom state diagnostics lastLocation tokens).diagnostics,
        places diagnostic.location := by
  induction tokens generalizing state diagnostics lastLocation with
  | nil =>
      refine ⟨fun root isRoot => ?_, reported⟩
      cases state <;> cases isRoot
      exact lies
  | cons token rest induction =>
      obtain ⟨isPlace, arePlaces⟩ := List.forall_mem_cons.mp arePlaces
      rw [readFrom]
      split
      · rename_i next steps
        refine induction arePlaces (lies.step joins isPlace steps) ?_ _
        intro diagnostic listed
        rw [← Array.mem_toList_iff, Array.toList_appendList] at listed
        rcases List.mem_append.mp listed with earlier | new
        · exact reported diagnostic (Array.mem_toList_iff.mp earlier)
        · rw [State.location_problems new]
          exact isPlace
      · refine ⟨?_, reported⟩
        rintro _ ⟨⟩

end Node

/-! ## Where reports point -/

/-- A location is a stretch of a text, with at least one character. -/
def Location.IsInside (source : String) (location : Location) : Prop :=
  location.start < location.stop ∧ location.stop ≤ source.length

theorem Location.IsInside.upTo
    {source : String} {first last : Location} (inside : first.IsInside source)
    (also : last.IsInside source) : (first.upTo last).IsInside source :=
  ⟨Nat.lt_of_lt_of_le inside.1 (Nat.le_max_left ..), Nat.max_le.mpr ⟨inside.2, also.2⟩⟩

theorem Token.isInside_lex (source file : String) :
    ∀ token ∈ lex source file, token.location.IsInside source := by
  intro token listed
  have cuts : Cuts file {} source.toList (lex source file) :=
    cuts_closeCompact file false {} source.toList
  obtain ⟨_, isStretch, ends⟩ := cuts.bounds token listed
  rw [String.length_toList, Nat.zero_add] at ends
  exact ⟨isStretch, ends⟩

/-- Every diagnostic points to some of the nodes, and is of the same line. -/
def PointTo (nodes : List Node) (diagnostics : Array Diagnostic) : Prop :=
  ∀ diagnostic ∈ diagnostics, ∃ node ∈ nodes,
    diagnostic.location = node.location ∧ diagnostic.line = node.line

/-- Every diagnostic points to a stretch of a text. -/
def PointInside (source : String) (diagnostics : Array Diagnostic) : Prop :=
  ∀ diagnostic ∈ diagnostics, diagnostic.location.IsInside source

theorem pointInside_analyseSource (source file : String) :
    PointInside source (analyseSource source file).diagnostics := by
  have start : Node.State.start.Lies (Location.IsInside source) := trivial
  have nothing : ∀ diagnostic ∈ (#[] : Array Diagnostic),
      diagnostic.location.IsInside source := by
    rintro _ ⟨⟨⟩⟩
  obtain ⟨lies, reported⟩ := Node.lies_readFrom Location.IsInside.upTo
    (Token.isInside_lex source file) start nothing Location.nowhere
  rw [analyseSource]
  dsimp only
  split
  case h_1 => exact reported
  case h_2 root isRoot =>
    intro diagnostic listed
    rcases Array.mem_append.mp listed with found | later
    · exact reported diagnostic found
    · exact (reports_analyse (lies root isRoot)).1 diagnostic later

/--
Every report points into the source.  Each diagnostic of an analysis, whether it is
found on the way or when all that still waits is given up, has the location and the
line of a node of the tree, and each diagnostic of a text is a stretch of that text.
-/
theorem pointTo_nodes_analyse :
    (∀ root : Node, PointTo root.nodes (analyse root).2) ∧
      ∀ source file : String,
        PointInside source (analyseSource source file).diagnostics := by
  refine ⟨fun root diagnostic reported => ?_, pointInside_analyseSource⟩
  have lies : root.Lies fun location => ∃ node ∈ root.nodes, location = node.location :=
    fun part isPart => ⟨part, isPart, rfl⟩
  obtain ⟨node, isNode, same⟩ := (reports_analyse lies).1 diagnostic reported
  exact ⟨node, isNode, same, congrArg Location.line same⟩

end LdpScore
