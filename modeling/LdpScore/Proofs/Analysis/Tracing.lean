import LdpScore.Proofs.Analysis.Quiet

/-!
# Following an analysis through a tree

What is known of an analysis is mostly a relation between the states before and
after it, by way of the nodes that it has read.  Such a relation is `Tracing`: it
holds of whatever only reads, and it can be followed from one part of an analysis
to the next.
-/

namespace LdpScore

/-! ## The nodes of a tree -/

/-- All nodes of a tree, each before those below it. -/
def Node.nodes (node : Node) : List Node :=
  (node.preorder 0).map Prod.snd

/-- All nodes of some trees in order. -/
def nodesOf (nodes : List Node) : List Node :=
  nodes.flatMap Node.nodes

namespace Node

mutual

theorem map_snd_preorder (depth : Nat) (node : Node) :
    (node.preorder depth).map Prod.snd = node.nodes := by
  match node with
  | .leaf kind text location => rfl
  | .element name id children location =>
      simp only [nodes, preorder, List.map_cons,
        map_snd_childrenPreorder]

theorem map_snd_childrenPreorder (depth : Nat) (children : List Node) :
    (childrenPreorder depth children).map Prod.snd = nodesOf children := by
  match children with
  | [] => rfl
  | first :: rest =>
      simp only [childrenPreorder, List.map_append, map_snd_preorder,
        map_snd_childrenPreorder, nodesOf, List.flatMap_cons]

end

/-- A tree consists of its root and the trees below it. -/
theorem nodes_eq (node : Node) : node.nodes = node :: nodesOf node.children := by
  cases node with
  | leaf kind text location => rfl
  | element name id children location =>
      simp only [nodes, preorder, List.map_cons, map_snd_childrenPreorder]
      rfl

theorem singleton_sublist_nodes (node : Node) : [node].Sublist node.nodes := by
  rw [nodes_eq]
  exact (List.nil_sublist _).cons_cons node

end Node

theorem nodesOf_sublist
    {part whole : List Node} (suffix : part <:+ whole) :
    (nodesOf part).Sublist (nodesOf whole) := by
  obtain ⟨taken, rfl⟩ := suffix
  rw [nodesOf, nodesOf, List.flatMap_append]
  exact List.sublist_append_right _ _

/-! ## Following an analysis -/

/-- A relation between the states before and after some nodes are analysed that
can be followed from one part of an analysis to the next. -/
class Tracing (relation : List Node → Analysis → Analysis → Prop) : Prop where
  of_agrees : ∀ {before after}, before.Agrees after → relation [] before after
  trans : ∀ {nodes more first middle last}, relation nodes first middle →
    relation more middle last → relation (nodes ++ more) first last
  mono : ∀ {nodes more before after}, relation nodes before after →
    nodes.Sublist more → relation more before after

namespace Analyser

variable {Value Result : Type}

/-- A step relates the states before and after it, by way of some nodes, and a
condition holds afterwards. -/
def Traces
    (relation : List Node → Analysis → Analysis → Prop)
    (nodes : List Node) (action : Analyser Value) (before : Analysis)
    (post : Value → Analysis → Prop) : Prop :=
  Ensures action before fun value after =>
    relation nodes before after ∧ post value after

namespace Traces

variable {relation : List Node → Analysis → Analysis → Prop}
variable {nodes more : List Node} {before : Analysis}
variable {post : Value → Analysis → Prop}

/-- The model that is read is the one at that moment. -/
theorem readModel
    {next : Model → Analyser Value}
    (traces : Traces relation nodes (next before.draft.model) before post) :
    Traces relation nodes (model >>= next) before post :=
  traces

/-- The context that is read is the one at that moment. -/
theorem readContext
    {next : Context → Analyser Value}
    (traces : Traces relation nodes (next before.context) before post) :
    Traces relation nodes (context >>= next) before post :=
  traces

/-- What waits is read at that moment. -/
theorem readPending
    {next : Pending → Analyser Value}
    (traces : Traces relation nodes (next before.pending) before post) :
    Traces relation nodes (pending >>= next) before post :=
  traces

theorem map
    {action : Analyser Result} {change : Result → Value}
    {between : Result → Analysis → Prop}
    (traces : Traces relation nodes action before between)
    (implies : ∀ result after, between result after →
      post (change result) after) :
    Traces relation nodes (change <$> action) before post :=
  ⟨traces.1, implies _ _ traces.2⟩

/-- What a step returns may not matter. -/
theorem discard
    {action : Analyser Value} {weaker : Analysis → Prop}
    (traces : Traces relation nodes action before post)
    (implies : ∀ value after, post value after → weaker after) :
    Traces relation nodes (discard action) before fun _ => weaker :=
  traces.map implies

/-- A step may be followed by way of a weaker relation. -/
theorem weaken
    {weaker : List Node → Analysis → Analysis → Prop}
    {action : Analyser Value}
    (traces : Traces relation nodes action before post)
    (implies : ∀ {after}, relation nodes before after →
      weaker nodes before after) :
    Traces weaker nodes action before fun value after =>
      relation nodes before after ∧ post value after :=
  ⟨implies traces.1, traces⟩

variable [Tracing relation]

theorem pure {value : Value} (holds : post value before) :
    Traces relation [] (Pure.pure value) before post :=
  ⟨Tracing.of_agrees (.refl before), holds⟩

theorem bind
    {action : Analyser Result} {next : Result → Analyser Value}
    {between : Result → Analysis → Prop}
    (first : Traces relation nodes action before between)
    (second : ∀ result middle, relation nodes before middle →
      between result middle →
        Traces relation more (next result) middle post) :
    Traces relation (nodes ++ more) (action >>= next) before post := by
  apply Ensures.bind first
  rintro result middle ⟨related, holds⟩
  apply (second result middle related holds).mono
  rintro value after ⟨later, holdsAfter⟩
  exact ⟨Tracing.trans related later, holdsAfter⟩

/-- The first part concerns no nodes. -/
theorem seq
    {action : Analyser Result} {next : Result → Analyser Value}
    {between : Result → Analysis → Prop}
    (first : Traces relation [] action before between)
    (second : ∀ result middle, relation [] before middle →
      between result middle →
        Traces relation nodes (next result) middle post) :
    Traces relation nodes (action >>= next) before post :=
  first.bind second

theorem of_quiet
    {action : Analyser Value} {property : Value → Prop}
    (quiet : Quiet action property)
    (implies : ∀ value after, before.Agrees after → property value →
      post value after) :
    Traces relation [] action before post := by
  apply Ensures.mono (quiet before)
  rintro value after ⟨agrees, holds⟩
  exact ⟨Tracing.of_agrees agrees, implies value after agrees holds⟩

/-- Something is read first. -/
theorem read
    {action : Analyser Result} {next : Result → Analyser Value}
    {property : Result → Prop}
    (first : Quiet action property)
    (second : ∀ result middle, before.Agrees middle → property result →
      Traces relation nodes (next result) middle post) :
    Traces relation nodes (action >>= next) before post := by
  have quiet : Traces relation [] action before fun result middle =>
      before.Agrees middle ∧ property result :=
    .of_quiet first fun _ _ agrees holds => ⟨agrees, holds⟩
  exact quiet.seq fun result middle _ facts =>
    second result middle facts.1 facts.2

theorem mono
    {action : Analyser Value} {weaker : Value → Analysis → Prop}
    (traces : Traces relation nodes action before post)
    (part : nodes.Sublist more)
    (implies : ∀ value after, relation nodes before after →
      post value after → weaker value after) :
    Traces relation more action before weaker := by
  apply Ensures.mono traces
  rintro value after ⟨related, holds⟩
  exact ⟨Tracing.mono related part, implies value after related holds⟩

/-- More nodes than those that become objects may be mentioned. -/
theorem among
    {action : Analyser Value}
    (traces : Traces relation nodes action before post)
    (part : nodes.Sublist more) :
    Traces relation more action before post :=
  traces.mono part fun _ _ _ holds => holds

/-- What every child keeps is kept by all of them. -/
theorem analyseEach
    {analyserOf : ElementKind → Option (Node → Analyser Unit)}
    {holds : Analysis → Prop}
    (agreeing : ∀ {before after}, before.Agrees after → holds before →
      holds after)
    (each : ∀ kind analyser node before, analyserOf kind = some analyser →
      node.is kind → holds before →
        Traces relation node.nodes (analyser node) before
          fun _ after => holds after)
    (children : List Node) (first : holds before) :
    Traces relation (nodesOf children) (analyseEach analyserOf children) before
      fun _ after => holds after := by
  induction children generalizing before with
  | nil => exact .pure first
  | cons child rest induction =>
      rw [Analyser.analyseEach]
      rw [nodesOf, List.flatMap_cons]
      split
      · rename_i analyser isAnalyser
        obtain ⟨kind, isKind, known⟩ := Option.bind_eq_some_iff.mp isAnalyser
        refine (each kind analyser child before known
          (beq_iff_eq.mpr isKind) first).bind fun _ middle _ holds => ?_
        exact induction holds
      · refine Traces.among ?_ (List.sublist_append_right _ _)
        exact .read (reads_reportMisplaced child) fun _ _ agrees _ =>
          induction (agreeing agrees first)

/-- A child that may be missing. -/
theorem optional
    {analyser : Node → Analyser Unit} {child : Option Node}
    {holds : Analysis → Prop} (missing : child = none → holds before)
    (present : ∀ node, child = some node →
      Traces relation node.nodes (analyser node) before
        fun _ after => holds after) :
    Traces relation (nodesOf child.toList) (analyseOptional analyser child)
      before fun _ after => holds after := by
  cases child with
  | none => exact .pure (missing rfl)
  | some node =>
      have single : nodesOf [node] = node.nodes := by
        rw [nodesOf, List.flatMap_singleton]
      rw [Option.toList_some, single]
      exact present node rfl

end Traces

/-- A step relates the states before and after it by way of the first of some
children, and returns among others the children that it has left. -/
def TracesPart
    (relation : List Node → Analysis → Analysis → Prop)
    (left : Value → List Node) (children : List Node)
    (action : Analyser Value) (before : Analysis)
    (post : Value → Analysis → Prop) : Prop :=
  Ensures action before fun value after =>
    ∃ taken, taken ++ left value = children ∧
      relation (nodesOf taken) before after ∧ post value after

namespace TracesPart

variable {relation : List Node → Analysis → Analysis → Prop}
variable {left : Value → List Node} {child : Node} {children rest : List Node}
variable {before : Analysis} {post : Value → Analysis → Prop}

/-- A step may be followed by way of a weaker relation. -/
theorem weaken
    {weaker : List Node → Analysis → Analysis → Prop}
    {action : Analyser Value}
    (traces : TracesPart relation left children action before post)
    (implies : ∀ {nodes after}, relation nodes before after →
      weaker nodes before after) :
    TracesPart weaker left children action before fun value after =>
      (∃ nodes, relation nodes before after) ∧ post value after := by
  obtain ⟨taken, parts, related, holds⟩ := traces
  exact ⟨taken, parts, implies related, ⟨_, related⟩, holds⟩

variable [Tracing relation]

/-- All children are left. -/
theorem stop
    {value : Value} (all : left value = children) (holds : post value before) :
    TracesPart relation left children (Pure.pure value) before post :=
  ⟨[], all, Tracing.of_agrees (.refl before), holds⟩

/-- The first child comes first, and those after it come next. -/
theorem cons
    {action : Analyser Result} {next : Result → Analyser Value}
    {between : Result → Analysis → Prop}
    (first : Traces relation child.nodes action before between)
    (second : ∀ result middle, relation child.nodes before middle →
      between result middle →
        TracesPart relation left rest (next result) middle post) :
    TracesPart relation left (child :: rest) (action >>= next) before post := by
  apply Ensures.bind first
  rintro result middle ⟨related, holds⟩
  apply Ensures.mono (second result middle related holds)
  rintro value after ⟨taken, parts, later, holdsAfter⟩
  refine ⟨child :: taken, by rw [List.cons_append, parts], ?_, holdsAfter⟩
  rw [nodesOf, List.flatMap_cons]
  exact Tracing.trans related later

/-- The first child was only read. -/
theorem skip
    {action : Analyser Result} {next : Result → Analyser Value}
    {property : Result → Prop}
    (first : Quiet action property)
    (second : ∀ result middle, before.Agrees middle → property result →
      TracesPart relation left rest (next result) middle post) :
    TracesPart relation left (child :: rest) (action >>= next) before post := by
  apply Ensures.bind (first before)
  rintro result middle ⟨agrees, holds⟩
  apply Ensures.mono (second result middle agrees holds)
  rintro value after ⟨taken, parts, later, holdsAfter⟩
  refine ⟨child :: taken, by rw [List.cons_append, parts], ?_, holdsAfter⟩
  rw [nodesOf, List.flatMap_cons]
  have related : relation [] before middle := Tracing.of_agrees agrees
  exact Tracing.mono (Tracing.trans related later)
    (List.sublist_append_right _ _)

/-- Something concerns no children first. -/
theorem seq
    {action : Analyser Result} {next : Result → Analyser Value}
    {between : Result → Analysis → Prop}
    (first : Traces relation [] action before between)
    (second : ∀ result middle, relation [] before middle →
      between result middle →
        TracesPart relation left children (next result) middle post) :
    TracesPart relation left children (action >>= next) before post := by
  apply Ensures.bind first
  rintro result middle ⟨related, holds⟩
  apply Ensures.mono (second result middle related holds)
  rintro value after ⟨taken, parts, later, holdsAfter⟩
  exact ⟨taken, parts, Tracing.trans related later, holdsAfter⟩

/-- Something is read first. -/
theorem read
    {action : Analyser Result} {next : Result → Analyser Value}
    {property : Result → Prop}
    (first : Quiet action property)
    (second : ∀ result middle, before.Agrees middle → property result →
      TracesPart relation left children (next result) middle post) :
    TracesPart relation left children (action >>= next) before post := by
  have quiet : Traces relation [] action before fun result middle =>
      before.Agrees middle ∧ property result :=
    .of_quiet first fun _ _ agrees holds => ⟨agrees, holds⟩
  exact seq quiet fun result middle _ facts =>
    second result middle facts.1 facts.2

/-- Some children come first, and those that are left come next. -/
theorem follow
    {action : Analyser Result} {leftOf : Result → List Node}
    {next : Result → Analyser Value} {between : Result → Analysis → Prop}
    (first : TracesPart relation leftOf children action before between)
    (second : ∀ result middle taken, relation (nodesOf taken) before middle →
      between result middle →
        TracesPart relation left (leftOf result) (next result) middle post) :
    TracesPart relation left children (action >>= next) before post := by
  apply Ensures.bind first
  rintro result middle ⟨taken, parts, related, holds⟩
  apply Ensures.mono (second result middle taken related holds)
  rintro value after ⟨more, moreParts, later, holdsAfter⟩
  refine ⟨taken ++ more, ?_, ?_, holdsAfter⟩
  · rw [List.append_assoc, moreParts, parts]
  · rw [nodesOf, List.flatMap_append]
    exact Tracing.trans related later

/-- The first children may have been read only. -/
theorem among
    {action : Analyser Value}
    (traces : TracesPart relation left rest action before post)
    (suffix : rest <:+ children) :
    TracesPart relation left children action before post := by
  obtain ⟨skipped, rfl⟩ := suffix
  apply Ensures.mono traces
  rintro value after ⟨taken, parts, related, holds⟩
  refine ⟨skipped ++ taken, by rw [List.append_assoc, parts], ?_, holds⟩
  apply Tracing.mono related
  rw [nodesOf, nodesOf, List.flatMap_append]
  exact List.sublist_append_right _ _

/-- What follows concerns the children that are left. -/
theorem bind
    {action : Analyser Result} {leftOf : Result → List Node}
    {next : Result → Analyser Value} {between : Result → Analysis → Prop}
    {following : Value → Analysis → Prop}
    (first : TracesPart relation leftOf children action before between)
    (second : ∀ result middle taken, relation (nodesOf taken) before middle →
      leftOf result <:+ children → between result middle →
        Traces relation (nodesOf (leftOf result)) (next result) middle
          following) :
    Traces relation (nodesOf children) (action >>= next) before following := by
  apply Ensures.bind first
  rintro result middle ⟨taken, parts, related, holds⟩
  refine Ensures.mono
    (second result middle taken related ⟨taken, parts⟩ holds) ?_
  rintro value after ⟨later, holdsAfter⟩
  refine ⟨?_, holdsAfter⟩
  rw [← parts, nodesOf, List.flatMap_append]
  exact Tracing.trans related later

end TracesPart

end Analyser

end LdpScore
