import LdpScore.Proofs.Analysis.Moment

/-!
# What reading yields

Much of what an analysis returns does not depend on its state.  `Yields` says what
it is: which counts and modifications are read, and whether the element of a
relation gives a descriptor.
-/

namespace LdpScore

namespace Analyser

variable {Value Result : Type}

/-- What a step returns has some property, whatever the state before it. -/
def Yields (action : Analyser Value) (property : Value → Prop) : Prop :=
  ∀ state, property (action.run state).run.1

namespace Yields

variable {property : Value → Prop}

theorem pure {value : Value} (holds : property value) :
    Yields (Pure.pure value) property :=
  fun _ => holds

theorem bind
    {action : Analyser Result} {next : Result → Analyser Value}
    {between : Result → Prop}
    (first : Yields action between)
    (second : ∀ result, between result → Yields (next result) property) :
    Yields (action >>= next) property :=
  fun state => second _ (first state) _

/-- It may not matter what comes first. -/
theorem after
    {action : Analyser Result} {next : Result → Analyser Value}
    (second : ∀ result, Yields (next result) property) :
    Yields (action >>= next) property :=
  fun _ => second _ _

theorem mono
    {action : Analyser Value} {weaker : Value → Prop}
    (yields : Yields action property)
    (implies : ∀ value, property value → weaker value) :
    Yields action weaker :=
  fun state => implies _ (yields state)

/-- What a step returns is what it returns in some state. -/
theorem witnessed
    {action : Analyser Value} (yields : Yields action property) :
    Yields action fun value =>
      property value ∧ ∃ state, (action.run state).run.1 = value :=
  fun state => ⟨yields state, state, rfl⟩

end Yields

/-! ## Values -/

/-- The count that a node gives, if it is one. -/
def countOf (node : Node) (default : Nat) : Nat :=
  ((countInterval.read? node.text).getD default).toNat

/-- A count fits into 32 bits. -/
theorem countOf_le
    {node : Node} {default : Nat} (fits : default ≤ maxCount) :
    countOf node default ≤ maxCount := by
  rw [countOf]
  cases value : countInterval.read? node.text with
  | none => simpa using fits
  | some number =>
      rw [Interval.read?] at value
      split at value
      · split at value
        · rename_i inside
          cases value
          have bound : number ≤ 0xffffffff := inside.2
          rw [Option.getD_some, maxCount]
          omega
        · cases value
      · cases value

theorem yields_boundedValue
    (interval : Interval) (node : Node) (default : Int) :
    Yields (boundedValue interval node default) fun value =>
      value = (interval.read? node.text).getD default := by
  rw [boundedValue]
  split
  · rename_i number isNumber
    rw [isNumber]
    exact .pure rfl
  · rename_i noNumber
    rw [noNumber]
    exact .after fun _ => .pure rfl

theorem yields_countValue (node : Node) (default : Nat) :
    Yields (countValue node default) fun count =>
      count = countOf node default := by
  rw [countValue]
  refine (yields_boundedValue countInterval node default).bind ?_
  rintro count rfl
  exact .pure rfl

theorem yields_mandatory
    (parent : Node) (kind : ElementKind) (children : List Node) :
    Yields (mandatory parent kind children) fun result =>
      result = take? kind children := by
  rw [mandatory]
  rcases take? kind children with ⟨_ | node, rest⟩
  · exact .after fun _ => .pure rfl
  · exact .pure rfl

/-- The modification that an element gives: the first two of its children are
numbers. -/
def modificationOf? (node : Node) : Option TimeModification :=
  match take? .number node.children with
  | (some top, rest) =>
      match take? .number rest with
      | (some bottom, _) => some ⟨countOf top 1, countOf bottom 1⟩
      | (none, _) => none
  | (none, _) => none

theorem yields_analyseTimeModification (node : Node) :
    Yields (analyseTimeModification node) fun result =>
      result = modificationOf? node := by
  rw [analyseTimeModification, modificationOf?]
  refine (yields_mandatory node .number node.children).bind ?_
  rintro result rfl
  rcases take? .number node.children with ⟨_ | top, rest⟩
  · exact .pure rfl
  · dsimp only
    refine (yields_countValue top 1).bind ?_
    rintro count rfl
    refine (yields_mandatory node .number rest).bind ?_
    rintro result rfl
    rcases take? .number rest with ⟨_ | bottom, rest⟩
    · exact .pure rfl
    · refine (yields_countValue bottom 1).bind ?_
      rintro count rfl
      exact .after fun _ => .pure rfl

end Analyser

namespace Node

/-- The normal count of a tuplet: the one that is given, or the usual one. -/
def normalCount (actual : Nat) (children : List Node) : Nat :=
  match (Analyser.take? .number children).1 with
  | some node => Analyser.countOf node 0
  | none => (Tuplet.defaultNormal? actual).getD 0

/-- The counts that start a tuplet, actual and normal; nothing if one cannot be
found. -/
def countsOf? (children : List Node) : Option (Nat × Nat) :=
  match Analyser.take? .number children with
  | (none, _) => none
  | (some node, rest) =>
      let actual := Analyser.countOf node 0
      let normal := normalCount actual rest
      if normal = 0 then none else some (actual, normal)

end Node

/-- The counts of a descriptor of a tuplet fit into 32 bits. -/
structure CountsFit (point : TupletPoint) : Prop where
  actual : point.actual ≤ maxCount
  normal : point.normal ≤ maxCount

namespace Analyser

theorem defaultNormal?_le (actual : Nat) :
    (Tuplet.defaultNormal? actual).getD 0 ≤ maxCount := by
  unfold Tuplet.defaultNormal?
  split <;> decide

theorem normalCount_le (actual : Nat) (children : List Node) :
    Node.normalCount actual children ≤ maxCount := by
  unfold Node.normalCount
  split
  · exact countOf_le (Nat.zero_le _)
  · exact defaultNormal?_le actual

/-- Counts that are found fit, and the normal one is not zero. -/
theorem countsOf?_facts
    {children : List Node} {counts : Nat × Nat}
    (found : Node.countsOf? children = some counts) :
    counts.1 ≤ maxCount ∧ counts.2 ≤ maxCount ∧ 1 ≤ counts.2 := by
  unfold Node.countsOf? at found
  split at found
  · cases found
  · dsimp only at found
    split at found
    · cases found
    · rename_i notZero
      cases found
      exact ⟨countOf_le (Nat.zero_le _), normalCount_le .., Nat.pos_of_ne_zero notZero⟩

/-- The counts of a tuplet are those that its children give. -/
theorem yields_tupletCounts (node : Node) (children : List Node) :
    Yields (tupletCounts node children) fun result =>
      result.1 = Node.countsOf? children := by
  have counted : ∀ (actual normal : Nat) (rest : List Node),
      Yields (if normal = 0 then do
          report node.location .missingNormalNotes
          return ((none : Option (Nat × Nat)), rest)
        else return (some (actual, normal), rest)) fun result =>
          result.1 = if normal = 0 then none else some (actual, normal) := by
    intro actual normal rest
    split
    · exact .after fun _ => .pure rfl
    · exact .pure rfl
  rw [tupletCounts, Node.countsOf?]
  rcases take? .number children with ⟨_ | actualNode, rest⟩
  · exact .after fun _ => .pure rfl
  · refine (yields_countValue actualNode 0).bind ?_
    rintro actual rfl
    dsimp only
    rw [Node.normalCount]
    rcases take? .number rest with ⟨_ | normalNode, rest⟩
    · simp only [pure_bind]
      exact counted _ _ _
    · refine (yields_countValue normalNode 0).bind ?_
      rintro normal rfl
      simp only [pure_bind]
      exact counted _ _ _

end Analyser

/-! ## Elements that give descriptors -/

namespace Node

/-- What stands after the correlation number of a relation. -/
def afterNumber (node : Node) : List Node :=
  (Analyser.take? .number node.children).2

/-- Whether an element of a tuplet starts one. -/
def startsTuplet (node : Node) : Bool :=
  Analyser.labelText? node.afterNumber == some "+"

/-- The counts that an element of a tuplet gives when it starts one. -/
def startCounts? (node : Node) : Option (Nat × Nat) :=
  countsOf? node.afterNumber.tail

/-- Whether a tie starts or stops. -/
def tieStarts? (node : Node) : Option Bool :=
  match Analyser.labelText? node.afterNumber with
  | some "start" => some true
  | some "stop" => some false
  | _ => none

def slurPhase? (node : Node) : Option Phase :=
  match Analyser.labelText? node.afterNumber with
  | some "start" => some .start
  | some "continue" => some .continue
  | some "stop" => some .stop
  | _ => none

def beamLevels? (node : Node) : Option BeamLevels :=
  (Analyser.labelText? node.afterNumber).bind fun text =>
    BeamLevels.ofText? text.toList

def givesTie (node : Node) : Bool :=
  node.tieStarts?.isSome

def givesSlur (node : Node) : Bool :=
  node.slurPhase?.isSome

/-- A beam needs a number and the marks of its levels. -/
def givesBeam (node : Node) : Bool :=
  (Analyser.take? .number node.children).1.isSome && node.beamLevels?.isSome

/-- The start of a tuplet needs two counts, its stop nothing. -/
def givesTuplet (node : Node) : Bool :=
  match Analyser.labelText? node.afterNumber with
  | some "+" =>
      match Analyser.take? .number node.afterNumber.tail with
      | (some actual, rest) =>
          normalCount (Analyser.countOf actual 0) rest != 0
      | (none, _) => false
  | some "-" => true
  | _ => false

theorem givesTuplet_of_start {node : Node}
    (isStart : Analyser.labelText? node.afterNumber = some "+") :
    node.givesTuplet = node.startCounts?.isSome := by
  simp only [givesTuplet, isStart, startCounts?, countsOf?]
  rcases Analyser.take? .number node.afterNumber.tail with ⟨_ | actual, rest⟩
  · rfl
  · dsimp only
    split <;> simp_all

theorem givesTuplet_of_stop {node : Node}
    (isStop : Analyser.labelText? node.afterNumber = some "-") :
    node.givesTuplet = true := by
  simp only [givesTuplet, isStop]

theorem givesTuplet_of_neither {node : Node}
    (noStart : Analyser.labelText? node.afterNumber ≠ some "+")
    (noStop : Analyser.labelText? node.afterNumber ≠ some "-") :
    node.givesTuplet = false := by
  rw [givesTuplet]
  split
  · exact absurd ‹_› noStart
  · exact absurd ‹_› noStop
  · rfl

end Node

/-- The descriptor that the element of a tuplet gives: a start has the counts of the
element, and a stop has none. -/
inductive TupletPoint.IsOf (node : Node) (point : TupletPoint) : Prop where
  | start (isStart : point.phase = .start) (starts : node.startsTuplet)
      (counts : node.startCounts? = some (point.actual, point.normal))
  | stop (isStop : point.phase = .stop) (noActual : point.actual = 0)
      (noNormal : point.normal = 0)

namespace TupletPoint.IsOf

variable {node : Node} {point : TupletPoint}

theorem fits (isOf : point.IsOf node) : CountsFit point := by
  cases isOf with
  | start _ _ counts =>
      obtain ⟨actual, normal, _⟩ := Analyser.countsOf?_facts counts
      exact ⟨actual, normal⟩
  | stop _ noActual noNormal =>
      exact ⟨noActual ▸ Nat.zero_le _, noNormal ▸ Nat.zero_le _⟩

theorem noContinue (isOf : point.IsOf node) : point.phase ≠ .continue := by
  cases isOf with
  | start isStart => simp [isStart]
  | stop isStop => simp [isStop]

end TupletPoint.IsOf

namespace Analyser

variable (node : Node) (handle : Handle)

theorem yields_curveNumber (node : Node) :
    Yields (curveNumber node node.children) fun result =>
      result.2 = node.afterNumber := by
  rw [curveNumber, Node.afterNumber]
  refine (yields_mandatory node .number node.children).bind ?_
  rintro result rfl
  rcases take? .number node.children with ⟨_ | number, rest⟩
  · exact .pure rfl
  · exact .after fun _ => .pure rfl

theorem yields_analyseTie :
    Yields (analyseTie node (some handle)) fun result =>
      result.isSome = node.givesTie := by
  rw [analyseTie]
  refine (yields_curveNumber node).bind ?_
  rintro ⟨number, rest⟩ rfl
  dsimp only
  split
  · rename_i noPhase
    have noPhase : node.tieStarts? = none := noPhase
    refine .after fun _ => .pure ?_
    rw [Node.givesTie, noPhase]
    rfl
  · rename_i isStart isPhase
    have isPhase : node.tieStarts? = some isStart := isPhase
    refine .after fun _ => .pure ?_
    rw [Node.givesTie, isPhase]
    rfl

theorem yields_analyseSlur :
    Yields (analyseSlur node (some handle)) fun result =>
      result.isSome = node.givesSlur := by
  rw [analyseSlur]
  refine (yields_curveNumber node).bind ?_
  rintro ⟨number, rest⟩ rfl
  dsimp only
  split
  · rename_i noPhase
    have noPhase : node.slurPhase? = none := noPhase
    refine .after fun _ => .pure ?_
    rw [Node.givesSlur, noPhase]
    rfl
  · rename_i phase isPhase
    have isPhase : node.slurPhase? = some phase := isPhase
    refine .after fun _ => .pure ?_
    rw [Node.givesSlur, isPhase]
    rfl

theorem yields_analyseBeam :
    Yields (analyseBeam node (some handle)) fun result =>
      result.isSome = node.givesBeam := by
  rw [analyseBeam, Node.givesBeam, Node.beamLevels?, Node.afterNumber]
  rcases take? .number node.children with ⟨_ | number, rest⟩
  · exact .after fun _ => .pure rfl
  · refine .after fun value => ?_
    dsimp only
    split
    · rename_i noLevels
      refine .after fun _ => .pure ?_
      rw [noLevels]
      rfl
    · rename_i levels areLevels
      refine .pure ?_
      rw [areLevels]
      rfl

theorem yields_tupletNumber (node : Node) :
    Yields (tupletNumber node.children) fun result =>
      result.2 = node.afterNumber := by
  rw [tupletNumber, Node.afterNumber]
  rcases take? .number node.children with ⟨_ | number, rest⟩
  · exact .pure rfl
  · exact .after fun _ => .after fun _ => .pure rfl

/-- A descriptor of a tuplet comes from its element. -/
theorem yields_analyseTuplet (anchor : Option Handle) :
    Yields (analyseTuplet node anchor) fun result =>
      ∀ point, result = some point → point.IsOf node := by
  rw [analyseTuplet]
  refine .after fun initial => (yields_tupletNumber node).bind ?_
  rintro ⟨number, rest⟩ rfl
  dsimp only
  split
  · rename_i isStart
    have starts : node.startsTuplet := beq_iff_eq.mpr isStart
    refine (yields_tupletCounts node _).bind ?_
    rintro ⟨_ | ⟨actual, normal⟩, rest⟩ counts
    · refine .pure ?_
      rintro point ⟨⟩
    · refine .after fun _ => .after fun _ => .pure ?_
      intro point given
      obtain ⟨noteRest, _, rfl⟩ := Option.map_eq_some_iff.mp given
      exact .start rfl starts counts.symm
  · refine .pure ?_
    intro point given
    obtain ⟨noteRest, _, rfl⟩ := Option.map_eq_some_iff.mp given
    exact .stop rfl rfl rfl
  · refine .after fun _ => .pure ?_
    rintro point ⟨⟩

theorem yields_analyseTuplet_isSome :
    Yields (analyseTuplet node (some handle)) fun result =>
      result.isSome = node.givesTuplet := by
  rw [analyseTuplet]
  refine .after fun initial => (yields_tupletNumber node).bind ?_
  rintro ⟨number, rest⟩ rfl
  dsimp only
  split
  · rename_i isStart
    rw [Node.givesTuplet_of_start isStart]
    refine (yields_tupletCounts node _).bind ?_
    rintro ⟨_ | ⟨actual, normal⟩, rest⟩ counts
    · exact .pure (congrArg Option.isSome counts)
    · exact .after fun _ => .after fun _ => .pure (congrArg Option.isSome counts)
  · rename_i isStop
    rw [Node.givesTuplet_of_stop isStop]
    exact .pure rfl
  · rename_i noStart noStop
    rw [Node.givesTuplet_of_neither noStart noStop]
    exact .after fun _ => .pure rfl

end Analyser

end LdpScore
