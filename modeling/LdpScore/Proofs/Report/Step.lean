import LdpScore.Proofs.Report.Place
import LdpScore.Proofs.Report.Reach

/-!
# What a step reports

Two things are known of the reports of a step.  They point to certain places, if
what was handed to the step lies there.  And if there are none, then the step has
taken every child that it passed for what it is.  `Discloses` states both, and steps
that tell what they report can be put together.
-/

namespace LdpScore.Analyser

variable {Value Result : Type}
variable {places : Location → Prop}

/-- A step reports problems at certain places only, and what waits was written
there.  It returns a value with some property, and one that it has accepted if it
reports nothing. -/
def Discloses
    (places : Location → Prop) (action : Analyser Value)
    (property accepted : Value → Prop) : Prop :=
  ∀ before : Analysis, before.pending.Lies places →
    Ensures action before fun value after =>
      after.pending.Lies places ∧ before.draft.ReportsAt places after.draft ∧
        property value ∧
        (after.draft.diagnostics = before.draft.diagnostics → accepted value)

/-- A step that returns nothing of interest. -/
abbrev Locates (places : Location → Prop) (action : Analyser Value) : Prop :=
  Discloses places action (fun _ => True) fun _ => True

namespace Discloses

variable {property accepted : Value → Prop}

theorem pure {value : Value} (holds : property value) (isAccepted : accepted value) :
    Discloses places (Pure.pure value) property accepted :=
  fun before lies => ⟨lies, .refl before.draft, holds, fun _ => isAccepted⟩

theorem bind
    {action : Analyser Result} {next : Result → Analyser Value}
    {between agreed : Result → Prop}
    (first : Discloses places action between agreed)
    (second : ∀ result, between result →
      Discloses places (next result) property fun value => agreed result → accepted value) :
    Discloses places (action >>= next) property accepted := by
  intro before lies
  apply (first before lies).bind
  rintro result middle ⟨liesBetween, reports, holds, agrees⟩
  apply (second result holds middle liesBetween).mono
  rintro value after ⟨liesAfter, more, isProper, accepts⟩
  refine ⟨liesAfter, reports.trans more, isProper, fun same => ?_⟩
  obtain ⟨sameBetween, sameAfter⟩ := reports.silent more same
  exact accepts sameAfter (agrees sameBetween)

theorem mono
    {action : Analyser Value} {weaker weakerAccepted : Value → Prop}
    (discloses : Discloses places action property accepted)
    (implies : ∀ value, property value → weaker value)
    (accepts : ∀ value, property value → accepted value → weakerAccepted value) :
    Discloses places action weaker weakerAccepted := by
  intro before lies
  obtain ⟨liesAfter, reports, holds, agrees⟩ := discloses before lies
  exact ⟨liesAfter, reports, implies _ holds, fun same => accepts _ holds (agrees same)⟩

/-- Less may be accepted. -/
theorem accepting
    {action : Analyser Value} {weaker : Value → Prop}
    (discloses : Discloses places action property accepted)
    (accepts : ∀ value, accepted value → weaker value) :
    Discloses places action property weaker :=
  discloses.mono (fun _ holds => holds) fun value _ => accepts value

theorem map
    {action : Analyser Result} {change : Result → Value} {between agreed : Result → Prop}
    (first : Discloses places action between agreed)
    (implies : ∀ result, between result → property (change result))
    (accepts : ∀ result, between result → agreed result → accepted (change result)) :
    Discloses places (change <$> action) property accepted := by
  intro before lies
  obtain ⟨liesAfter, reports, holds, agrees⟩ := first before lies
  exact ⟨liesAfter, reports, implies _ holds, fun same => accepts _ holds (agrees same)⟩

/-- The model that is read is the one at that moment, whatever that is. -/
theorem readModel {next : Model → Analyser Value}
    (discloses : ∀ model, Discloses places (next model) property accepted) :
    Discloses places (model >>= next) property accepted :=
  fun before lies => discloses before.draft.model before lies

/-- The context that is read is the one at that moment, whatever that is. -/
theorem readContext {next : Context → Analyser Value}
    (discloses : ∀ context, Discloses places (next context) property accepted) :
    Discloses places (context >>= next) property accepted :=
  fun before lies => discloses before.context before lies

theorem readPending {next : Pending → Analyser Value}
    (discloses : ∀ pending, Discloses places (next pending) property accepted) :
    Discloses places (pending >>= next) property accepted :=
  fun before lies => discloses before.pending before lies

end Discloses

/-- A step that accepts anything is followed by another one. -/
theorem Discloses.bindValue
    {action : Analyser Result} {next : Result → Analyser Value}
    {property accepted : Value → Prop} {returned : Result → Prop}
    (first : Discloses places action returned fun _ => True)
    (second : ∀ result, returned result → Discloses places (next result) property accepted) :
    Discloses places (action >>= next) property accepted :=
  first.bind fun result holds =>
    (second result holds).accepting fun _ accepts _ => accepts

theorem Locates.bind
    {action : Analyser Result} {next : Result → Analyser Value}
    {property accepted : Value → Prop} (first : Locates places action)
    (second : ∀ result, Discloses places (next result) property accepted) :
    Discloses places (action >>= next) property accepted :=
  Discloses.bindValue first fun result _ => second result

/-! ## Elementary steps -/

theorem locates_pure (value : Value) : Locates places (pure value) :=
  .pure trivial trivial

theorem locates_modifyContext (change : Context → Context) :
    Locates places (modifyContext change) :=
  fun before lies => ⟨lies, .refl before.draft, trivial, fun _ => trivial⟩

theorem locates_modifyModel (change : Model → Model) :
    Locates places (modifyModel change) :=
  fun _ lies => ⟨lies, .of_eq rfl, trivial, fun _ => trivial⟩

theorem locates_settle
    {change : Pending → Draft → Pending × Draft}
    (settles : ∀ pending draft, pending.Lies places →
      (change pending draft).1.Lies places ∧
        draft.ReportsAt places (change pending draft).2) :
    Locates places (settle change) := by
  intro before lies
  obtain ⟨liesAfter, reports⟩ := settles before.pending before.draft lies
  exact ⟨liesAfter, reports, trivial, fun _ => trivial⟩

theorem locates_clearPending : Locates places clearPending :=
  locates_settle fun _ draft lies => ⟨.empty, Pending.reportsAt_reportAll lies draft⟩

/-- After a report nothing is accepted any more. -/
theorem discloses_report {location : Location} (isPlace : places location) (problem : Problem) :
    Discloses places (report location problem) (fun _ => True) fun _ => False :=
  fun before lies => ⟨lies, .report before.draft isPlace problem, trivial, fun same =>
    Draft.diagnostics_report_ne before.draft location problem same⟩

/-- A step that reports something before it goes on may return anything. -/
theorem discloses_report_bind
    {location : Location} (isPlace : places location) (problem : Problem)
    {next : Unit → Analyser Value} {property accepted : Value → Prop}
    (later : Discloses places (next ()) property fun _ => True) :
    Discloses places (report location problem >>= next) property accepted :=
  (discloses_report isPlace problem).bind fun _ _ =>
    later.accepting fun _ _ impossible => impossible.elim

theorem discloses_reportMisplaced {child : Node} (lies : child.Lies places) :
    Discloses places (reportMisplaced child) (fun _ => True) fun _ => False :=
  discloses_report lies.location _

theorem discloses_reportMissing {parent : Node} (lies : parent.Lies places)
    (kind : ElementKind) :
    Discloses places (reportMissing parent kind) (fun _ => True) fun _ => False :=
  discloses_report lies.location _

theorem locates_reportMisplaced {child : Node} (lies : child.Lies places) :
    Locates places (reportMisplaced child) :=
  (discloses_reportMisplaced lies).accepting fun _ _ => trivial

theorem locates_report {location : Location} (isPlace : places location)
    (problem : Problem) : Locates places (report location problem) :=
  (discloses_report isPlace problem).accepting fun _ _ => trivial

/-- A problem with a node is reported, and another value is used instead. -/
theorem locates_replaced {node : Node} (lies : node.Lies places) (problem : Problem)
    (value : Value) :
    Locates places (do report node.location problem; return value) :=
  (locates_report lies.location problem).bind fun _ => locates_pure value

theorem locates_addObject {node : Node} (lies : node.Lies places)
    (anchor : Option Handle) (content : Content) :
    Locates places (addObject node anchor content) :=
  fun before pending => ⟨pending,
    before.draft.reportsAt_addObject node.id? lies.location anchor content,
    trivial, fun _ => trivial⟩

/-! ## Children -/

/-- All nodes in a list have been taken for what they are. -/
def AllRead (nodes : List Node) : Prop :=
  ∀ node ∈ nodes, node.IsRead

/-- The children that are no longer left have been taken for what they are. -/
def ReadTo (children rest : List Node) : Prop :=
  AllRead rest → AllRead children

/-- A step that reads some of the children and leaves the others. -/
abbrev ReadsFrom
    (places : Location → Prop) (children : List Node) (action : Analyser Value)
    (rest : Value → List Node) : Prop :=
  Discloses places action (fun value => Lie places (rest value)) fun value =>
    ReadTo children (rest value)

/-- A step that reads all of the children. -/
abbrev Consumes
    (places : Location → Prop) (children : List Node) (action : Analyser Value) : Prop :=
  Discloses places action (fun _ => True) fun _ => AllRead children

theorem AllRead.nil : AllRead [] :=
  fun _ impossible => absurd impossible List.not_mem_nil

theorem AllRead.cons {node : Node} {rest : List Node}
    (isRead : node.IsRead) (areRead : AllRead rest) : AllRead (node :: rest) :=
  List.forall_mem_cons.mpr ⟨isRead, areRead⟩

theorem ReadTo.refl (children : List Node) : ReadTo children children :=
  fun areRead => areRead

theorem ReadTo.trans {children middle rest : List Node}
    (first : ReadTo children middle) (second : ReadTo middle rest) :
    ReadTo children rest :=
  fun areRead => first (second areRead)

theorem ReadTo.cons {node : Node} {rest : List Node} (isRead : node.IsRead) :
    ReadTo (node :: rest) rest :=
  AllRead.cons isRead

section Reading

variable {children : List Node} {rest : Result → List Node}
variable {action : Analyser Result} {next : Result → Analyser Value}

/-- What has been read is followed by more that is read. -/
theorem ReadsFrom.bind {later : Value → List Node}
    (first : ReadsFrom places children action rest)
    (second : ∀ result, Lie places (rest result) →
      ReadsFrom places (rest result) (next result) later) :
    ReadsFrom places children (action >>= next) later :=
  Discloses.bind first fun result lie =>
    (second result lie).accepting fun _ readTo already => already.trans readTo

/-- What has been read is followed by all that is left. -/
theorem ReadsFrom.consume {property : Value → Prop}
    (first : ReadsFrom places children action rest)
    (second : ∀ result, Lie places (rest result) →
      Discloses places (next result) property fun _ => AllRead (rest result)) :
    Discloses places (action >>= next) property fun _ => AllRead children :=
  Discloses.bind first fun result lie =>
    (second result lie).accepting fun _ areRead already => already areRead

/-- What has been read is followed by a step that reads nothing. -/
theorem Consumes.bind
    (first : Consumes places children action) (second : ∀ result, Locates places (next result)) :
    Consumes places children (action >>= next) :=
  Discloses.bind first fun result _ =>
    (second result).accepting fun _ _ areRead => areRead

end Reading

theorem Consumes.map
    {children : List Node} {action : Analyser Result} (change : Result → Value)
    (consumes : Consumes places children action) :
    Consumes places children (change <$> action) :=
  Discloses.map consumes (fun _ _ => trivial) fun _ _ areRead => areRead

/-- A first child that has been read is followed by the others. -/
theorem Discloses.cons {child : Node} {others : List Node} {action : Analyser Value}
    {property : Value → Prop} {later : Value → List Node} (isRead : child.IsRead)
    (discloses : Discloses places action property fun value => ReadTo others (later value)) :
    Discloses places action property fun value => ReadTo (child :: others) (later value) :=
  discloses.accepting fun _ readTo => (ReadTo.cons isRead).trans readTo

/-- The analysis of a first child is followed by the others. -/
theorem Discloses.child
    {child : Node} {others : List Node} {action : Analyser Result}
    {next : Result → Analyser Value} {between : Result → Prop} {property : Value → Prop}
    {later : Value → List Node}
    (first : Discloses places action between fun _ => child.IsRead)
    (second : ∀ result, between result →
      Discloses places (next result) property fun value => ReadTo others (later value)) :
    Discloses places (action >>= next) property fun value =>
      ReadTo (child :: others) (later value) :=
  first.bind fun result holds =>
    (second result holds).accepting fun _ readTo isRead => (ReadTo.cons isRead).trans readTo

theorem ReadsFrom.cons {child : Node} {others : List Node} {action : Analyser Value}
    {later : Value → List Node} (isRead : child.IsRead)
    (reads : ReadsFrom places others action later) :
    ReadsFrom places (child :: others) action later :=
  Discloses.cons isRead reads

theorem Consumes.cons {child : Node} {others : List Node} {action : Analyser Value}
    (isRead : child.IsRead) (consumes : Consumes places others action) :
    Consumes places (child :: others) action :=
  Discloses.accepting consumes fun _ areRead => .cons isRead areRead

/-- A child whose analyser reads all of its children has been read. -/
theorem Consumes.isRead {node : Node} {kind : ElementKind} {action : Analyser Value}
    (consumes : Consumes places node.children action) (isKind : node.is kind) :
    Discloses places action (fun _ => True) fun _ => node.IsRead :=
  Discloses.accepting consumes fun _ areRead =>
    .of_is isKind (Node.sound_of_children areRead)

theorem ReadsFrom.of_readTo {children rest : List Node} {action : Analyser Value}
    {later : Value → List Node} (readTo : ReadTo children rest)
    (reads : ReadsFrom places rest action later) :
    ReadsFrom places children action later :=
  Discloses.accepting reads fun _ => readTo.trans

theorem Consumes.of_readTo {children rest : List Node} {action : Analyser Value}
    (readTo : ReadTo children rest) (consumes : Consumes places rest action) :
    Consumes places children action :=
  Discloses.accepting consumes fun _ areRead => readTo areRead

/-- Nothing is read. -/
theorem readsFrom_pure {children : List Node} {value : Value} {rest : Value → List Node}
    (same : rest value = children) (lie : Lie places children) :
    ReadsFrom places children (pure value) rest :=
  .pure (same ▸ lie) (same ▸ .refl children)

theorem discloses_reportExtra {node : Node} (lies : node.Lies places) (children : List Node) :
    Consumes places children (reportExtra node children) := by
  cases children with
  | nil => exact .pure trivial .nil
  | cons extra rest =>
      exact (discloses_report lies.location _).accepting fun _ impossible => impossible.elim

/-- A child was taken, or the first one is of another kind. -/
theorem take?_cases (kind : ElementKind) (children : List Node) :
    (∃ node rest, children = node :: rest ∧ node.is kind ∧
        take? kind children = (some node, rest)) ∨
      take? kind children = (none, children) := by
  cases children with
  | nil => exact .inr rfl
  | cons first rest =>
      by_cases isKind : first.is kind
      · exact .inl ⟨first, rest, rfl, isKind, by rw [take?, if_pos isKind]⟩
      · exact .inr (by rw [take?, if_neg isKind])

theorem lies_take? (kind : ElementKind) {children : List Node} (lie : Lie places children) :
    (∀ node ∈ (take? kind children).1, node.Lies places) ∧
      Lie places (take? kind children).2 := by
  rcases take?_cases kind children with ⟨node, rest, rfl, _, taken⟩ | notTaken
  · rw [taken]
    refine ⟨?_, lie.rest⟩
    rintro _ ⟨⟩
    exact lie.first
  · rw [notTaken]
    refine ⟨?_, lie⟩
    rintro _ ⟨⟩

/-- What a mandatory child is if it is not missing. -/
theorem discloses_mandatory {parent : Node} (liesParent : parent.Lies places)
    (kind : ElementKind) {children : List Node} (lie : Lie places children) :
    Discloses places (mandatory parent kind children)
      (fun result => (∀ node ∈ result.1, node.Lies places) ∧ Lie places result.2)
      fun result => ∃ node, result.1 = some node ∧ node.is kind ∧
        children = node :: result.2 := by
  have lies := lies_take? kind lie
  rw [mandatory]
  rcases take?_cases kind children with ⟨node, rest, rfl, isKind, taken⟩ | notTaken
  · rw [taken] at lies ⊢
    exact .pure lies ⟨node, rfl, isKind, rfl⟩
  · rw [notTaken] at lies ⊢
    exact (discloses_reportMissing liesParent kind).bind fun _ _ => .pure lies False.elim

section Mandatory

variable {parent : Node} {kind : ElementKind} {children : List Node}
variable {next : Option Node × List Node → Analyser Value}

/-- A mandatory child that is not missing counts as read once it is followed by a step
that accepts the other children. -/
theorem discloses_mandatory_bind
    {property : Value → Prop} {accepted : List Node → Value → Prop}
    (grows : ∀ (node : Node) (rest : List Node) (value : Value), node.IsRead →
      accepted rest value → accepted (node :: rest) value)
    (liesParent : parent.Lies places) (closed : kind.isClosed = true)
    (lie : Lie places children)
    (missing : ∀ rest, Lie places rest →
      Discloses places (next (none, rest)) property fun _ => True)
    (found : ∀ node rest, node.Lies places → Lie places rest →
      Discloses places (next (some node, rest)) property (accepted rest)) :
    Discloses places (mandatory parent kind children >>= next) property
      (accepted children) := by
  refine (discloses_mandatory liesParent kind lie).bind ?_
  rintro ⟨_ | node, rest⟩ ⟨liesNode, lieRest⟩
  · refine (missing rest lieRest).accepting fun _ _ already => ?_
    obtain ⟨node, impossible, _⟩ := already
    cases impossible
  · refine (found node rest (liesNode node rfl) lieRest).accepting
      fun value accepts already => ?_
    obtain ⟨_, ⟨⟩, isKind, isChildren⟩ := already
    rw [isChildren]
    exact grows node rest value (.of_closed isKind closed) accepts

/-- A mandatory child is followed by a step that reads the other children. -/
theorem consumes_mandatory
    (liesParent : parent.Lies places) (closed : kind.isClosed = true)
    (lie : Lie places children)
    (missing : ∀ rest, Lie places rest → Locates places (next (none, rest)))
    (found : ∀ node rest, node.Lies places → Lie places rest →
      Consumes places rest (next (some node, rest))) :
    Consumes places children (mandatory parent kind children >>= next) :=
  discloses_mandatory_bind (fun _ _ _ => AllRead.cons) liesParent closed lie missing found

/-- A mandatory child is followed by a step that reads some of the others. -/
theorem readsFrom_mandatory {later : Value → List Node}
    (liesParent : parent.Lies places) (closed : kind.isClosed = true)
    (lie : Lie places children)
    (missing : ∀ rest, Lie places rest →
      ReadsFrom places rest (next (none, rest)) later)
    (found : ∀ node rest, node.Lies places → Lie places rest →
      ReadsFrom places rest (next (some node, rest)) later) :
    ReadsFrom places children (mandatory parent kind children >>= next) later :=
  discloses_mandatory_bind (fun _ _ _ isRead => (ReadTo.cons isRead).trans) liesParent
    closed lie (fun rest lie => (missing rest lie).accepting fun _ _ => trivial) found

/-- Whether the child is missing or not, the others are read after it. -/
theorem consumes_mandatory_any
    (liesParent : parent.Lies places) (closed : kind.isClosed = true)
    (lie : Lie places children)
    (either : ∀ found rest, (∀ node ∈ found, node.Lies places) → Lie places rest →
      Consumes places rest (next (found, rest))) :
    Consumes places children (mandatory parent kind children >>= next) := by
  refine consumes_mandatory liesParent closed lie (fun rest lie => ?_)
    fun node rest lies => either (some node) rest ?_
  · refine (either none rest ?_ lie).accepting fun _ _ => trivial
    rintro _ ⟨⟩
  · rintro _ ⟨⟩
    exact lies

/-- Whether the child is missing or not, some of the others are read after it. -/
theorem readsFrom_mandatory_any {later : Value → List Node}
    (liesParent : parent.Lies places) (closed : kind.isClosed = true)
    (lie : Lie places children)
    (either : ∀ found rest, (∀ node ∈ found, node.Lies places) → Lie places rest →
      ReadsFrom places rest (next (found, rest)) later) :
    ReadsFrom places children (mandatory parent kind children >>= next) later := by
  refine readsFrom_mandatory liesParent closed lie (fun rest => either none rest ?_)
    fun node rest lies => either (some node) rest ?_
  · rintro _ ⟨⟩
  · rintro _ ⟨⟩
    exact lies

end Mandatory

theorem readTo_take? (kind : ElementKind) (closed : kind.isClosed = true)
    (children : List Node) : ReadTo children (take? kind children).2 := by
  rcases take?_cases kind children with ⟨node, rest, rfl, isKind, taken⟩ | notTaken
  · rw [taken]
    exact .cons (.of_closed isKind closed)
  · rw [notTaken]
    exact .refl children

theorem locates_analyseOptional {analyser : Node → Analyser Unit} {found : Option Node}
    (lies : ∀ node ∈ found, node.Lies places)
    (each : ∀ node : Node, node.Lies places → Locates places (analyser node)) :
    Locates places (analyseOptional analyser found) := by
  cases found with
  | none => exact locates_pure _
  | some node => exact each node (lies node rfl)

theorem consumes_analyseEach
    {analyserOf : ElementKind → Option (Node → Analyser Unit)}
    (each : ∀ kind analyser node, analyserOf kind = some analyser → node.is kind →
      node.Lies places → Discloses places (analyser node) (fun _ => True) fun _ => node.IsRead)
    {children : List Node} (lie : Lie places children) :
    Consumes places children (analyseEach analyserOf children) := by
  induction children with
  | nil => exact .pure trivial .nil
  | cons child rest induction =>
      rw [analyseEach]
      split
      · rename_i analyser isAnalyser
        obtain ⟨kind, isKind, known⟩ := Option.bind_eq_some_iff.mp isAnalyser
        refine (each kind analyser child known (beq_iff_eq.mpr isKind) lie.first).bind
          fun _ _ => ?_
        exact (induction lie.rest).accepting fun _ areRead isRead => .cons isRead areRead
      · refine (discloses_reportMisplaced lie.first).bind fun _ _ => ?_
        exact (induction lie.rest).accepting fun _ _ impossible => impossible.elim

/-! ## Values of leaves -/

section Values

variable {node : Node}

theorem locates_integerValue (lies : node.Lies places) (default : Int) :
    Locates places (integerValue node default) := by
  rw [integerValue]
  split
  · exact locates_pure _
  · exact locates_replaced lies _ _

theorem locates_boundedValue (interval : Interval) (lies : node.Lies places)
    (default : Int) : Locates places (boundedValue interval node default) := by
  rw [boundedValue]
  split
  · exact locates_pure _
  · exact locates_replaced lies _ _

theorem locates_numberValue (lies : node.Lies places) (default : Int) :
    Locates places (numberValue node default) :=
  locates_boundedValue signedInterval lies default

theorem locates_countValue (lies : node.Lies places) (default : Nat) :
    Locates places (countValue node default) := by
  rw [countValue]
  exact (locates_boundedValue countInterval lies default).bind fun _ => locates_pure _

theorem locates_realValue (lies : node.Lies places) : Locates places (realValue node) := by
  rw [realValue]
  split
  · exact locates_pure _
  · exact locates_replaced lies _ _

theorem locates_boolValue (lies : node.Lies places) (default : Bool) :
    Locates places (boolValue node default) := by
  rw [boolValue]
  split
  case h_5 => exact locates_replaced lies _ _
  all_goals exact locates_pure _

theorem locates_yesNoValue (lies : node.Lies places) :
    Locates places (yesNoValue node) := by
  rw [yesNoValue]
  split
  case h_3 => exact locates_replaced lies _ _
  all_goals exact locates_pure _

theorem locates_placementValue (lies : node.Lies places) (fallback : Placement) :
    Locates places (placementValue node fallback) := by
  unfold placementValue
  split
  case h_3 => exact locates_replaced lies _ _
  all_goals exact locates_pure _

theorem locates_alignmentValue (lies : node.Lies places) :
    Locates places (alignmentValue node) := by
  rw [alignmentValue]
  split
  · exact locates_pure _
  · exact locates_replaced lies _ _

theorem locates_noteValue (lies : node.Lies places) : Locates places (noteValue node) := by
  rw [noteValue]
  split
  · exact locates_pure _
  · exact locates_replaced lies _ _

theorem locates_staffLabel (lies : node.Lies places) : Locates places (staffLabel node) := by
  unfold staffLabel
  dsimp only
  split
  · exact locates_modifyContext _
  · exact (locates_report lies.location _).bind fun _ => locates_modifyContext _

theorem locates_voiceLabel (lies : node.Lies places) : Locates places (voiceLabel node) := by
  unfold voiceLabel
  dsimp only
  split
  · exact locates_modifyContext _
  · exact (locates_report lies.location _).bind fun _ => locates_modifyContext _

/-- The value of a property is one of its children. -/
theorem discloses_propertyValue (lies : node.Lies places) (kind : ElementKind) :
    Discloses places (propertyValue node kind)
      (fun value => ∀ child ∈ value, child.Lies places) fun _ => True := by
  have liesValue : ∀ child ∈ node.children.head?, child.Lies places :=
    fun _ isFirst => lies.children.head? isFirst
  rw [propertyValue]
  dsimp only
  split
  · exact (locates_report lies.location _).bind fun _ => .pure liesValue trivial
  · exact .pure liesValue trivial

end Values

end LdpScore.Analyser
