import LdpScore.Analysis
import LdpScore.Proofs.Analysis.Tracing
import LdpScore.Proofs.Relation.Curve
import LdpScore.Proofs.Relation.Reporting

/-!
# Where reports point

A location that is written down for later, with a descriptor or with the start of
a legacy tie or beam, is where a problem is reported when nothing answers it.
Whatever the builders are offered, they report at such locations only.  The
locations themselves do not matter here: `places` is any condition on them.
-/

namespace LdpScore

variable {places : Location → Prop}

/-! ## Trees -/

/-- A node lies at certain places, and so does all that is below it. -/
def Node.Lies (places : Location → Prop) (node : Node) : Prop :=
  ∀ part ∈ node.nodes, places part.location

/-- All nodes in a list lie at certain places. -/
def Lie (places : Location → Prop) (nodes : List Node) : Prop :=
  ∀ node ∈ nodes, node.Lies places

namespace Node.Lies

theorem location {node : Node} (lies : node.Lies places) : places node.location :=
  lies node (by rw [nodes_eq]; exact List.mem_cons_self)

theorem children {node : Node} (lies : node.Lies places) : Lie places node.children := by
  intro child isChild part isPart
  refine lies part ?_
  rw [nodes_eq]
  exact List.mem_cons_of_mem _ (List.mem_flatMap.mpr ⟨child, isChild, isPart⟩)

theorem element
    {name : String} {id : Option Int} {children : List Node} {location : Location}
    (isPlace : places location) (lie : Lie places children) :
    (Node.element name id children location).Lies places := by
  intro part isPart
  rw [nodes_eq] at isPart
  rcases List.mem_cons.mp isPart with rfl | below
  · exact isPlace
  · obtain ⟨child, isChild, isBelow⟩ := List.mem_flatMap.mp below
    exact lie child isChild part isBelow

theorem leaf
    {kind : LeafKind} {text : String} {location : Location}
    (isPlace : places location) : (Node.leaf kind text location).Lies places := by
  intro part isPart
  rw [nodes_eq] at isPart
  obtain rfl := List.mem_singleton.mp isPart
  exact isPlace

end Node.Lies

namespace Lie

variable {nodes others : List Node}

theorem nil : Lie places [] :=
  fun _ impossible => absurd impossible List.not_mem_nil

theorem first {node : Node} (lie : Lie places (node :: others)) : node.Lies places :=
  lie node List.mem_cons_self

theorem rest {node : Node} (lie : Lie places (node :: others)) : Lie places others :=
  fun other listed => lie other (List.mem_cons_of_mem _ listed)

theorem suffix (lie : Lie places nodes) (suffix : others <:+ nodes) : Lie places others :=
  fun node listed => lie node (suffix.subset listed)

theorem head? (lie : Lie places nodes) {node : Node}
    (isFirst : nodes.head? = some node) : node.Lies places :=
  lie node (List.mem_of_mem_head? isFirst)

end Lie

/-! ## Reports -/

namespace Draft

/-- Nothing is reported but problems at certain places, after what was reported
before. -/
def ReportsAt (places : Location → Prop) (before after : Draft) : Prop :=
  ∃ reports : List Diagnostic,
    after.diagnostics.toList = before.diagnostics.toList ++ reports ∧
      ∀ diagnostic ∈ reports, places diagnostic.location

namespace ReportsAt

variable {first middle last before after : Draft}

theorem of_eq (same : after.diagnostics = before.diagnostics) :
    ReportsAt places before after :=
  ⟨[], by rw [same, List.append_nil], fun _ impossible =>
    absurd impossible List.not_mem_nil⟩

theorem refl (draft : Draft) : ReportsAt places draft draft :=
  of_eq rfl

theorem trans
    (earlier : ReportsAt places first middle) (later : ReportsAt places middle last) :
    ReportsAt places first last := by
  obtain ⟨reports, isMiddle, atPlaces⟩ := earlier
  obtain ⟨more, isLast, moreAtPlaces⟩ := later
  refine ⟨reports ++ more, by rw [isLast, isMiddle, List.append_assoc], ?_⟩
  intro diagnostic listed
  exact (List.mem_append.mp listed).elim (atPlaces _) (moreAtPlaces _)

theorem report
    (draft : Draft) {location : Location} (isPlace : places location)
    (problem : Problem) :
    ReportsAt places draft (draft.report location problem) := by
  refine ⟨[⟨problem, location⟩], Array.toList_push .., ?_⟩
  intro diagnostic listed
  rw [List.mem_singleton.mp listed]
  exact isPlace

theorem keepsReports (reports : ReportsAt places before after) :
    before.KeepsReports after := by
  obtain ⟨added, isAfter, _⟩ := reports
  exact ⟨added, isAfter.symm⟩

/-- Of two steps that report nothing together, neither does. -/
theorem silent
    (earlier : ReportsAt places first middle) (later : ReportsAt places middle last)
    (same : last.diagnostics = first.diagnostics) :
    middle.diagnostics = first.diagnostics ∧
      last.diagnostics = middle.diagnostics := by
  have between : middle.diagnostics = first.diagnostics := by
    apply Array.toList_inj.mp
    refine (earlier.keepsReports.eq_of_length_le ?_).symm
    exact same ▸ later.keepsReports.length_le
  exact ⟨between, same.trans between.symm⟩

/-- What is done over and over. -/
theorem foldl
    {Item : Type} {step : Draft → Item → Draft} {items : List Item}
    (each : ∀ (draft : Draft), ∀ item ∈ items, ReportsAt places draft (step draft item))
    (draft : Draft) : ReportsAt places draft (items.foldl step draft) := by
  induction items generalizing draft with
  | nil => exact .refl draft
  | cons item rest induction =>
      rw [List.foldl_cons]
      refine (each draft item List.mem_cons_self).trans (induction ?_ _)
      exact fun draft other listed => each draft other (List.mem_cons_of_mem _ listed)

end ReportsAt

/-- A report is a change. -/
theorem diagnostics_report_ne (draft : Draft) (location : Location) (problem : Problem) :
    (draft.report location problem).diagnostics ≠ draft.diagnostics := by
  intro same
  have longer := congrArg Array.size same
  rw [report, Array.size_push] at longer
  exact Nat.succ_ne_self _ longer

theorem reportsAt_addObject
    (draft : Draft) (wanted : Option Int) {location : Location}
    (isPlace : places location) (parent : Option Handle) (content : Content) :
    draft.ReportsAt places (draft.addObject wanted location parent content).2 := by
  rw [addObject, assignId]
  rcases draft.ids.assign wanted with ⟨_ | _, _⟩
  · exact .of_eq rfl
  · exact .report draft isPlace _

end Draft

/-! ## Descriptors that are paired -/

namespace Pairing

variable {Point : Type} [Descriptor Point]

/-- Descriptors are written at certain places. -/
def Lie (places : Location → Prop) (points : List Point) : Prop :=
  ∀ point ∈ points, places (location point)

theorem Lie.nil : Lie places ([] : List Point) :=
  fun _ impossible => absurd impossible List.not_mem_nil

theorem Lie.append
    {points more : List Point} (lie : Lie places points) (also : Lie places more) :
    Lie places (points ++ more) :=
  fun point listed => (List.mem_append.mp listed).elim (lie point) (also point)

theorem Lie.singleton {point : Point} (isPlace : places (location point)) :
    Lie places [point] := by
  intro other listed
  rw [List.mem_singleton.mp listed]
  exact isPlace

/-- A descriptor is rejected where it is written, and otherwise it is the chain that
may come to nothing. -/
theorem lies_settleWith
    {link : List Point → Draft → Draft}
    (links : ∀ {chain}, Lie places chain → ∀ draft : Draft,
      draft.ReportsAt places (link chain draft))
    (relation : PairedRelation) {pending : List Point} {point : Point}
    (lie : Lie places pending) (isPlace : places (location point)) (draft : Draft) :
    Lie places (settleWith link relation pending point draft).1 ∧
      draft.ReportsAt places (settleWith link relation pending point draft).2 := by
  have among : ∀ keep : Point → Bool, Lie places (pending.filter keep) :=
    fun keep other listed => lie other ((List.mem_filter.mp listed).1)
  rcases offer_cases pending point with
    ⟨reason, rejected⟩ | ⟨waits, _⟩ | ⟨complete, _⟩
  · rw [settleWith_of_rejected link relation draft rejected]
    exact ⟨lie, .report draft isPlace _⟩
  · rw [settleWith_of_waiting link relation draft waits]
    exact ⟨lie.append (.singleton isPlace), .refl draft⟩
  · rw [settleWith_of_complete link relation draft complete]
    exact ⟨among _, links ((among _).append (.singleton isPlace)) draft⟩

theorem mem_of_mem_firstOfEach
    {reported : List Int} {points : List Point} {point : Point}
    (listed : point ∈ firstOfEach reported points) : point ∈ points := by
  induction points generalizing reported with
  | nil => exact listed
  | cons first rest induction =>
      rw [firstOfEach] at listed
      split at listed
      · exact List.mem_cons_of_mem _ (induction listed)
      · rcases List.mem_cons.mp listed with rfl | later
        · exact List.mem_cons_self
        · exact List.mem_cons_of_mem _ (induction later)

theorem reportsAt_clear
    (relation : PairedRelation) {pending : List Point} (lie : Lie places pending)
    (draft : Draft) : draft.ReportsAt places (clear relation pending draft) := by
  rw [clear]
  exact .foldl (fun draft point listed =>
    .report draft (lie point (mem_of_mem_firstOfEach listed)) _) draft

end Pairing

/-! ## The builders -/

section Builders

variable {draft : Draft}

theorem Tie.reportsAt_linkChain {chain : List TiePoint}
    (lie : Pairing.Lie places chain) (draft : Draft) :
    draft.ReportsAt places (linkChain chain draft) := by
  unfold linkChain
  split
  · dsimp only
    split
    · exact .of_eq (diagnostics_link ..)
    · refine .report draft (lie _ ?_) _
      exact List.mem_cons_of_mem _ (List.getLast_mem _)
  · exact .refl draft

theorem Tie.lies_add {pending : List TiePoint} {point : TiePoint}
    (lie : Pairing.Lie places pending) (isPlace : places point.location) (draft : Draft) :
    Pairing.Lie places (add pending point draft).1 ∧
      draft.ReportsAt places (add pending point draft).2 := by
  rw [add_eq_settleWith]
  exact Pairing.lies_settleWith reportsAt_linkChain .tie lie isPlace draft

theorem Slur.lies_add {pending : List SlurPoint} {point : SlurPoint}
    (lie : Pairing.Lie places pending) (isPlace : places point.location) (draft : Draft) :
    Pairing.Lie places (add pending point draft).1 ∧
      draft.ReportsAt places (add pending point draft).2 := by
  rw [add_eq_settleWith]
  exact Pairing.lies_settleWith
    (fun _ draft => .of_eq (diagnostics_linkChain _ draft)) .slur lie isPlace draft

theorem Beam.lies_add {pending : List BeamPoint} {point : BeamPoint}
    (lie : Pairing.Lie places pending) (isPlace : places point.location) (draft : Draft) :
    Pairing.Lie places (add pending point draft).1 ∧
      draft.ReportsAt places (add pending point draft).2 := by
  rw [add_eq_settleWith]
  exact Pairing.lies_settleWith
    (fun _ draft => .of_eq (diagnostics_linkChain _ _ draft)) .beam lie isPlace draft

theorem Tuplet.lies_add {pending : List TupletPoint} {point : TupletPoint}
    (lie : Pairing.Lie places pending) (isPlace : places point.location) (draft : Draft) :
    Pairing.Lie places (add pending point draft).1 ∧
      draft.ReportsAt places (add pending point draft).2 := by
  rw [add_eq_settleWith]
  exact Pairing.lies_settleWith
    (fun _ draft => .of_eq (diagnostics_linkChain _ draft)) .tuplet lie isPlace draft

/-- What joins a tuplet is written where the note or rest is. -/
theorem Tuplet.lies_join {pending : List TupletPoint} {location : Location}
    (lie : Pairing.Lie places pending) (noteRest : Handle) (isPlace : places location) :
    Pairing.Lie places (join pending noteRest location) := by
  refine lie.append fun point listed => ?_
  obtain ⟨start, _, rfl⟩ := List.mem_map.mp listed
  exact isPlace

theorem LegacyTie.lies_offer {pending : Option LegacyTie}
    (lies : ∀ tie ∈ pending, places tie.location) (note : Handle) (draft : Draft) :
    (∀ tie ∈ (offer pending note draft).1, places tie.location) ∧
      draft.ReportsAt places (offer pending note draft).2 := by
  have none : ∀ tie ∈ (none : Option LegacyTie), places tie.location := by
    intro tie impossible
    cases impossible
  unfold offer
  split
  · exact ⟨none, .refl draft⟩
  case h_2 tie =>
    split
    · dsimp only
      exact ⟨none, .of_eq (Tie.diagnostics_link ..)⟩
    · split
      · exact ⟨none, .report draft (lies tie rfl) _⟩
      · exact ⟨lies, .refl draft⟩

end Builders

/-! ## Everything that waits -/

/-- Everything that waits is written at certain places. -/
structure Pending.Lies (places : Location → Prop) (pending : Pending) : Prop where
  ties : Pairing.Lie places pending.ties
  legacyTie : ∀ tie ∈ pending.legacyTie, places tie.location
  slurs : Pairing.Lie places pending.slurs
  beams : Pairing.Lie places pending.beams
  legacyBeam : Pairing.Lie places pending.legacyBeam
  tuplets : Pairing.Lie places pending.tuplets

theorem Pending.Lies.empty : Pending.Lies places {} where
  ties := .nil
  legacyTie tie impossible := by cases impossible
  slurs := .nil
  beams := .nil
  legacyBeam := .nil
  tuplets := .nil

theorem LegacyTie.reportsAt_clear {pending : Option LegacyTie}
    (lies : ∀ tie ∈ pending, places tie.location) (draft : Draft) :
    draft.ReportsAt places (clear pending draft) := by
  cases pending with
  | none => exact .refl draft
  | some tie => exact .report draft (lies tie rfl) _

theorem LegacyBeam.reportsAt_clear {pending : List BeamPoint}
    (lie : Pairing.Lie places pending) (draft : Draft) :
    draft.ReportsAt places (clear pending draft) := by
  cases pending with
  | nil => exact .refl draft
  | cons start rest => exact .report draft (lie start List.mem_cons_self) _

/-- Giving up what waits is reported where it was written. -/
theorem Pending.reportsAt_reportAll {pending : Pending}
    (lies : pending.Lies places) (draft : Draft) :
    draft.ReportsAt places (pending.reportAll draft) := by
  rw [reportAll]
  exact (Pairing.reportsAt_clear .tie lies.ties _).trans <|
    (LegacyTie.reportsAt_clear lies.legacyTie _).trans <|
    (Pairing.reportsAt_clear .slur lies.slurs _).trans <|
    (Pairing.reportsAt_clear .beam lies.beams _).trans <|
    (LegacyBeam.reportsAt_clear lies.legacyBeam _).trans <|
    Pairing.reportsAt_clear .tuplet lies.tuplets _

end LdpScore
