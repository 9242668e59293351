import LdpScore.Relation.Pending

/-!
# Reports are never looked at

What is reported is only added to what was reported before.  So whatever becomes of
a draft also becomes of one in which other reports come first, and these then still
come first.
-/

namespace LdpScore

/-- A draft in which other reports come before its own. -/
def Draft.precededBy (draft : Draft) (earlier : Array Diagnostic) : Draft :=
  { draft with diagnostics := earlier ++ draft.diagnostics }

namespace Draft

variable (draft : Draft) (earlier : Array Diagnostic)

@[simp]
theorem model_precededBy : (draft.precededBy earlier).model = draft.model :=
  rfl

@[simp]
theorem ids_precededBy : (draft.precededBy earlier).ids = draft.ids :=
  rfl

@[simp]
theorem report_precededBy (location : Location) (problem : Problem) :
    (draft.precededBy earlier).report location problem =
      (draft.report location problem).precededBy earlier := by
  simp [report, precededBy]

@[simp]
theorem mapModel_precededBy (change : Model → Model) :
    (draft.precededBy earlier).mapModel change =
      (draft.mapModel change).precededBy earlier :=
  rfl

@[simp]
theorem create_precededBy (content : Content) :
    (draft.precededBy earlier).create content =
      ((draft.create content).1, (draft.create content).2.precededBy earlier) :=
  rfl

@[simp]
theorem includeMember_precededBy (relation member : Handle) (role : Role) :
    (draft.precededBy earlier).includeMember relation member role =
      (draft.includeMember relation member role).precededBy earlier :=
  rfl

@[simp]
theorem assignId_precededBy (wanted : Option Int) (location : Location) :
    (draft.precededBy earlier).assignId wanted location =
      ((draft.assignId wanted location).1,
        (draft.assignId wanted location).2.precededBy earlier) := by
  simp only [assignId, ids_precededBy]
  rcases draft.ids.assign wanted with ⟨_ | _, ids⟩
  · rfl
  · exact congrArg (Prod.mk _) (report_precededBy { draft with ids := ids } earlier ..)

@[simp]
theorem addObject_precededBy
    (wanted : Option Int) (location : Location) (parent : Option Handle)
    (content : Content) :
    (draft.precededBy earlier).addObject wanted location parent content =
      ((draft.addObject wanted location parent content).1,
        (draft.addObject wanted location parent content).2.precededBy earlier) := by
  simp [addObject]

theorem foldl_precededBy
    {Point : Type} {step : Draft → Point → Draft}
    (each : ∀ draft point,
      step (draft.precededBy earlier) point = (step draft point).precededBy earlier)
    (points : List Point) :
    points.foldl step (draft.precededBy earlier) =
      (points.foldl step draft).precededBy earlier :=
  List.foldl_hom (fun draft : Draft => draft.precededBy earlier) each

end Draft

variable (draft : Draft) (earlier : Array Diagnostic)

/-! ## Pairing -/

namespace Pairing

variable {Point : Type} [Descriptor Point]

@[simp]
theorem add_precededBy (relation : PairedRelation) (pending : List Point) (point : Point) :
    add relation pending point (draft.precededBy earlier) =
      ((add relation pending point draft).1, (add relation pending point draft).2.1,
        (add relation pending point draft).2.2.precededBy earlier) := by
  simp only [add]
  cases offer pending point <;> simp

@[simp]
theorem clear_precededBy (relation : PairedRelation) (pending : List Point) :
    clear relation pending (draft.precededBy earlier) =
      (clear relation pending draft).precededBy earlier := by
  simp [clear, Draft.foldl_precededBy]

end Pairing

/-! ## Ties and slurs -/

namespace Tie

@[simp]
theorem link_precededBy
    (start finish : End) (number : Option Int) (color : Option Color) :
    link start finish number color (draft.precededBy earlier) =
      (link start finish number color draft).precededBy earlier := by
  simp [link]

@[simp]
theorem linkChain_precededBy (chain : List TiePoint) :
    linkChain chain (draft.precededBy earlier) =
      (linkChain chain draft).precededBy earlier := by
  rcases chain with _ | ⟨start, _ | ⟨next, rest⟩⟩
  · rfl
  · rfl
  · simp only [linkChain, Draft.model_precededBy, link_precededBy,
      Draft.report_precededBy]
    split <;> rfl

theorem add_precededBy (pending : List TiePoint) (point : TiePoint) :
    add pending point (draft.precededBy earlier) =
      ((add pending point draft).1, (add pending point draft).2.precededBy earlier) := by
  simp only [add, Pairing.add_precededBy]
  cases (Pairing.add .tie pending point draft).1 <;> simp

end Tie

namespace LegacyTie

theorem offer_precededBy (pending : Option LegacyTie) (note : Handle) :
    offer pending note (draft.precededBy earlier) =
      ((offer pending note draft).1, (offer pending note draft).2.precededBy earlier) := by
  cases pending with
  | none => rfl
  | some tie =>
      simp only [offer, Draft.model_precededBy, Tie.link_precededBy,
        Draft.report_precededBy]
      split
      · rfl
      · split <;> rfl

theorem start_precededBy
    (pending : Option LegacyTie) (note : Handle) (location : Location) :
    start pending note location (draft.precededBy earlier) =
      ((start pending note location draft).1,
        (start pending note location draft).2.precededBy earlier) := by
  simp [start, offer_precededBy]

@[simp]
theorem clear_precededBy (pending : Option LegacyTie) :
    clear pending (draft.precededBy earlier) =
      (clear pending draft).precededBy earlier := by
  cases pending <;> simp [clear]

end LegacyTie

namespace Slur

@[simp]
theorem linkChain_precededBy (chain : List SlurPoint) :
    linkChain chain (draft.precededBy earlier) =
      (linkChain chain draft).precededBy earlier := by
  have each : ∀ slur draft point, includePoint slur (draft.precededBy earlier) point =
      (includePoint slur draft point).precededBy earlier := by
    intro slur draft point
    simp only [includePoint]
    cases point.phase <;> simp
  simp only [linkChain]
  split
  · simp [Draft.foldl_precededBy _ _ (each _)]
  · rfl

theorem add_precededBy (pending : List SlurPoint) (point : SlurPoint) :
    add pending point (draft.precededBy earlier) =
      ((add pending point draft).1, (add pending point draft).2.precededBy earlier) := by
  simp only [add, Pairing.add_precededBy]
  cases (Pairing.add .slur pending point draft).1 <;> simp

end Slur

/-! ## Beams -/

namespace Beam

@[simp]
theorem linkChain_precededBy (chain : List BeamPoint) (isAutomatic : Bool) :
    linkChain chain isAutomatic (draft.precededBy earlier) =
      (linkChain chain isAutomatic draft).precededBy earlier := by
  have created : create chain (draft.precededBy earlier) =
      ((create chain draft).1, (create chain draft).2.precededBy earlier) := by
    simp only [create, Draft.create_precededBy]
    rw [Draft.foldl_precededBy]
    simp
  cases isAutomatic <;> simp [linkChain, created]

theorem add_precededBy (pending : List BeamPoint) (point : BeamPoint) :
    add pending point (draft.precededBy earlier) =
      ((add pending point draft).1, (add pending point draft).2.precededBy earlier) := by
  simp only [add, Pairing.add_precededBy]
  cases (Pairing.add .beam pending point draft).1 <;> simp

end Beam

@[simp]
theorem LegacyBeam.clear_precededBy (pending : List BeamPoint) :
    clear pending (draft.precededBy earlier) =
      (clear pending draft).precededBy earlier := by
  cases pending <;> simp [clear]

/-! ## Tuplets -/

namespace Tuplet

@[simp]
theorem linkChain_precededBy (chain : List TupletPoint) :
    linkChain chain (draft.precededBy earlier) =
      (linkChain chain draft).precededBy earlier := by
  have each : ∀ tuplet modification draft point,
      includePoint tuplet modification (draft.precededBy earlier) point =
        (includePoint tuplet modification draft point).precededBy earlier := by
    simp [includePoint]
  cases chain with
  | nil => rfl
  | cons start rest => simp [linkChain, Draft.foldl_precededBy _ _ (each _ _)]

theorem add_precededBy (pending : List TupletPoint) (point : TupletPoint) :
    add pending point (draft.precededBy earlier) =
      ((add pending point draft).1, (add pending point draft).2.precededBy earlier) := by
  simp only [add, Pairing.add_precededBy]
  cases (Pairing.add .tuplet pending point draft).1 <;> simp

end Tuplet

@[simp]
theorem Pending.reportAll_precededBy (pending : Pending) :
    pending.reportAll (draft.precededBy earlier) =
      (pending.reportAll draft).precededBy earlier := by
  simp [reportAll]

end LdpScore
