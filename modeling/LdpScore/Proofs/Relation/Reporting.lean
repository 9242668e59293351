import LdpScore.Proofs.Relation.Adding

/-!
# What the builders report

A builder adds to the reports at most: whatever was reported before stays, whatever
waits and whatever stands in the model.
-/

namespace LdpScore

namespace Draft

/-- What does not report may be done over and over. -/
theorem diagnostics_foldl
    {Item : Type} {step : Draft → Item → Draft}
    (each : ∀ (draft : Draft) item,
      (step draft item).diagnostics = draft.diagnostics)
    (items : List Item) (draft : Draft) :
    (items.foldl step draft).diagnostics = draft.diagnostics := by
  induction items generalizing draft with
  | nil => rfl
  | cons item rest induction =>
      rw [List.foldl_cons, induction, each]

end Draft

namespace Tie

theorem diagnostics_link
    (start finish : End) (number : Option Int) (color : Option Color)
    (draft : Draft) :
    (link start finish number color draft).diagnostics = draft.diagnostics := by
  cases number <;> rfl

theorem keepsReports_linkChain (chain : List TiePoint) (draft : Draft) :
    draft.KeepsReports (linkChain chain draft) := by
  unfold linkChain
  split
  · dsimp only
    split
    · exact .of_eq (diagnostics_link ..)
    · exact .report ..
  · exact .refl draft

end Tie

theorem LegacyTie.keepsReports_offer
    (pending : Option LegacyTie) (note : Handle) (draft : Draft) :
    draft.KeepsReports (offer pending note draft).2 := by
  unfold offer
  split
  · exact .refl draft
  · split
    · dsimp only
      exact .of_eq (Tie.diagnostics_link ..)
    · split
      · exact .report ..
      · exact .refl draft

/-- A slur is made without a report, whatever its chain is. -/
theorem Slur.diagnostics_linkChain (chain : List SlurPoint) (draft : Draft) :
    (linkChain chain draft).diagnostics = draft.diagnostics := by
  have each : ∀ slur (later : Draft) point,
      (includePoint slur later point).diagnostics = later.diagnostics := by
    intro slur later point
    unfold includePoint
    split <;> rfl
  unfold linkChain
  split
  · rename_i start finish _ _
    exact Draft.diagnostics_foldl (each draft.model.size) chain
      (draft.create (.slur finish.number start.color [])).2
  · rfl

/-- A beam is made without a report, whatever its chain is. -/
theorem Beam.diagnostics_linkChain
    (chain : List BeamPoint) (isAutomatic : Bool) (draft : Draft) :
    (linkChain chain isAutomatic draft).diagnostics = draft.diagnostics := by
  have each : ∀ (later : Draft) (point : BeamPoint),
      (later.includeMember draft.model.size point.noteRest
        (.beam point.levels)).diagnostics = later.diagnostics :=
    fun _ _ => rfl
  have created : (create chain draft).2.diagnostics = draft.diagnostics :=
    Draft.diagnostics_foldl each chain (draft.create (.beam [])).2
  rw [linkChain]
  dsimp only
  split
  · exact created
  · exact created

/-- A tuplet is made without a report, whatever its chain is. -/
theorem Tuplet.diagnostics_linkChain (chain : List TupletPoint) (draft : Draft) :
    (linkChain chain draft).diagnostics = draft.diagnostics := by
  have each : ∀ modification (later : Draft) point,
      (includePoint draft.model.size modification later point).diagnostics =
        later.diagnostics :=
    fun _ _ _ => rfl
  unfold linkChain
  split
  · rfl
  · rename_i start rest
    exact Draft.diagnostics_foldl (each start.modification)
      (start :: rest) (draft.create (.tuplet start.actual start.normal
        start.bracket start.display [])).2

/-- A builder reports a rejection, and linking a chain may report more. -/
theorem Pairing.keepsReports_settleWith
    {Point : Type} [Descriptor Point] {link : List Point → Draft → Draft}
    (links : ∀ chain (draft : Draft), draft.KeepsReports (link chain draft))
    (relation : PairedRelation) (pending : List Point) (point : Point)
    (draft : Draft) :
    draft.KeepsReports (settleWith link relation pending point draft).2 := by
  rcases offer_cases pending point with
    ⟨reason, rejected⟩ | ⟨waits, _⟩ | ⟨complete, _⟩
  · rw [settleWith_of_rejected link relation draft rejected]
    exact .report ..
  · rw [settleWith_of_waiting link relation draft waits]
    exact .refl draft
  · rw [settleWith_of_complete link relation draft complete]
    exact links _ draft

end LdpScore
