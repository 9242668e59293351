import LdpScore.Analysis.NoteRest
import LdpScore.Proofs.Relation.Group
import LdpScore.Proofs.Score.TreeGrowth

/-!
# Builders leave the trees alone

Relations stand apart from the trees, and whatever a builder makes of what waits,
the trees stay the same.
-/

namespace LdpScore

open Model (KeepsTrees)

namespace Draft

theorem keepsTrees_create
    (draft : Draft) {content : Content}
    (isRelation : content.members?.isNone = false) :
    KeepsTrees draft.model (draft.create content).2.model :=
  .add draft.model draft.ids.next.1 isRelation

/-- What leaves the trees alone may be done over and over. -/
theorem keepsTrees_foldl
    {Item : Type} {step : Draft → Item → Draft}
    (each : ∀ (draft : Draft) item,
      KeepsTrees draft.model (step draft item).model)
    (items : List Item) (draft : Draft) :
    KeepsTrees draft.model (items.foldl step draft).model := by
  induction items generalizing draft with
  | nil => exact .refl _
  | cons item rest induction => exact (each draft item).trans (induction _)

end Draft

namespace Tie

theorem keepsTrees_link
    (start finish : End) (number : Option Int) (color : Option Color)
    (draft : Draft) :
    KeepsTrees draft.model (link start finish number color draft).model := by
  have tied : ∀ tieNumber : Int, KeepsTrees draft.model
      (link start finish (some tieNumber) color draft).model :=
    fun tieNumber => (draft.keepsTrees_create rfl).trans <|
      (KeepsTrees.includeMember ..).trans <|
        (KeepsTrees.includeMember ..).trans <|
          (KeepsTrees.modifyNote ..).trans (.modifyNote ..)
  cases number with
  | some given => exact tied given
  | none => exact tied (numberOfId draft.ids.next.1)

theorem keepsTrees_linkChain (chain : List TiePoint) (draft : Draft) :
    KeepsTrees draft.model (linkChain chain draft).model := by
  unfold linkChain
  split
  · dsimp only
    split
    · exact keepsTrees_link ..
    · exact .refl _
  · exact .refl _

end Tie

theorem LegacyTie.keepsTrees_offer
    (pending : Option LegacyTie) (note : Handle) (draft : Draft) :
    KeepsTrees draft.model (offer pending note draft).2.model := by
  unfold offer
  split
  · exact .refl _
  · split
    · dsimp only
      exact Tie.keepsTrees_link ..
    · split <;> exact .refl _

theorem Slur.keepsTrees_linkChain (chain : List SlurPoint) (draft : Draft) :
    KeepsTrees draft.model (linkChain chain draft).model := by
  unfold linkChain
  split
  · refine (draft.keepsTrees_create ?_).trans
      (Draft.keepsTrees_foldl (fun later point => ?_) chain _)
    · rfl
    · unfold includePoint
      split
      · exact .refl _
      · exact .includeMember ..
      · exact .includeMember ..
  · exact .refl _

theorem Beam.keepsTrees_linkChain
    (chain : List BeamPoint) (isAutomatic : Bool) (draft : Draft) :
    KeepsTrees draft.model (linkChain chain isAutomatic draft).model := by
  have created : KeepsTrees draft.model (create chain draft).2.model :=
    (draft.keepsTrees_create rfl).trans
      (Draft.keepsTrees_foldl (fun _ _ => .includeMember ..) chain _)
  rw [linkChain]
  dsimp only
  split
  · refine created.trans (.modifyContent _ _ fun content => ?_)
    rw [Content.members?_mapMembers, Option.isNone_map]
  · exact created

theorem Tuplet.keepsTrees_linkChain
    (chain : List TupletPoint) (draft : Draft) :
    KeepsTrees draft.model (linkChain chain draft).model := by
  unfold linkChain
  split
  · exact .refl _
  · refine (draft.keepsTrees_create ?_).trans
      (Draft.keepsTrees_foldl (fun later point => ?_) _ _)
    · rfl
    · exact (KeepsTrees.includeMember ..).trans (.modifyNoteRest ..)

theorem Pairing.keepsTrees_settleWith
    {Point : Type} [Descriptor Point] {link : List Point → Draft → Draft}
    (links : ∀ chain (draft : Draft),
      KeepsTrees draft.model (link chain draft).model)
    (relation : PairedRelation) (pending : List Point) (point : Point)
    (draft : Draft) :
    KeepsTrees draft.model
      (settleWith link relation pending point draft).2.model := by
  rcases offer_cases pending point with
    ⟨reason, rejected⟩ | ⟨waits, _⟩ | ⟨complete, _⟩
  · rw [settleWith_of_rejected link relation draft rejected]
    exact .refl _
  · rw [settleWith_of_waiting link relation draft waits]
    exact .refl _
  · rw [settleWith_of_complete link relation draft complete]
    exact links _ draft

/-- A note joins the chord of another one. -/
theorem keepsTrees_joinChord (base note : Handle) (draft : Draft) :
    KeepsTrees draft.model (Analyser.joinChord base note draft).model := by
  have found : KeepsTrees draft.model
      (Analyser.chordOf base draft).2.model := by
    unfold Analyser.chordOf
    split
    · exact .refl _
    · exact (draft.keepsTrees_create rfl).trans <|
        (KeepsTrees.includeMember ..).trans (.modifyNote ..)
  exact found.trans <|
    (KeepsTrees.includeMember ..).trans (.modifyNote ..)

end LdpScore
