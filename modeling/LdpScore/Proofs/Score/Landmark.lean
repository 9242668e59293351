import LdpScore.Proofs.Relation.Apart
import LdpScore.Proofs.Score.Leaving

/-!
# The landmarks of a score

Scores, their options, instruments and lyrics are landmarks.  Whatever else becomes
of a score in the making, relations above all, a draft `Overlooks` the landmarks:
none is added and none is changed.  Nor is anything reported about an option.
-/

namespace LdpScore

namespace Content

/-- Whether an object is a score, an option, an instrument or a lyric. -/
def isLandmark : Content → Bool
  | score _ _ => true
  | scoreOption _ _ => true
  | instrument _ _ _ => true
  | lyric _ _ _ _ _ _ => true
  | _ => false

/-- Whether an object is a score or one of its options. -/
def isHeading : Content → Bool
  | score _ _ => true
  | scoreOption _ _ => true
  | _ => false

theorem isLandmark_of_isHeading
    {content : Content} (isHeading : content.isHeading) : content.isLandmark := by
  cases content <;> first | rfl | cases isHeading

/-- A change of what is no landmark. -/
structure Spares (change : Content → Content) : Prop where
  landmark : ∀ content : Content, content.isLandmark = true → change content = content
  other : ∀ content : Content,
    content.isLandmark = false → (change content).isLandmark = false

theorem spares_mapNote (change : Note → Note) : Spares (mapNote change) := by
  constructor
  · intro content isLandmark
    cases content <;> first | rfl | cases isLandmark
  · intro content isOther
    cases content <;> first | rfl | cases isOther

theorem spares_mapNoteRest (change : NoteRest → NoteRest) :
    Spares (mapNoteRest change) := by
  constructor
  · intro content isLandmark
    cases content <;> first | rfl | cases isLandmark
  · intro content isOther
    cases content <;> first | rfl | cases isOther

theorem spares_mapMembers (change : Members → Members) :
    Spares (mapMembers change) := by
  constructor
  · intro content isLandmark
    cases content <;> first | rfl | cases isLandmark
  · intro content isOther
    cases content <;> first | rfl | cases isOther

end Content

/-- Whether a problem is one of an option of a score. -/
def Problem.isAboutOption : Problem → Bool
  | missingOptionValue _ => true
  | unknownOption _ => true
  | invalidOptionValue _ => true
  | _ => false

namespace Model

/-- What stands at a handle, if it is a landmark. -/
def landmark? (model : Model) (handle : Handle) : Option Content :=
  (model.content? handle).filter Content.isLandmark

/-- What stands at a handle, if it is a score or an option of one. -/
def heading? (model : Model) (handle : Handle) : Option Content :=
  (model.landmark? handle).filter Content.isHeading

theorem heading?_eq_filter (model : Model) (handle : Handle) :
    model.heading? handle = (model.content? handle).filter Content.isHeading := by
  rw [heading?, landmark?, Option.filter_filter]
  congr 1
  funext content
  rw [Bool.and_eq_right_iff_imp]
  exact Content.isLandmark_of_isHeading

theorem heading?_eq_some_iff
    {model : Model} {handle : Handle} {content : Content} :
    model.heading? handle = some content ↔
      model.content? handle = some content ∧ content.isHeading := by
  rw [heading?_eq_filter, Option.filter_eq_some_iff]

theorem landmark?_of_size_le
    {model : Model} {handle : Handle} (outside : model.size ≤ handle) :
    model.landmark? handle = none := by
  rw [landmark?, content?, get?_eq_none_iff.mpr outside]
  rfl

theorem heading?_of_size_le
    {model : Model} {handle : Handle} (outside : model.size ≤ handle) :
    model.heading? handle = none := by
  rw [heading?, landmark?_of_size_le outside]
  rfl

theorem landmark?_modifyContent
    (model : Model) (changed : Handle) {change : Content → Content}
    (spares : Content.Spares change) :
    (model.modifyContent changed change).landmark? = model.landmark? := by
  funext handle
  rw [landmark?, landmark?, content?_modifyContent]
  split
  · cases model.content? handle with
    | none => rfl
    | some content =>
        cases isLandmark : content.isLandmark with
        | true => rw [Option.map_some, spares.landmark content isLandmark]
        | false => simp [Option.filter, isLandmark, spares.other content isLandmark]
  · rw [Option.map_id']

theorem size_includeMember
    (model : Model) (relation member : Handle) (role : Role) :
    (model.includeMember relation member role).size = model.size := by
  rw [includeMember]
  split
  · exact (size_modify ..).trans (size_modifyContent ..)
  · rfl

theorem landmark?_includeMember
    (model : Model) (relation member : Handle) (role : Role) :
    (model.includeMember relation member role).landmark? = model.landmark? := by
  rw [includeMember]
  split
  · dsimp only
    generalize isJoined : model.modifyContent relation _ = joined
    have same : joined.landmark? = model.landmark? := by
      rw [← isJoined]
      exact landmark?_modifyContent model relation (Content.spares_mapMembers _)
    rw [← same]
    funext handle
    rw [landmark?, landmark?, content?_modify]
    exact fun _ => rfl
  · rfl

theorem landmark?_autobeam (model : Model) (beam : Handle) :
    (model.autobeam beam).landmark? = model.landmark? :=
  landmark?_modifyContent model beam (Content.spares_mapMembers _)

end Model

namespace Draft

/-- What was reported about options, in order. -/
def optionReports (draft : Draft) : List Diagnostic :=
  draft.diagnostics.toList.filter fun diagnostic => diagnostic.problem.isAboutOption

/-- No landmark is added or changed, and nothing is reported about options. -/
structure Overlooks (before after : Draft) : Prop where
  size_le : before.model.size ≤ after.model.size
  landmark? : after.model.landmark? = before.model.landmark?
  reports : after.optionReports = before.optionReports

namespace Overlooks

variable {first middle last : Draft}

theorem refl (draft : Draft) : Overlooks draft draft :=
  ⟨Nat.le_refl _, rfl, rfl⟩

theorem trans
    (earlier : Overlooks first middle) (later : Overlooks middle last) :
    Overlooks first last :=
  ⟨Nat.le_trans earlier.size_le later.size_le,
    later.landmark?.trans earlier.landmark?, later.reports.trans earlier.reports⟩

theorem heading? (overlooks : Overlooks first last) :
    last.model.heading? = first.model.heading? := by
  funext handle
  rw [Model.heading?, Model.heading?, overlooks.landmark?]

theorem report
    (draft : Draft) (location : Location) {problem : Problem}
    (other : problem.isAboutOption = false) :
    Overlooks draft (draft.report location problem) := by
  refine ⟨Nat.le_refl _, rfl, ?_⟩
  rw [optionReports, Draft.report, Array.toList_push, List.filter_append,
    List.filter_cons_of_neg (by simp [other]), List.filter_nil, List.append_nil]
  rfl

theorem mapModel
    (draft : Draft) {change : Model → Model}
    (size : (change draft.model).size = draft.model.size)
    (same : (change draft.model).landmark? = draft.model.landmark?) :
    Overlooks draft (draft.mapModel change) :=
  ⟨Nat.le_of_eq size.symm, same, rfl⟩

theorem modifyNote (draft : Draft) (handle : Handle) (change : Note → Note) :
    Overlooks draft (draft.mapModel fun model => model.modifyNote handle change) :=
  .mapModel draft (Model.size_modifyContent ..)
    (Model.landmark?_modifyContent _ handle (Content.spares_mapNote _))

theorem modifyNoteRest
    (draft : Draft) (handle : Handle) (change : NoteRest → NoteRest) :
    Overlooks draft
      (draft.mapModel fun model => model.modifyNoteRest handle change) :=
  .mapModel draft (Model.size_modifyContent ..)
    (Model.landmark?_modifyContent _ handle (Content.spares_mapNoteRest _))

theorem includeMember
    (draft : Draft) (relation member : Handle) (role : Role) :
    Overlooks draft (draft.includeMember relation member role) :=
  .mapModel draft (Model.size_includeMember ..) (Model.landmark?_includeMember ..)

theorem create
    (draft : Draft) {content : Content} (other : content.isLandmark = false) :
    Overlooks draft (draft.create content).2 := by
  refine ⟨?_, ?_, rfl⟩
  · exact Nat.le_trans (Nat.le_succ _) (Nat.le_of_eq (Model.size_add ..).symm)
  funext handle
  rw [Model.landmark?, Draft.create]
  dsimp only
  rw [Model.content?_add]
  split
  · rename_i isNew
    rw [isNew, Model.landmark?_of_size_le (Nat.le_refl _)]
    simp [Option.filter, other]
  · rfl

theorem foldl
    {Item : Type} {step : Draft → Item → Draft}
    (each : ∀ draft item, Overlooks draft (step draft item)) (items : List Item)
    (draft : Draft) :
    Overlooks draft (items.foldl step draft) := by
  induction items generalizing draft with
  | nil => exact .refl draft
  | cons item rest induction => exact (each draft item).trans (induction _)

end Overlooks

/-- What a new object is, and what was there before. -/
theorem landmark?_addObject
    (draft : Draft) (wanted : Option Int) (location : Location)
    (anchor : Option Handle) (content : Content) (handle : Handle) :
    (draft.addObject wanted location anchor content).2.model.landmark? handle =
      if handle = draft.model.size then (some content).filter Content.isLandmark
      else draft.model.landmark? handle := by
  rw [Model.landmark?, content?_addObject_eq]
  split <;> rfl

theorem heading?_addObject
    (draft : Draft) (wanted : Option Int) (location : Location)
    (anchor : Option Handle) (content : Content) (handle : Handle) :
    (draft.addObject wanted location anchor content).2.model.heading? handle =
      if handle = draft.model.size then (some content).filter Content.isHeading
      else draft.model.heading? handle := by
  rw [Model.heading?_eq_filter, content?_addObject_eq]
  split
  · rfl
  · exact (Model.heading?_eq_filter ..).symm

theorem optionReports_addObject
    (draft : Draft) (wanted : Option Int) (location : Location)
    (anchor : Option Handle) (content : Content) :
    (draft.addObject wanted location anchor content).2.optionReports =
      draft.optionReports := by
  rw [addObject, assignId]
  dsimp only
  split
  · rfl
  · exact (Overlooks.report _ location rfl).reports

theorem overlooks_addObject
    (draft : Draft) (wanted : Option Int) (location : Location)
    (anchor : Option Handle) {content : Content}
    (other : content.isLandmark = false) :
    Overlooks draft (draft.addObject wanted location anchor content).2 := by
  refine ⟨?_, ?_, draft.optionReports_addObject wanted location anchor content⟩
  · rw [draft.size_addObject]
    exact Nat.le_succ _
  funext handle
  rw [landmark?_addObject]
  split
  · rename_i isNew
    rw [isNew, Model.landmark?_of_size_le (Nat.le_refl _)]
    simp [Option.filter, other]
  · rfl

end Draft

open Draft (Overlooks)

/-! ## Builders -/

theorem Pairing.overlooks_clear
    {Point : Type} [Descriptor Point] (relation : PairedRelation)
    (pending : List Point) (draft : Draft) :
    Overlooks draft (clear relation pending draft) :=
  .foldl (fun draft _ => .report draft _ rfl) _ draft

theorem Pairing.overlooks_settleWith
    {Point : Type} [Descriptor Point] {link : List Point → Draft → Draft}
    (links : ∀ chain draft, Overlooks draft (link chain draft))
    (relation : PairedRelation) (pending : List Point) (point : Point)
    (draft : Draft) :
    Overlooks draft (settleWith link relation pending point draft).2 := by
  rcases offer_cases pending point with
    ⟨reason, rejected⟩ | ⟨waits, _⟩ | ⟨complete, _⟩
  · rw [settleWith_of_rejected link relation draft rejected]
    cases reason <;> exact .report draft _ rfl
  · rw [settleWith_of_waiting link relation draft waits]
    exact .refl draft
  · rw [settleWith_of_complete link relation draft complete]
    exact links _ draft

namespace Tie

theorem overlooks_link
    (start finish : End) (number : Option Int) (color : Option Color)
    (draft : Draft) :
    Overlooks draft (link start finish number color draft) := by
  have tied : ∀ tieNumber : Int,
      Overlooks draft (link start finish (some tieNumber) color draft) :=
    fun tieNumber => (Overlooks.create draft rfl).trans <|
      (Overlooks.includeMember ..).trans <|
        (Overlooks.includeMember ..).trans <|
          (Overlooks.modifyNote ..).trans (.modifyNote ..)
  cases number with
  | some given => exact tied given
  | none => exact tied (numberOfId draft.ids.next.1)

theorem overlooks_linkChain (chain : List TiePoint) (draft : Draft) :
    Overlooks draft (linkChain chain draft) := by
  unfold linkChain
  split
  · dsimp only
    split
    · exact overlooks_link ..
    · exact .report draft _ rfl
  · exact .refl draft

end Tie

namespace LegacyTie

theorem overlooks_offer
    (pending : Option LegacyTie) (note : Handle) (draft : Draft) :
    Overlooks draft (offer pending note draft).2 := by
  unfold offer
  split
  · exact .refl draft
  · split
    · dsimp only
      exact Tie.overlooks_link ..
    · split
      · exact .report draft _ rfl
      · exact .refl draft

theorem overlooks_clear (pending : Option LegacyTie) (draft : Draft) :
    Overlooks draft (clear pending draft) := by
  cases pending with
  | none => exact .refl draft
  | some tie => exact .report draft _ rfl

end LegacyTie

theorem Slur.overlooks_linkChain (chain : List SlurPoint) (draft : Draft) :
    Overlooks draft (linkChain chain draft) := by
  unfold linkChain
  split
  · refine (Overlooks.create draft ?_).trans (.foldl (fun later point => ?_) chain _)
    · rfl
    · unfold includePoint
      split
      · exact .refl later
      · exact .includeMember ..
      · exact .includeMember ..
  · exact .refl draft

theorem Beam.overlooks_linkChain
    (chain : List BeamPoint) (isAutomatic : Bool) (draft : Draft) :
    Overlooks draft (linkChain chain isAutomatic draft) := by
  have created : Overlooks draft (create chain draft).2 :=
    (Overlooks.create draft rfl).trans (.foldl (fun _ _ => .includeMember ..) chain _)
  rw [linkChain]
  dsimp only
  split
  · exact created.trans
      (.mapModel _ (Model.size_modifyContent ..) (Model.landmark?_autobeam ..))
  · exact created

theorem LegacyBeam.overlooks_clear (pending : List BeamPoint) (draft : Draft) :
    Overlooks draft (clear pending draft) := by
  cases pending with
  | nil => exact .refl draft
  | cons start rest => exact .report draft _ rfl

theorem Tuplet.overlooks_linkChain (chain : List TupletPoint) (draft : Draft) :
    Overlooks draft (linkChain chain draft) := by
  unfold linkChain
  split
  · exact .refl draft
  · refine (Overlooks.create draft ?_).trans (.foldl (fun later point => ?_) _ _)
    · rfl
    · exact (Overlooks.includeMember ..).trans (.modifyNoteRest ..)

theorem Pending.overlooks_reportAll (pending : Pending) (draft : Draft) :
    Overlooks draft (pending.reportAll draft) := by
  rw [reportAll]
  exact (Pairing.overlooks_clear .tie pending.ties draft).trans <|
    (LegacyTie.overlooks_clear pending.legacyTie _).trans <|
      (Pairing.overlooks_clear .slur pending.slurs _).trans <|
        (Pairing.overlooks_clear .beam pending.beams _).trans <|
          (LegacyBeam.overlooks_clear pending.legacyBeam _).trans <|
            Pairing.overlooks_clear .tuplet pending.tuplets _

/-- A note joins the chord of another one. -/
theorem overlooks_joinChord (base note : Handle) (draft : Draft) :
    Overlooks draft (Analyser.joinChord base note draft) := by
  have found : Overlooks draft (Analyser.chordOf base draft).2 := by
    unfold Analyser.chordOf
    split
    · exact .refl draft
    · exact (Overlooks.create draft rfl).trans <|
        (Overlooks.includeMember ..).trans (.modifyNote ..)
  exact found.trans <| (Overlooks.includeMember ..).trans (.modifyNote ..)

end LdpScore
