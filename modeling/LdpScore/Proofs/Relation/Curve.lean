import LdpScore.Proofs.Relation.Linking
import LdpScore.Relation.Slur
import LdpScore.Relation.Tie

/-!
# New ties and slurs

A tie joins the first note of a chain with the last one if they sound the same,
and a legacy tie does so without a chain.  A slur joins all notes of a chain.
-/

namespace LdpScore

namespace Tie

/-- A link between two notes is a tie that its ends know. -/
theorem creates_link
    {start finish : End} {draft : Draft}
    (startsAt : start.note < draft.model.size)
    (endsAt : finish.note < draft.model.size)
    (number : Option Int) (color : Option Color) :
    ∃ tieNumber, (∀ given, number = some given → tieNumber = given) ∧
      draft.Creates
        (.tie tieNumber color
          [(start.note, .tie true start.bezier),
            (finish.note, .tie false finish.bezier)])
        (link start finish number color draft) := by
  obtain ⟨tieNumber, isGiven, numbered⟩ : ∃ tieNumber,
      (∀ given, number = some given → tieNumber = given) ∧
        link start finish number color draft =
          link start finish (some tieNumber) color draft := by
    cases number with
    | some given => exact ⟨given, fun _ same => Option.some.inj same, rfl⟩
    | none => exact ⟨numberOfId draft.ids.next.1, nofun, rfl⟩
  rw [numbered]
  have related := draft.members?_create (.tie tieNumber color [])
  have none := Model.Enrolls.none
    (draft.create (.tie tieNumber color [])).2.model draft.model.size
  have both := (none.join related start.note (.tie true start.bezier)).join
    related finish.note (.tie false finish.bezier)
  have linked :=
    (both.modifyContent (Nat.ne_of_lt startsAt)
      (Content.mapNote fun note =>
        { note with tieNext := some draft.model.size })).modifyContent
      (Nat.ne_of_lt endsAt)
      (Content.mapNote fun note =>
        { note with tiePrevious := some draft.model.size })
  refine ⟨tieNumber, isGiven, Draft.Creates.of_enrolls (.tie tieNumber color [])
    [(start.note, .tie true start.bezier),
      (finish.note, .tie false finish.bezier)] rfl ?_ ?_ ?_ linked ?_⟩
  · intro entry listed
    simp only [List.mem_cons, List.not_mem_nil, or_false] at listed
    rcases listed with rfl | rfl
    · exact startsAt
    · exact endsAt
  · rfl
  · rfl
  · intro handle old
    exact (Content.effectOn_tie ..).symm

/-- Two different notes in order suit a tie. -/
theorem admits
    {model : Model} {start finish : End}
    (startsAt : model.IsNote start.note) (endsAt : model.IsNote finish.note)
    (ordered : start.note < finish.note)
    (number : Int) (color : Option Color) :
    model.Admits
      (.tie number color
        [(start.note, .tie true start.bezier),
          (finish.note, .tie false finish.bezier)]) := by
  constructor
  · rfl
  · simpa [Content.memberHandles, Content.members?] using ordered
  · rfl
  · simp [Content.members?, Content.records]
  · intro member listed
    simp only [Content.memberHandles, Content.members?, Option.getD_some,
      List.map_cons, List.map_nil, List.mem_cons, List.not_mem_nil,
      or_false] at listed
    rcases listed with rfl | rfl
    · exact startsAt.content
    · exact endsAt.content
  · rfl

/-- A link between two different notes in order is a suitable tie. -/
theorem relates_link
    {start finish : End} {draft : Draft}
    (startsAt : draft.model.IsNote start.note)
    (endsAt : draft.model.IsNote finish.note)
    (ordered : start.note < finish.note)
    (number : Option Int) (color : Option Color) :
    Draft.Relates .tie [start.note, finish.note] draft
      (link start finish number color draft) := by
  obtain ⟨tieNumber, _, created⟩ :=
    creates_link startsAt.lt_size endsAt.lt_size number color
  refine Or.inr ⟨_, created, admits startsAt endsAt ordered tieNumber color,
    ?_, ?_⟩
  · rfl
  · exact List.Subset.refl _

/-- A chain of ties becomes a tie of its ends, if they can be tied. -/
theorem relates_linkChain
    {chain : List TiePoint} {draft : Draft}
    (rising : (chain.map Pairing.member).Pairwise (· < ·))
    (notes : ∀ point ∈ chain, draft.model.IsNote point.note) :
    Draft.Relates .tie (chain.map Pairing.member) draft
      (linkChain chain draft) := by
  match chain with
  | [] => exact .silent (.refl draft)
  | [single] => exact .silent (.refl draft)
  | start :: next :: rest =>
      have isLast : (next :: rest).getLast (by simp) ∈ next :: rest :=
        List.getLast_mem _
      unfold linkChain
      dsimp only
      split
      · refine .mono (relates_link ?_ ?_ ?_ _ _) ?_
        · exact notes start (List.mem_cons_self ..)
        · exact notes _ (List.mem_cons_of_mem _ isLast)
        · exact (List.pairwise_cons.mp rising).1 _
            (List.mem_map_of_mem isLast)
        · intro member listed
          rcases List.mem_cons.mp listed with rfl | isFinish
          · exact List.mem_cons_self ..
          · rw [List.mem_singleton.mp isFinish]
            exact List.mem_cons_of_mem _ (List.mem_map_of_mem isLast)
      · exact .silent (.report _ _ (by simp))

theorem add_eq_settleWith
    (pending : List TiePoint) (point : TiePoint) (draft : Draft) :
    add pending point draft =
      Pairing.settleWith linkChain .tie pending point draft := by
  rw [add, Pairing.settleWith]
  rcases Pairing.add .tie pending point draft with ⟨_ | chain, rest⟩ <;> rfl

theorem settles_add
    {bound : Handle} {pending : List TiePoint} {point : TiePoint}
    {draft : Draft}
    (waiting : Pairing.Waiting (bound + 1) pending)
    (newest : point.note = bound)
    (notes : ∀ other ∈ pending ++ [point], draft.model.IsNote other.note) :
    Pairing.Settles .tie bound pending point draft (add pending point draft) := by
  rw [add_eq_settleWith]
  refine Pairing.settles_settleWith waiting newest .tie ?_
  intro chain rising _ listed
  exact relates_linkChain rising fun other isListed =>
    notes other (listed isListed)

end Tie

namespace LegacyTie

/-- The note where a legacy tie starts, as a list. -/
def members (pending : Option LegacyTie) : List Handle :=
  pending.toList.map LegacyTie.note

/-- A later note is the end of the legacy tie, or there is no tie yet. -/
theorem relates_offer
    {pending : Option LegacyTie} {note : Handle} {draft : Draft}
    (notes : ∀ member ∈ members pending, draft.model.IsNote member)
    (isNote : draft.model.IsNote note)
    (older : ∀ member ∈ members pending, member < note) :
    Draft.Relates .tie (members pending ++ [note]) draft
      (offer pending note draft).2 := by
  cases pending with
  | none => exact .silent (.refl draft)
  | some tie =>
      have waits : tie.note ∈ members (some tie) := List.mem_cons_self ..
      by_cases canTie : Tie.canTie draft.model tie.note note = true
      · simp only [offer, if_pos canTie]
        refine Tie.relates_link ?_ ?_ ?_ _ _
        · exact notes _ waits
        · exact isNote
        · exact older _ waits
      · by_cases sameVoice : Tie.sameVoice draft.model tie.note note = true
        · simp only [offer, if_neg canTie, if_pos sameVoice]
          exact .silent (.report _ _ (by simp))
        · simp only [offer, if_neg canTie, if_neg sameVoice]
          exact .silent (.refl draft)

/-- Nothing waits after an offer but what waited before. -/
theorem members_offer
    (pending : Option LegacyTie) (note : Handle) (draft : Draft) :
    members (offer pending note draft).1 ⊆ members pending := by
  cases pending with
  | none => exact List.Subset.refl _
  | some tie =>
      by_cases canTie : Tie.canTie draft.model tie.note note = true
      · simp only [offer, if_pos canTie]
        exact List.nil_subset _
      · by_cases sameVoice : Tie.sameVoice draft.model tie.note note = true
        · simp only [offer, if_neg canTie, if_pos sameVoice]
          exact List.nil_subset _
        · simp only [offer, if_neg canTie, if_neg sameVoice]
          exact List.Subset.refl _

end LegacyTie

namespace Slur

/-- What a descriptor adds to the members of a slur. -/
def inclusion? (point : SlurPoint) : Option (Handle × Role) :=
  match point.phase with
  | .continue => none
  | .start => some (point.note, .slur true point.bezier)
  | .stop => some (point.note, .slur false point.bezier)

theorem inclusion?_fst
    {point : SlurPoint} {entry : Handle × Role}
    (isEntry : inclusion? point = some entry) :
    entry.1 = point.note ∧ ∃ isStart bezier, entry.2 = .slur isStart bezier := by
  unfold inclusion? at isEntry
  split at isEntry <;> cases isEntry
  · exact ⟨rfl, true, point.bezier, rfl⟩
  · exact ⟨rfl, false, point.bezier, rfl⟩

/-- The notes of the members of a slur are some of those of its chain. -/
theorem sublist_entries (chain : List SlurPoint) :
    ((chain.filterMap inclusion?).map Prod.fst).Sublist
      (chain.map Pairing.member) := by
  induction chain with
  | nil => exact List.Sublist.slnil
  | cons point rest induction =>
      rw [List.filterMap_cons]
      rcases isEntry : inclusion? point with _ | entry
      · exact induction.cons _
      · have sameNote : entry.1 = point.note := (inclusion?_fst isEntry).1
        rw [List.map_cons, List.map_cons, sameNote]
        exact induction.cons_cons _

theorem foldl_includePoint
    (slur : Handle) (chain : List SlurPoint) (draft : Draft) :
    chain.foldl (includePoint slur) draft =
      draft.mapModel fun model =>
        (chain.filterMap inclusion?).foldl
          (fun model entry => model.includeMember slur entry.1 entry.2)
          model := by
  rw [← Draft.foldl_mapModel, List.foldl_filterMap]
  congr 1
  funext draft point
  rw [includePoint, inclusion?]
  cases point.phase <;> rfl

/-- A chain becomes a slur with the number of its end. -/
theorem creates_linkChain
    {chain : List SlurPoint} {start finish : SlurPoint} {draft : Draft}
    (isStart : chain.head? = some start) (isFinish : chain.getLast? = some finish)
    (old : ∀ point ∈ chain, point.note < draft.model.size) :
    draft.Creates (.slur finish.number start.color (chain.filterMap inclusion?))
      (linkChain chain draft) := by
  rw [linkChain, isStart, isFinish]
  dsimp only
  rw [foldl_includePoint]
  refine Draft.Creates.of_members (.slur finish.number start.color [])
    (chain.filterMap inclusion?) draft rfl ?_ fun _ _ => rfl
  intro entry listed
  obtain ⟨point, isPoint, isEntry⟩ := List.mem_filterMap.mp listed
  rw [(inclusion?_fst isEntry).1]
  exact old point isPoint

/-- A chain of slurs becomes a slur. -/
theorem relates_linkChain
    {chain : List SlurPoint} {draft : Draft}
    (rising : (chain.map Pairing.member).Pairwise (· < ·))
    (notes : ∀ point ∈ chain, draft.model.IsNote point.note) :
    Draft.Relates .slur (chain.map Pairing.member) draft
      (linkChain chain draft) := by
  rcases isStart : chain.head? with _ | start
  · rw [List.head?_eq_none_iff.mp isStart]
    exact .silent (.refl draft)
  rcases isFinish : chain.getLast? with _ | finish
  · rw [List.getLast?_eq_none_iff.mp isFinish]
    exact .silent (.refl draft)
  have created := creates_linkChain isStart isFinish
    fun point isPoint => (notes point isPoint).lt_size
  have part := sublist_entries chain
  refine Or.inr ⟨_, created, ?_, rfl, part.subset⟩
  constructor
  · rfl
  · exact rising.sublist part
  · rfl
  · intro entry listed
    obtain ⟨point, _, isEntry⟩ := List.mem_filterMap.mp listed
    obtain ⟨isStart, bezier, role⟩ := (inclusion?_fst isEntry).2
    rw [role]
    rfl
  · intro member listed
    obtain ⟨point, isPoint, rfl⟩ := List.mem_map.mp (part.subset listed)
    exact (notes point isPoint).content
  · rfl

theorem add_eq_settleWith
    (pending : List SlurPoint) (point : SlurPoint) (draft : Draft) :
    add pending point draft =
      Pairing.settleWith linkChain .slur pending point draft := by
  rw [add, Pairing.settleWith]
  rcases Pairing.add .slur pending point draft with ⟨_ | chain, rest⟩ <;> rfl

theorem settles_add
    {bound : Handle} {pending : List SlurPoint} {point : SlurPoint}
    {draft : Draft}
    (waiting : Pairing.Waiting (bound + 1) pending)
    (newest : point.note = bound)
    (notes : ∀ other ∈ pending ++ [point], draft.model.IsNote other.note) :
    Pairing.Settles .slur bound pending point draft (add pending point draft) := by
  rw [add_eq_settleWith]
  refine Pairing.settles_settleWith waiting newest .slur ?_
  intro chain rising _ listed
  exact relates_linkChain rising fun other isListed =>
    notes other (listed isListed)

end Slur

end LdpScore
