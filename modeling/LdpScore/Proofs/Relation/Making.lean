import LdpScore.Proofs.Relation.Curve
import LdpScore.Proofs.Relation.Group
import LdpScore.Proofs.Relation.Ledger

/-!
# What the builders make of chains

Every builder makes a relation of a chain and has the objects of the chain as its
members.  Only ties may come to nothing, and then there is a report.
-/

namespace LdpScore

open Pairing

/-- No tie but its start waits under a number. -/
theorem Tie.filter_eq_singleton
    {bound : Handle} {pending : List TiePoint} {point : TiePoint}
    (waiting : Waiting bound pending)
    (unstopped : ∀ other ∈ pending, phase other ≠ .stop)
    (someWait : pending.filter (sameNumber point) ≠ []) :
    ∃ start, pending.filter (sameNumber point) = [start] := by
  have areStarts : startsOf pending = pending := by
    apply List.filter_eq_self.mpr
    intro other waits
    have noStop := unstopped other waits
    show ((if other.isStart then Phase.start else .stop) == .start) = true
    change (if other.isStart then Phase.start else .stop) ≠ .stop at noStop
    split <;> simp_all
  have distinct := waiting.starts
  rw [areStarts] at distinct
  have numbers : ((pending.filter (sameNumber point)).map number).Nodup :=
    distinct.sublist (List.filter_sublist.map number)
  have same : ∀ other ∈ pending.filter (sameNumber point),
      number other = number point :=
    fun other listed => beq_iff_eq.mp (List.mem_filter.mp listed).2
  exact (eq_nil_or_singleton numbers same).resolve_left someWait

/-- A tie is made of its ends, or they are reported. -/
theorem Tie.makes_linkChain
    {start point : TiePoint} {draft : Draft}
    (startsAt : draft.model.IsNote start.note)
    (endsAt : draft.model.IsNote point.note)
    (isChain : IsChain [Descriptor.endpoint start] (Descriptor.endpoint point)) :
    PairedRelation.tie.Makes [Descriptor.endpoint start]
      (Descriptor.endpoint point) draft (linkChain [start, point] draft) := by
  have sameNumber : start.number = point.number :=
    isChain.number _ (List.mem_singleton_self _)
  have ends : linkChain [start, point] draft =
      if canTie draft.model start.note point.note then
        link ⟨start.note, start.bezier⟩ ⟨point.note, point.bezier⟩
          (some start.number) start.color draft
      else draft.report point.location (.incompatibleTie point.number) :=
    rfl
  rw [ends]
  split
  · have startsIn : (End.mk start.note start.bezier).note <
        draft.model.size := startsAt.lt_size
    have endsIn : (End.mk point.note point.bezier).note <
        draft.model.size := endsAt.lt_size
    obtain ⟨tieNumber, isGiven, created⟩ :=
      creates_link startsIn endsIn (some start.number) start.color
    refine .relation _ _ created ⟨isChain, rfl, ?_, ?_⟩
    · rintro number ⟨⟩
      exact (isGiven _ rfl).trans sameNumber
    · intro endpoint listed _
      rcases List.mem_cons.mp listed with rfl | isStop
      · exact List.mem_cons_self ..
      · rw [List.mem_singleton.mp isStop]
        exact List.mem_cons_of_mem _ (List.mem_singleton_self _)
  · exact .incompatible _ _ rfl rfl isChain rfl

/-- A slur is made of a chain; it passes over the notes where it continues. -/
theorem Slur.makes_linkChain
    {front : List SlurPoint} {point : SlurPoint} {draft : Draft}
    (notes : ∀ other ∈ front ++ [point], draft.model.IsNote other.note)
    (isChain : IsChain (front.map Descriptor.endpoint)
      (Descriptor.endpoint point)) :
    PairedRelation.slur.Makes (front.map Descriptor.endpoint)
      (Descriptor.endpoint point) draft (linkChain (front ++ [point]) draft) := by
  obtain ⟨start, isStart⟩ : ∃ start, (front ++ [point]).head? = some start := by
    cases front <;> exact ⟨_, rfl⟩
  have created := creates_linkChain isStart List.getLast?_concat
    fun other listed => (notes other listed).lt_size
  refine .relation _ _ created ⟨isChain, rfl, ?_, ?_⟩
  · rintro number ⟨⟩
    rfl
  · intro endpoint listed joins
    have isMapped : endpoint ∈
        (front ++ [point]).map Descriptor.endpoint := by
      rw [List.map_append]
      exact listed
    obtain ⟨other, isOther, rfl⟩ := List.mem_map.mp isMapped
    have isMember : ∃ entry, inclusion? other = some entry := by
      change PairedRelation.slur.joins other.phase = true at joins
      rw [inclusion?]
      cases isPhase : other.phase
      · exact ⟨_, rfl⟩
      · rw [isPhase] at joins
        cases joins
      · exact ⟨_, rfl⟩
    obtain ⟨entry, isEntry⟩ := isMember
    show other.note ∈
      ((front ++ [point]).filterMap inclusion?).map Prod.fst
    rw [← (inclusion?_fst isEntry).1]
    exact List.mem_map_of_mem (List.mem_filterMap.mpr ⟨other, isOther, isEntry⟩)

/-- A beam is made of a chain. -/
theorem Beam.makes_linkChain
    {front : List BeamPoint} {point : BeamPoint} {draft : Draft}
    (noteRests : ∀ other ∈ front ++ [point],
      draft.model.IsNoteRest other.noteRest)
    (isChain : IsChain (front.map Descriptor.endpoint)
      (Descriptor.endpoint point))
    (isAutomatic : Bool) :
    PairedRelation.beam.Makes (front.map Descriptor.endpoint)
      (Descriptor.endpoint point) draft
      (linkChain (front ++ [point]) isAutomatic draft) := by
  obtain ⟨members, same, _, created⟩ :=
    exists_creates_linkChain
      (fun other listed => (noteRests other listed).lt_size) isAutomatic
  refine .relation _ _ created ⟨isChain, rfl, nofun, ?_⟩
  intro endpoint listed _
  have isMapped : endpoint ∈ (front ++ [point]).map Descriptor.endpoint := by
    rw [List.map_append]
    exact listed
  obtain ⟨other, isOther, rfl⟩ := List.mem_map.mp isMapped
  show other.noteRest ∈ members.map Prod.fst
  rw [same]
  exact List.mem_map_of_mem isOther

/-- A tuplet is made of a chain, of which only the ends were handed over. -/
theorem Tuplet.makes_linkChain
    {front : List TupletPoint} {point : TupletPoint} {draft : Draft}
    {part : TupletPoint → Bool} (someWait : front ≠ [])
    (rising : ((front ++ [point]).map member).Pairwise (· < ·))
    (noteRests : ∀ other ∈ front ++ [point],
      draft.model.IsNoteRest other.noteRest)
    (isChain : IsChain ((front.filter part).map Descriptor.endpoint)
      (Descriptor.endpoint point)) :
    PairedRelation.tuplet.Makes ((front.filter part).map Descriptor.endpoint)
      (Descriptor.endpoint point) draft (linkChain (front ++ [point]) draft) := by
  obtain ⟨start, rest, rfl⟩ := List.exists_cons_of_ne_nil someWait
  have created := creates_linkChain rising fun other listed =>
    (noteRests other listed).lt_size
  refine .relation _ _ created ⟨isChain, rfl, nofun, ?_⟩
  intro endpoint listed _
  have isMember : ∀ other ∈ start :: rest ++ [point],
      other.noteRest ∈
        ((start :: rest ++ [point]).map entry).map Prod.fst := by
    intro other isOther
    rw [map_fst_entries]
    exact List.mem_map_of_mem isOther
  rcases List.mem_append.mp listed with inFront | isStop
  · obtain ⟨other, isPart, rfl⟩ := List.mem_map.mp inFront
    exact isMember other
      (List.mem_append_left _ (List.mem_filter.mp isPart).1)
  · rw [List.mem_singleton.mp isStop]
    exact isMember point (List.mem_append_right _ (List.mem_singleton_self _))

/-! ## Tuplets that are open -/

/-- A descriptor of a tuplet that was handed over, and not one with which a note
or rest joins a tuplet that is open. -/
def TupletPoint.isGiven (point : TupletPoint) : Bool :=
  point.phase != .continue

namespace Tuplet

/-- Notes and rests join only tuplets that were started: the first descriptor of
every number was handed over. -/
def Led (pending : List TupletPoint) : Prop :=
  ∀ key first, (under key pending).head? = some first → first.isGiven

variable {pending : List TupletPoint}

theorem Led.nil : Led [] :=
  nofun

/-- A descriptor is offered. -/
theorem Led.offer
    (led : Led pending) {point : TupletPoint} (isGiven : point.isGiven) :
    Led (remaining pending point (Pairing.offer pending point)) := by
  rcases offer_cases pending point with
    ⟨reason, outcome⟩ | ⟨outcome, _⟩ | ⟨outcome, _⟩
  · rw [outcome]
    exact led
  · rw [outcome]
    intro key first isFirst
    change (under key (pending ++ [point])).head? = some first at isFirst
    rw [under_append, List.head?_append] at isFirst
    rcases Option.or_eq_some_iff.mp isFirst with old | ⟨_, new⟩
    · exact led key first old
    · split at new
      · cases new
        exact isGiven
      · cases new
  · rw [outcome]
    intro key first isFirst
    change (under key (pending.filter fun other =>
      !sameNumber point other)).head? = some first at isFirst
    rw [under_filter_sameNumber] at isFirst
    split at isFirst
    · cases isFirst
    · exact led key first isFirst

/-- A note or rest joins the tuplets that are open. -/
theorem Led.join
    (led : Led pending) (noteRest : Handle) (location : Location) :
    Led (Tuplet.join pending noteRest location) := by
  intro key first isFirst
  rw [under_join, Tuplet.join, List.head?_append] at isFirst
  rcases Option.or_eq_some_iff.mp isFirst with old | ⟨none, new⟩
  · exact led key first old
  · rw [List.head?_eq_none_iff.mp none] at new
    cases new

/-- The first of every number is found among those handed over. -/
theorem firstOfEach_filter_isGiven
    (reported : List Int)
    (led : ∀ key, key ∉ reported → ∀ first,
      (under key pending).head? = some first → first.isGiven) :
    firstOfEach reported (pending.filter TupletPoint.isGiven) =
      firstOfEach reported pending := by
  induction pending generalizing reported with
  | nil => rfl
  | cons point rest induction =>
      have later : ∀ key, key ≠ number point →
          under key (point :: rest) = under key rest :=
        fun key other => List.filter_cons_of_neg (by simpa using other.symm)
      by_cases isReported : number point ∈ reported
      · have same := induction reported fun key unreported first isFirst => by
          apply led key unreported first
          rw [later key fun isOwn => unreported (isOwn ▸ isReported)]
          exact isFirst
        rw [firstOfEach, if_pos (List.contains_iff_mem.mpr isReported), ← same,
          List.filter_cons]
        split
        · rw [firstOfEach, if_pos (List.contains_iff_mem.mpr isReported)]
        · rfl
      · have isGiven : point.isGiven := by
          apply led (number point) isReported point
          rw [under, List.filter_cons_of_pos (by simp)]
          rfl
        have same := induction (number point :: reported)
          fun key unreported first isFirst => by
            obtain ⟨other, fresh⟩ : key ≠ number point ∧ key ∉ reported := by
              simpa using unreported
            apply led key fresh first
            rw [later key other]
            exact isFirst
        have noReport : ¬ reported.contains (number point) := by
          rw [List.contains_iff_mem]
          exact isReported
        rw [List.filter_cons_of_pos isGiven, firstOfEach, firstOfEach,
          if_neg noReport, if_neg noReport, same]

/-- Giving up the open tuplets reports those handed over. -/
theorem Led.clear (led : Led pending) (draft : Draft) :
    Pairing.clear .tuplet (pending.filter TupletPoint.isGiven) draft =
      Pairing.clear .tuplet pending draft := by
  rw [Pairing.clear, Pairing.clear, flush, flush,
    firstOfEach_filter_isGiven [] fun key _ => led key]

end Tuplet

end LdpScore
