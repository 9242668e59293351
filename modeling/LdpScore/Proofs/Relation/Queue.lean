import LdpScore.Proofs.Relation.Ledger
import Mathlib.Data.List.Nodup

/-!
# Queues of descriptors

Each note or rest hands over at most one descriptor of a kind.  Those that wait are
then in the order of their objects whatever their numbers are, and whatever is known
of the descriptors that were given is known of those that wait and of every chain.
-/

namespace LdpScore.Pairing

variable {Point : Type} [Descriptor Point]
variable {given : Point → Prop} {bound : Handle} {pending : List Point}
variable {point : Point}

/-- Descriptors that wait in the order of their objects, all of them below a bound.
None of them is a stop. -/
structure Queued
    (given : Point → Prop) (bound : Handle) (pending : List Point) : Prop where
  waiting : Waiting bound pending
  rising : (pending.map member).Pairwise (· < ·)
  unstopped : ∀ point ∈ pending, phase point ≠ .stop
  given : ∀ point ∈ pending, given point

/-- Descriptors that were given and are completed by a stop. -/
structure Completed
    (given : Point → Prop) (front : List Point) (stop : Point) : Prop where
  isChain : IsChain (front.map Descriptor.endpoint) (Descriptor.endpoint stop)
  someWait : front ≠ []
  starts : ((startsOf front).map number).Nodup
  given : ∀ point ∈ front ++ [stop], given point

/-- What comes of offering a descriptor: what waits, and what is made. -/
inductive Settling
    (given : Point → Prop) (pending : List Point) (point : Point)
    (link : List Point → Draft → Draft) (draft : Draft) :
    List Point × Draft → Prop where
  /-- Nothing is made. -/
  | idle (rest : List Point) (after : Draft)
      (same : after.model = draft.model)
      (kept : ∀ other ∈ rest, other ∈ pending ∨ other = point) :
      Settling given pending point link draft (rest, after)
  /-- A chain is linked, and none of its objects waits any longer. -/
  | linked (front rest : List Point) (completed : Completed given front point)
      (listed : ∀ other ∈ front, other ∈ pending)
      (kept : ∀ other ∈ rest, other ∈ pending)
      (apart : ∀ other ∈ rest, ∀ earlier ∈ front,
        member other ≠ member earlier) :
      Settling given pending point link draft
        (rest, link (front ++ [point]) draft)

namespace Queued

theorem nil (given : Point → Prop) (bound : Handle) : Queued given bound [] :=
  ⟨.nil bound, List.Pairwise.nil,
    fun _ impossible => absurd impossible List.not_mem_nil,
    fun _ impossible => absurd impossible List.not_mem_nil⟩

theorem mono
    {more : Point → Prop} {higher : Handle}
    (queued : Queued given bound pending) (le : bound ≤ higher)
    (implies : ∀ point, given point → more point) :
    Queued more higher pending :=
  ⟨queued.waiting.mono le, queued.rising, queued.unstopped,
    fun point waits => implies point (queued.given point waits)⟩

/-- One object, one descriptor. -/
theorem eq_of_member
    (queued : Queued given bound pending) {first second : Point}
    (waits : first ∈ pending) (waitsToo : second ∈ pending)
    (same : member first = member second) :
    first = second :=
  List.inj_on_of_nodup_map (queued.rising.imp Nat.ne_of_lt) waits waitsToo same

/-- What waits under the number of a stop is completed by it. -/
theorem completed
    (queued : Queued given bound pending) (newest : member point = bound)
    (isGiven : given point)
    (complete : Pairing.offer pending point =
      .complete (pending.filter (sameNumber point) ++ [point])) :
    Completed given (pending.filter (sameNumber point)) point := by
  have ordered := queued.waiting.mono (Nat.le_succ bound)
  have rising := (ordered.chain newest complete).1
  have part : (pending.filter (sameNumber point)).Sublist pending :=
    List.filter_sublist
  refine ⟨⟨?_, ?_, ?_, phase_of_complete complete⟩, ?_,
    queued.waiting.starts.sublist ((part.filter _).map number), ?_⟩
  · rw [List.map_append, List.map_map]
    rw [List.map_append] at rising
    exact rising
  · intro endpoint listed
    obtain ⟨other, isFront, rfl⟩ := List.mem_map.mp listed
    exact beq_iff_eq.mp (List.mem_filter.mp isFront).2
  · intro endpoint listed
    obtain ⟨other, isFront, rfl⟩ := List.mem_map.mp listed
    exact queued.unstopped other (part.subset isFront)
  · intro noneWaits
    have several := (ordered.chain newest complete).2
    rw [noneWaits] at several
    exact absurd several (by simp)
  · refine List.forall_mem_append.mpr ⟨fun other isFront =>
      queued.given other (part.subset isFront), ?_⟩
    exact List.forall_mem_singleton.mpr isGiven

/-- The descriptor of the newest object is settled, and what waits is queued. -/
theorem settle
    (queued : Queued given bound pending) (newest : member point = bound)
    (isGiven : given point) (link : List Point → Draft → Draft)
    (relation : PairedRelation) (draft : Draft) :
    Queued given (bound + 1) (settleWith link relation pending point draft).1 ∧
      Settling given pending point link draft
        (settleWith link relation pending point draft) := by
  have ordered := queued.waiting.mono (Nat.le_succ bound)
  have waiting := ordered.offer newest
  rcases offer_cases pending point with
    ⟨reason, outcome⟩ | ⟨outcome, _⟩ | ⟨outcome, _⟩
  · rw [settleWith_of_rejected link relation draft outcome]
    exact ⟨queued.mono (Nat.le_succ bound) fun _ => id,
      .idle _ _ rfl fun _ => Or.inl⟩
  · rw [settleWith_of_waiting link relation draft outcome]
    rw [outcome] at waiting
    refine ⟨⟨waiting, ?_, ?_, ?_⟩, .idle _ _ rfl fun other waits => ?_⟩
    · rw [List.map_append, List.map_singleton, List.pairwise_append]
      refine ⟨queued.rising, List.pairwise_singleton .., ?_⟩
      intro earlier listed last isLast
      obtain ⟨other, waits, rfl⟩ := List.mem_map.mp listed
      rw [List.mem_singleton.mp isLast, newest]
      exact queued.waiting.below other waits
    · refine List.forall_mem_append.mpr ⟨queued.unstopped, ?_⟩
      exact List.forall_mem_singleton.mpr (phase_ne_stop_of_waiting outcome)
    · refine List.forall_mem_append.mpr ⟨queued.given, ?_⟩
      exact List.forall_mem_singleton.mpr isGiven
    · rcases List.mem_append.mp waits with old | new
      · exact Or.inl old
      · exact Or.inr (List.mem_singleton.mp new)
  · rw [settleWith_of_complete link relation draft outcome]
    rw [outcome] at waiting
    have part : (pending.filter fun other => !sameNumber point other).Sublist
        pending := List.filter_sublist
    refine ⟨⟨waiting, queued.rising.sublist (part.map member),
        fun other waits => queued.unstopped other (part.subset waits),
        fun other waits => queued.given other (part.subset waits)⟩,
      .linked _ _ (queued.completed newest isGiven outcome)
        (fun _ isFront => (List.mem_filter.mp isFront).1)
        (fun _ waits => part.subset waits) ?_⟩
    intro other waits earlier isFront same
    obtain ⟨isOther, differs⟩ := List.mem_filter.mp waits
    obtain ⟨isEarlier, equals⟩ := List.mem_filter.mp isFront
    rw [queued.eq_of_member isOther isEarlier same, equals] at differs
    cases differs

end Queued

end LdpScore.Pairing
