import LdpScore.Relation.Pairing

/-!
# Descriptors that wait

While the notes of a score are read one after the other, the descriptors that
wait stay in order: under every correlation number the objects that carry them
rise, and at most one start waits.  `Waiting` says so for all objects below a
bound.  Offering a descriptor of the newest object keeps it, and the chain that a
descriptor completes therefore lists its objects in the order of their creation,
each of them once.
-/

namespace LdpScore.Pairing

variable {Point : Type} [Descriptor Point]
variable {bound : Handle} {pending : List Point} {point : Point}

/-- The objects that carry descriptors with a given number, in order of arrival. -/
def membersUnder (key : Int) (points : List Point) : List Handle :=
  (points.filter fun point => number point == key).map member

/-- The descriptors that wait under a number. -/
def under (key : Int) (points : List Point) : List Point :=
  points.filter fun point => number point == key

theorem under_append (key : Int) (pending : List Point) (point : Point) :
    under key (pending ++ [point]) =
      under key pending ++ if number point = key then [point] else [] := by
  rw [under, List.filter_append, ← under]
  by_cases isKey : number point = key <;> simp [isKey]

/-- Nothing waits any longer under the number of a stop; the others go on. -/
theorem under_filter_sameNumber
    (key : Int) (pending : List Point) (point : Point) :
    under key (pending.filter fun other => !sameNumber point other) =
      if number point = key then [] else under key pending := by
  rw [under, List.filter_filter]
  split
  · rename_i isKey
    apply List.filter_eq_nil_iff.mpr
    intro other _ both
    simp [sameNumber, isKey] at both
  · rename_i noKey
    apply List.filter_congr
    intro other _
    by_cases isKey : number other = key
    · have differs : key ≠ number point := fun same => noKey same.symm
      simp [sameNumber, isKey, differs]
    · simp [isKey]

/-- The descriptors that start a relation. -/
def startsOf (points : List Point) : List Point :=
  points.filter fun point => phase point == .start

/-- Of descriptors with one number, if no two numbers are the same, there is one at
most. -/
theorem eq_nil_or_singleton
    {key : Int} {points : List Point} (distinct : (points.map number).Nodup)
    (same : ∀ point ∈ points, number point = key) :
    points = [] ∨ ∃ point, points = [point] := by
  match points with
  | [] => exact Or.inl rfl
  | [point] => exact Or.inr ⟨point, rfl⟩
  | first :: second :: rest =>
      have differ := (List.nodup_cons.mp distinct).1
      refine absurd ?_ differ
      rw [List.map_cons, same first (by simp), same second (by simp)]
      exact List.mem_cons_self ..

/-- What holds of waiting descriptors whose objects are all below a bound. -/
structure Waiting (bound : Handle) (points : List Point) : Prop where
  below : ∀ point ∈ points, member point < bound
  rising : ∀ key, (membersUnder key points).Pairwise (· < ·)
  starts : ((startsOf points).map number).Nodup

/-- No waiting descriptor has both the object and the number of a new one. -/
def IsNew (pending : List Point) (point : Point) : Prop :=
  ∀ other ∈ pending, number other = number point →
    member other ≠ member point

/-! ## What becomes of a descriptor -/

/-- A descriptor is rejected, or waits, or completes the chain of its number. -/
theorem offer_cases (pending : List Point) (point : Point) :
    (∃ reason, offer pending point = .rejected reason) ∨
      (offer pending point = .waiting ∧ IsNew pending point ∧
        (phase point = .start →
          ∀ other ∈ startsOf pending, number other ≠ number point)) ∨
      (offer pending point =
          .complete (pending.filter (sameNumber point) ++ [point]) ∧
        IsNew pending point ∧ pending.filter (sameNumber point) ≠ []) := by
  rw [offer]
  rcases sameObject : pending.find? fun other =>
      member other == member point && sameNumber point other with _ | existing
  · have isNew : IsNew pending point := by
      intro other waits same equal
      have differs := List.find?_eq_none.mp sameObject other waits
      simp [sameNumber, same, equal] at differs
    cases phaseOf : phase point with
    | start =>
        simp only
        rcases sameStart : pending.find? fun other =>
            phase other == .start && sameNumber point other with _ | existing
        · refine Or.inr (Or.inl ⟨rfl, isNew, fun _ other started same => ?_⟩)
          obtain ⟨waits, isStart⟩ := List.mem_filter.mp started
          have differs := List.find?_eq_none.mp sameStart other waits
          simp_all [sameNumber]
        · exact Or.inl ⟨_, rfl⟩
    | «continue» =>
        refine Or.inr (Or.inl ⟨rfl, isNew, fun isStart => ?_⟩)
        cases isStart
    | stop =>
        simp only
        by_cases isEmpty : (pending.filter (sameNumber point)).isEmpty = true
        · rw [if_pos isEmpty]
          exact Or.inl ⟨_, rfl⟩
        · rw [if_neg isEmpty]
          refine Or.inr (Or.inr ⟨rfl, isNew, fun noneWaits => ?_⟩)
          rw [noneWaits] at isEmpty
          exact isEmpty rfl
  · exact Or.inl ⟨_, rfl⟩

/-- Starts and continuations never complete a chain. -/
theorem phase_of_complete
    {chain : List Point} (complete : offer pending point = .complete chain) :
    phase point = .stop := by
  rw [offer] at complete
  split at complete
  · cases complete
  · split at complete
    · split at complete <;> cases complete
    · cases complete
    · assumption

/-- A stop does not wait. -/
theorem phase_ne_stop_of_waiting (waits : offer pending point = .waiting) :
    phase point ≠ .stop := by
  intro isStop
  rw [offer, isStop] at waits
  split at waits
  · cases waits
  · dsimp only at waits
    split at waits <;> cases waits

/-- Nobody waits afterwards but those who waited before and the new one. -/
theorem mem_remaining_offer
    {other : Point}
    (waits : other ∈ remaining pending point (offer pending point)) :
    other ∈ pending ∨ other = point := by
  rcases offer_cases pending point with
    ⟨reason, rejected⟩ | ⟨waiting, _⟩ | ⟨complete, _⟩
  · rw [rejected] at waits
    exact Or.inl waits
  · rw [waiting] at waits
    rcases List.mem_append.mp waits with old | new
    · exact Or.inl old
    · exact Or.inr (List.mem_singleton.mp new)
  · rw [complete] at waits
    exact Or.inl (List.mem_filter.mp waits).1

/-- A stop never waits. -/
theorem remaining_sublist_of_stop (isStop : phase point = .stop) :
    (remaining pending point (offer pending point)).Sublist pending := by
  rw [offer]
  rw [isStop]
  split
  · exact List.Sublist.refl _
  · dsimp only
    split
    · exact List.Sublist.refl _
    · exact List.filter_sublist

/-- A chain consists of descriptors that waited and the one that completes it. -/
theorem mem_of_complete
    {chain : List Point} (complete : offer pending point = .complete chain)
    {other : Point} (listed : other ∈ chain) :
    other ∈ pending ∨ other = point := by
  rcases offer_cases pending point with
    ⟨reason, rejected⟩ | ⟨waiting, _⟩ | ⟨completes, _⟩
  · rw [rejected] at complete
    cases complete
  · rw [waiting] at complete
    cases complete
  · rw [completes] at complete
    cases complete
    rcases List.mem_append.mp listed with old | new
    · exact Or.inl (List.mem_filter.mp old).1
    · exact Or.inr (List.mem_singleton.mp new)

/-! ## Order -/

namespace Waiting

theorem nil (bound : Handle) : Waiting bound ([] : List Point) :=
  ⟨by simp, fun _ => List.Pairwise.nil, List.nodup_nil⟩

theorem mono
    {higher : Handle} (waiting : Waiting bound pending)
    (le : bound ≤ higher) :
    Waiting higher pending := by
  constructor
  · intro point waits
    exact Nat.lt_of_lt_of_le (waiting.below point waits) le
  · exact waiting.rising
  · exact waiting.starts

theorem sublist
    {fewer : List Point} (waiting : Waiting bound pending)
    (part : fewer.Sublist pending) :
    Waiting bound fewer := by
  constructor
  · intro point waits
    exact waiting.below point (part.subset waits)
  · intro key
    exact (waiting.rising key).sublist ((part.filter _).map _)
  · exact waiting.starts.sublist ((part.filter _).map _)

/-- Under its own number, the object of a new descriptor is above all others. -/
theorem lt_member
    (waiting : Waiting (bound + 1) pending)
    (newest : member point = bound) (isNew : IsNew pending point)
    {other : Point} (waits : other ∈ pending)
    (same : number other = number point) :
    member other < member point := by
  have le : member other ≤ bound :=
    Nat.le_of_lt_succ (waiting.below other waits)
  have ne : member other ≠ bound := newest ▸ isNew other waits same
  exact newest ▸ Nat.lt_of_le_of_ne le ne

/-- One more descriptor waits. -/
theorem append
    (waiting : Waiting (bound + 1) pending)
    (newest : member point = bound) (isNew : IsNew pending point)
    (onlyStart : phase point = .start →
      ∀ other ∈ startsOf pending, number other ≠ number point) :
    Waiting (bound + 1) (pending ++ [point]) := by
  constructor
  · intro other waits
    rcases List.mem_append.mp waits with old | new
    · exact waiting.below other old
    · rw [List.mem_singleton.mp new, newest]
      exact Nat.lt_succ_self bound
  · intro key
    by_cases isKey : number point = key
    · have appended :
          membersUnder key (pending ++ [point]) =
            membersUnder key pending ++ [member point] := by
        simp [membersUnder, isKey]
      rw [appended, List.pairwise_append]
      refine ⟨waiting.rising key, List.pairwise_singleton .., ?_⟩
      intro earlier listed last isLast
      obtain ⟨other, found, rfl⟩ := List.mem_map.mp listed
      obtain ⟨waits, same⟩ := List.mem_filter.mp found
      rw [List.mem_singleton.mp isLast]
      exact waiting.lt_member newest isNew waits
        ((beq_iff_eq.mp same).trans isKey.symm)
    · have unchanged :
          membersUnder key (pending ++ [point]) = membersUnder key pending := by
        simp [membersUnder, isKey]
      rw [unchanged]
      exact waiting.rising key
  · by_cases isStart : phase point = .start
    · have appended :
          startsOf (pending ++ [point]) = startsOf pending ++ [point] := by
        simp [startsOf, isStart]
      rw [appended, List.map_append, List.nodup_append]
      refine ⟨waiting.starts, List.pairwise_singleton .., ?_⟩
      intro earlier listed last isLast
      obtain ⟨other, found, rfl⟩ := List.mem_map.mp listed
      rw [List.mem_singleton.mp isLast]
      exact onlyStart isStart other found
    · have unchanged :
          startsOf (pending ++ [point]) = startsOf pending := by
        simp [startsOf, isStart]
      rw [unchanged]
      exact waiting.starts

/-- Offering a descriptor of the newest object keeps the others in order. -/
theorem offer
    (waiting : Waiting (bound + 1) pending)
    (newest : member point = bound) :
    Waiting (bound + 1)
      (remaining pending point (Pairing.offer pending point)) := by
  rcases offer_cases pending point with
    ⟨reason, rejected⟩ | ⟨waits, isNew, onlyStart⟩ | ⟨complete, _⟩
  · rw [rejected]
    exact waiting
  · rw [waits]
    exact waiting.append newest isNew onlyStart
  · rw [complete]
    exact waiting.sublist List.filter_sublist

/-- The objects of a chain rise, and there are at least two of them. -/
theorem chain
    (waiting : Waiting (bound + 1) pending)
    (newest : member point = bound)
    {chain : List Point}
    (complete : Pairing.offer pending point = .complete chain) :
    (chain.map member).Pairwise (· < ·) ∧ 2 ≤ chain.length := by
  rcases offer_cases pending point with
    ⟨reason, rejected⟩ | ⟨waits, _⟩ | ⟨completes, isNew, someWait⟩
  · rw [rejected] at complete
    cases complete
  · rw [waits] at complete
    cases complete
  · rw [completes] at complete
    cases complete
    constructor
    · rw [List.map_append, List.map_singleton, List.pairwise_append]
      refine ⟨waiting.rising (number point),
        List.pairwise_singleton .., ?_⟩
      intro earlier listed last isLast
      obtain ⟨other, found, rfl⟩ := List.mem_map.mp listed
      obtain ⟨waits, same⟩ := List.mem_filter.mp found
      rw [List.mem_singleton.mp isLast]
      exact waiting.lt_member newest isNew waits (beq_iff_eq.mp same)
    · rw [List.length_append, List.length_singleton]
      exact Nat.succ_le_succ (List.length_pos_iff.mpr someWait)

end Waiting

end LdpScore.Pairing
