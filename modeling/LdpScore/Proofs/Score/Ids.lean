import LdpScore.Proofs.Score.Growth
import Mathlib.Data.List.Nodup
import Mathlib.Data.List.Perm.Subperm

/-!
# Handing out ids

A pool `Tracks` the ids that were handed out so far.  A generated id is none of
them: it is above all of them, or if the greatest id is among them, it is the
least one that is free.
-/

namespace LdpScore

namespace IdPool

/-- A pool knows which ids were handed out, and the greatest one. -/
structure Tracks (pool : IdPool) (ids : List Int) : Prop where
  used : ∀ id, pool.isTaken id ↔ id ∈ ids
  greatest : ∀ greatest, pool.greatest = some greatest → greatest ∈ ids
  above : ∀ id ∈ ids, ∃ greatest, pool.greatest = some greatest ∧
    (id ≤ greatest ∨ maxId ≤ greatest)

/-- Whether an id may be generated after some others: it is above them, unless
there is none above. -/
def FollowsAll (id : Int) (earlier : List Int) : Prop :=
  (∀ other ∈ earlier, other < id) ∨ ∃ other ∈ earlier, maxId ≤ other

theorem tracks_empty : Tracks {} [] := by
  constructor
  · intro id
    simp [isTaken]
  · exact nofun
  · exact nofun

/-- Among one more candidate than there are ids in use, one is free. -/
theorem isTaken_leastFree (pool : IdPool) :
    ¬ pool.isTaken pool.leastFree := by
  obtain ⟨candidate, found⟩ : ∃ candidate,
      ((List.range (pool.used.size + 1)).map Int.ofNat).find?
        (fun candidate => !pool.used.contains candidate) =
          some candidate := by
    rw [← Option.ne_none_iff_exists', ne_eq, List.find?_eq_none]
    intro allUsed
    have distinct :
        ((List.range (pool.used.size + 1)).map Int.ofNat).Nodup :=
      List.Nodup.map (fun _ _ => Int.ofNat.inj) List.nodup_range
    have listed :
        (List.range (pool.used.size + 1)).map Int.ofNat ⊆
          pool.used.toList := by
      intro id isCandidate
      have isUsed := allUsed id isCandidate
      rw [Std.TreeSet.mem_toList, ← Std.TreeSet.contains_iff_mem]
      simpa using isUsed
    have le := (distinct.subperm listed).length_le
    rw [List.length_map, List.length_range,
      Std.TreeSet.length_toList] at le
    exact Nat.not_succ_le_self _ le
  have free := List.find?_some found
  rw [Bool.not_eq_true'] at free
  rw [isTaken, leastFree]
  simp only [found, Option.getD_some, free]
  exact Bool.false_ne_true

theorem isTaken_insert
    (used : Std.TreeSet Int compare) (greatest : Option Int) (new id : Int) :
    isTaken ⟨greatest, used.insert new⟩ id ↔ id = new ∨ used.contains id := by
  rw [isTaken, Std.TreeSet.contains_insert, Bool.or_eq_true, beq_iff_eq,
    Std.LawfulEqCmp.compare_eq_iff_eq, eq_comm]

variable {pool : IdPool} {ids : List Int}

theorem Tracks.insert
    (tracks : pool.Tracks ids) {new greatest : Int}
    (isGreatest : greatest ∈ ids ++ [new])
    (above : ∀ id ∈ ids ++ [new], id ≤ greatest ∨ maxId ≤ greatest) :
    Tracks ⟨some greatest, pool.used.insert new⟩ (ids ++ [new]) := by
  constructor
  · intro id
    rw [isTaken_insert, List.mem_append, List.mem_singleton,
      ← tracks.used id, or_comm]
    rfl
  · rintro _ ⟨⟩
    exact isGreatest
  · exact fun id listed => ⟨greatest, rfl, above id listed⟩

/-- A generated id is new, and it follows all others. -/
theorem Tracks.next (tracks : pool.Tracks ids) :
    pool.next.1 ∉ ids ∧ FollowsAll pool.next.1 ids ∧
      pool.next.2.Tracks (ids ++ [pool.next.1]) := by
  rw [IdPool.next]
  rcases isGreatest : pool.greatest with _ | greatest
  · have none : ids = [] := by
      apply List.eq_nil_iff_forall_not_mem.mpr
      intro id listed
      obtain ⟨greatest, isSome, _⟩ := tracks.above id listed
      cases isGreatest.symm.trans isSome
    subst none
    refine ⟨List.not_mem_nil, Or.inl nofun, tracks.insert (by simp) ?_⟩
    intro id listed
    exact Or.inl (List.mem_singleton.mp listed ▸ Int.le_refl _)
  · have listed := tracks.greatest greatest isGreatest
    have above : ∀ id ∈ ids, id ≤ greatest ∨ maxId ≤ greatest := by
      intro id isId
      obtain ⟨other, isOther, le⟩ := tracks.above id isId
      cases isGreatest.symm.trans isOther
      exact le
    -- Below the greatest id there is, the next one is new because it is above all
    -- others; beyond that, because the least free one is looked for.
    by_cases below : greatest < maxId
    · simp only [if_pos below]
      have rising : ∀ id ∈ ids, id < greatest + 1 := by
        intro id isId
        rcases above id isId with le | reached
        · exact Int.lt_add_one_of_le le
        · exact absurd below (Int.not_lt.mpr reached)
      refine ⟨fun isId => Int.lt_irrefl _ (rising _ isId), Or.inl rising,
        tracks.insert (by simp) ?_⟩
      intro id isId
      rcases List.mem_append.mp isId with old | new
      · exact Or.inl (Int.le_of_lt (rising id old))
      · exact Or.inl (List.mem_singleton.mp new ▸ Int.le_refl _)
    · simp only [if_neg below]
      have reached : maxId ≤ greatest := Int.not_lt.mp below
      refine ⟨fun isId => ?_, Or.inr ⟨greatest, listed, reached⟩,
        tracks.insert (List.mem_append_left _ listed)
          fun _ _ => Or.inr reached⟩
      exact pool.isTaken_leastFree ((tracks.used _).mpr isId)

/-- An id that is free is handed out. -/
theorem Tracks.claim
    (tracks : pool.Tracks ids) (id : Int) :
    (pool.claim id).Tracks (ids ++ [id]) := by
  rw [IdPool.claim]
  rcases isGreatest : pool.greatest with _ | greatest
  · have none : ids = [] := by
      apply List.eq_nil_iff_forall_not_mem.mpr
      intro id listed
      obtain ⟨greatest, isSome, _⟩ := tracks.above id listed
      cases isGreatest.symm.trans isSome
    subst none
    apply tracks.insert (by simp)
    intro other listed
    exact Or.inl (List.mem_singleton.mp listed ▸ Int.le_refl _)
  · have listed := tracks.greatest greatest isGreatest
    apply tracks.insert
    · dsimp only
      rcases Int.le_total greatest id with le | le
      · rw [Int.max_eq_right le]
        exact List.mem_append_right _ (List.mem_singleton_self id)
      · rw [Int.max_eq_left le]
        exact List.mem_append_left _ listed
    · intro other isId
      rcases List.mem_append.mp isId with old | new
      · obtain ⟨known, isKnown, le⟩ := tracks.above other old
        cases isGreatest.symm.trans isKnown
        exact le.imp (fun le => Int.le_trans le (Int.le_max_left _ _))
          fun reached => Int.le_trans reached (Int.le_max_left _ _)
      · rw [List.mem_singleton.mp new]
        exact Or.inl (Int.le_max_right _ _)

/-- What is known of the id that is handed out when one is asked for, or none. -/
structure Assigns
    (ids : List Int) (wanted : Option Int) (id : Int) (after : IdPool) :
    Prop where
  isNew : id ∉ ids
  tracks : after.Tracks (ids ++ [id])
  kept : ∀ given, wanted = some given → given ∉ ids → id = given
  generated : (∀ given, wanted = some given → given ∈ ids) → FollowsAll id ids

theorem Tracks.assign
    (tracks : pool.Tracks ids) (wanted : Option Int) :
    Assigns ids wanted (pool.assign wanted).1.id (pool.assign wanted).2 := by
  obtain ⟨isNew, follows, tracksNext⟩ := tracks.next
  cases wanted with
  | none =>
      exact ⟨isNew, tracksNext, nofun, fun _ => follows⟩
  | some given =>
      rw [IdPool.assign]
      by_cases taken : pool.isTaken given
      · simp only [if_pos taken]
        constructor
        · exact isNew
        · exact tracksNext
        · rintro _ ⟨⟩ free
          exact absurd ((tracks.used given).mp taken) free
        · exact fun _ => follows
      · simp only [if_neg taken]
        have free : given ∉ ids := fun listed =>
          taken ((tracks.used given).mpr listed)
        constructor
        · exact free
        · exact tracks.claim given
        · rintro _ ⟨⟩ _
          rfl
        · intro clashes
          exact absurd (clashes given rfl) free

end IdPool

end LdpScore
