import LdpScore.Proofs.Score.Ids
import Mathlib.Order.Bounds.Basic

/-!
# A series of requests for ids

A pool is asked for ids one after the other: for any id, or for a certain one.  It
never hands out an id twice, and it grants the id that is asked for unless that is
taken.  A generated id is above all ids before it; when the greatest id of all is
taken, it is the least one from zero that is free.

An id has 64 bits, so fewer than `2 ^ 63` requests never use all of them up:
`areAnswers_answers`.
-/

namespace LdpScore.IdPool

/-- The least number that can be an id. -/
def minId : Int := -0x8000000000000000

/-- Whether a number fits into the 64 bits of an id. -/
def IsId (id : Int) : Prop :=
  minId ≤ id ∧ id ≤ maxId

/-- What a pool can be asked for: the next id, or an id that may be given. -/
inductive Request where
  | next
  | assign (wanted : Option Int)
deriving DecidableEq

/-- The id that a request gives. -/
def Request.wanted? : Request → Option Int
  | next => none
  | assign wanted => wanted

/-- What a pool answers to one request, and the pool afterwards. -/
def answer (pool : IdPool) : Request → Grant × IdPool
  | .next => (.granted pool.next.1, pool.next.2)
  | .assign wanted => pool.assign wanted

/-- What a pool answers to some requests, one after the other. -/
def answers (pool : IdPool) : List Request → List Grant
  | [] => []
  | request :: rest =>
      (pool.answer request).1 :: (pool.answer request).2.answers rest

/-- Whether an id is the one to generate after some others: it is above them all.
If the greatest id of all is among them, it is the least one that is free. -/
def IsGenerated (id : Int) (earlier : List Int) : Prop :=
  if maxId ∈ earlier then IsLeast {free | 0 ≤ free ∧ free ∉ earlier} id
  else ∀ other ∈ earlier, other < id

/-- Whether a request is answered as it should be when some ids have been handed
out before. -/
structure IsAnswer
    (earlier : List Int) (request : Request) (grant : Grant) : Prop where
  isNew : grant.id ∉ earlier
  isId : IsId grant.id
  /-- An id that is asked for is granted if and only if it is free. -/
  granted_iff : ∀ id, request.wanted? = some id →
    (grant = .granted id ↔ id ∉ earlier)
  /-- Otherwise another one takes its place. -/
  replaced_iff : (∃ id, grant = .replaced id) ↔
    ∃ id, request.wanted? = some id ∧ id ∈ earlier
  generated : (∀ id, request.wanted? = some id → id ∈ earlier) →
    IsGenerated grant.id earlier

/-- Some requests are answered as they should be, one after the other, when some
ids have been handed out before. -/
inductive AreAnswers : List Int → List Request → List Grant → Prop where
  | nil (earlier : List Int) : AreAnswers earlier [] []
  | cons {earlier : List Int} {request : Request} {grant : Grant}
      {requests : List Request} {grants : List Grant}
      (first : IsAnswer earlier request grant)
      (later : AreAnswers (earlier ++ [grant.id]) requests grants) :
      AreAnswers earlier (request :: requests) (grant :: grants)

variable {pool : IdPool} {ids : List Int}

/-- No id is handed out twice. -/
theorem AreAnswers.nodup
    {requests : List Request} {grants : List Grant}
    (areAnswers : AreAnswers ids requests grants) (distinct : ids.Nodup) :
    (ids ++ grants.map Grant.id).Nodup := by
  induction areAnswers with
  | nil earlier =>
      rw [List.map_nil, List.append_nil]
      exact distinct
  | @cons earlier request grant requests grants first later induction =>
      have distinctThen : (earlier ++ [grant.id]).Nodup := by
        rw [List.nodup_append]
        refine ⟨distinct, List.nodup_singleton _, ?_⟩
        rintro old listed _ isLast rfl
        exact first.isNew (List.mem_singleton.mp isLast ▸ listed)
      rw [List.map_cons, List.append_cons]
      exact induction distinctThen

/-! ## The least free id -/

/-- The least free id is found by trying one after the other from zero on. -/
theorem Tracks.isLeast_leastFree (tracks : pool.Tracks ids) :
    IsLeast {free | 0 ≤ free ∧ free ∉ ids} pool.leastFree := by
  have free : pool.leastFree ∉ ids := fun listed =>
    pool.isTaken_leastFree ((tracks.used _).mpr listed)
  rw [leastFree] at free ⊢
  rw [List.find?_map] at free ⊢
  cases found : (List.range (pool.used.size + 1)).find?
      ((fun candidate => !pool.used.contains candidate) ∘ Int.ofNat) with
  | none =>
      rw [found] at free
      refine ⟨⟨Int.le_refl 0, free⟩, fun other isFree => isFree.1⟩
  | some least =>
      rw [found] at free
      refine ⟨⟨Int.natCast_nonneg least, free⟩, ?_⟩
      rintro other ⟨nonnegative, isFree⟩
      obtain ⟨number, rfl⟩ := Int.eq_ofNat_of_zero_le nonnegative
      refine Int.ofNat_le.mpr (Nat.le_of_not_lt fun below => isFree ?_)
      have used := (List.find?_range_eq_some.mp found).2.2 number below
      rw [Function.comp_apply, Bool.not_not] at used
      exact (tracks.used _).mp used

/-- The ids from zero up to the least free one are all among those handed out. -/
theorem le_length_of_isLeast
    {least : Int} (isLeast : IsLeast {free | 0 ≤ free ∧ free ∉ ids} least) :
    least ≤ ids.length := by
  by_contra above
  have distinct :
      ((List.range (ids.length + 1)).map Int.ofNat).Nodup :=
    List.Nodup.map (fun _ _ => Int.ofNat.inj) List.nodup_range
  have listed : (List.range (ids.length + 1)).map Int.ofNat ⊆ ids := by
    intro id isCandidate
    obtain ⟨number, inRange, rfl⟩ := List.mem_map.mp isCandidate
    by_contra isFree
    have le := isLeast.2 ⟨Int.natCast_nonneg number, isFree⟩
    have below := List.mem_range.mp inRange
    have isNumber : Int.ofNat number = (number : Int) := rfl
    omega
  have le := (distinct.subperm listed).length_le
  rw [List.length_map, List.length_range] at le
  exact Nat.not_succ_le_self _ le

/-! ## One request -/

/-- While there are free ids left, the next id is one of them, and it is the one to
generate. -/
theorem Tracks.isGenerated_next
    (tracks : pool.Tracks ids) (areIds : ∀ id ∈ ids, IsId id)
    (few : (ids.length : Int) ≤ maxId) :
    IsId pool.next.1 ∧ IsGenerated pool.next.1 ids := by
  rw [IdPool.next]
  rcases isGreatest : pool.greatest with _ | greatest
  · have nothing : ∀ id, id ∉ ids := by
      intro id listed
      obtain ⟨greatest, isSome, _⟩ := tracks.above id listed
      cases isGreatest.symm.trans isSome
    refine ⟨show IsId 0 from ⟨by decide, by decide⟩, ?_⟩
    rw [IsGenerated, if_neg (nothing maxId)]
    exact fun other listed => absurd listed (nothing other)
  · have listed := tracks.greatest greatest isGreatest
    obtain ⟨notBelow, notAbove⟩ := areIds greatest listed
    have above : ∀ id ∈ ids, id ≤ greatest ∨ maxId ≤ greatest := by
      intro id isOld
      obtain ⟨other, isOther, le⟩ := tracks.above id isOld
      cases isGreatest.symm.trans isOther
      exact le
    by_cases below : greatest < maxId
    · simp only [if_pos below]
      have rising : ∀ id ∈ ids, id < greatest + 1 := fun id isOld =>
        Int.lt_add_one_of_le ((above id isOld).resolve_right (Int.not_le.mpr below))
      have free : maxId ∉ ids := fun isOld =>
        Int.not_le.mpr below (Int.le_of_lt_add_one (rising maxId isOld))
      refine ⟨⟨Int.le_trans notBelow (Int.le_of_lt (Int.lt_succ greatest)),
        below⟩, ?_⟩
      rw [IsGenerated, if_neg free]
      exact rising
    · simp only [if_neg below]
      have isLast : greatest = maxId :=
        Int.le_antisymm notAbove (Int.not_lt.mp below)
      have isLeast := tracks.isLeast_leastFree
      refine ⟨⟨Int.le_trans (by decide) isLeast.1.1,
        Int.le_trans (le_length_of_isLeast isLeast) few⟩, ?_⟩
      rw [IsGenerated, if_pos (isLast ▸ listed)]
      exact isLeast

/-- One request is answered as it should be, and the pool takes note of it. -/
theorem Tracks.isAnswer
    (tracks : pool.Tracks ids) (areIds : ∀ id ∈ ids, IsId id)
    (few : (ids.length : Int) ≤ maxId) (request : Request)
    (asksId : ∀ id, request.wanted? = some id → IsId id) :
    IsAnswer ids request (pool.answer request).1 ∧
      (pool.answer request).2.Tracks
        (ids ++ [(pool.answer request).1.id]) := by
  obtain ⟨isNew, _, tracksNext⟩ := tracks.next
  obtain ⟨isId, isGenerated⟩ := tracks.isGenerated_next areIds few
  have unasked : request.wanted? = none →
      IsAnswer ids request (.granted pool.next.1) := by
    intro noneWanted
    constructor
    · exact isNew
    · exact isId
    · rw [noneWanted]
      intro id isWanted
      cases isWanted
    · rw [noneWanted]
      constructor
      · rintro ⟨id, isReplaced⟩
        cases isReplaced
      · rintro ⟨id, isWanted, _⟩
        cases isWanted
    · exact fun _ => isGenerated
  cases request with
  | next => exact ⟨unasked rfl, tracksNext⟩
  | assign wanted =>
      cases wanted with
      | none => exact ⟨unasked rfl, tracksNext⟩
      | some given =>
          rw [answer, IdPool.assign]
          by_cases taken : pool.isTaken given
          · simp only [if_pos taken]
            have listed := (tracks.used given).mp taken
            refine ⟨⟨isNew, isId, ?_, ?_, fun _ => isGenerated⟩, tracksNext⟩
            · rintro _ ⟨⟩
              refine ⟨fun isGranted => ?_, fun free => absurd listed free⟩
              cases isGranted
            · exact ⟨fun _ => ⟨given, rfl, listed⟩, fun _ => ⟨_, rfl⟩⟩
          · simp only [if_neg taken]
            have free : given ∉ ids := fun listed =>
              taken ((tracks.used given).mpr listed)
            refine ⟨⟨free, asksId given rfl, ?_, ?_, ?_⟩, tracks.claim given⟩
            · rintro _ ⟨⟩
              exact ⟨fun _ => free, fun _ => rfl⟩
            · constructor
              · rintro ⟨id, isReplaced⟩
                cases isReplaced
              · rintro ⟨_, ⟨⟩, listed⟩
                exact absurd listed free
            · exact fun clashes => absurd (clashes given rfl) free

/-! ## All requests -/

theorem Tracks.areAnswers
    (tracks : pool.Tracks ids) (areIds : ∀ id ∈ ids, IsId id)
    {requests : List Request}
    (asksIds : ∀ request ∈ requests, ∀ id, request.wanted? = some id → IsId id)
    (few : (ids.length + requests.length : Int) ≤ maxId) :
    AreAnswers ids requests (pool.answers requests) := by
  induction requests generalizing pool ids with
  | nil => exact .nil ids
  | cons request requests induction =>
      rw [List.length_cons] at few
      obtain ⟨asksId, asksIds⟩ := List.forall_mem_cons.mp asksIds
      obtain ⟨isAnswer, tracksThen⟩ :=
        tracks.isAnswer areIds (by omega) request asksId
      refine .cons isAnswer (induction tracksThen ?_ asksIds ?_)
      · exact List.forall_mem_append.mpr
          ⟨areIds, List.forall_mem_singleton.mpr isAnswer.isId⟩
      · rw [List.length_append, List.length_singleton]
        omega

/--
Fewer than `2 ^ 63` requests to an empty pool are all answered as they should be: no
id is handed out twice, an id that is asked for is granted if and only if it was not
handed out before, and a generated id is above all those before it, or the least free
one from zero on if the greatest id of all is among these.
-/
theorem areAnswers_answers
    {requests : List Request} (few : (requests.length : Int) ≤ maxId)
    (asksIds : ∀ request ∈ requests, ∀ id,
      request.wanted? = some id → IsId id) :
    AreAnswers [] requests (answers {} requests) ∧
      ((answers {} requests).map Grant.id).Nodup := by
  have areAnswers : AreAnswers [] requests (answers {} requests) :=
    tracks_empty.areAnswers (fun _ => List.not_mem_nil.elim) asksIds
      (by rw [List.length_nil]; omega)
  exact ⟨areAnswers, areAnswers.nodup List.nodup_nil⟩

/-- The greatest id is asked for, then the ids that are free, and a negative one. -/
theorem areAnswers_beyond_greatest :
    let requests : List Request :=
      [.assign (some (-5)), .next, .assign (some 1), .assign (some maxId),
        .next, .assign none, .assign (some 2), .assign (some (-5))]
    (requests.length : Int) ≤ maxId ∧
      (∀ request ∈ requests, ∀ id, request.wanted? = some id → IsId id) ∧
      answers {} requests =
        [.granted (-5), .granted (-4), .granted 1, .granted maxId,
          .granted 0, .granted 2, .replaced 3, .replaced 4] ∧
      AreAnswers [] requests (answers {} requests) ∧
      ((answers {} requests).map Grant.id).Nodup := by
  intro requests
  have few : (requests.length : Int) ≤ maxId := by decide
  have asksIds : ∀ request ∈ requests, ∀ id,
      request.wanted? = some id → IsId id := by
    simp [requests, Request.wanted?, IsId, minId, maxId]
  exact ⟨few, asksIds, by decide +kernel, areAnswers_answers few asksIds⟩

end LdpScore.IdPool
