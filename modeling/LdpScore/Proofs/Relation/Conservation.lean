import LdpScore.Proofs.Relation.Series

/-!
# No descriptor is lost

Of a series of descriptors each is rejected, or becomes part of a chain, or waits
until waiting comes to an end, and it does so once.  `Session.Balanced` is the
invariant: the descriptors that were rejected, those in chains and those that
wait are together the ones that arrived.  `conserves_run` adds what is reported
about them and which chains there are.
-/

namespace LdpScore.Pairing

variable {Point : Type} [Descriptor Point]

/-! ## What is reported in the end -/

/-- Some waiting descriptors are the first ones of all numbers. -/
structure IsFirsts (pending reported : List Point) : Prop where
  covers : ∀ point ∈ pending, number point ∈ reported.map number
  once : (reported.map number).Nodup
  first : ∀ point ∈ reported,
    (under (number point) pending).head? = some point

/-- Some waiting descriptors are the first ones of all numbers but some. -/
structure IsFirstsBeside
    (seen : List Int) (pending reported : List Point) : Prop where
  covers : ∀ point ∈ pending,
    number point ∈ seen ∨ number point ∈ reported.map number
  once : (reported.map number).Nodup
  unseen : ∀ point ∈ reported, number point ∉ seen
  first : ∀ point ∈ reported,
    (under (number point) pending).head? = some point

theorem isFirstsBeside_firstOfEach (seen : List Int) (pending : List Point) :
    IsFirstsBeside seen pending (firstOfEach seen pending) := by
  induction pending generalizing seen with
  | nil => exact ⟨nofun, .nil, nofun, nofun⟩
  | cons point rest induction =>
      have passes : ∀ {other : Point}, number other ≠ number point →
          under (number other) (point :: rest) = under (number other) rest :=
        fun differs => List.filter_cons_of_neg (by simpa using differs.symm)
      rw [firstOfEach]
      split
      · rename_i isSeen
        have isSeen : number point ∈ seen := List.contains_iff_mem.mp isSeen
        have rests := induction seen
        refine ⟨List.forall_mem_cons.mpr ⟨Or.inl isSeen, rests.covers⟩,
          rests.once, rests.unseen, fun other listed => ?_⟩
        rw [passes fun same => rests.unseen other listed (same ▸ isSeen)]
        exact rests.first other listed
      · rename_i unseen
        have unseen : number point ∉ seen :=
          fun isSeen => unseen (List.contains_iff_mem.mpr isSeen)
        have rests := induction (number point :: seen)
        constructor
        · refine List.forall_mem_cons.mpr
            ⟨Or.inr List.mem_cons_self, fun other waits => ?_⟩
          rcases rests.covers other waits with isSeen | listed
          · rcases List.mem_cons.mp isSeen with same | isSeen
            · rw [same]
              exact Or.inr List.mem_cons_self
            · exact Or.inl isSeen
          · exact Or.inr (List.mem_cons_of_mem _ listed)
        · refine List.nodup_cons.mpr ⟨fun listed => ?_, rests.once⟩
          obtain ⟨other, isOther, same⟩ := List.mem_map.mp listed
          exact rests.unseen other isOther (same ▸ List.mem_cons_self)
        · refine List.forall_mem_cons.mpr ⟨unseen, fun other listed isSeen => ?_⟩
          exact rests.unseen other listed (List.mem_cons_of_mem _ isSeen)
        · refine List.forall_mem_cons.mpr ⟨?_, fun other listed => ?_⟩
          · have itself : under (number point) (point :: rest) =
                point :: under (number point) rest :=
              List.filter_cons_of_pos (beq_self_eq_true (number point))
            rw [itself, List.head?_cons]
          · rw [passes fun same =>
              rests.unseen other listed (same ▸ List.mem_cons_self)]
            exact rests.first other listed

/-- Every number that waits is reported once, at the first descriptor with it. -/
theorem isFirsts_flush (pending : List Point) :
    IsFirsts pending (flush pending) := by
  have firsts := isFirstsBeside_firstOfEach [] pending
  refine ⟨fun point waits => ?_, firsts.once, firsts.first⟩
  exact (firsts.covers point waits).resolve_left List.not_mem_nil

/-! ## What waits -/

/-- No two starts with one number wait. -/
theorem nodup_startsOf_remaining
    {pending : List Point} (distinct : ((startsOf pending).map number).Nodup)
    (point : Point) :
    ((startsOf (remaining pending point (offer pending point))).map
      number).Nodup := by
  rcases offer_cases pending point with
    ⟨reason, rejected⟩ | ⟨waits, _, onlyStart⟩ | ⟨complete, _⟩
  · rw [rejected]
    exact distinct
  · rw [waits, remaining, startsOf, List.filter_append, ← startsOf]
    by_cases isStart : phase point = .start
    · have itself : [point].filter (fun other => phase other == .start) =
          [point] := List.filter_cons_of_pos (beq_iff_eq.mpr isStart)
      rw [itself, List.map_append, List.map_singleton]
      refine List.nodup_append.mpr ⟨distinct, List.pairwise_singleton .., ?_⟩
      intro key listed other isOther
      obtain ⟨earlier, started, rfl⟩ := List.mem_map.mp listed
      rw [List.mem_singleton.mp isOther]
      exact onlyStart isStart earlier started
    · have nothing : [point].filter (fun other => phase other == .start) =
          [] := List.filter_cons_of_neg (by simpa using isStart)
      rw [nothing, List.append_nil]
      exact distinct
  · rw [complete]
    exact distinct.sublist ((List.filter_sublist.filter _).map number)

/-- Of the descriptors under one number, one starts at most, and so it is with a
stop after them. -/
theorem length_startsOf_chain
    {pending : List Point} (distinct : ((startsOf pending).map number).Nodup)
    {stop : Point} (stops : phase stop = .stop) :
    (startsOf (under (number stop) pending ++ [stop])).length ≤ 1 := by
  have noStart : startsOf [stop] = [] :=
    List.filter_cons_of_neg (by simp [stops])
  have same : ∀ point ∈ startsOf (under (number stop) pending),
      number point = number stop := by
    intro point listed
    have isUnder := (List.mem_filter.mp listed).1
    exact beq_iff_eq.mp (List.mem_filter.mp isUnder).2
  have part : (startsOf (under (number stop) pending)).Sublist
      (startsOf pending) := List.filter_sublist.filter _
  rw [startsOf, List.filter_append, ← startsOf, ← startsOf, noStart,
    List.append_nil]
  rcases eq_nil_or_singleton (distinct.sublist (part.map number)) same with
    none | ⟨start, single⟩
  · rw [none]
    exact Nat.zero_le 1
  · rw [single]
    exact Nat.le_refl 1

/-! ## The balance -/

/-- What arrived was rejected, or is in a chain, or waits in the order of arrival.
No stop waits, and no two starts with one number. -/
structure Session.Balanced
    (arrivals : List (Arrival Point)) (session : Session Point) : Prop where
  balance : (session.rejected ++ session.chains.flatten ++
    session.pending).Perm (arrivals.map Arrival.point)
  ordered : session.pending.Sublist (arrivals.map Arrival.point)
  unstopped : ∀ point ∈ session.pending, phase point ≠ .stop
  starts : ((startsOf session.pending).map number).Nodup

namespace Session.Balanced

variable {arrivals : List (Arrival Point)} {session after : Session Point}
variable {point : Point}

theorem start (draft : Draft) : Balanced ([] : List (Arrival Point)) (.start draft) :=
  ⟨.nil, .slnil, nofun, .nil⟩

/-- One more descriptor waits. -/
theorem wait
    (balanced : Balanced arrivals session) {arrival : Arrival Point}
    (pending : after.pending = session.pending ++ [arrival.point])
    (answers : after.answers =
      session.answers ++ [⟨arrival.point, none, []⟩])
    (continues : phase arrival.point ≠ .stop)
    (starts : ((startsOf after.pending).map number).Nodup) :
    Balanced (arrivals ++ [arrival]) after := by
  have chains : after.chains = session.chains := by
    rw [chains, answers, List.filterMap_append, ← Session.chains]
    exact List.append_nil _
  have rejected : after.rejected = session.rejected := by
    rw [Session.rejected, answers, List.filter_append, List.map_append,
      ← Session.rejected]
    exact List.append_nil _
  refine ⟨?_, ?_, ?_, starts⟩
  · rw [chains, rejected, pending, List.map_append, ← List.append_assoc]
    exact balanced.balance.append_right _
  · rw [pending, List.map_append]
    exact balanced.ordered.append (.refl _)
  · rw [pending]
    exact List.forall_mem_append.mpr ⟨balanced.unstopped,
      List.forall_mem_singleton.mpr continues⟩

/-- One more descriptor is rejected. -/
theorem reject
    (balanced : Balanced arrivals session) {reports : List Diagnostic}
    (pending : after.pending = session.pending)
    (answers : after.answers = session.answers ++ [⟨point, none, reports⟩])
    (reported : reports ≠ []) :
    Balanced (arrivals ++ [.offered point]) after := by
  have chains : after.chains = session.chains := by
    rw [chains, answers, List.filterMap_append, ← Session.chains]
    exact List.append_nil _
  have rejected : after.rejected = session.rejected ++ [point] := by
    rw [Session.rejected, answers, List.filter_append, List.map_append,
      ← Session.rejected, List.filter_cons_of_pos (by simpa using reported)]
    rfl
  refine ⟨?_, ?_, pending ▸ balanced.unstopped, pending ▸ balanced.starts⟩
  · rw [chains, rejected, pending, List.map_append, List.append_assoc,
      List.append_assoc]
    refine (List.Perm.append_left _ List.perm_append_comm).trans ?_
    rw [← List.append_assoc]
    exact (List.append_assoc .. ▸ balanced.balance).append_right [point]
  · rw [pending, List.map_append]
    exact balanced.ordered.trans (List.sublist_append_left _ _)

/-- A stop takes what waits under its number into a chain. -/
theorem complete
    (balanced : Balanced arrivals session)
    (pending : after.pending =
      session.pending.filter fun other => !sameNumber point other)
    (answers : after.answers = session.answers ++
      [⟨point, some (session.pending.filter (sameNumber point) ++ [point]), []⟩]) :
    Balanced (arrivals ++ [.offered point]) after := by
  have chains : after.chains = session.chains ++
      [session.pending.filter (sameNumber point) ++ [point]] := by
    rw [chains, answers, List.filterMap_append, ← Session.chains]
    rfl
  have rejected : after.rejected = session.rejected := by
    rw [Session.rejected, answers, List.filter_append, List.map_append,
      ← Session.rejected]
    exact List.append_nil _
  have part : after.pending.Sublist session.pending :=
    pending ▸ List.filter_sublist
  refine ⟨?_, ?_, fun other waits => balanced.unstopped other (part.subset waits),
    balanced.starts.sublist ((part.filter _).map number)⟩
  · rw [chains, rejected, pending, List.map_append, List.flatten_append,
      List.flatten_singleton]
    -- The chain and what still waits are what waited, and the stop.
    have choose : (session.pending.filter (sameNumber point) ++ [point] ++
        session.pending.filter fun other => !sameNumber point other).Perm
          (session.pending ++ [point]) := by
      rw [List.append_assoc]
      refine (List.Perm.append_left _ List.perm_append_comm).trans ?_
      rw [← List.append_assoc]
      exact (List.filter_append_perm _ _).append_right [point]
    refine List.Perm.trans ?_ (balanced.balance.append_right [point])
    simp only [List.append_assoc] at choose ⊢
    exact (choose.append_left _).append_left _
  · rw [List.map_append]
    exact (part.trans balanced.ordered).trans (List.sublist_append_left _ _)

/-- Whatever becomes of one more descriptor, the balance is kept. -/
theorem take
    (balanced : Balanced arrivals session) (relation : PairedRelation)
    (arrival : Arrival Point)
    (continues : ∀ point, arrival = .saved point →
      phase point = .continue) :
    Balanced (arrivals ++ [arrival]) (session.take relation arrival) := by
  cases arrival with
  | saved point =>
      have noStart : startsOf [point] = [] :=
        List.filter_cons_of_neg (by simp [continues point rfl])
      refine balanced.wait rfl rfl ?_ ?_
      · rw [Arrival.point, continues point rfl]
        exact nofun
      · rw [pending_take_saved, startsOf, List.filter_append, ← startsOf,
          ← startsOf, noStart, List.append_nil]
        exact balanced.starts
  | offered point =>
      have pending := pending_take_offered relation session point
      have answers := answers_take_offered relation session point
      have starts := nodup_startsOf_remaining balanced.starts point
      rw [← pending] at starts
      rw [answerTo] at answers
      rcases offer_cases session.pending point with
        ⟨reason, outcome⟩ | ⟨outcome, _⟩ | ⟨outcome, _⟩
      · rw [outcome] at pending answers
        exact balanced.reject pending answers (List.cons_ne_nil _ _)
      · rw [outcome] at pending answers
        exact balanced.wait pending answers (phase_ne_stop_of_waiting outcome)
          starts
      · rw [outcome] at pending answers
        exact balanced.complete pending answers

end Session.Balanced

/-- A builder that has been given a series of descriptors. -/
abbrev after
    (relation : PairedRelation) (draft : Draft)
    (arrivals : List (Arrival Point)) :
    Session Point :=
  (Session.start draft).run relation arrivals

variable {relation : PairedRelation} {draft : Draft}
variable {arrivals : List (Arrival Point)}

theorem balanced_after
    (relation : PairedRelation) (draft : Draft)
    (continues : ∀ point, .saved point ∈ arrivals → phase point = .continue) :
    (after relation draft arrivals).Balanced arrivals := by
  induction arrivals using List.reverseRecOn with
  | nil => exact .start draft
  | append_singleton arrivals arrival induction =>
      rw [after, Session.run_concat]
      refine (induction fun point listed => ?_).take relation arrival ?_
      · exact continues point (List.mem_append_left _ listed)
      · rintro point rfl
        exact continues point (List.mem_append_right _ List.mem_cons_self)

/-! ## Chains and rejections -/

/-- A chain that was completed, and when: it is what waited under the number of a
stop, in the order of arrival, and then the stop. -/
structure IsCompleted
    (relation : PairedRelation) (draft : Draft)
    (arrivals : List (Arrival Point)) (chain : List Point)
    (earlier : List (Arrival Point)) (stop : Point) : Prop where
  arrives : earlier ++ [.offered stop] <+: arrivals
  stops : phase stop = .stop
  returned : (add relation (after relation draft earlier).pending stop
    (after relation draft earlier).draft).1 = some chain
  chain : chain =
    under (number stop) (after relation draft earlier).pending ++ [stop]

theorem exists_isCompleted
    {chain : List Point} (listed : chain ∈ (after relation draft arrivals).chains) :
    ∃ earlier stop,
      IsCompleted relation draft arrivals chain earlier stop := by
  induction arrivals using List.reverseRecOn with
  | nil => exact absurd listed List.not_mem_nil
  | append_singleton arrivals arrival induction =>
      have old : chain ∈ (after relation draft arrivals).chains →
          ∃ earlier stop,
            IsCompleted relation draft (arrivals ++ [arrival]) chain earlier
              stop := by
        intro listed
        obtain ⟨earlier, stop, completed⟩ := induction listed
        exact ⟨earlier, stop, completed.arrives.trans (List.prefix_append _ _),
          completed.stops, completed.returned, completed.chain⟩
      rw [after, Session.run_concat, Session.chains] at listed
      cases arrival with
      | saved point =>
          rw [Session.answers_take_saved, List.filterMap_append] at listed
          exact old ((List.mem_append.mp listed).resolve_right List.not_mem_nil)
      | offered point =>
          rw [Session.answers_take_offered, List.filterMap_append] at listed
          rcases List.mem_append.mp listed with earlier | new
          · exact old earlier
          · obtain ⟨answer, isOwn, isChain⟩ := List.mem_filterMap.mp new
            rw [List.mem_singleton.mp isOwn, Session.answerTo] at isChain
            have returned := (add_chain? relation _ point
              (after relation draft arrivals).draft).trans isChain
            rcases offer_cases (after relation draft arrivals).pending point with
              ⟨reason, outcome⟩ | ⟨outcome, _⟩ | ⟨outcome, _⟩
            · rw [outcome] at isChain
              cases isChain
            · rw [outcome] at isChain
              cases isChain
            · have stops := phase_of_complete outcome
              rw [outcome] at isChain
              exact ⟨arrivals, point, List.prefix_refl _, stops, returned,
                (Option.some.inj isChain).symm⟩

/-- Something is reported about a descriptor that is rejected, and once. -/
structure IsRejection
    (relation : PairedRelation) (answer : Answer Point) : Prop where
  chain? : answer.chain? = none
  reports : ∃ reason : Rejection, answer.reports =
    [⟨reason.problem relation (number answer.point), location answer.point⟩]

theorem isRejection_of_reports
    {answer : Answer Point}
    (given : answer ∈ (after relation draft arrivals).answers)
    (reported : answer.reports ≠ []) :
    IsRejection relation answer := by
  induction arrivals using List.reverseRecOn with
  | nil => exact absurd given List.not_mem_nil
  | append_singleton arrivals arrival induction =>
      rw [after, Session.run_concat] at given
      cases arrival with
      | saved point =>
          rw [Session.answers_take_saved] at given
          rcases List.mem_append.mp given with old | own
          · exact induction old
          · rw [List.mem_singleton.mp own] at reported
            exact absurd rfl reported
      | offered point =>
          rw [Session.answers_take_offered] at given
          rcases List.mem_append.mp given with old | own
          · exact induction old
          · rw [List.mem_singleton.mp own, Session.answerTo] at reported ⊢
            rcases outcome : offer
              ((Session.start draft).run relation arrivals).pending point with
              reason | _ | chain
            · exact ⟨rfl, reason, rfl⟩
            · rw [outcome] at reported
              exact absurd rfl reported
            · rw [outcome] at reported
              exact absurd rfl reported

theorem answers_map_point :
    (after relation draft arrivals).answers.map Answer.point =
      arrivals.map Arrival.point := by
  induction arrivals using List.reverseRecOn with
  | nil => rfl
  | append_singleton arrivals arrival induction =>
      rw [after, Session.run_concat, List.map_append, ← induction]
      cases arrival with
      | saved point => rw [Session.answers_take_saved, List.map_append]; rfl
      | offered point => rw [Session.answers_take_offered, List.map_append]; rfl

/-! ## The whole series -/

/-- What becomes of a series of descriptors until waiting comes to an end. -/
structure Conserves
    (relation : PairedRelation) (draft : Draft)
    (arrivals : List (Arrival Point)) : Prop where
  /-- Every descriptor is rejected, or in a chain, or waits in the end, once. -/
  balance : ((after relation draft arrivals).rejected ++
    (after relation draft arrivals).chains.flatten ++
      (after relation draft arrivals).pending).Perm (arrivals.map Arrival.point)
  /-- Every descriptor is answered in turn. -/
  answered : (after relation draft arrivals).answers.map Answer.point =
    arrivals.map Arrival.point
  /-- There is one report about a descriptor that is rejected. -/
  rejections : ∀ answer ∈ (after relation draft arrivals).answers,
    answer.reports ≠ [] → IsRejection relation answer
  /-- A chain is what waited under one number, and a stop.  It has one start at
  most. -/
  chains : ∀ chain ∈ (after relation draft arrivals).chains,
    (startsOf chain).length ≤ 1 ∧ ∃ earlier stop,
      IsCompleted relation draft arrivals chain earlier stop
  /-- At any time descriptors wait in the order of arrival, and no stop does. -/
  waiting : ∀ earlier, earlier <+: arrivals →
    (after relation draft earlier).pending.Sublist
        (earlier.map Arrival.point) ∧
      ∀ point ∈ (after relation draft earlier).pending, phase point ≠ .stop
  /-- In the end every open number is reported once, at its first descriptor. -/
  ended : IsFirsts (after relation draft arrivals).pending
    (flush (after relation draft arrivals).pending)
  /-- Nothing else is reported. -/
  reports :
    (clear relation (after relation draft arrivals).pending
        (after relation draft arrivals).draft).diagnostics.toList =
      draft.diagnostics.toList ++
        (after relation draft arrivals).answers.flatMap Answer.reports ++
          (flush (after relation draft arrivals).pending).map (unended relation)

/--
Pairing conserves descriptors, whatever their numbers, phases and objects are, as
long as those that wait without being offered continue: each of them is rejected
with one report, or becomes part of one chain, or waits until the end.
-/
theorem conserves_run
    (relation : PairedRelation) (draft : Draft)
    (arrivals : List (Arrival Point))
    (continues : ∀ point, .saved point ∈ arrivals → phase point = .continue) :
    Conserves relation draft arrivals := by
  have balanced : ∀ earlier, earlier <+: arrivals →
      (after relation draft earlier).Balanced earlier :=
    fun earlier part => balanced_after relation draft fun point listed =>
      continues point (part.subset listed)
  constructor
  · exact (balanced arrivals (List.prefix_refl _)).balance
  · exact answers_map_point
  · exact fun answer given reported => isRejection_of_reports given reported
  · intro chain listed
    obtain ⟨earlier, stop, completed⟩ := exists_isCompleted listed
    have part := (List.prefix_append _ _).trans completed.arrives
    refine ⟨?_, earlier, stop, completed⟩
    rw [completed.chain]
    exact length_startsOf_chain (balanced earlier part).starts completed.stops
  · exact fun earlier part =>
      ⟨(balanced earlier part).ordered, (balanced earlier part).unstopped⟩
  · exact isFirsts_flush _
  · rw [diagnostics_clear]
    exact congrArg (· ++ _) (Session.diagnostics_run relation [] draft arrivals)

/-- Tuplet 1 is joined by a note and started twice, then ended.  Tuplet 2 never is. -/
theorem conserves_tuplets :
    let point := fun number phase noteRest =>
      TupletPoint.mk number phase 3 2 .default .actual noteRest .nowhere
    let arrivals := [.offered (point 1 .start 0), .saved (point 1 .continue 1),
      .offered (point 2 .start 2), .offered (point 1 .start 2),
      .offered (point 1 .stop 3)]
    (∀ other, .saved other ∈ arrivals → phase other = .continue) ∧
      Conserves .tuplet {} arrivals ∧
      (after .tuplet {} arrivals).rejected = [point 1 .start 2] ∧
      (after .tuplet {} arrivals).chains =
        [[point 1 .start 0, point 1 .continue 1, point 1 .stop 3]] ∧
      (after .tuplet {} arrivals).pending = [point 2 .start 2] := by
  intro point arrivals
  have continues : ∀ other, .saved other ∈ arrivals →
      phase other = .continue := by
    intro other listed
    simp only [arrivals, List.mem_cons, reduceCtorEq, false_or, List.not_mem_nil,
      or_false, Arrival.saved.injEq] at listed
    rw [listed]
    rfl
  exact ⟨continues, conserves_run .tuplet {} arrivals continues,
    by decide +kernel, by decide +kernel, by decide +kernel⟩

end LdpScore.Pairing
