import LdpScore.Proofs.Relation.Linking
import LdpScore.Proofs.Score.Retention

/-!
# The ledger of descriptors

Whatever is handed over to be paired comes to an end: it becomes part of a
relation, or there is a report about it.  For each kind of relation a ledger lists
what was handed over, what became of it, and what still waits.
`PairedRelation.Accounts` says that its two sides balance.  Offering a descriptor
and giving up all that waits keep the balance.
-/

namespace LdpScore

/-- An endpoint describes itself. -/
instance : Descriptor Endpoint where
  endpoint := id

/-- Descriptors of one number in order, and the stop that ends their wait. -/
structure Pairing.IsChain (front : List Endpoint) (stop : Endpoint) :
    Prop where
  rising : ((front ++ [stop]).map Endpoint.member).Pairwise (· < ·)
  number : ∀ point ∈ front, point.number = stop.number
  unstopped : ∀ point ∈ front, point.phase ≠ .stop
  stops : stop.phase = .stop

/-- The number under which a relation was paired, where it is recorded. -/
def Content.correlation? : Content → Option Int
  | tie number _ _ => some number
  | slur number _ _ => some number
  | _ => none

namespace PairedRelation

/-- Whether the object of a descriptor becomes a member of the relation.  A slur
only passes over the notes where it continues. -/
def joins : PairedRelation → Phase → Bool
  | .slur, .continue => false
  | _, _ => true

/-- A relation is made of a chain, and has the objects of the chain as members. -/
structure Links
    (kind : PairedRelation) (front : List Endpoint) (stop : Endpoint)
    (content : Content) : Prop where
  isChain : Pairing.IsChain front stop
  named : content.name = kind.word
  number : ∀ number, content.correlation? = some number →
    number = stop.number
  members : ∀ point ∈ front ++ [stop], kind.joins point.phase →
    point.member ∈ content.memberHandles

/-- What comes of a chain: a relation, or the report that the ends of a tie do not
go together. -/
inductive Makes
    (kind : PairedRelation) (front : List Endpoint) (stop : Endpoint)
    (before : Draft) : Draft → Prop where
  | relation (content : Content) (after : Draft)
      (created : before.Creates content after)
      (links : kind.Links front stop content) :
      Makes kind front stop before after
  | incompatible (start : Endpoint) (after : Draft) (isTie : kind = .tie)
      (single : front = [start]) (isChain : Pairing.IsChain [start] stop)
      (reported : after =
        before.report stop.location (.incompatibleTie stop.number)) :
      Makes kind front stop before after

end PairedRelation

/-- A descriptor that was handed over, and how many reports there were by then. -/
structure Handed where
  endpoint : Endpoint
  reports : Nat

instance : Descriptor Handed where
  endpoint := Handed.endpoint

/-- What becomes of descriptors.  Reports are counted from zero. -/
inductive Fate where
  /-- They are a chain of which a relation is made. -/
  | linked (relation : Handle) (front : List Handed) (stop : Handed)
  /-- One is turned away. -/
  | rejected (report : Nat) (reason : Pairing.Rejection) (entry : Handed)
  /-- The ends of a tie do not go together. -/
  | incompatible (report : Nat) (start stop : Handed)
  /-- Nothing ends those of one number. -/
  | unended (report : Nat) (first : Handed) (others : List Handed)

namespace Fate

/-- The descriptors that share a fate. -/
def handed : Fate → List Handed
  | linked _ front stop => front ++ [stop]
  | rejected _ _ entry => [entry]
  | incompatible _ start stop => [start, stop]
  | unended _ first others => first :: others

/-- The report of a fate that is none of a relation. -/
def report? : Fate → Option Nat
  | linked _ _ _ => none
  | rejected report _ _ => some report
  | incompatible report _ _ => some report
  | unended report _ _ => some report

/-- Something was reported after all descriptors of a list had been handed over. -/
structure Reported
    (draft : Draft) (report : Nat) (problem : Problem) (location : Location)
    (entries : List Handed) : Prop where
  isReport : draft.diagnostics[report]? = some ⟨problem, location⟩
  since : ∀ entry ∈ entries, entry.reports ≤ report

/-- What a fate means for the score. -/
inductive Holds (kind : PairedRelation) (draft : Draft) : Fate → Prop where
  | linked (relation : Handle) (front : List Handed) (stop : Handed)
      (content : Content)
      (found : draft.model.content? relation = some content)
      (links : kind.Links (front.map Handed.endpoint) stop.endpoint content) :
      Holds kind draft (.linked relation front stop)
  | rejected (report : Nat) (reason : Pairing.Rejection) (entry : Handed)
      (reported : Reported draft report
        (reason.problem kind entry.endpoint.number) entry.endpoint.location
        [entry]) :
      Holds kind draft (.rejected report reason entry)
  | incompatible (report : Nat) (start stop : Handed) (isTie : kind = .tie)
      (isChain : Pairing.IsChain [start.endpoint] stop.endpoint)
      (reported : Reported draft report
        (.incompatibleTie stop.endpoint.number) stop.endpoint.location
        [start, stop]) :
      Holds kind draft (.incompatible report start stop)
  | unended (report : Nat) (first : Handed) (others : List Handed)
      (number : ∀ other ∈ others,
        other.endpoint.number = first.endpoint.number)
      (reported : Reported draft report
        (.neverEnded kind first.endpoint.number) first.endpoint.location
        (first :: others)) :
      Holds kind draft (.unended report first others)

variable {kind : PairedRelation} {before after : Draft} {fate : Fate}

theorem Reported.stand
    {report : Nat} {problem : Problem} {location : Location}
    {entries : List Handed}
    (reported : Reported before report problem location entries)
    (stands : before.Stands after) :
    Reported after report problem location entries := by
  refine ⟨?_, reported.since⟩
  obtain ⟨later, isLater⟩ := stands.reports
  rw [← Array.getElem?_toList, ← isLater]
  have isReport := reported.isReport
  rw [← Array.getElem?_toList] at isReport
  obtain ⟨inside, _⟩ := List.getElem?_eq_some_iff.mp isReport
  rw [List.getElem?_append_left inside]
  exact isReport

/-- What becomes of descriptors stays so. -/
theorem Holds.stand
    (holds : fate.Holds kind before) (stands : before.Stands after) :
    fate.Holds kind after := by
  cases holds with
  | linked relation front stop content found links =>
      refine .linked relation front stop content ?_ links
      apply stands.relations relation content found
      · rw [Content.members?_isSome_iff, links.named]
        cases kind <;> simp [PairedRelation.word]
      · rw [links.named]
        exact kind.word_ne_chord
  | rejected report reason entry reported =>
      exact .rejected report reason entry (reported.stand stands)
  | incompatible report start stop isTie isChain reported =>
      exact .incompatible report start stop isTie isChain
        (reported.stand stands)
  | unended report first others number reported =>
      exact .unended report first others number (reported.stand stands)

theorem Reported.lt_size
    {draft : Draft} {report : Nat} {problem : Problem} {location : Location}
    {entries : List Handed}
    (reported : Reported draft report problem location entries) :
    report < draft.diagnostics.size :=
  (Array.getElem?_eq_some_iff.mp reported.isReport).1

theorem Holds.lt_size
    {draft : Draft} (holds : fate.Holds kind draft) {report : Nat}
    (isReport : fate.report? = some report) :
    report < draft.diagnostics.size := by
  cases holds <;> cases isReport <;> exact Reported.lt_size ‹_›

/-- What is reported is the latest report. -/
theorem Reported.report
    (draft : Draft) (problem : Problem) (location : Location)
    {entries : List Handed}
    (since : ∀ entry ∈ entries, entry.reports ≤ draft.diagnostics.size) :
    Reported (draft.report location problem) draft.diagnostics.size problem
      location entries :=
  ⟨Array.getElem?_push_size, since⟩

end Fate

namespace PairedRelation

/-- The ledger of a kind of relation: every descriptor that was handed over still
waits or has one fate, and no report answers for two fates. -/
structure Accounts
    (kind : PairedRelation) (handed : List Handed) (fates : List Fate)
    (waiting : List Handed) (draft : Draft) : Prop where
  balance : (fates.flatMap Fate.handed ++ waiting).Perm handed
  holds : ∀ fate ∈ fates, fate.Holds kind draft
  reports : (fates.filterMap Fate.report?).Pairwise (· < ·)
  since : ∀ entry ∈ handed, entry.reports ≤ draft.diagnostics.size
  unstopped : ∀ entry ∈ waiting, entry.endpoint.phase ≠ .stop

end PairedRelation

namespace PairedRelation.Accounts

variable {kind : PairedRelation} {handed waiting : List Handed}
variable {fates : List Fate} {before after draft : Draft}

theorem nil (kind : PairedRelation) (draft : Draft) :
    kind.Accounts [] [] [] draft :=
  ⟨.nil, nofun, .nil, nofun, nofun⟩

theorem stand
    (accounts : kind.Accounts handed fates waiting before)
    (stands : before.Stands after) :
    kind.Accounts handed fates waiting after := by
  refine ⟨accounts.balance, fun fate listed => ?_, accounts.reports,
    fun entry listed => ?_, accounts.unstopped⟩
  · exact (accounts.holds fate listed).stand stands
  · refine Nat.le_trans (accounts.since entry listed) ?_
    rw [← Array.length_toList, ← Array.length_toList]
    exact stands.reports.length_le

theorem mem_handed
    (accounts : kind.Accounts handed fates waiting draft) {entry : Handed}
    (waits : entry ∈ waiting) :
    entry ∈ handed :=
  accounts.balance.subset (List.mem_append_right _ waits)

/-- One more descriptor waits. -/
theorem wait
    (accounts : kind.Accounts handed fates waiting draft) (entry : Handed)
    (since : entry.reports ≤ draft.diagnostics.size)
    (noStop : entry.endpoint.phase ≠ .stop) :
    kind.Accounts (handed ++ [entry]) fates (waiting ++ [entry]) draft := by
  refine ⟨?_, accounts.holds, accounts.reports, fun other listed => ?_,
    fun other waits => ?_⟩
  · rw [← List.append_assoc]
    exact accounts.balance.append_right [entry]
  · rcases List.mem_append.mp listed with old | new
    · exact accounts.since other old
    · exact List.mem_singleton.mp new ▸ since
  · rcases List.mem_append.mp waits with old | new
    · exact accounts.unstopped other old
    · exact List.mem_singleton.mp new ▸ noStop

/-- Descriptors that waited, or were handed over just now, meet their fate. -/
theorem settle
    (accounts : kind.Accounts handed fates waiting before)
    {new rest : List Handed} {fate : Fate} (stands : before.Stands after)
    (split : (waiting ++ new).Perm (fate.handed ++ rest))
    (part : rest ⊆ waiting)
    (since : ∀ entry ∈ new, entry.reports ≤ before.diagnostics.size)
    (holds : fate.Holds kind after)
    (isLatest : ∀ report, fate.report? = some report →
      before.diagnostics.size ≤ report) :
    kind.Accounts (handed ++ new) (fates ++ [fate]) rest after := by
  have stood := accounts.stand stands
  refine ⟨?_, fun other listed => ?_, ?_, fun entry listed => ?_,
    fun entry waits => accounts.unstopped entry (part waits)⟩
  · rw [List.flatMap_append, List.flatMap_singleton, List.append_assoc]
    refine (List.Perm.append_left _ split.symm).trans ?_
    rw [← List.append_assoc]
    exact accounts.balance.append_right new
  · rcases List.mem_append.mp listed with old | isNew
    · exact stood.holds other old
    · exact List.mem_singleton.mp isNew ▸ holds
  · rw [List.filterMap_append, List.pairwise_append]
    refine ⟨accounts.reports, ?_, fun earlier isEarlier latest isOwn => ?_⟩
    · cases isReport : fate.report? <;> simp [isReport]
    · obtain ⟨other, listed, isReport⟩ := List.mem_filterMap.mp isEarlier
      obtain ⟨own, isFate, isLast⟩ := List.mem_filterMap.mp isOwn
      rw [List.mem_singleton.mp isFate] at isLast
      exact Nat.lt_of_lt_of_le
        ((accounts.holds other listed).lt_size isReport)
        (isLatest latest isLast)
  · rcases List.mem_append.mp listed with old | isNew
    · exact stood.since entry old
    · refine Nat.le_trans (since entry isNew) ?_
      rw [← Array.length_toList, ← Array.length_toList]
      exact stands.reports.length_le

end PairedRelation.Accounts

/-! ## Offering a descriptor -/

namespace PairedRelation.Accounts

open Pairing

variable {Point : Type} [Descriptor Point] {pending : List Point}
variable {point : Point} {part : Point → Bool}
variable {kind : PairedRelation} {handed waiting : List Handed}
variable {fates : List Fate} {draft : Draft}

/-- Those that wait under one number in the ledger. -/
theorem map_endpoint_filter
    (waits : waiting.map Handed.endpoint =
      (pending.filter part).map Descriptor.endpoint)
    (choose : Int → Bool) :
    (waiting.filter fun entry => choose (number entry)).map Handed.endpoint =
      ((pending.filter fun other => choose (number other)).filter part).map
        Descriptor.endpoint := by
  have chosen : ∀ points : List Point,
      (points.filter fun other => choose (number other)).map
        Descriptor.endpoint =
          (points.map Descriptor.endpoint).filter fun endpoint =>
            choose endpoint.number := by
    intro points
    rw [List.filter_map]
    rfl
  have swapped : (pending.filter fun other => choose (number other)).filter
      part = (pending.filter part).filter fun other =>
        choose (number other) := by
    rw [List.filter_filter, List.filter_filter]
    exact List.filter_congr fun _ _ => Bool.and_comm ..
  rw [swapped, chosen, ← waits, List.filter_map]
  rfl

/-- What is handed over never stops what waits. -/
theorem phase_ne_stop
    (accounts : kind.Accounts handed fates waiting draft)
    (waits : waiting.map Handed.endpoint = pending.map Descriptor.endpoint) :
    ∀ other ∈ pending, phase other ≠ .stop := by
  intro other isOther
  have isWaiting : Descriptor.endpoint other ∈
      waiting.map Handed.endpoint := by
    rw [waits]
    exact List.mem_map_of_mem isOther
  obtain ⟨entry, isEntry, isOwn⟩ := List.mem_map.mp isWaiting
  rw [phase, ← isOwn]
  exact accounts.unstopped entry isEntry

/-- What waits in order under the number of a stop is a chain with it. -/
theorem isChain
    {bound : Handle} (accounts : kind.Accounts handed fates waiting draft)
    (waits : waiting.map Handed.endpoint =
      (pending.filter part).map Descriptor.endpoint)
    (ordered : Waiting (bound + 1) pending) (newest : member point = bound)
    (complete : Pairing.offer pending point =
      .complete (pending.filter (sameNumber point) ++ [point])) :
    IsChain
      (((pending.filter (sameNumber point)).filter part).map
        Descriptor.endpoint)
      (Descriptor.endpoint point) := by
  have rising := (ordered.chain newest complete).1
  rw [List.map_append] at rising
  constructor
  · rw [List.map_append, List.map_map]
    exact rising.sublist
      ((List.filter_sublist.map _).append (List.Sublist.refl _))
  · intro endpoint listed
    obtain ⟨other, isPart, rfl⟩ := List.mem_map.mp listed
    have same := (List.mem_filter.mp (List.mem_filter.mp isPart).1).2
    exact beq_iff_eq.mp same
  · intro endpoint listed
    obtain ⟨other, isPart, rfl⟩ := List.mem_map.mp listed
    exact accounts.phase_ne_stop waits other
      ((List.filter_sublist.filter part).subset isPart)
  · exact phase_of_complete complete

/-- Some of those that wait and a new one, and then the others. -/
theorem perm_choose
    (waiting : List Handed) (entry : Handed) (choose : Handed → Bool) :
    (waiting ++ [entry]).Perm
      (waiting.filter choose ++ [entry] ++
        waiting.filter fun other => !choose other) := by
  rw [List.append_assoc]
  refine ((List.filter_append_perm choose waiting).symm.append_right
    [entry]).trans ?_
  rw [List.append_assoc]
  exact List.Perm.append_left _ (List.perm_append_comm ..)

/-- A descriptor that is offered is turned away, or waits, or is the stop of a
chain: all of it is in the ledger. -/
theorem offer
    (link : List Point → Draft → Draft) (part : Point → Bool)
    {bound : Handle} (accounts : kind.Accounts handed fates waiting draft)
    (waits : waiting.map Handed.endpoint =
      (pending.filter part).map Descriptor.endpoint)
    (isPart : part point)
    (ordered : Waiting (bound + 1) pending) (newest : member point = bound)
    (makes : pending.filter (sameNumber point) ≠ [] →
      ((pending.filter (sameNumber point) ++ [point]).map member).Pairwise
          (· < ·) →
        IsChain
            (((pending.filter (sameNumber point)).filter part).map
              Descriptor.endpoint)
            (Descriptor.endpoint point) →
          kind.Makes
            (((pending.filter (sameNumber point)).filter part).map
              Descriptor.endpoint)
            (Descriptor.endpoint point) draft
            (link (pending.filter (sameNumber point) ++ [point]) draft)) :
    ∃ more still,
      kind.Accounts
          (handed ++ [⟨Descriptor.endpoint point, draft.diagnostics.size⟩])
          (fates ++ more) still (settleWith link kind pending point draft).2 ∧
        still.map Handed.endpoint =
          ((settleWith link kind pending point draft).1.filter part).map
            Descriptor.endpoint := by
  let entry : Handed := ⟨Descriptor.endpoint point, draft.diagnostics.size⟩
  have sinceEntry : ∀ other ∈ [entry],
      other.reports ≤ draft.diagnostics.size := by
    intro other listed
    exact Nat.le_of_eq (congrArg Handed.reports (List.mem_singleton.mp listed))
  rcases offer_cases pending point with
    ⟨reason, outcome⟩ | ⟨outcome, _⟩ | ⟨outcome, _, someWait⟩
  · rw [settleWith_of_rejected link kind draft outcome]
    refine ⟨[.rejected draft.diagnostics.size reason entry], waiting,
      accounts.settle (.report draft _ _) (List.perm_append_comm ..)
        (List.Subset.refl _) sinceEntry
        (.rejected _ reason entry (.report draft _ _ sinceEntry)) ?_, waits⟩
    rintro report ⟨⟩
    exact Nat.le_refl _
  · rw [settleWith_of_waiting link kind draft outcome]
    refine ⟨[], waiting ++ [entry], ?_, ?_⟩
    · rw [List.append_nil]
      exact accounts.wait entry (Nat.le_refl _)
        (phase_ne_stop_of_waiting outcome)
    · rw [List.map_append, waits, List.filter_append,
        List.filter_cons_of_pos isPart, List.filter_nil, List.map_append]
      rfl
  · have made := makes someWait (ordered.chain newest outcome).1
      (accounts.isChain waits ordered newest outcome)
    have split := perm_choose waiting entry fun other =>
      number other == number point
    have areFront := map_endpoint_filter waits (· == number point)
    have areRest := map_endpoint_filter waits fun key => !(key == number point)
    have sinceFront : ∀ other ∈
        (waiting.filter fun other => number other == number point) ++ [entry],
          other.reports ≤ draft.diagnostics.size := by
      refine List.forall_mem_append.mpr ⟨fun other listed => ?_, sinceEntry⟩
      exact accounts.since other
        (accounts.mem_handed (List.mem_filter.mp listed).1)
    rw [settleWith_of_complete link kind draft outcome]
    cases made with
    | relation content after created links =>
        refine ⟨[.linked draft.model.size _ entry], _,
          accounts.settle created.stands split
            List.filter_sublist.subset sinceEntry
            (.linked _ _ entry content ?_ ?_) nofun, areRest⟩
        · rw [created.content?, if_pos rfl]
        · rw [areFront]
          exact links
    | incompatible start after isTie single isChain reported =>
        obtain ⟨own, isOwn, rfl⟩ :
            ∃ own, (waiting.filter fun other =>
              number other == number point) = [own] ∧
                own.endpoint = start := by
          have isSingle := areFront.trans single
          rw [List.map_eq_singleton_iff] at isSingle
          exact isSingle
        rw [isOwn] at split sinceFront
        rw [reported]
        refine ⟨[.incompatible draft.diagnostics.size own entry], _,
          accounts.settle (.report draft _ _) split
            List.filter_sublist.subset sinceEntry
            (.incompatible _ own entry isTie isChain
              (.report draft _ _ sinceFront)) ?_, areRest⟩
        rintro report ⟨⟩
        exact Nat.le_refl _

/-- Where all that waits was handed over. -/
theorem offer_all
    (link : List Point → Draft → Draft) {bound : Handle}
    (accounts : kind.Accounts handed fates waiting draft)
    (waits : waiting.map Handed.endpoint = pending.map Descriptor.endpoint)
    (ordered : Waiting (bound + 1) pending) (newest : member point = bound)
    (makes : pending.filter (sameNumber point) ≠ [] →
      IsChain
          ((pending.filter (sameNumber point)).map Descriptor.endpoint)
          (Descriptor.endpoint point) →
        kind.Makes
          ((pending.filter (sameNumber point)).map Descriptor.endpoint)
          (Descriptor.endpoint point) draft
          (link (pending.filter (sameNumber point) ++ [point]) draft)) :
    ∃ more still,
      kind.Accounts
          (handed ++ [⟨Descriptor.endpoint point, draft.diagnostics.size⟩])
          (fates ++ more) still (settleWith link kind pending point draft).2 ∧
        still.map Handed.endpoint =
          (settleWith link kind pending point draft).1.map
            Descriptor.endpoint := by
  have all : ∀ points : List Point, (points.filter fun _ => true) = points :=
    fun _ => List.filter_eq_self.mpr fun _ _ => rfl
  have waitsAll : waiting.map Handed.endpoint =
      (pending.filter fun _ => true).map Descriptor.endpoint := by
    rw [all]
    exact waits
  have offered := accounts.offer link (fun _ => true) waitsAll rfl ordered
    newest fun someWait _ isChain => by
      rw [all] at isChain ⊢
      exact makes someWait isChain
  rw [all] at offered
  exact offered

end PairedRelation.Accounts

/-! ## Giving up what waits -/

namespace Pairing

theorem firstOfEach_map_endpoint
    {Point : Type} [Descriptor Point] (reported : List Int)
    (points : List Point) :
    firstOfEach reported (points.map Descriptor.endpoint) =
      (firstOfEach reported points).map Descriptor.endpoint := by
  induction points generalizing reported with
  | nil => rfl
  | cons point rest induction =>
      rw [List.map_cons, firstOfEach, firstOfEach, induction, induction]
      show (if reported.contains (number point) then _ else _) = _
      split <;> rfl

/-- What is reported in the end depends on the endpoints only. -/
theorem clear_map_endpoint
    {Point : Type} [Descriptor Point] (kind : PairedRelation)
    (points : List Point) (draft : Draft) :
    clear kind (points.map Descriptor.endpoint) draft =
      clear kind points draft := by
  rw [clear, flush, firstOfEach_map_endpoint, List.foldl_map]
  rfl

end Pairing

namespace PairedRelation.Accounts

open Pairing

variable {kind : PairedRelation} {handed waiting : List Handed}
variable {fates : List Fate} {draft : Draft}

/-- Those that wait under numbers that were not reported yet are given up, number
by number. -/
theorem clear_unreported
    (reported : List Int)
    (accounts : kind.Accounts handed fates
      (waiting.filter fun entry => !reported.contains (number entry)) draft) :
    ∃ more, kind.Accounts handed (fates ++ more) []
      ((firstOfEach reported waiting).foldl
        (fun draft entry =>
          draft.report (location entry) (.neverEnded kind (number entry)))
        draft) := by
  induction waiting generalizing reported fates draft with
  | nil =>
      refine ⟨[], ?_⟩
      rw [List.append_nil]
      exact accounts
  | cons entry rest induction =>
      rw [firstOfEach]
      split
      · rename_i isReported
        rw [List.filter_cons_of_neg (by simpa using isReported)] at accounts
        exact induction reported accounts
      · rename_i unreported
        rw [List.filter_cons_of_pos (by simpa using unreported)] at accounts
        let key := number entry
        let others := (rest.filter fun other =>
          !reported.contains (number other)).filter fun other =>
            number other == key
        have left : (rest.filter fun other =>
            !(key :: reported).contains (number other)) =
              (rest.filter fun other =>
                !reported.contains (number other)).filter fun other =>
                  !(number other == key) := by
          rw [List.filter_filter]
          apply List.filter_congr
          intro other _
          rw [List.contains_cons, Bool.not_or, Bool.and_comm]
        have split : (entry :: (rest.filter fun other =>
            !reported.contains (number other)) ++ []).Perm
              (entry :: others ++ rest.filter fun other =>
                !(key :: reported).contains (number other)) := by
          rw [List.append_nil, left]
          exact (List.filter_append_perm _ _).symm.cons entry
        have since : ∀ other ∈ entry :: others,
            other.reports ≤ draft.diagnostics.size := by
          intro other listed
          apply accounts.since other
          apply accounts.mem_handed
          exact List.cons_subset_cons entry List.filter_sublist.subset listed
        have settled := accounts.settle (.report draft _ _) split
          (fun other listed => ?_)
          (fun _ none => absurd none List.not_mem_nil)
          (.unended draft.diagnostics.size entry others
            (fun other listed => beq_iff_eq.mp (List.mem_filter.mp listed).2)
            (.report draft _ _ since))
          (fun report isOwn => Nat.le_of_eq (Option.some.inj isOwn))
        · rw [List.append_nil] at settled
          obtain ⟨more, cleared⟩ := induction (key :: reported) settled
          rw [List.append_assoc] at cleared
          exact ⟨_, cleared⟩
        · rw [left] at listed
          exact List.mem_cons_of_mem _ (List.mem_filter.mp listed).1

/-- In the end nothing waits: there is a report about every number. -/
theorem clear (accounts : kind.Accounts handed fates waiting draft) :
    ∃ more, kind.Accounts handed (fates ++ more) []
      (Pairing.clear kind waiting draft) := by
  have all : (waiting.filter fun entry =>
      !([] : List Int).contains (number entry)) = waiting :=
    List.filter_eq_self.mpr fun _ _ => rfl
  apply clear_unreported []
  rw [all]
  exact accounts

end PairedRelation.Accounts

end LdpScore
