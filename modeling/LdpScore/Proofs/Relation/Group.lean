import LdpScore.Proofs.Relation.Linking
import LdpScore.Relation.Beam
import LdpScore.Relation.Tuplet

/-!
# New beams and tuplets

A beam or tuplet groups all notes and rests of a chain.  The marks of a beam may
be computed anew; its members stay.  A tuplet also changes how long they last.
-/

namespace LdpScore

namespace Autobeam

/-- Giving marks to one object changes no member. -/
theorem map_fst_setLevels
    (members : Members) (assignment : Handle × BeamLevels) :
    (setLevels members assignment).map Prod.fst = members.map Prod.fst := by
  rw [setLevels, List.map_map]
  apply List.map_congr_left
  rintro ⟨member, role⟩ _
  dsimp only [Function.comp_apply]
  split <;> rfl

theorem map_fst_foldl_setLevels
    (assignments : List (Handle × BeamLevels)) (members : Members) :
    (assignments.foldl setLevels members).map Prod.fst =
      members.map Prod.fst := by
  induction assignments generalizing members with
  | nil => rfl
  | cons assignment rest induction =>
      rw [List.foldl_cons, induction, map_fst_setLevels]

/-- Computing the marks of a beam anew changes no member. -/
theorem map_fst_beamed (model : Model) (members : Members) :
    (beamed model members).map Prod.fst = members.map Prod.fst := by
  rw [beamed]
  dsimp only
  split
  · rfl
  · exact map_fst_foldl_setLevels _ members

theorem records_foldl_setLevels
    (assignments : List (Handle × BeamLevels)) {members : Members}
    (areBeams : ∀ entry ∈ members, ∃ levels, entry.2 = .beam levels) :
    ∀ entry ∈ assignments.foldl setLevels members,
      ∃ levels, entry.2 = .beam levels := by
  induction assignments generalizing members with
  | nil => exact areBeams
  | cons assignment rest induction =>
      apply induction
      intro entry listed
      obtain ⟨⟨member, role⟩, isMember, rfl⟩ := List.mem_map.mp listed
      dsimp only
      split
      · exact ⟨assignment.2, rfl⟩
      · exact areBeams _ isMember

/-- The marks of a beam that are computed anew are marks of a beam. -/
theorem records_beamed
    (model : Model) {members : Members}
    (areBeams : ∀ entry ∈ members, ∃ levels, entry.2 = .beam levels) :
    ∀ entry ∈ beamed model members, ∃ levels, entry.2 = .beam levels := by
  rw [beamed]
  dsimp only
  split
  · exact areBeams
  · exact records_foldl_setLevels _ areBeams

end Autobeam

/-- A new beam whose marks are computed anew is still a new beam. -/
theorem Draft.Creates.autobeam
    {members : Members} {before after : Draft}
    (created : Creates (.beam members) before after) :
    Creates (.beam (Autobeam.beamed after.model members)) before
      (after.mapModel fun model => model.autobeam before.model.size) := by
  constructor
  · exact created.ids
  · exact created.diagnostics
  · exact created.root
  · intro handle
    show ((after.model.modifyContent before.model.size _).get? handle) = _
    rw [Model.get?_modifyContent, created.get? handle]
    by_cases isNew : handle = before.model.size
    · simp only [if_pos isNew, Option.map_some, Content.mapMembers]
    · have sameMembers :
          (Content.beam (Autobeam.beamed after.model members)).memberHandles =
            (Content.beam members).memberHandles :=
        Autobeam.map_fst_beamed after.model members
      simp only [if_neg isNew, sameMembers, Option.map_map]
      rfl

namespace Beam

/-- What a descriptor adds to the members of a beam. -/
def entry (point : BeamPoint) : Handle × Role :=
  (point.noteRest, .beam point.levels)

theorem creates_create
    {chain : List BeamPoint} {draft : Draft}
    (old : ∀ point ∈ chain, point.noteRest < draft.model.size) :
    draft.Creates (.beam (chain.map entry)) (create chain draft).2 := by
  have joined :
      (create chain draft).2 =
        (draft.create (.beam [])).2.mapModel fun model =>
          (chain.map entry).foldl
            (fun model entry =>
              model.includeMember draft.model.size entry.1 entry.2)
            model := by
    rw [← Draft.foldl_mapModel, List.foldl_map]
    rfl
  rw [joined]
  refine Draft.Creates.of_members (.beam []) (chain.map entry) draft rfl ?_
    fun _ _ => rfl
  intro member listed
  obtain ⟨point, isPoint, rfl⟩ := List.mem_map.mp listed
  exact old point isPoint

/-- Two or more notes and rests in order suit a beam. -/
theorem admits
    {model : Model} {members : Members} {handles : List Handle}
    (same : members.map Prod.fst = handles)
    (rising : handles.Pairwise (· < ·)) (several : 2 ≤ handles.length)
    (noteRests : ∀ member ∈ handles, model.IsNoteRest member)
    (areBeams : ∀ entry ∈ members, ∃ levels, entry.2 = .beam levels) :
    model.Admits (.beam members) := by
  subst same
  constructor
  · rfl
  · exact rising
  · exact decide_eq_true several
  · intro entry listed
    obtain ⟨levels, role⟩ := areBeams entry listed
    rw [role]
    rfl
  · intro member listed
    exact (noteRests member listed).content
  · rfl

/-- A chain becomes a beam, whether its marks are computed or given. -/
theorem exists_creates_linkChain
    {chain : List BeamPoint} {draft : Draft}
    (old : ∀ point ∈ chain, point.noteRest < draft.model.size)
    (isAutomatic : Bool) :
    ∃ members : Members,
      members.map Prod.fst = chain.map BeamPoint.noteRest ∧
        (∀ entry ∈ members, ∃ levels, entry.2 = .beam levels) ∧
        draft.Creates (.beam members) (linkChain chain isAutomatic draft) := by
  have created := creates_create old
  have same : (chain.map entry).map Prod.fst =
      chain.map BeamPoint.noteRest := by
    rw [List.map_map]
    rfl
  have areBeams : ∀ member ∈ chain.map entry,
      ∃ levels, member.2 = .beam levels := by
    intro member listed
    obtain ⟨point, _, rfl⟩ := List.mem_map.mp listed
    exact ⟨point.levels, rfl⟩
  rw [linkChain]
  cases isAutomatic with
  | false => exact ⟨chain.map entry, same, areBeams, created⟩
  | true =>
      refine ⟨_, ?_, Autobeam.records_beamed _ areBeams, created.autobeam⟩
      exact (Autobeam.map_fst_beamed (create chain draft).2.model _).trans same

theorem relates_linkChain
    {chain : List BeamPoint} {draft : Draft}
    (rising : (chain.map BeamPoint.noteRest).Pairwise (· < ·))
    (several : 2 ≤ chain.length)
    (noteRests : ∀ point ∈ chain, draft.model.IsNoteRest point.noteRest)
    (isAutomatic : Bool) :
    Draft.Relates .beam (chain.map BeamPoint.noteRest) draft
      (linkChain chain isAutomatic draft) := by
  obtain ⟨members, same, areBeams, created⟩ :=
    exists_creates_linkChain
      (fun point listed => (noteRests point listed).lt_size) isAutomatic
  refine Or.inr ⟨_, created, admits same rising ?_ ?_ areBeams, rfl,
    same ▸ List.Subset.refl _⟩
  · rw [List.length_map]
    exact several
  · intro member listed
    obtain ⟨point, isPoint, rfl⟩ := List.mem_map.mp listed
    exact noteRests point isPoint

theorem add_eq_settleWith
    (pending : List BeamPoint) (point : BeamPoint) (draft : Draft) :
    add pending point draft =
      Pairing.settleWith
        (fun chain =>
          linkChain chain (chain.all fun point => point.levels.isMainOnly))
        .beam pending point draft := by
  rw [add, Pairing.settleWith]
  rcases Pairing.add .beam pending point draft with ⟨_ | chain, rest⟩ <;> rfl

theorem settles_add
    {bound : Handle} {pending : List BeamPoint} {point : BeamPoint}
    {draft : Draft}
    (waiting : Pairing.Waiting (bound + 1) pending)
    (newest : point.noteRest = bound)
    (noteRests : ∀ other ∈ pending ++ [point],
      draft.model.IsNoteRest other.noteRest) :
    Pairing.Settles .beam bound pending point draft (add pending point draft) := by
  rw [add_eq_settleWith]
  refine Pairing.settles_settleWith waiting newest .beam ?_
  intro chain rising several listed
  exact relates_linkChain rising several
    (fun other isListed => noteRests other (listed isListed)) _

end Beam

/-- The note or rest that ends a legacy beam makes a beam with those before it. -/
theorem LegacyBeam.relates_close
    {pending : List BeamPoint} {point : BeamPoint} {draft : Draft}
    (rising :
      ((pending ++ [point]).map BeamPoint.noteRest).Pairwise (· < ·))
    (someWait : pending ≠ [])
    (noteRests : ∀ other ∈ pending ++ [point],
      draft.model.IsNoteRest other.noteRest) :
    Draft.Relates .beam ((pending ++ [point]).map BeamPoint.noteRest) draft
      (close pending point draft).2 := by
  refine Beam.relates_linkChain rising ?_ noteRests true
  rw [List.length_append, List.length_singleton]
  exact Nat.succ_le_succ (List.length_pos_iff.mpr someWait)

namespace Tuplet

/-- What a descriptor adds to the members of a tuplet. -/
def entry (point : TupletPoint) : Handle × Role :=
  (point.noteRest, .tuplet)

/-- What a tuplet with some members makes of an object. -/
def modified
    (modification : TimeModification) (members : Members)
    (handle : Handle) (old : Content) :
    Content :=
  if handle ∈ members.map Prod.fst then
    old.mapNoteRest (modify modification)
  else old

/-- One more note or rest joins a tuplet and has its duration modified, once. -/
theorem modified_append
    (modification : TimeModification) {members : Members} {member : Handle}
    (isNew : member ∉ members.map Prod.fst)
    (handle : Handle) (old : Content) :
    (if handle = member then
        (modified modification members handle old).mapNoteRest
          (modify modification)
      else modified modification members handle old) =
      modified modification (members ++ [(member, .tuplet)]) handle old := by
  by_cases isMember : handle = member
  · simp [modified, isMember, isNew]
  · have same : handle ∈ (members ++ [(member, Role.tuplet)]).map Prod.fst ↔
        handle ∈ members.map Prod.fst := by
      simp [isMember]
    simp only [modified, if_neg isMember, same]

/-- The notes and rests of a chain join a tuplet, each of them once. -/
theorem enrolls_foldl_includePoint
    (modification : TimeModification) {tuplet : Handle}
    {chain : List TupletPoint} {earlier : Members} {before after : Model}
    (enrolled : Model.Enrolls tuplet earlier (modified modification earlier)
      before after)
    (related : before.members? tuplet = some [])
    (others : ∀ point ∈ chain, point.noteRest ≠ tuplet)
    (once :
      (earlier.map Prod.fst ++ chain.map TupletPoint.noteRest).Nodup) :
    Model.Enrolls tuplet (earlier ++ chain.map entry)
      (modified modification (earlier ++ chain.map entry)) before
      (chain.foldl
        (fun model point =>
          (model.includeMember tuplet point.noteRest .tuplet).modifyNoteRest
            point.noteRest (modify modification))
        after) := by
  induction chain generalizing earlier after with
  | nil => simpa using enrolled
  | cons point rest induction =>
      have isNew : point.noteRest ∉ earlier.map Prod.fst := by
        intro isOld
        exact (List.nodup_append.mp once).2.2 _ isOld _
          (List.mem_cons_self ..) rfl
      have joined :=
        ((enrolled.join related point.noteRest .tuplet).modifyContent
          (others point (List.mem_cons_self ..))
          (Content.mapNoteRest (modify modification))).congr
          (modified_append modification isNew)
      have onceMore :
          ((earlier ++ [(point.noteRest, Role.tuplet)]).map Prod.fst ++
            rest.map TupletPoint.noteRest).Nodup := by
        simpa using once
      have finished := induction joined
        (fun other listed => others other (List.mem_cons_of_mem _ listed))
        onceMore
      rw [List.append_assoc] at finished
      exact finished

theorem map_fst_entries (chain : List TupletPoint) :
    (chain.map entry).map Prod.fst = chain.map Pairing.member := by
  rw [List.map_map]
  rfl

/-- A chain becomes a tuplet with the counts of its start. -/
theorem creates_linkChain
    {start : TupletPoint} {rest : List TupletPoint} {draft : Draft}
    (rising : ((start :: rest).map Pairing.member).Pairwise (· < ·))
    (old : ∀ point ∈ start :: rest, point.noteRest < draft.model.size) :
    draft.Creates
      (.tuplet start.actual start.normal start.bracket start.display
        ((start :: rest).map entry))
      (linkChain (start :: rest) draft) := by
  have joined :
      linkChain (start :: rest) draft =
        (draft.create (.tuplet start.actual start.normal start.bracket
          start.display [])).2.mapModel fun model =>
            (start :: rest).foldl
              (fun model point =>
                (model.includeMember draft.model.size point.noteRest
                  .tuplet).modifyNoteRest point.noteRest
                    (modify start.modification))
              model := by
    rw [← Draft.foldl_mapModel]
    rfl
  have enrolled := enrolls_foldl_includePoint start.modification
    (Model.Enrolls.none _ draft.model.size)
    (draft.members?_create (.tuplet start.actual start.normal
      start.bracket start.display []))
    (fun point isPoint => Nat.ne_of_lt (old point isPoint))
    (List.Pairwise.imp Nat.ne_of_lt rising)
  rw [joined]
  refine Draft.Creates.of_enrolls
    (.tuplet start.actual start.normal start.bracket start.display [])
    ((start :: rest).map entry) rfl ?_ rfl rfl enrolled fun _ _ => rfl
  intro member listed
  obtain ⟨point, isPoint, rfl⟩ := List.mem_map.mp listed
  exact old point isPoint

/-- The tuplet of a chain has its notes and rests as members. -/
theorem relates_linkChain
    {chain : List TupletPoint} {draft : Draft}
    (rising : (chain.map Pairing.member).Pairwise (· < ·))
    (several : 2 ≤ chain.length)
    (noteRests : ∀ point ∈ chain, draft.model.IsNoteRest point.noteRest) :
    Draft.Relates .tuplet (chain.map Pairing.member) draft
      (linkChain chain draft) := by
  cases chain with
  | nil => exact .silent (.refl draft)
  | cons start rest =>
      have created := creates_linkChain rising
        fun point isPoint => (noteRests point isPoint).lt_size
      have same :
          (Content.tuplet start.actual start.normal start.bracket
              start.display ((start :: rest).map entry)).memberHandles =
            (start :: rest).map Pairing.member :=
        map_fst_entries (start :: rest)
      refine Or.inr ⟨_, created, ?_, ?_, ?_⟩
      · constructor
        · rfl
        · rw [same]
          exact rising
        · rw [same, List.length_map]
          exact decide_eq_true several
        · intro member listed
          obtain ⟨point, _, rfl⟩ := List.mem_map.mp listed
          rfl
        · intro member listed
          rw [same] at listed
          obtain ⟨point, isPoint, rfl⟩ := List.mem_map.mp listed
          exact (noteRests point isPoint).content
        · rfl
      · rfl
      · rw [same]
        exact List.Subset.refl _

theorem add_eq_settleWith
    (pending : List TupletPoint) (point : TupletPoint) (draft : Draft) :
    add pending point draft =
      Pairing.settleWith linkChain .tuplet pending point draft := by
  rw [add, Pairing.settleWith]
  rcases Pairing.add .tuplet pending point draft with
    ⟨_ | chain, rest⟩ <;> rfl

theorem settles_add
    {bound : Handle} {pending : List TupletPoint} {point : TupletPoint}
    {draft : Draft}
    (waiting : Pairing.Waiting (bound + 1) pending)
    (newest : point.noteRest = bound)
    (noteRests : ∀ other ∈ pending ++ [point],
      draft.model.IsNoteRest other.noteRest) :
    Pairing.Settles .tuplet bound pending point draft (add pending point draft) := by
  rw [add_eq_settleWith]
  refine Pairing.settles_settleWith waiting newest .tuplet ?_
  intro chain rising several listed
  exact relates_linkChain rising several
    fun other isListed => noteRests other (listed isListed)

/-- The stop of a tuplet never waits. -/
theorem add_sublist_of_stop
    {point : TupletPoint} (isStop : point.phase = .stop)
    (pending : List TupletPoint) (draft : Draft) :
    (add pending point draft).1.Sublist pending := by
  rw [add_eq_settleWith, Pairing.settleWith_fst]
  exact Pairing.remaining_sublist_of_stop isStop

/-- The descriptors with which a note or rest joins the open tuplets. -/
theorem mem_join
    {pending : List TupletPoint} {noteRest : Handle} {location : Location}
    {other : TupletPoint} (waits : other ∈ join pending noteRest location) :
    other ∈ pending ∨ other.noteRest = noteRest := by
  rcases List.mem_append.mp waits with old | new
  · exact Or.inl old
  · obtain ⟨start, _, rfl⟩ := List.mem_map.mp new
    exact Or.inr rfl

/-- Joining the open tuplets adds under every number to what waits there. -/
theorem under_join
    (key : Int) (pending : List TupletPoint) (noteRest : Handle)
    (location : Location) :
    Pairing.under key (join pending noteRest location) =
      join (Pairing.under key pending) noteRest location := by
  have commute :
      (openStarts pending).filter (fun start => start.number == key) =
        openStarts (pending.filter fun point =>
          Pairing.number point == key) := by
    rw [openStarts, openStarts, List.filter_filter, List.filter_filter]
    apply List.filter_congr
    intro point _
    exact Bool.and_comm ..
  rw [Pairing.under, join, List.filter_append, List.filter_map, join,
    Pairing.under, ← commute]
  rfl

/-- The newest note or rest joins every open tuplet once. -/
theorem waiting_join
    {bound : Handle} {pending : List TupletPoint}
    (waiting : Pairing.Waiting bound pending) (location : Location) :
    Pairing.Waiting (bound + 1) (join pending bound location) := by
  constructor
  · intro other waits
    rcases mem_join waits with old | new
    · exact Nat.lt_succ_of_lt (waiting.below other old)
    · exact new ▸ Nat.lt_succ_self _
  · intro key
    have split : Pairing.membersUnder key (join pending bound location) =
        Pairing.membersUnder key pending ++
          ((openStarts pending).filter fun start => start.number == key).map
            fun _ => bound := by
      simp only [Pairing.membersUnder, join, List.filter_append,
        List.map_append, List.filter_map, List.map_map]
      rfl
    rw [split, List.pairwise_append]
    refine ⟨waiting.rising key, ?_, ?_⟩
    · -- Two starts under one number would not be open together.
      rw [List.pairwise_map]
      have distinct := List.pairwise_map.mp waiting.starts
      apply (distinct.sublist List.filter_sublist).imp_of_mem
      intro first second isFirst isSecond differ
      have firstKey := beq_iff_eq.mp (List.mem_filter.mp isFirst).2
      have secondKey := beq_iff_eq.mp (List.mem_filter.mp isSecond).2
      exact absurd (firstKey.trans secondKey.symm) differ
    · intro earlier listed last isLast
      obtain ⟨other, found, rfl⟩ := List.mem_map.mp listed
      obtain ⟨start, _, rfl⟩ := List.mem_map.mp isLast
      exact waiting.below other (List.mem_filter.mp found).1
  · have sameStarts : Pairing.startsOf (join pending bound location) =
        Pairing.startsOf pending := by
      simp only [Pairing.startsOf, join, List.filter_append, List.filter_map]
      rw [List.append_right_eq_self, List.map_eq_nil_iff,
        List.filter_eq_nil_iff]
      intro start _ isStart
      cases isStart
    rw [sameStarts]
    exact waiting.starts

end Tuplet

end LdpScore
