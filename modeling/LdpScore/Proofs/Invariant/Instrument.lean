import LdpScore.Proofs.Invariant.Balance

/-!
# Relations stay within an instrument

Whatever waits stands directly below the music data in scope, and these only
change while nothing waits.  So all members of a relation have one parent, and
what is above one of them is above all.
-/

namespace LdpScore

namespace Model

/-- The members of every relation stand directly below one parent, or all of them
below none. -/
def Together (model : Model) : Prop :=
  ∀ relation content, model.content? relation = some content →
    ∃ parent, ∀ member ∈ content.memberHandles, model.IsUnder parent member

/-- Parents are older than their children. -/
def ParentsOlder (model : Model) : Prop :=
  ∀ handle parent, model.parent? handle = some parent → parent < handle

/-- Whether there is an instrument at a handle. -/
def IsInstrument (model : Model) (handle : Handle) : Prop :=
  ∃ name abbreviation staves,
    model.content? handle = some (.instrument name abbreviation staves)

/-- The nearest instrument above an object, if there is one. -/
inductive InstrumentAbove (model : Model) : Handle → Option Handle → Prop where
  /-- There is nothing above the object. -/
  | top {handle : Handle} (isTop : model.parent? handle = none) :
      InstrumentAbove model handle none
  /-- The object stands directly below an instrument. -/
  | next {handle parent : Handle} (below : model.parent? handle = some parent)
      (isInstrument : model.IsInstrument parent) :
      InstrumentAbove model handle (some parent)
  /-- The object stands below something else. -/
  | climb {handle parent : Handle} {above : Option Handle}
      (below : model.parent? handle = some parent)
      (isOther : ¬ model.IsInstrument parent)
      (further : InstrumentAbove model parent above) :
      InstrumentAbove model handle above

theorem IsUnder.parent?
    {model : Model} {parent : Option Handle} {handle : Handle}
    (under : model.IsUnder parent handle) :
    model.parent? handle = parent := by
  obtain ⟨object, found, isParent⟩ := under
  rw [Model.parent?, found]
  exact isParent

namespace InstrumentAbove

variable {model : Model}

/-- There is only one nearest instrument. -/
theorem unique
    {handle : Handle} {above other : Option Handle}
    (first : model.InstrumentAbove handle above)
    (second : model.InstrumentAbove handle other) :
    above = other := by
  induction first with
  | top isTop =>
      cases second with
      | top _ => rfl
      | next below _ => cases isTop.symm.trans below
      | climb below _ _ => cases isTop.symm.trans below
  | next below isInstrument =>
      cases second with
      | top isTop => cases isTop.symm.trans below
      | next belowToo _ => exact below.symm.trans belowToo
      | climb belowToo isOther _ =>
          cases below.symm.trans belowToo
          exact absurd isInstrument isOther
  | climb below isOther _ induction =>
      cases second with
      | top isTop => cases isTop.symm.trans below
      | next belowToo isInstrument =>
          cases below.symm.trans belowToo
          exact absurd isInstrument isOther
      | climb belowToo _ further =>
          cases below.symm.trans belowToo
          exact induction further

/-- Objects with one parent have one nearest instrument. -/
theorem of_parent?
    {handle sibling : Handle} {above : Option Handle}
    (first : model.InstrumentAbove handle above)
    (same : model.parent? sibling = model.parent? handle) :
    model.InstrumentAbove sibling above := by
  cases first with
  | top isTop => exact .top (same.trans isTop)
  | next below isInstrument => exact .next (same.trans below) isInstrument
  | climb below isOther further =>
      exact .climb (same.trans below) isOther further

end InstrumentAbove

/-- Every way up comes to an end. -/
theorem ParentsOlder.exists_instrumentAbove
    {model : Model} (older : model.ParentsOlder) (handle : Handle) :
    ∃ above, model.InstrumentAbove handle above := by
  -- Parents are older, so the way up is an induction on handles.
  induction handle using Nat.strongRecOn with
  | ind handle induction =>
      rcases below : model.parent? handle with _ | parent
      · exact ⟨none, .top below⟩
      · by_cases isInstrument : model.IsInstrument parent
        · exact ⟨some parent, .next below isInstrument⟩
        · obtain ⟨above, further⟩ := induction parent (older handle parent below)
          exact ⟨above, .climb below isInstrument further⟩

/-! ## Steps -/

variable {before after : Model}

theorem ParentsOlder.of_persists
    (older : before.ParentsOlder) (persists : Persists before after)
    (new : ∀ handle parent, before.size ≤ handle →
      after.parent? handle = some parent → parent < handle) :
    after.ParentsOlder := by
  intro handle parent below
  rcases Nat.lt_or_ge handle before.size with old | isNew
  · obtain ⟨object, found⟩ := exists_get?_of_lt_size old
    obtain ⟨later, foundLater, sameParent, _⟩ := persists handle object found
    apply older handle parent
    rw [parent?, foundLater] at below
    rw [parent?, found]
    exact sameParent.symm.trans below
  · exact new handle parent isNew below

/-- A change that adds no object adds no parent. -/
theorem ParentsOlder.of_size
    (older : before.ParentsOlder) (persists : Persists before after)
    (same : after.size = before.size) :
    after.ParentsOlder := by
  apply older.of_persists persists
  intro handle parent isNew below
  rw [parent?, get?_eq_none_iff.mpr (same ▸ isNew)] at below
  cases below

theorem Together.of_persists
    (together : before.Together) (persists : Persists before after)
    (kept : ∀ relation new, after.content? relation = some new →
      (∃ old, before.content? relation = some old ∧
        new.memberHandles = old.memberHandles) ∨
      ∃ parent, ∀ member ∈ new.memberHandles, after.IsUnder parent member) :
    after.Together := by
  intro relation new found
  rcases kept relation new found with ⟨old, foundOld, same⟩ | isTogether
  · obtain ⟨parent, under⟩ := together relation old foundOld
    rw [same]
    exact ⟨parent, fun member listed => persists.isUnder (under member listed)⟩
  · exact isTogether

theorem Together.modifyContent
    {model : Model} (together : model.Together) {changed : Handle}
    {change : Content → Content}
    (keeps : ∀ content, model.content? changed = some content →
      content.Keeps (change content)) :
    (model.modifyContent changed change).Together := by
  apply together.of_persists (Extends.modifyContent model changed keeps).persists
  intro relation new found
  obtain ⟨old, isOld, kept⟩ := exists_kept_of_modifyContent keeps found
  exact Or.inl ⟨old, isOld, kept.memberHandles⟩

end Model

/-- All that waits is in scope, and relations never left theirs. -/
structure Stage.Gathered (stage : Stage) : Prop where
  awaited : ∀ handle, stage.state.Awaits handle →
    stage.model.IsUnder stage.scope handle
  together : stage.model.Together
  older : stage.model.ParentsOlder

theorem Stage.Gathered.canJoin
    {stage : Stage} (gathered : stage.Gathered) {handle : Handle}
    (canJoin : stage.CanJoin handle) :
    stage.model.IsUnder stage.scope handle := by
  rcases canJoin with awaited | under
  · exact gathered.awaited handle awaited
  · exact under

namespace Draft

theorem parent?_addObject
    {draft : Draft} {anchor : Option Handle} (wanted : Option Int)
    (location : Location) (anchored : draft.model.HasAnchor anchor)
    (content : Content) {handle : Handle} (isNew : draft.model.size ≤ handle)
    {parent : Handle}
    (below : (draft.addObject wanted location anchor
      content).2.model.parent? handle = some parent) :
    parent < handle := by
  rw [Model.parent?, get?_addObject _ _ _ anchored,
    Model.get?_eq_none_iff.mpr isNew] at below
  split at below
  · exact Nat.lt_of_lt_of_le (anchored parent below) isNew
  · cases below

theorem together_addObject
    {draft : Draft} {anchor : Option Handle} {content : Content}
    (wanted : Option Int) (location : Location)
    (anchored : draft.model.HasAnchor anchor) (fresh : content.IsFresh)
    (together : draft.model.Together) :
    (draft.addObject wanted location anchor content).2.model.Together := by
  apply together.of_persists
    (Model.Extends.addObject draft wanted location anchored fresh).persists
  intro relation new found
  rcases Model.content?_of_addObject wanted location anchored fresh found
    with old | isFresh
  · exact Or.inl ⟨new, old, rfl⟩
  · refine Or.inr ⟨none, fun member listed => ?_⟩
    rw [isFresh.memberHandles] at listed
    exact absurd listed List.not_mem_nil

theorem Creates.parent?
    {content : Content} {before after : Draft}
    (created : Creates content before after) {handle : Handle}
    (isNew : before.model.size ≤ handle) :
    after.model.parent? handle = none := by
  rw [Model.parent?, created.get? handle, Model.get?_eq_none_iff.mpr isNew]
  split <;> rfl

theorem Creates.together
    {content : Content} {before after : Draft} {scope : Option Handle}
    (created : Creates content before after)
    (under : ∀ member ∈ content.memberHandles,
      before.model.IsUnder scope member)
    (together : before.model.Together) :
    after.model.Together := by
  apply together.of_persists created.persists
  intro relation new found
  by_cases isNew : relation = before.model.size
  · rw [isNew, created.content?_new] at found
    cases found
    exact Or.inr ⟨scope, fun member listed =>
      created.persists.isUnder (under member listed)⟩
  · obtain ⟨earlier, isEarlier, rfl⟩ := created.content?_old found isNew
    exact Or.inl ⟨earlier, isEarlier, Content.memberHandles_effectOn ..⟩

theorem JoinsChord.together
    {chord note base : Handle} {before after : Draft} {members : Members}
    {scope : Option Handle}
    (joins : JoinsChord chord note before after)
    (persists : before.model.Persists after.model)
    (isChord : before.model.content? chord = some (.chord members))
    (isMember : base ∈ before.model.memberHandles chord)
    (baseUnder : before.model.IsUnder scope base)
    (noteUnder : before.model.IsUnder scope note)
    (together : before.model.Together) :
    after.model.Together := by
  apply together.of_persists persists
  intro relation new found
  have joined := joins.memberHandles_joined isChord relation
  rw [Model.memberHandles, found, Option.map_some, Option.getD_some] at joined
  by_cases isJoined : relation = chord
  · subst isJoined
    obtain ⟨parent, under⟩ := together relation _ isChord
    rw [Model.memberHandles, isChord] at isMember joined
    rw [if_pos rfl] at joined
    have same : parent = scope :=
      (under base isMember).parent?.symm.trans baseUnder.parent?
    refine Or.inr ⟨scope, fun member listed => persists.isUnder ?_⟩
    rw [joined] at listed
    rcases List.mem_append.mp listed with old | new
    · exact same ▸ under member old
    · rw [List.mem_singleton.mp new]
      exact noteUnder
  · rw [if_neg isJoined, List.append_nil] at joined
    obtain ⟨earlier, isEarlier, rfl⟩ := joins.content?_old found
    rw [Model.memberHandles, isEarlier] at joined
    exact Or.inl ⟨earlier, isEarlier, joined⟩

end Draft

theorem Stage.Step.gathered
    {before after : Stage} (step : Step before after)
    (coherent : before.model.Coherent) (gathered : before.Gathered) :
    after.Gathered := by
  cases step with
  | @attend after silent awaited =>
      have same : after.draft.model = before.model := silent.model
      constructor
      · intro handle waits
        show after.draft.model.IsUnder before.scope handle
        rw [same]
        exact gathered.canJoin (awaited handle waits)
      · show after.draft.model.Together
        rw [same]
        exact gathered.together
      · show after.draft.model.ParentsOlder
        rw [same]
        exact gathered.older
  | enter scope nothing =>
      exact ⟨fun handle waits => absurd waits (nothing handle),
        gathered.together, gathered.older⟩
  | element node anchor content anchored fresh isFrom =>
      have persists := (Model.Extends.addObject before.draft node.id?
        node.location anchored fresh).persists
      constructor
      · intro handle waits
        exact persists.isUnder (gathered.awaited handle waits)
      · exact Draft.together_addObject node.id? node.location anchored fresh
          gathered.together
      · exact gathered.older.of_persists persists fun handle parent isNew =>
          Draft.parent?_addObject node.id? node.location anchored content isNew
  | revise handle change keeps =>
      have persists :=
        (Model.Extends.modifyContent before.model handle keeps).persists
      constructor
      · intro member waits
        exact persists.isUnder (gathered.awaited member waits)
      · exact gathered.together.modifyContent keeps
      · exact gathered.older.of_size persists (Model.size_modifyContent ..)
  | relate content created admitted listed =>
      constructor
      · intro handle waits
        exact created.persists.isUnder (gathered.awaited handle waits)
      · exact created.together
          (fun member isMember => gathered.canJoin (listed member isMember))
          gathered.together
      · apply gathered.older.of_persists created.persists
        intro handle parent isNew below
        cases (created.parent? isNew).symm.trans below
  | @sound base note chord waits joined isNote inScope newest =>
      -- The last note waits, so it is in scope, and it is a member of the chord.
      obtain ⟨⟨members, isChord⟩, isMember⟩ := coherent.chords.isChord joined
      have other := Nat.ne_of_gt (newest _ members isChord).1
      have joins := Analyser.joinsChord_joinChord joined isChord other
      have persists : before.model.Persists
          (Analyser.joinChord base note before.draft).model :=
        Analyser.persists_joinChord joined
      constructor
      · intro handle waits
        exact persists.isUnder (gathered.awaited handle waits)
      · exact joins.together persists isChord isMember
          (gathered.awaited base waits) inScope gathered.together
      · exact gathered.older.of_size persists joins.enrolls.size
  | root handle known =>
      exact ⟨gathered.awaited, gathered.together, gathered.older⟩

theorem gathered_start : Stage.start.Gathered := by
  constructor
  · rintro handle (waits | isLast)
    · exact absurd waits List.not_mem_nil
    · cases isLast
  · intro relation content found
    cases found
  · intro handle parent below
    cases below

/--
No relation spans two instruments: whatever its kind, there is one nearest
instrument above all of its members, or no instrument above any of them.
-/
theorem instrumentAbove_members_analyseSource
    (source file : String) {model : Model}
    (accepted : (analyseSource source file).result = .ok model)
    {relation : Handle} {content : Content}
    (found : model.content? relation = some content) :
    ∃ above, ∀ member ∈ content.memberHandles,
      model.InstrumentAbove member above := by
  obtain ⟨root, _, isModel, _⟩ := exists_tree_of_accepted accepted
  obtain ⟨stage, run, isStage, _⟩ := exists_run_analyse root
  have step : ∀ {before after}, Stage.Step before after →
      before.model.Coherent ∧ before.Gathered →
        after.model.Coherent ∧ after.Gathered :=
    fun step known =>
      ⟨step.coherent known.1, step.gathered known.1 known.2⟩
  have gathered :=
    (run.preserves step ⟨Model.coherent_empty, gathered_start⟩).2
  have isModel : stage.model = model := isStage.trans isModel
  have older : model.ParentsOlder := isModel ▸ gathered.older
  have together : model.Together := isModel ▸ gathered.together
  obtain ⟨parent, under⟩ := together relation content found
  cases members : content.memberHandles with
  | nil => exact ⟨none, fun member listed => absurd listed List.not_mem_nil⟩
  | cons first rest =>
      rw [members] at under
      obtain ⟨above, firstAbove⟩ := older.exists_instrumentAbove first
      refine ⟨above, fun member listed => firstAbove.of_parent? ?_⟩
      have sameFirst := (under first List.mem_cons_self).parent?
      exact (under member listed).parent?.trans sameFirst.symm

/-- A tie within the first of two instruments. -/
theorem instrumentAbove_tied_notes :
    ∃ model content,
      (analyseSource
        ("(score (vers 2.0) (instrument (musicData (n c4 q l) (n c4 q l)))" ++
          "(instrument (musicData (n c4 q))))") "").result = .ok model ∧
      model.content? 5 = some content ∧ content.memberHandles = [3, 4] ∧
      ∃ above, ∀ member ∈ content.memberHandles,
        model.InstrumentAbove member above := by
  obtain ⟨model, content, accepted, found, _, members⟩ :=
    exists_relation_of_any 5 [3, 4] (by decide +kernel : (analyseSource
      ("(score (vers 2.0) (instrument (musicData (n c4 q l) (n c4 q l)))" ++
        "(instrument (musicData (n c4 q))))") "").result.toOption.any _)
  exact ⟨model, content, accepted, found, members,
    instrumentAbove_members_analyseSource _ _ accepted found⟩

end LdpScore
