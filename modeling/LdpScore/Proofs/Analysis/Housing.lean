import LdpScore.Proofs.Analysis.Branching
import LdpScore.Proofs.Analysis.Singing
import LdpScore.Proofs.Invariant.Instrument

/-!
# The instruments that lyrics belong to

The lyrics of a score come about while an instrument is analysed.  So the instrument
above a lyric is the last one that was added before it.  An analysis `Houses` its lyrics
in this way, and whatever becomes of the score later leaves them in their instruments.
-/

namespace LdpScore

namespace Model

theorem isInstrument_iff {model : Model} {handle : Handle} :
    model.IsInstrument handle ↔ model.part? handle = some none := by
  rw [part?_eq_some_iff]
  constructor
  · rintro ⟨name, abbreviation, staves, found⟩
    exact ⟨_, found, rfl⟩
  · rintro ⟨content, found, isStart⟩
    cases content <;> cases isStart
    exact ⟨_, _, _, found⟩

def IsLyric (model : Model) (handle : Handle) : Prop :=
  ∃ verse, model.part? handle = some (some verse)

/-- The last instrument before a handle. -/
def lastInstrument? (model : Model) : Nat → Option Handle
  | 0 => none
  | bound + 1 =>
      if model.part? bound = some none then some bound else model.lastInstrument? bound

section Last

variable {model before after : Model}

theorem lastInstrument?_congr
    {bound : Nat} (same : ∀ handle < bound, after.part? handle = before.part? handle) :
    after.lastInstrument? bound = before.lastInstrument? bound := by
  induction bound with
  | zero => rfl
  | succ bound induction =>
      rw [lastInstrument?, lastInstrument?, same bound (Nat.lt_succ_self _),
        induction fun handle isOlder => same handle (Nat.lt_succ_of_lt isOlder)]

/-- The last instrument stays the same as long as there is no other one. -/
theorem lastInstrument?_of_le
    {first last : Nat} (inOrder : first ≤ last)
    (noStart : ∀ handle, first ≤ handle → handle < last →
      model.part? handle ≠ some none) :
    model.lastInstrument? last = model.lastInstrument? first := by
  induction inOrder with
  | refl => rfl
  | @step last isLater induction =>
      rw [lastInstrument?, if_neg (noStart last isLater (Nat.lt_succ_self _))]
      exact induction fun handle isBetween isOlder =>
        noStart handle isBetween (Nat.lt_succ_of_lt isOlder)

theorem lt_of_lastInstrument?
    {bound instrument : Nat} (isLast : model.lastInstrument? bound = some instrument) :
    instrument < bound := by
  induction bound with
  | zero => cases isLast
  | succ bound induction =>
      rw [lastInstrument?] at isLast
      split at isLast
      · cases isLast
        exact Nat.lt_succ_self _
      · exact Nat.lt_succ_of_lt (induction isLast)

end Last

/-- The way up to an instrument stays as it is. -/
theorem InstrumentAbove.persists
    {before after : Model} {handle instrument : Handle}
    (above : before.InstrumentAbove handle (some instrument))
    (parents : ∀ handle < before.size, after.parent? handle = before.parent? handle)
    (parts : ∀ handle < before.size, after.part? handle = before.part? handle) :
    after.InstrumentAbove handle (some instrument) := by
  -- What has a parent is there, so everything on the way up is.
  have kept : ∀ {child parent}, before.parent? child = some parent →
      child < before.size ∧ after.parent? child = some parent := by
    intro child parent below
    have inside : child < before.size := by
      rw [← Nat.not_le]
      intro outside
      rw [parent?_of_size_le outside] at below
      cases below
    exact ⟨inside, (parents child inside).trans below⟩
  generalize isAbove : some instrument = found at above
  induction above with
  | top isTop => cases isAbove
  | @next child parent below isInstrument =>
      refine .next (kept below).2 ?_
      rw [isInstrument_iff] at isInstrument ⊢
      rw [parts parent (lt_size_of_part? isInstrument)]
      exact isInstrument
  | @climb child parent found below isOther further induction =>
      refine .climb (kept below).2 ?_ (induction isAbove)
      have inside : parent < before.size := by
        subst isAbove
        cases further with
        | next below _ => exact (kept below).1
        | climb below _ _ => exact (kept below).1
      rw [isInstrument_iff] at isOther ⊢
      rw [parts parent inside]
      exact isOther

/-- In trees without instruments all have the instrument that is above the trees. -/
theorem Forest.instrumentAbove
    {model : Model} {parent : Option Handle} {tops listed : List Handle}
    {instrument : Handle} (forest : model.Forest parent tops listed)
    (noInstrument : ∀ handle ∈ listed, ¬ model.IsInstrument handle)
    (below : ∀ top, model.parent? top = parent →
      model.InstrumentAbove top (some instrument)) :
    ∀ handle ∈ listed, model.InstrumentAbove handle (some instrument) := by
  induction forest with
  | nil parent => exact fun handle listed => absurd listed List.not_mem_nil
  | @cons parent first rest under others isChild _ _ inner outer =>
      obtain ⟨atFirst, atRest⟩ := List.forall_mem_cons.mp noInstrument
      obtain ⟨atUnder, atOthers⟩ := List.forall_mem_append.mp atRest
      have aboveFirst := below first isChild
      refine List.forall_mem_cons.mpr ⟨aboveFirst, List.forall_mem_append.mpr ⟨?_, ?_⟩⟩
      · exact inner atUnder fun top isBelow => .climb isBelow atFirst aboveFirst
      · exact outer atOthers below

/-- What sings stands in a tree. -/
theorem isElement_of_part?
    {model : Model} {handle : Handle} {part : Option Verse}
    (isPart : model.part? handle = some part) :
    model.isElement handle := by
  obtain ⟨content, found, isSung⟩ := part?_eq_some_iff.mp isPart
  rw [isElement, found]
  cases content <;> first | rfl | cases isSung

end Model

/-- Some parts are sung, and each lyric among them has the instrument above it that
was added last. -/
structure Analysis.Houses
    (parts : List (Option Node)) (before after : Analysis) : Prop where
  size_le : before.draft.model.size ≤ after.draft.model.size
  old : ∀ handle < before.draft.model.size,
    after.draft.model.part? handle = before.draft.model.part? handle
  parents : ∀ handle < before.draft.model.size,
    after.draft.model.parent? handle = before.draft.model.parent? handle
  song : before.Remembers →
    after.draft.model.song = before.draft.model.song.sing parts
  remembers : before.Remembers → after.Remembers
  housed : ∀ lyric, before.draft.model.size ≤ lyric →
    after.draft.model.IsLyric lyric →
      ∃ instrument, after.draft.model.lastInstrument? lyric = some instrument ∧
        after.draft.model.InstrumentAbove lyric (some instrument)

namespace Analysis.Houses

variable {parts more : List (Option Node)} {first middle last before after : Analysis}

/-- Nothing is sung. -/
theorem of_same
    (size_le : before.draft.model.size ≤ after.draft.model.size)
    (parts : after.draft.model.part? = before.draft.model.part?)
    (placements : after.context.lyricPlacements = before.context.lyricPlacements)
    (parents : ∀ handle < before.draft.model.size,
      after.draft.model.parent? handle = before.draft.model.parent? handle) :
    Houses [] before after := by
  have song := Model.song_congr parts
  refine ⟨size_le, fun handle _ => by rw [parts], parents, fun _ => song,
    fun remembers line => ?_, fun lyric outside isLyric => ?_⟩
  · rw [Context.lyricPlacement, placements, song]
    exact remembers line
  · obtain ⟨verse, isVerse⟩ := isLyric
    rw [parts, Model.part?_of_size_le outside] at isVerse
    cases isVerse

theorem trans
    (earlier : Houses parts first middle) (later : Houses more middle last) :
    Houses (parts ++ more) first last := by
  have inside : ∀ handle < first.draft.model.size, handle < middle.draft.model.size :=
    fun handle isOld => Nat.lt_of_lt_of_le isOld earlier.size_le
  refine ⟨Nat.le_trans earlier.size_le later.size_le, fun handle isOld => ?_,
    fun handle isOld => ?_, fun remembers => ?_,
    fun remembers => later.remembers (earlier.remembers remembers),
    fun lyric isNew isLyric => ?_⟩
  · exact (later.old handle (inside handle isOld)).trans (earlier.old handle isOld)
  · exact (later.parents handle (inside handle isOld)).trans
      (earlier.parents handle isOld)
  · rw [later.song (earlier.remembers remembers), earlier.song remembers,
      Song.sing_append]
  · rcases Nat.lt_or_ge lyric middle.draft.model.size with isOld | isLater
    · rw [Model.IsLyric, later.old lyric isOld] at isLyric
      obtain ⟨instrument, isLast, above⟩ := earlier.housed lyric isNew isLyric
      refine ⟨instrument, ?_, above.persists later.parents later.old⟩
      rw [← isLast]
      exact Model.lastInstrument?_congr fun handle isOlder =>
        later.old handle (Nat.lt_trans isOlder isOld)
    · exact later.housed lyric isLater isLyric

end Analysis.Houses

namespace Analyser

variable {anchor : Option Handle}

/-- An instrument houses the lyrics of its music. -/
theorem houses_analyseInstrument
    {before : Analysis} (isAnchor : before.draft.model.IsAnchor anchor) (node : Node) :
    Ensures (analyseInstrument node anchor) before fun _ after =>
      before.Houses (node.instrumentCues.flatMap Cue.parts) after := by
  have started : Ensures (analyseInstrument node anchor) before
      fun instrument after => (before.Sings _ after ∧ before.Starts instrument after) ∧
        ∃ tops, Model.Grows anchor tops before.draft.model after.draft.model ∧
          tops = [instrument] :=
    ⟨sings_analyseInstrument node before, growing_analyseInstrument node before isAnchor⟩
  apply started.mono
  rintro instrument after ⟨⟨sings, starts⟩, _, grows, rfl⟩
  refine ⟨sings.size_le, sings.old, grows.parent?, sings.song, sings.remembers,
    fun lyric isNew ⟨verse, isVerse⟩ => ?_⟩
  have listed := Model.mem_elementsFrom.mpr ⟨isNew, Model.isElement_of_part? isVerse⟩
  have ordered := after.draft.model.pairwise_elementsFrom before.draft.model.size
  have isOldStart : ∀ handle, before.draft.model.size ≤ handle →
      after.draft.model.part? handle = some none → handle = instrument := by
    intro handle outside isStart
    refine (starts.only handle isStart).resolve_right fun isOld => ?_
    exact Nat.not_lt.mpr outside (Model.lt_size_of_part? isOld)
  have forest := grows.forest
  generalize isListed :
    after.draft.model.elementsFrom before.draft.model.size = objects at *
  cases forest with
  | @cons _ _ _ below _ _ inner outer =>
      cases outer
      rw [List.append_nil] at listed ordered isListed
      obtain ⟨isFirst, _⟩ := List.pairwise_cons.mp ordered
      have isBelow : lyric ∈ below := by
        rcases List.mem_cons.mp listed with rfl | isBelow
        · cases starts.isStart.symm.trans isVerse
        · exact isBelow
      have outside : before.draft.model.size ≤ instrument :=
        (Model.mem_elementsFrom.mp (isListed ▸ List.mem_cons_self)).1
      refine ⟨instrument, ?_, ?_⟩
      · rw [Model.lastInstrument?_of_le (isFirst lyric isBelow)]
        · rw [Model.lastInstrument?, if_pos starts.isStart]
        · intro handle isLater _ isStart
          refine Nat.ne_of_gt isLater (isOldStart handle ?_ isStart)
          exact Nat.le_of_succ_le (Nat.le_trans (Nat.succ_le_succ outside) isLater)
      · refine inner.instrumentAbove (fun handle isUnder isInstrument => ?_)
          (fun top isTop => .next isTop (Model.isInstrument_iff.mpr starts.isStart))
          lyric isBelow
        have isLater := isFirst handle isUnder
        refine Nat.ne_of_gt isLater (isOldStart handle ?_
          (Model.isInstrument_iff.mp isInstrument))
        exact Nat.le_trans outside (Nat.le_of_lt isLater)

/-- Among the children of a score only instruments are analysed. -/
theorem instrument_of_known
    {score : Handle} {child : Node} {analyser : Node → Analyser Unit}
    (known : child.kind?.bind (instrumentAnalyser? score) = some analyser) :
    child.is .instrument ∧
      analyser = fun node => discard (analyseInstrument node (some score)) := by
  obtain ⟨kind, isKind, isKnown⟩ := Option.bind_eq_some_iff.mp known
  unfold instrumentAnalyser? at isKnown
  split at isKnown <;> cases isKnown
  rename_i isInstrument
  exact ⟨beq_iff_eq.mpr (isKind.trans (congrArg some isInstrument)), rfl⟩

theorem no_instrument_of_unknown
    {score : Handle} {child : Node}
    (unknown : child.kind?.bind (instrumentAnalyser? score) = none) :
    ¬ child.is .instrument := by
  intro isInstrument
  rw [beq_iff_eq.mp isInstrument] at unknown
  cases unknown

theorem singing_instruments (score : Handle) (children : List Node) :
    Singing (children.flatMap fun child =>
        (if child.is .instrument then child.instrumentCues else []).flatMap Cue.parts)
      (analyseEach (instrumentAnalyser? score) children) := by
  refine .analyseEach (fun child analyser known => ?_) (fun child unknown => ?_) children
  · obtain ⟨isInstrument, rfl⟩ := instrument_of_known known
    rw [if_pos isInstrument]
    have singing : Singing (child.instrumentCues.flatMap Cue.parts)
        (analyseInstrument child (some score)) := fun before =>
      (sings_analyseInstrument child before).mono fun _ _ sung => sung.1
    exact singing.discard
  · rw [if_neg (no_instrument_of_unknown unknown)]
    rfl

/-- The instruments of a score house their lyrics, one after the other. -/
theorem houses_instruments
    {score : Handle} {before : Analysis}
    (isAnchor : before.draft.model.IsAnchor (some score)) (children : List Node) :
    Ensures (analyseEach (instrumentAnalyser? score) children) before
      fun _ after => before.Houses ((children.flatMap fun child =>
        if child.is .instrument then child.instrumentCues else []).flatMap
          Cue.parts) after := by
  induction children generalizing before with
  | nil => exact .of_same (Nat.le_refl _) rfl rfl fun _ _ => rfl
  | cons child rest induction =>
      rw [analyseEach, List.flatMap_cons, List.flatMap_append]
      split
      · rename_i analyser isAnalyser
        obtain ⟨isInstrument, rfl⟩ := instrument_of_known isAnalyser
        rw [if_pos isInstrument]
        have played : Ensures (discard (analyseInstrument child (some score))) before
            fun _ middle => before.Houses (child.instrumentCues.flatMap Cue.parts)
              middle ∧ ∃ tops, Model.Grows (some score) tops before.draft.model
                middle.draft.model ∧ True :=
          ⟨houses_analyseInstrument isAnchor child,
            (growing_analyseInstrument child).discard before isAnchor⟩
        apply played.bind
        rintro _ middle ⟨houses, tops, grows, _⟩
        exact (induction (isAnchor.grows grows)).mono fun _ _ later =>
          houses.trans later
      · rename_i unknown
        rw [if_neg (no_instrument_of_unknown unknown)]
        have reported : Ensures (reportMisplaced child) before fun _ middle =>
            middle.draft.model = before.draft.model ∧ middle.context = before.context :=
          ⟨rfl, rfl⟩
        apply reported.bind
        rintro _ middle ⟨sameModel, sameContext⟩
        have nothing : before.Houses [] middle :=
          .of_same (Nat.le_of_eq (congrArg Model.size sameModel.symm))
            (congrArg Model.part? sameModel)
            (congrArg Context.lyricPlacements sameContext) fun _ _ => by rw [sameModel]
        exact (induction (sameModel ▸ isAnchor)).mono fun _ _ later =>
          nothing.trans later

end Analyser

end LdpScore
