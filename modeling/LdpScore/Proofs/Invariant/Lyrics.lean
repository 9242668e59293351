import LdpScore.Proofs.Analysis.Concluding
import LdpScore.Proofs.Analysis.Run

/-!
# Where lyrics are placed

A lyric whose element says nothing of its placement stands where the last lyric of its
line does, as long as both belong to one instrument, and below if there is none.  What
is remembered line by line while the text is analysed is what the song says, and the
instrument of a lyric is the one that started last.
-/

namespace LdpScore

open Analyser

/-! ## The lyrics of a score -/

namespace Model

/-- The lyric at a handle. -/
def verse? (model : Model) (handle : Handle) : Option Verse :=
  match model.content? handle with
  | some (.lyric line syllables _ _ placement _) => some ⟨line, syllables, placement⟩
  | _ => none

/-- Two objects stand in one instrument, or there are no instruments. -/
def SharesInstrument (model : Model) (first second : Handle) : Prop :=
  (∃ instrument, model.InstrumentAbove first (some instrument) ∧
    model.InstrumentAbove second (some instrument)) ∨
  ∀ handle, ¬ model.IsInstrument handle

/-- A lyric is followed by another one of the same line in the same instrument. -/
structure Precedes (model : Model) (earlier lyric : Handle) : Prop where
  isOlder : earlier < lyric
  sameLine : ∃ verse other, model.verse? earlier = some verse ∧
    model.verse? lyric = some other ∧ verse.line = other.line
  sameInstrument : model.SharesInstrument earlier lyric

/-- The placement of the last one of some lyrics, and below if there are none. -/
inductive LastPlacement (model : Model) (among : Handle → Prop) : Placement → Prop where
  | last {lyric : Handle} {verse : Verse} (isAmong : among lyric)
      (isLast : ∀ other, among other → other ≤ lyric)
      (isVerse : model.verse? lyric = some verse) :
      LastPlacement model among verse.placement
  | nothing (noLyric : ∀ lyric, ¬ among lyric) : LastPlacement model among .below

/-- A lyric is what its element says.  If that gives no placement, the lyric is placed
like the last one of its line before it in its instrument. -/
structure IsSungAs
    (model : Model) (element : Node) (lyric : Handle) (verse : Verse) : Prop where
  isVerse : model.verse? lyric = some verse
  line : verse.line = element.lyricLine
  syllables : verse.syllables = element.syllables
  given : ∀ placement, element.givenPlacement? = some placement →
    verse.placement = placement
  remembered : element.givenPlacement? = none →
    model.LastPlacement (fun earlier => model.Precedes earlier lyric) verse.placement

def IsPlaced (model : Model) (element : Node) (lyric : Handle) : Prop :=
  ∃ verse, model.IsSungAs element lyric verse

theorem verse?_eq_some_iff {model : Model} {handle : Handle} {verse : Verse} :
    model.verse? handle = some verse ↔ model.part? handle = some (some verse) := by
  rw [verse?, part?_eq_bind]
  cases model.content? handle with
  | none => simp
  | some content => cases content <;> simp [Content.part?]

theorem isSome_verse?_iff {model : Model} {handle : Handle} :
    ((model.content? handle).any fun content => content.name == "lyric") = true ↔
      ∃ verse, model.verse? handle = some verse := by
  rw [verse?]
  cases model.content? handle with
  | none => simp
  | some content => cases content <;> simp [Content.name]

theorem LastPlacement.congr
    {model : Model} {among others : Handle → Prop} {placement : Placement}
    (last : model.LastPlacement among placement)
    (same : ∀ lyric, among lyric ↔ others lyric) :
    model.LastPlacement others placement := by
  have same : among = others := funext fun lyric => propext (same lyric)
  exact same ▸ last

/-! ## What the song says of a line -/

/-- The song up to a handle. -/
def songBefore (model : Model) (bound : Nat) : Song :=
  (List.range bound).filterMap model.part?

theorem songBefore_succ_of_none
    {model : Model} {bound : Nat} (noPart : model.part? bound = none) :
    model.songBefore (bound + 1) = model.songBefore bound := by
  rw [songBefore, List.range_succ, List.filterMap_append, List.filterMap_cons, noPart]
  exact List.append_nil _

theorem songBefore_succ_of_some
    {model : Model} {bound : Nat} {part : Option Verse}
    (isPart : model.part? bound = some part) :
    model.songBefore (bound + 1) = model.songBefore bound ++ [part] := by
  rw [songBefore, List.range_succ, List.filterMap_append, List.filterMap_cons, isPart]
  rfl

/-- A lyric of a line before a bound, and no instrument starts between them. -/
structure IsHeard (model : Model) (line : Int) (bound : Nat) (earlier : Handle) : Prop where
  isOlder : earlier < bound
  ofLine : ∃ verse, model.verse? earlier = some verse ∧ verse.line = line
  sameStart : model.lastInstrument? earlier = model.lastInstrument? bound

/-- What is no lyric of a line is not heard in it. -/
theorem isHeard_succ_iff
    {model : Model} {line : Int} {bound : Nat} {earlier : Handle}
    (noStart : model.part? bound ≠ some none)
    (other : ∀ verse, model.verse? bound = some verse → verse.line ≠ line) :
    model.IsHeard line (bound + 1) earlier ↔ model.IsHeard line bound earlier := by
  have sameStart : model.lastInstrument? (bound + 1) = model.lastInstrument? bound :=
    if_neg noStart
  constructor
  · rintro ⟨isOlder, ⟨verse, isVerse, isLine⟩, start⟩
    refine ⟨Nat.lt_of_le_of_ne (Nat.le_of_lt_succ isOlder) ?_, ⟨verse, isVerse, isLine⟩,
      start.trans sameStart⟩
    rintro rfl
    exact other verse isVerse isLine
  · rintro ⟨isOlder, ofLine, start⟩
    exact ⟨Nat.lt_succ_of_lt isOlder, ofLine, start.trans sameStart.symm⟩

/-- What the song says of a line is where the last lyric stands that is heard. -/
theorem lastPlacement_memory (model : Model) (line : Int) (bound : Nat) :
    model.LastPlacement (model.IsHeard line bound)
      ((model.songBefore bound).memory line) := by
  induction bound with
  | zero => exact .nothing fun lyric isHeard => Nat.not_lt_zero lyric isHeard.isOlder
  | succ bound induction =>
      cases isPart : model.part? bound with
      | none =>
          rw [songBefore_succ_of_none isPart]
          refine induction.congr fun lyric => (isHeard_succ_iff ?_ ?_).symm
          · rw [isPart]
            exact nofun
          · intro verse isVerse
            cases isPart.symm.trans (verse?_eq_some_iff.mp isVerse)
      | some part =>
          rw [songBefore_succ_of_some isPart, Song.memory_concat]
          cases part with
          | none =>
              -- An instrument starts, and the last one was another before it.
              have isLast : model.lastInstrument? (bound + 1) = some bound := if_pos isPart
              refine .nothing fun lyric isHeard => ?_
              have isOlder := lt_of_lastInstrument? (isHeard.sameStart.trans isLast)
              exact Nat.not_lt.mpr (Nat.le_of_lt_succ isHeard.isOlder) isOlder
          | some verse =>
              have isVerse := verse?_eq_some_iff.mpr isPart
              have noStart : model.part? bound ≠ some none := by
                rw [isPart]
                exact nofun
              rw [Song.hear]
              split
              · rename_i isLine
                refine .last ⟨Nat.lt_succ_self _, ⟨verse, isVerse, isLine⟩, ?_⟩
                  (fun other isHeard => Nat.le_of_lt_succ isHeard.isOlder) isVerse
                exact (if_neg noStart).symm
              · rename_i otherLine
                refine induction.congr fun lyric => (isHeard_succ_iff noStart ?_).symm
                intro given isGiven
                cases isVerse.symm.trans isGiven
                exact otherLine

/-! ## The instruments of lyrics -/

/-- Every lyric has the instrument above it that started last, or there are none. -/
def IsHoused (model : Model) : Prop :=
  (∀ handle, ¬ model.IsInstrument handle) ∨
  ∀ lyric, model.IsLyric lyric → ∃ instrument,
    model.lastInstrument? lyric = some instrument ∧
      model.InstrumentAbove lyric (some instrument)

theorem lastInstrument?_eq_none
    {model : Model} (noInstrument : ∀ handle, ¬ model.IsInstrument handle)
    (bound : Nat) :
    model.lastInstrument? bound = none :=
  lastInstrument?_of_le (Nat.zero_le bound) fun handle _ _ isStart =>
    noInstrument handle (isInstrument_iff.mpr isStart)

/-- Lyrics share an instrument if no other one starts between them. -/
theorem IsHoused.sharesInstrument_iff
    {model : Model} (isHoused : model.IsHoused) {first second : Handle}
    (isFirst : model.IsLyric first) (isSecond : model.IsLyric second) :
    model.SharesInstrument first second ↔
      model.lastInstrument? first = model.lastInstrument? second := by
  have without : (∀ handle, ¬ model.IsInstrument handle) →
      model.lastInstrument? first = model.lastInstrument? second := fun noInstrument =>
    (lastInstrument?_eq_none noInstrument first).trans
      (lastInstrument?_eq_none noInstrument second).symm
  rcases isHoused with noInstrument | housed
  · exact ⟨fun _ => without noInstrument, fun _ => Or.inr noInstrument⟩
  · obtain ⟨ofFirst, isLastFirst, aboveFirst⟩ := housed first isFirst
    obtain ⟨ofSecond, isLastSecond, aboveSecond⟩ := housed second isSecond
    constructor
    · rintro (⟨instrument, above, aboveToo⟩ | noInstrument)
      · rw [isLastFirst, isLastSecond, aboveFirst.unique above,
          aboveSecond.unique aboveToo]
      · exact without noInstrument
    · intro same
      rw [isLastFirst, isLastSecond] at same
      exact Or.inl ⟨ofFirst, aboveFirst, same ▸ aboveSecond⟩

/-- What is heard before a lyric precedes it. -/
theorem IsHoused.precedes_iff
    {model : Model} (isHoused : model.IsHoused) {earlier lyric : Handle} {verse : Verse}
    (isVerse : model.verse? lyric = some verse) :
    model.Precedes earlier lyric ↔ model.IsHeard verse.line lyric earlier := by
  have isLyric : model.IsLyric lyric := ⟨verse, verse?_eq_some_iff.mp isVerse⟩
  constructor
  · rintro ⟨isOlder, ⟨own, given, isOwn, isGiven, sameLine⟩, shares⟩
    cases isVerse.symm.trans isGiven
    have isEarlier : model.IsLyric earlier := ⟨own, verse?_eq_some_iff.mp isOwn⟩
    exact ⟨isOlder, ⟨own, isOwn, sameLine⟩,
      (isHoused.sharesInstrument_iff isEarlier isLyric).mp shares⟩
  · rintro ⟨isOlder, ⟨own, isOwn, sameLine⟩, sameStart⟩
    have isEarlier : model.IsLyric earlier := ⟨own, verse?_eq_some_iff.mp isOwn⟩
    exact ⟨isOlder, ⟨own, verse, isOwn, isVerse, sameLine⟩,
      (isHoused.sharesInstrument_iff isEarlier isLyric).mpr sameStart⟩

/-! ## The elements of lyrics -/

/-- The last part of a song comes from the last one that was sung. -/
theorem exists_of_concat_eq_sing
    {song : Song} {part : Option Verse} {parts : List (Option Node)}
    (sung : song ++ [part] = Song.sing [] parts) :
    ∃ earlier last, parts = earlier ++ [last] ∧ song = Song.sing [] earlier ∧
      part = last.map song.verse := by
  cases parts using List.reverseRecOn with
  | nil => exact absurd sung (List.concat_ne_nil _ _)
  | append_singleton earlier last =>
      rw [Song.sing_concat] at sung
      obtain ⟨same, isLast⟩ := List.append_inj' sung rfl
      rw [same]
      exact ⟨earlier, last, rfl, rfl, List.singleton_inj.mp isLast⟩

/-- Each lyric is the verse that its element makes of the song before it. -/
theorem verses_of_sing
    {model : Model} {bound : Nat} {parts : List (Option Node)}
    (sung : model.songBefore bound = Song.sing [] parts) :
    List.Forall₂ (fun element lyric =>
        model.verse? lyric = some ((model.songBefore lyric).verse element))
      (parts.filterMap id) ((List.range bound).filter fun handle =>
        (model.content? handle).any fun content => content.name == "lyric") := by
  have other : ∀ {handle}, (∀ verse, model.part? handle ≠ some (some verse)) →
      [handle].filter (fun handle =>
        (model.content? handle).any fun content => content.name == "lyric") = [] := by
    intro handle noVerse
    refine List.filter_cons_of_neg fun isLyric => ?_
    obtain ⟨verse, isVerse⟩ := isSome_verse?_iff.mp isLyric
    exact noVerse verse (verse?_eq_some_iff.mp isVerse)
  induction bound generalizing parts with
  | zero =>
      cases parts using List.reverseRecOn with
      | nil => exact .nil
      | append_singleton parts part =>
          rw [Song.sing_concat] at sung
          exact absurd sung.symm (List.concat_ne_nil _ _)
  | succ bound induction =>
      rw [List.range_succ, List.filter_append]
      cases isPart : model.part? bound with
      | none =>
          rw [songBefore_succ_of_none isPart] at sung
          rw [other (by simp [isPart]), List.append_nil]
          exact induction sung
      | some part =>
          rw [songBefore_succ_of_some isPart] at sung
          obtain ⟨earlier, last, rfl, same, isLast⟩ := exists_of_concat_eq_sing sung
          rw [List.filterMap_append]
          refine List.rel_append (induction same) ?_
          cases last with
          | none =>
              rw [other (by simp [isPart, isLast])]
              exact .nil
          | some element =>
              have isVerse : model.verse? bound =
                  some ((model.songBefore bound).verse element) := by
                rw [verse?_eq_some_iff, isPart, isLast]
                rfl
              rw [List.filter_cons, if_pos (isSome_verse?_iff.mpr ⟨_, isVerse⟩)]
              exact .cons isVerse .nil

/-- Each lyric of a song that was sung is placed as its element says. -/
theorem IsHoused.isPlaced
    {model : Model} {parts : List (Option Node)} (isHoused : model.IsHoused)
    (sung : model.song = Song.sing [] parts) :
    List.Forall₂ model.IsPlaced (parts.filterMap id) (model.findAll "lyric") := by
  refine (verses_of_sing sung).imp fun element lyric isVerse => ⟨_, isVerse, rfl, rfl,
    fun placement isGiven => ?_, fun notGiven => ?_⟩
  · rw [Song.verse, isGiven]
    rfl
  · rw [Song.verse, notGiven]
    exact (lastPlacement_memory model _ lyric).congr fun earlier =>
      (isHoused.precedes_iff isVerse).symm

end Model

/-! ## Whole trees -/

/-- The elements of a tree that become lyrics. -/
def Node.sung (tree : Node) : List Node :=
  tree.parts.filterMap id

/-- The parts of a tree are sung, and its lyrics are housed. -/
def Analysis.IsSung (tree : Node) (state : Analysis) : Prop :=
  state.draft.model.song = Song.sing [] tree.parts ∧ state.draft.model.IsHoused

theorem Analysis.isSung_of_houses
    {tree : Node} {state : Analysis} (houses : Analysis.Houses tree.parts {} state) :
    state.IsSung tree :=
  ⟨houses.song fun _ => rfl, Or.inr fun lyric => houses.housed lyric (Nat.zero_le lyric)⟩

/-- Whatever a tree consists of, its parts are sung in order. -/
theorem Analysis.Concludes.isSung
    {tree : Node} {last : Analysis} (concludes : last.Concludes tree) :
    last.IsSung tree := by
  cases concludes with
  | scores isKind surveys =>
      have parts : tree.parts = Node.scoreParts tree.scores :=
        Node.parts_eq_scoreParts isKind
      exact Analysis.isSung_of_houses (parts ▸ surveys.houses)
  | instrument _ _ houses => exact Analysis.isSung_of_houses houses
  | option isOption noPart _ _ =>
      have parts : tree.parts = [] := by
        rw [Node.parts, Node.cues, Node.staffCues, beq_iff_eq.mp isOption]
        rfl
      refine ⟨parts ▸ Model.song_congr noPart, Or.inl fun handle isInstrument => ?_⟩
      have isStart := Model.isInstrument_iff.mp isInstrument
      rw [noPart, Model.part?_of_size_le (Nat.zero_le handle)] at isStart
      cases isStart
  | fragment _ isFragment =>
      exact ⟨isFragment.song, Or.inl fun handle isInstrument =>
        isFragment.noInstrument handle (Model.isInstrument_iff.mp isInstrument)⟩

/--
For every text that is accepted, the lyrics of its model come from elements of its tree,
and a lyric whose element gives no placement has that of the last lyric before it with
the same line in the same instrument, and is placed below if there is none.
-/
theorem placedLyrics_analyseSource
    (source file : String) {model : Model}
    (accepted : (analyseSource source file).result = .ok model) :
    ∃ text, (Node.read (Token.lex source file)).result = .ok text ∧
      List.Forall₂ model.IsPlaced text.sung (model.findAll "lyric") := by
  obtain ⟨text, isText, isModel, _⟩ := exists_tree_of_accepted accepted
  obtain ⟨sung, isHoused⟩ := (concludes_analyseRoot text).isSung
  have isPlaced : List.Forall₂ (analyse text).1.IsPlaced text.sung
      ((analyse text).1.findAll "lyric") := isHoused.isPlaced sung
  exact ⟨text, isText, isModel ▸ isPlaced⟩

/-- The second line is placed above in one instrument and below in the next. -/
theorem placedLyrics_of_two_lines :
    ∃ (model : Model) (text : Node),
      (analyseSource
        ("(score (vers 2.0) (instrument (musicData (n c4 q (lyric 2 \"la\" above)) " ++
          "(n c4 q (lyric \"lo\") (lyric 2 \"li\")))) " ++
          "(instrument (musicData (n c4 q (lyric 2 \"lu\")))))") "").result = .ok model ∧
      (model.findAll "lyric").filterMap model.verse? =
        [⟨2, ["la"], .above⟩, ⟨1, ["lo"], .below⟩, ⟨2, ["li"], .above⟩,
          ⟨2, ["lu"], .below⟩] ∧
      List.Forall₂ model.IsPlaced text.sung (model.findAll "lyric") := by
  obtain ⟨model, accepted, verses⟩ := exists_model_of_any
    (fun model => (model.findAll "lyric").filterMap model.verse? =
      [⟨2, ["la"], .above⟩, ⟨1, ["lo"], .below⟩, ⟨2, ["li"], .above⟩,
        ⟨2, ["lu"], .below⟩])
    (by decide +kernel : (analyseSource
      ("(score (vers 2.0) (instrument (musicData (n c4 q (lyric 2 \"la\" above)) " ++
        "(n c4 q (lyric \"lo\") (lyric 2 \"li\")))) " ++
        "(instrument (musicData (n c4 q (lyric 2 \"lu\")))))") "").result.toOption.any _)
  obtain ⟨text, _, placed⟩ := placedLyrics_analyseSource _ _ accepted
  exact ⟨model, text, accepted, of_decide_eq_true verses, placed⟩

end LdpScore
