import LdpScore.Proofs.Analysis.Element
import LdpScore.Proofs.Analysis.Overlooking
import LdpScore.Proofs.Analysis.Performing
import LdpScore.Proofs.Score.Song

/-!
# What an analysis sings

An analysis adds the lyrics of the notes to the song of its score, note by note, and
an instrument starts a part of the song.  What the context remembers of the lyrics of
a line is what the song says of it, so each element of a lyric becomes the next verse.
-/

namespace LdpScore

open Analyser
open Model (KeepsNames)

/-! ## What there is to sing -/

namespace Node

/-- The elements of the lyrics among some options of a note. -/
def lyricsAmong (options : List Node) : List Node :=
  options.filter isSung

/-- The elements of the lyrics of a note. -/
def lyrics (flavor : Flavor) (node : Node) : List Node :=
  if flavor = .rest then []
  else lyricsAmong ((node.children.dropWhile Node.isLabel).takeWhile Node.isNoteOption)

end Node

/-- What a cue gives to sing. -/
def Cue.parts : Cue → List (Option Node)
  | instrument => [none]
  | play flavor node => (node.lyrics flavor).map some

/-- What a tree gives to sing: the elements of its lyrics in order, and where its
instruments start. -/
def Node.parts (tree : Node) : List (Option Node) :=
  tree.cues.flatMap Cue.parts

/-- No instrument starts in music data. -/
theorem Node.none_notMem_staffCues (node : Node) :
    none ∉ node.staffCues.flatMap Cue.parts := by
  have chord : ∀ children, ∀ cue ∈ Node.chordCues children, none ∉ cue.parts := by
    intro children cue listed
    unfold Node.chordCues at listed
    split at listed
    · cases listed
    · rcases List.mem_cons.mp listed with rfl | other
      · simp [Cue.parts]
      · obtain ⟨child, _, rfl⟩ := List.mem_map.mp other
        simp [Cue.parts]
  rw [List.mem_flatMap]
  rintro ⟨cue, isCue, isPart⟩
  unfold Node.staffCues at isCue
  split at isCue
  case h_4 => exact chord node.children cue isCue isPart
  case h_5 => cases isCue
  all_goals
    rw [List.mem_singleton.mp isCue] at isPart
    simp [Cue.parts] at isPart

theorem Node.none_notMem_musicCues (music : Node) :
    none ∉ music.musicCues.flatMap Cue.parts := by
  rw [Node.musicCues, List.flatMap_assoc, List.mem_flatMap]
  rintro ⟨child, _, isPart⟩
  exact child.none_notMem_staffCues isPart

/-- What is remembered of the lyrics of each line is what the song says. -/
def Analysis.Remembers (state : Analysis) : Prop :=
  ∀ line, state.context.lyricPlacement line = state.draft.model.song.memory line

/-- Some parts are sung.  Scores and their options stay what they are. -/
structure Analysis.Sings
    (parts : List (Option Node)) (before after : Analysis) : Prop where
  size_le : before.draft.model.size ≤ after.draft.model.size
  old : ∀ handle < before.draft.model.size,
    after.draft.model.part? handle = before.draft.model.part? handle
  starts : ∀ handle, after.draft.model.part? handle = some none →
    before.draft.model.part? handle = some none ∨ none ∈ parts
  song : before.Remembers →
    after.draft.model.song = before.draft.model.song.sing parts
  remembers : before.Remembers → after.Remembers
  headings : after.draft.model.heading? = before.draft.model.heading?
  reports : after.draft.optionReports = before.draft.optionReports

namespace Analysis

variable {parts more : List (Option Node)} {first middle last before after : Analysis}

theorem Overlooks.lyricPlacement (overlooks : before.Overlooks after) (line : Int) :
    after.context.lyricPlacement line = before.context.lyricPlacement line := by
  rw [Context.lyricPlacement, Context.lyricPlacement, overlooks.placements]

/-- An object that is added may be one more part. -/
theorem part?_of_added
    {draft : Draft} {wanted : Option Int} {location : Location} {anchor : Option Handle}
    {content : Content} (overlooks : before.draft.Overlooks draft)
    (added : after.draft = (draft.addObject wanted location anchor content).2)
    (handle : Handle) :
    after.draft.model.part? handle =
      if handle = draft.model.size then content.part?
      else before.draft.model.part? handle := by
  rw [added, draft.part?_addObject, overlooks.part?]

namespace Sings

theorem of_overlooks (overlooks : before.Overlooks after) : Sings [] before after := by
  have same := overlooks.draft.part?
  have song := Model.song_congr same
  refine ⟨overlooks.draft.size_le, fun handle _ => by rw [same],
    fun handle isStart => ?_, fun _ => song, fun remembers line => ?_,
    overlooks.draft.heading?, overlooks.draft.reports⟩
  · exact Or.inl (same ▸ isStart)
  · rw [overlooks.lyricPlacement, song]
    exact remembers line

theorem refl (state : Analysis) : Sings [] state state :=
  .of_overlooks (.refl state)

theorem trans
    (earlier : Sings parts first middle) (later : Sings more middle last) :
    Sings (parts ++ more) first last := by
  refine ⟨Nat.le_trans earlier.size_le later.size_le, fun handle isOld => ?_,
    fun handle isStart => ?_, fun remembers => ?_,
    fun remembers => later.remembers (earlier.remembers remembers),
    later.headings.trans earlier.headings, later.reports.trans earlier.reports⟩
  · rw [later.old handle (Nat.lt_of_lt_of_le isOld earlier.size_le)]
    exact earlier.old handle isOld
  · rw [List.mem_append]
    rcases later.starts handle isStart with inMiddle | isPart
    · exact (earlier.starts handle inMiddle).imp_right Or.inl
    · exact Or.inr (Or.inr isPart)
  · rw [later.song (earlier.remembers remembers), earlier.song remembers,
      Song.sing_append]

/-- One more part is sung when an object is added that is one. -/
theorem of_added
    {draft : Draft} {wanted : Option Int} {location : Location} {anchor : Option Handle}
    {content : Content} {part : Option Node} {verse : Option Verse}
    (overlooks : before.draft.Overlooks draft)
    (added : after.draft = (draft.addObject wanted location anchor content).2)
    (isPart : content.part? = some verse) (noHeading : content.isHeading = false)
    (sung : before.Remembers → verse = part.map before.draft.model.song.verse)
    (starts : verse = none → part = none)
    (remembered : before.Remembers → ∀ line, after.context.lyricPlacement line =
      Song.hear line (before.draft.model.song.memory line) verse) :
    Sings [part] before after := by
  have part? := part?_of_added overlooks added
  rw [isPart] at part?
  have size : after.draft.model.size = draft.model.size + 1 := by
    rw [added, draft.size_addObject]
  have song := Model.song_concat overlooks.size_le size part?
  refine ⟨?_, fun handle isOld => ?_, fun handle isStart => ?_, fun remembers => ?_,
    fun remembers line => ?_, ?_, ?_⟩
  · rw [size]
    exact Nat.le_succ_of_le overlooks.size_le
  · rw [part?, if_neg (Nat.ne_of_lt (Nat.lt_of_lt_of_le isOld overlooks.size_le))]
  · rw [part?] at isStart
    split at isStart
    · exact Or.inr (List.mem_singleton.mpr (starts (Option.some.inj isStart)).symm)
    · exact Or.inl isStart
  · rw [song, sung remembers]
    rfl
  · rw [remembered remembers, song, Song.memory_concat]
  · funext handle
    rw [added, draft.heading?_addObject, overlooks.heading?]
    split
    · rename_i isNew
      rw [isNew, Model.heading?_of_size_le overlooks.size_le, Option.filter_some,
        noHeading]
      rfl
    · rfl
  · rw [added, draft.optionReports_addObject, overlooks.reports]

end Sings

/-- The only instrument that was added is the one at a handle. -/
structure Starts (instrument : Handle) (before after : Analysis) : Prop where
  isStart : after.draft.model.part? instrument = some none
  only : ∀ handle, after.draft.model.part? handle = some none →
    handle = instrument ∨ before.draft.model.part? handle = some none

/-- No instrument is added later. -/
theorem Starts.sings
    {instrument : Handle} (starts : first.Starts instrument middle)
    (sings : middle.Sings parts last) (noStart : none ∉ parts) :
    first.Starts instrument last := by
  refine ⟨?_, fun handle isStart => ?_⟩
  · rw [sings.old instrument (Model.lt_size_of_part? starts.isStart)]
    exact starts.isStart
  · exact starts.only handle ((sings.starts handle isStart).resolve_right noStart)

end Analysis

namespace Analyser

variable {Value Result : Type} {parts more : List (Option Node)}
variable {anchor : Option Handle}

/-- A step that sings some parts, whatever the state before it. -/
def Singing (parts : List (Option Node)) (action : Analyser Value) : Prop :=
  ∀ before, Ensures action before fun _ after => before.Sings parts after

theorem Overlooking.singing
    {action : Analyser Value} (overlooking : Overlooking action) :
    Singing [] action :=
  fun before => .of_overlooks (overlooking before)

namespace Singing

theorem pure (value : Value) : Singing [] (Pure.pure value) :=
  fun before => .refl before

theorem map
    {action : Analyser Result} (singing : Singing parts action)
    (change : Result → Value) :
    Singing parts (change <$> action) :=
  singing

theorem discard
    {action : Analyser Value} (singing : Singing parts action) :
    Singing parts (discard action) :=
  singing.map _

/-- What is returned is known. -/
theorem follow
    {action : Analyser Result} {next : Result → Analyser Value}
    {property : Result → Prop} (first : Singing parts action)
    (yields : Yields action property)
    (second : ∀ result, property result → Singing more (next result)) :
    Singing (parts ++ more) (action >>= next) := by
  intro before
  have known : Ensures action before fun result middle =>
      before.Sings parts middle ∧ property result := ⟨first before, yields before⟩
  apply known.bind
  rintro result middle ⟨sings, holds⟩
  exact (second result holds middle).mono fun _ _ later => sings.trans later

theorem bind
    {action : Analyser Result} {next : Result → Analyser Value}
    (first : Singing parts action)
    (second : ∀ result, Singing more (next result)) :
    Singing (parts ++ more) (action >>= next) :=
  have anything : Yields action fun _ => True := fun _ => trivial
  first.follow anything fun result _ => second result

/-- Nothing is sung at first. -/
theorem after
    {action : Analyser Result} {next : Result → Analyser Value}
    (first : Overlooking action)
    (second : ∀ result, Singing parts (next result)) :
    Singing parts (action >>= next) :=
  first.singing.bind second

/-- Nothing is sung at first, and what is returned is known. -/
theorem read
    {action : Analyser Result} {next : Result → Analyser Value}
    {property : Result → Prop} (first : Overlooking action)
    (yields : Yields action property)
    (second : ∀ result, property result → Singing parts (next result)) :
    Singing parts (action >>= next) :=
  first.singing.follow yields second

/-- Nothing is sung afterwards. -/
theorem before
    {action : Analyser Result} {next : Result → Analyser Value}
    (first : Singing parts action)
    (second : ∀ result, Overlooking (next result)) :
    Singing parts (action >>= next) :=
  List.append_nil parts ▸ first.bind fun result => (second result).singing

/-- The children of an element are sung one after the other. -/
theorem analyseEach
    {analyserOf : ElementKind → Option (Node → Analyser Unit)}
    {partsOf : Node → List (Option Node)}
    (each : ∀ child analyser, child.kind?.bind analyserOf = some analyser →
      Singing (partsOf child) (analyser child))
    (others : ∀ child, child.kind?.bind analyserOf = none → partsOf child = [])
    (children : List Node) :
    Singing (children.flatMap partsOf) (analyseEach analyserOf children) := by
  induction children with
  | nil => exact .pure ()
  | cons child rest induction =>
      rw [Analyser.analyseEach, List.flatMap_cons]
      split
      · rename_i analyser isAnalyser
        exact (each child analyser isAnalyser).bind fun _ => induction
      · rename_i unknown
        rw [others child unknown]
        exact .after (overlooking_reportMisplaced child) fun _ => induction

/-- A child that may be missing. -/
theorem optional
    {analyser : Node → Analyser Unit} {partsOf : Node → List (Option Node)}
    (each : ∀ child, Singing (partsOf child) (analyser child))
    (child : Option Node) :
    Singing (child.toList.flatMap partsOf) (analyseOptional analyser child) := by
  cases child with
  | none => exact .pure ()
  | some child =>
      rw [Option.toList_some, List.flatMap_singleton]
      exact each child

end Singing

/-! ## Lyrics -/

theorem yields_integerValue (node : Node) (default : Int) :
    Yields (integerValue node default) fun value =>
      value = (Decimal.leadingInteger? node.text.toList).getD default := by
  rw [integerValue]
  split
  · rename_i number isNumber
    rw [isNumber]
    exact .pure rfl
  · rename_i noNumber
    rw [noNumber]
    exact .after fun _ => .pure rfl

theorem yields_lyricLine (lyric : Node) :
    Yields (lyricLine lyric.children) fun result =>
      result = (lyric.lyricLine, lyric.afterLine) := by
  rw [lyricLine, Node.lyricLine, Node.afterLine]
  rcases take? .number lyric.children with ⟨_ | number, rest⟩
  · exact .pure rfl
  · refine (yields_integerValue number 1).bind ?_
    rintro line rfl
    exact .pure rfl

theorem yields_placementValue (label : Node) :
    Yields (placementValue label .below) fun placement =>
      placement = label.placement?.getD .below := by
  unfold placementValue Node.placement?
  split
  · rename_i isAbove
    rw [if_pos isAbove]
    exact .pure rfl
  · rename_i isBelow
    rw [isBelow]
    exact .pure rfl
  · rename_i noAbove noBelow
    rw [if_neg noAbove, if_neg noBelow]
    exact .after fun _ => .pure rfl

theorem yields_lyricLabel (children : List Node) :
    Yields (lyricLabel children) fun result =>
      result.1.placement = (take? .label children).1.bind Node.placement? ∧
        result.2 = (take? .label children).2 := by
  rw [lyricLabel]
  rcases take? .label children with ⟨_ | label, rest⟩
  · exact .pure ⟨rfl, rfl⟩
  · dsimp only [Option.bind_some]
    rw [Node.placement?]
    split
    · rename_i isHyphen
      rw [isHyphen]
      exact .pure ⟨rfl, rfl⟩
    · rename_i isAbove
      rw [if_pos isAbove]
      exact .pure ⟨rfl, rfl⟩
    · rename_i isBelow
      rw [isBelow]
      exact .pure ⟨rfl, rfl⟩
    · rename_i _ noAbove noBelow
      rw [if_neg noAbove, if_neg noBelow]
      exact .after fun _ => .pure ⟨rfl, rfl⟩

theorem yields_lyricOptions (lyric : Node) :
    Yields (lyricOptions (leadingStrings lyric.afterLine).2) fun result =>
      result.1.placement = lyric.givenPlacement? := by
  rw [lyricOptions, Node.givenPlacement?]
  refine (yields_lyricLabel (leadingStrings lyric.afterLine).2).bind ?_
  rintro ⟨options, rest⟩ ⟨isFirst, isRest⟩
  dsimp only at isFirst isRest ⊢
  rw [← isFirst, ← isRest]
  cases isGiven : options.placement with
  | some placement => exact .pure isGiven
  | none =>
      rcases take? .label (take? .melisma rest).2 with ⟨_ | label, rest⟩
      · exact .pure rfl
      · refine (yields_placementValue label).bind ?_
        rintro placement rfl
        exact .pure rfl

/-- A placement that is given is remembered; otherwise it is the one remembered. -/
theorem ensures_choosePlacement
    (line : Int) (given : Option Placement) (before : Analysis) :
    Ensures (choosePlacement line given) before fun placement after =>
      placement = given.getD (before.context.lyricPlacement line) ∧
        after.draft = before.draft ∧
        ∀ other, after.context.lyricPlacement other =
          if line = other then placement else before.context.lyricPlacement other := by
  cases given with
  | some placement =>
      refine ⟨rfl, rfl, fun other => ?_⟩
      show (before.context.setLyricPlacement line placement).lyricPlacement other = _
      rw [Context.setLyricPlacement, Context.lyricPlacement, List.lookup_cons]
      split
      · rename_i same
        rw [if_pos (beq_iff_eq.mp same).symm]
        rfl
      · rename_i different
        rw [if_neg fun same => absurd (beq_iff_eq.mpr same.symm) (by simp [different])]
        rfl
  | none =>
      refine ⟨rfl, rfl, fun other => ?_⟩
      split
      · rename_i same
        rw [← same]
        rfl
      · rfl

/-- A lyric that is added becomes the next verse, and its placement is remembered. -/
theorem sings_addLyric
    {lyric : Node} (note : Handle) (options : LyricOptions) {placement : Placement}
    (appearance : Appearance) {before after : Analysis} {draft : Draft}
    (overlooks : before.draft.Overlooks draft)
    (added : after.draft = (draft.addObject lyric.id? lyric.location (some note)
      (.lyric lyric.lyricLine lyric.syllables options.hasHyphen options.hasMelisma
        placement appearance)).2)
    (chosen : placement = lyric.givenPlacement?.getD
      (before.context.lyricPlacement lyric.lyricLine))
    (remembered : ∀ line, after.context.lyricPlacement line =
      if lyric.lyricLine = line then placement
      else before.context.lyricPlacement line) :
    before.Sings [some lyric] after := by
  refine .of_added overlooks added rfl rfl (fun remembers => ?_) nofun
    fun remembers line => ?_
  · rw [chosen, remembers]
    rfl
  · rw [remembered, remembers]
    rfl

/-- A lyric with syllables is sung, and another one is not. -/
theorem sings_analyseLyric
    {note : Handle} (lyric : Node) {before : Analysis}
    (isNote : before.draft.model.IsNote note) :
    Ensures (analyseLyric lyric (some note)) before fun _ after =>
      before.Sings (if lyric.syllables.isEmpty then [] else [some lyric]) after := by
  rw [analyseLyric]
  refine Ensures.readModel ?_
  have isAnchor : (some note).filter (fun handle =>
      (before.draft.model.note? handle).isSome) = some note :=
    Option.filter_eq_some_iff.mpr ⟨rfl, isNote⟩
  rw [isAnchor]
  have lined : Ensures (lyricLine lyric.children) before fun result first =>
      before.Overlooks first ∧ result = (lyric.lyricLine, lyric.afterLine) :=
    ⟨overlooking_lyricLine _ before, yields_lyricLine lyric before⟩
  apply lined.bind
  rintro _ first ⟨toFirst, rfl⟩
  dsimp only
  by_cases isEmpty : lyric.syllables.isEmpty
  · have isSilent : (leadingStrings lyric.afterLine).1.isEmpty := isEmpty
    rw [if_pos isEmpty, if_pos isSilent]
    have reported : Singing [] (do
        report lyric.location .missingSyllable
        return (none : Option Handle)) :=
      .after (overlooking_report _ rfl) fun _ => .pure none
    exact (reported first).mono fun _ _ later =>
      (Analysis.Sings.of_overlooks toFirst).trans later
  · have isSung : ¬ (leadingStrings lyric.afterLine).1.isEmpty := isEmpty
    rw [if_neg isEmpty, if_neg isSung]
    have optioned : Ensures (lyricOptions (leadingStrings lyric.afterLine).2) first
        fun result second => first.Overlooks second ∧
          result.1.placement = lyric.givenPlacement? :=
      ⟨overlooking_lyricOptions _ first, yields_lyricOptions lyric first⟩
    apply optioned.bind
    rintro ⟨options, rest⟩ second ⟨toSecond, given⟩
    have toSecond := toFirst.trans toSecond
    dsimp only at given ⊢
    rw [given]
    apply (ensures_choosePlacement lyric.lyricLine lyric.givenPlacement? second).bind
    rintro placement third ⟨chosen, sameDraft, remembered⟩
    apply (overlooking_printOptions {} rest third).bind
    rintro ⟨appearance, rest⟩ fourth toFourth
    apply (overlooking_reportExtra lyric rest fourth).bind
    rintro _ fifth toFifth
    have toFifth := toFourth.trans toFifth
    have overlooked : before.draft.Overlooks fifth.draft :=
      toSecond.draft.trans (sameDraft ▸ toFifth.draft)
    rw [toSecond.lyricPlacement] at chosen
    refine sings_addLyric note options appearance overlooked rfl chosen fun line => ?_
    refine (toFifth.lyricPlacement line).trans ?_
    rw [remembered, toSecond.lyricPlacement]

/-! ## Notes and rests -/

/-- A step that sings some parts if an object is a note. -/
def SingingFor
    (note : Handle) (parts : List (Option Node)) (action : Analyser Value) : Prop :=
  ∀ before, before.draft.model.IsNote note →
    Ensures action before fun _ after => before.Sings parts after

theorem Singing.singingFor
    {action : Analyser Value} (singing : Singing parts action) (note : Handle) :
    SingingFor note parts action :=
  fun before _ => singing before

namespace SingingFor

variable {note : Handle} {property : Result → Prop}

/-- The note is still one afterwards. -/
theorem bind
    {action : Analyser Result} {next : Result → Analyser Value}
    (first : SingingFor note parts action) (leaving : Leaving 0 action property)
    (second : ∀ result, property result → SingingFor note more (next result)) :
    SingingFor note (parts ++ more) (action >>= next) := by
  intro before isNote
  have left := leaving before (Nat.zero_le _)
  have sung : Ensures action before fun result middle =>
      (before.Sings parts middle ∧ middle.draft.model.IsNote note) ∧ property result :=
    ⟨⟨first before isNote, left.1.model.names.isNote isNote⟩, left.2⟩
  apply sung.bind
  rintro result middle ⟨⟨sings, stillNote⟩, holds⟩
  exact (second result holds middle stillNote).mono fun _ _ later => sings.trans later

/-- Nothing is sung at first. -/
theorem after
    {action : Analyser Result} {next : Result → Analyser Value}
    (first : Overlooking action) (leaving : Leaving 0 action property)
    (second : ∀ result, SingingFor note parts (next result)) :
    SingingFor note parts (action >>= next) :=
  (first.singing.singingFor note).bind leaving fun result _ => second result

/-- Nothing is sung afterwards. -/
theorem before
    {action : Analyser Result} {next : Result → Analyser Value}
    (first : SingingFor note parts action)
    (second : ∀ result, Overlooking (next result)) :
    SingingFor note parts (action >>= next) := by
  intro before isNote
  apply (first before isNote).bind
  intro result middle sings
  apply ((second result).singing middle).mono
  intro _ after later
  exact List.append_nil parts ▸ sings.trans later

end SingingFor

section NoteRest

variable {note : Handle} (decorations : Decorations)

theorem singing_analyseLyric {lyric : Node} (isLyric : lyric.is .lyric) :
    SingingFor note ((Node.lyricsAmong [lyric]).map some)
      (analyseLyric lyric (some note)) := by
  intro before isNote
  have sings := sings_analyseLyric lyric isNote
  cases isEmpty : lyric.syllables.isEmpty with
  | true =>
      rw [if_pos isEmpty] at sings
      rw [Node.lyricsAmong, List.filter_cons_of_neg (by simp [Node.isSung, isEmpty])]
      exact sings
  | false =>
      rw [if_neg (by simp [isEmpty])] at sings
      rw [Node.lyricsAmong,
        List.filter_cons_of_pos (by simp [Node.isSung, isEmpty, isLyric])]
      exact sings

/-- Among the options of a note its lyrics are sung. -/
theorem singing_noteOptions (children : List Node) :
    SingingFor note
      ((Node.lyricsAmong (children.takeWhile Node.isNoteOption)).map some)
      (noteOptions note decorations children) := by
  have outside : 0 ≤ note := Nat.zero_le note
  induction children generalizing decorations with
  | nil => exact (Singing.pure _).singingFor note
  | cons child rest induction =>
      have listed : child.isNoteOption →
          Node.lyricsAmong ((child :: rest).takeWhile Node.isNoteOption) =
            Node.lyricsAmong [child] ++
              Node.lyricsAmong (rest.takeWhile Node.isNoteOption) := by
        intro isOption
        rw [List.takeWhile_cons_of_pos isOption, Node.lyricsAmong, Node.lyricsAmong,
          Node.lyricsAmong, ← List.filter_append, List.singleton_append]
      have silent : ∀ {kind : ElementKind}, child.kind? = some kind →
          kind ≠ .lyric → Node.lyricsAmong [child] = [] := by
        intro kind isKind other
        have noLyric : ¬ child.isSung := by simp [Node.isSung, Node.is, isKind, other]
        rw [Node.lyricsAmong, List.filter_cons_of_neg noLyric]
        rfl
      rw [noteOptions]
      split
      · rename_i isKind
        rw [listed (Node.isNoteOption_of isKind rfl), silent isKind (by decide)]
        exact .after (overlooking_analyseTie child)
          (.of_quiet (quiet_analyseTie child _)) fun _ => induction _
      · rename_i isKind
        rw [listed (Node.isNoteOption_of isKind rfl), silent isKind (by decide)]
        exact .after (overlooking_analyseSlur child)
          (.of_quiet (quiet_analyseSlur child _)) fun _ => induction _
      · rename_i isKind
        rw [listed (Node.isNoteOption_of isKind rfl), silent isKind (by decide)]
        exact .after (overlooking_stemProperty note child)
          (leaving_stemProperty outside child) fun _ => induction _
      · rename_i isKind
        have isLyric : child.is .lyric := beq_iff_eq.mpr isKind
        rw [listed (Node.isNoteOption_of isKind rfl), List.map_append]
        exact (singing_analyseLyric isLyric).bind (leaving_analyseLyric child)
          fun _ _ => induction _
      · rename_i noTie noSlur noStem noLyric
        have noOption : ¬ child.isNoteOption := by
          apply Node.not_isNoteOption
          simpa [Node.noteOptionKinds] using ⟨noTie, noSlur, noStem, noLyric⟩
        rw [List.takeWhile_cons_of_neg noOption]
        exact (Singing.pure _).singingFor note

theorem singing_readOptions
    {flavor : Flavor} (isNote : flavor ≠ .rest) (children : List Node) :
    SingingFor note
      ((Node.lyricsAmong (children.takeWhile Node.isNoteOption)).map some)
      (readOptions flavor note decorations children) := by
  have read : SingingFor note
      ((Node.lyricsAmong (children.takeWhile Node.isNoteOption)).map some) (do
        let result ← noteOptions note decorations children
        noteRestOptions note result.1 result.2) :=
    (singing_noteOptions decorations children).before fun result =>
      overlooking_noteRestOptions note result.1 result.2
  cases flavor with
  | rest => exact absurd rfl isNote
  | note => exact read
  | chordNote => exact read

/-- What is read of a note after its object was added: its lyrics are sung. -/
theorem singing_noteRest_of_note
    (note : Handle) {flavor : Flavor} (isNote : flavor ≠ .rest) (node : Node)
    {valued : List Node}
    (afterLabels : valued.dropWhile Node.isLabel = node.children.dropWhile Node.isLabel)
    (base : Option Handle) (value : NoteValue) :
    SingingFor note ((node.lyrics flavor).map some) (do
      let (decorations, rest) ← abbreviations flavor {} valued
      placeInVoice note
      let (decorations, rest) ← readOptions flavor note decorations rest
      let rest ← placeInTime note base rest
      analyseEach (attachmentAnalyser? note) rest
      return (note, value, decorations)) := by
  have labelled := quiet_abbreviations (Decorations.areOf_empty flavor note) valued
  have yields := yields_abbreviations flavor {} valued
  rw [Node.lyrics, if_neg isNote, ← afterLabels]
  intro before stillNote
  have known : Ensures (abbreviations flavor {} valued) before fun result middle =>
      (before.Overlooks middle ∧ middle.draft.model.IsNote note) ∧
        result.2 = valued.dropWhile Node.isLabel :=
    ⟨⟨overlooking_abbreviations flavor {} valued before,
      (labelled before).1.draft.model ▸ stillNote⟩, (yields before).rest⟩
  apply known.bind
  rintro ⟨decorations, rest⟩ middle ⟨⟨overlooks, isNoteThere⟩, rfl⟩
  have read : SingingFor note
      ((Node.lyricsAmong ((valued.dropWhile Node.isLabel).takeWhile
        Node.isNoteOption)).map some) (do
      placeInVoice note
      let options ← readOptions flavor note decorations
        (valued.dropWhile Node.isLabel)
      let rest ← placeInTime note base options.2
      analyseEach (attachmentAnalyser? note) rest
      return (note, value, options.1)) := by
    refine .after (overlooking_placeInVoice note)
      (leaving_placeInVoice (Nat.zero_le note)) fun _ => ?_
    refine (singing_readOptions decorations isNote _).before fun result => ?_
    refine (overlooking_placeInTime note base result.2).bind fun rest => ?_
    exact (overlooking_attachments note rest).bind fun _ => overlooking_pure _
  exact (read middle isNoteThere).mono fun _ _ later =>
    (Analysis.Sings.of_overlooks overlooks).trans later

theorem singing_addNoteRest (flavor : Flavor) (node : Node) (base : Option Handle) :
    Singing ((node.lyrics flavor).map some) (addNoteRest flavor node anchor base) := by
  rw [addNoteRest]
  refine .read (overlooking_readPitch flavor node _) (yields_readPitch flavor node _) ?_
  rintro ⟨pitch, pitched⟩ isPitched
  refine .read (overlooking_readNoteValue node pitched)
    (yields_readNoteValue node pitched) ?_
  rintro ⟨value, valued⟩ isValued
  dsimp only at isPitched isValued
  by_cases isRest : flavor = .rest
  · subst isRest
    refine .after (overlooking_addObject node anchor rfl) fun handle => ?_
    refine .after (overlooking_abbreviations .rest {} valued) fun labels => ?_
    refine .after (overlooking_placeInVoice handle) fun _ => ?_
    refine .after (overlooking_noteRestOptions handle labels.1 labels.2)
      fun options => ?_
    refine .after (overlooking_placeInTime handle base options.2) fun rest => ?_
    exact .after (overlooking_attachments handle rest) fun _ => .pure _
  · have other : (noteRestContent flavor value pitch).isLandmark = false := by
      cases flavor <;> rfl
    have content : noteRestContent flavor value pitch =
        .note { noteRest := { value := value }, pitch := pitch } := by
      cases flavor with
      | rest => exact absurd rfl isRest
      | note => rfl
      | chordNote => rfl
    intro before
    have added : Ensures (addObject node anchor (noteRestContent flavor value pitch))
        before fun handle first =>
          before.Overlooks first ∧ first.draft.model.IsNote handle := by
      refine ⟨overlooking_addObject node anchor other before, ?_⟩
      have isNew := before.draft.addObject_fst node.id? node.location anchor
        (noteRestContent flavor value pitch)
      show ((before.draft.addObject node.id? node.location anchor
        (noteRestContent flavor value pitch)).2.model.note? (before.draft.addObject
          node.id? node.location anchor (noteRestContent flavor value pitch)).1).isSome
      rw [isNew, Model.note?, Draft.content?_addObject_eq, if_pos rfl, content]
      rfl
    apply added.bind
    rintro handle first ⟨toFirst, isNote⟩
    have labels := labels_of_read ⟨handle, flavor, node⟩ isPitched isValued
    have read := singing_noteRest_of_note handle isRest node labels.2 base value
    exact (read first isNote).mono fun _ _ later =>
      (Analysis.Sings.of_overlooks toFirst).trans later

theorem singing_analyseNoteRest (flavor : Flavor) (node : Node) :
    Singing ((node.lyrics flavor).map some) (analyseNoteRest flavor node anchor) := by
  rw [analyseNoteRest]
  refine .after overlooking_context fun context => ?_
  refine (singing_addNoteRest flavor node _).before fun result => ?_
  exact (overlooking_settleNoteRest result.1 result.2.2 flavor node _ result.2.1).bind
    fun _ => overlooking_pure _

end NoteRest

/-! ## Music data -/

theorem singing_chordNotes (children : List Node) :
    Singing (((children.filter fun child => child.is .note).map
      (Cue.play .chordNote)).flatMap Cue.parts) (chordNotes anchor children) := by
  induction children with
  | nil => exact .pure ()
  | cons child rest induction =>
      rw [chordNotes]
      split
      · rename_i isNote
        rw [List.filter_cons, if_pos isNote, List.map_cons, List.flatMap_cons]
        exact (singing_analyseNoteRest .chordNote child).bind fun _ => induction
      · rename_i noNote
        rw [List.filter_cons, if_neg noNote]
        exact .after (overlooking_reportMisplaced child) fun _ => induction

theorem singing_chordChildren (children : List Node) :
    Singing ((Node.chordCues children).flatMap Cue.parts)
      (chordChildren anchor children) := by
  induction children with
  | nil => exact .pure none
  | cons child rest induction =>
      rw [chordChildren]
      split
      · rename_i isNote
        rw [Node.chordCues, List.filter_cons, if_pos isNote, List.flatMap_cons]
        refine (singing_analyseNoteRest .note child).bind fun base => ?_
        exact (singing_chordNotes rest).before fun _ => overlooking_pure _
      · rename_i noNote
        rw [Node.chordCues, List.filter_cons, if_neg noNote]
        exact .after (overlooking_reportMisplaced child) fun _ => induction

theorem singing_analyseChord (node : Node) :
    Singing ((Node.chordCues node.children).flatMap Cue.parts)
      (analyseChord node anchor) := by
  rw [analyseChord]
  refine (singing_chordChildren node.children).before fun base => ?_
  exact overlooking_model.bind fun _ => overlooking_pure _

/-- Whatever stands in music data sings its lyrics. -/
theorem singing_staffObject
    {kind : ElementKind} {analyser : Node → Analyser (Option Handle)}
    (known : staffObjectAnalyser? anchor kind = some analyser) {node : Node}
    (isKind : node.kind? = some kind) :
    Singing (node.staffCues.flatMap Cue.parts) (analyser node) := by
  have played : ∀ flavor, Singing ([Cue.play flavor node].flatMap Cue.parts)
      (some <$> analyseNoteRest flavor node anchor) := by
    intro flavor
    rw [List.flatMap_singleton]
    exact (singing_analyseNoteRest flavor node).map some
  rw [Node.staffCues, isKind]
  cases kind <;> cases known
  case note => exact played .note
  case chordNote => exact played .chordNote
  case rest => exact played .rest
  case chord => exact singing_analyseChord node
  case clef => exact (overlooking_analyseClef node).singing.map some
  case key => exact (overlooking_analyseKey node).singing.map some
  case time => exact (overlooking_analyseTime node).singing.map some
  case barline => exact (overlooking_analyseBarline node).singing.map some
  case goBack => exact (overlooking_analyseShift false node).singing
  case goForward => exact (overlooking_analyseShift true node).singing
  case spacer => exact (overlooking_analyseSpacer node).singing
  case newSystem => exact (overlooking_analyseNewSystem node).singing.map some
  case metronome => exact (overlooking_analyseMetronome node).singing.map some
  case text => exact (overlooking_analyseText node).singing

theorem singing_analyseMusicData (node : Node) :
    Singing (node.musicCues.flatMap Cue.parts) (analyseMusicData node anchor) := by
  rw [analyseMusicData, Node.musicCues, List.flatMap_assoc]
  refine .after (overlooking_addObject node anchor rfl) fun handle => ?_
  refine .before (.analyseEach (fun child analyser known => ?_)
    (fun child unknown => ?_) node.children) fun _ => overlooking_pure handle
  · obtain ⟨kind, isKind, mapped⟩ := Option.bind_eq_some_iff.mp known
    obtain ⟨given, isKnown, rfl⟩ := Option.map_eq_some_iff.mp mapped
    exact (singing_staffObject isKnown isKind).discard
  · have noCues : child.staffCues = [] := by
      refine staffCues_eq_nil (some handle) fun kind isKind => ?_
      rw [isKind, Option.bind_some, Option.map_eq_none_iff] at unknown
      exact unknown
    rw [noCues]
    rfl

/-! ## Instruments -/

/-- An instrument starts a part of the song, and nothing is remembered. -/
theorem sings_startInstrument
    {before after : Analysis} {draft : Draft} {node : Node}
    {name abbreviation : Option String} {staves : Nat}
    (overlooks : before.draft.Overlooks draft)
    (added : after.draft = (draft.addObject node.id? node.location anchor
      (.instrument name abbreviation staves)).2)
    (forgotten : after.context.lyricPlacements = []) :
    before.Sings [none] after ∧ before.Starts draft.model.size after := by
  have part? := Analysis.part?_of_added overlooks added
  refine ⟨.of_added overlooks added rfl rfl (fun _ => rfl) (fun _ => rfl)
    fun _ line => ?_, ?_, fun handle isStart => ?_⟩
  · rw [Context.lyricPlacement, forgotten]
    rfl
  · rw [part?, if_pos rfl]
    rfl
  · rw [part?] at isStart
    split at isStart
    · exact Or.inl ‹_›
    · exact Or.inr isStart

/-- What an instrument says of itself does not matter to the song. -/
theorem sings_replaceInstrument
    {instrument : Handle} {before : Analysis}
    (isStart : before.draft.model.part? instrument = some none)
    (name abbreviation : Option String) (staves : Nat) :
    Ensures (modifyModel fun model => model.modifyContent instrument fun _ =>
        .instrument name abbreviation staves) before
      fun _ after => before.Sings [] after := by
  obtain ⟨old, isOld, isInstrument⟩ := Model.part?_eq_some_iff.mp isStart
  let changed := before.draft.model.modifyContent instrument fun _ =>
    .instrument name abbreviation staves
  have content? : ∀ handle, changed.content? handle =
      if handle = instrument then some (.instrument name abbreviation staves)
      else before.draft.model.content? handle := by
    intro handle
    rw [Model.content?_modifyContent]
    split
    · rename_i same
      rw [same, isOld]
      rfl
    · rw [Option.map_id']
  have parts : changed.part? = before.draft.model.part? := by
    funext handle
    rw [Model.part?_eq_bind, content?, Model.part?_eq_bind]
    split
    · rename_i same
      rw [same, isOld]
      exact isInstrument.symm
    · rfl
  have headings : changed.heading? = before.draft.model.heading? := by
    have noHeading : (some old).filter Content.isHeading = none := by
      cases old <;> first | rfl | cases isInstrument
    funext handle
    rw [Model.heading?_eq_filter, content?, Model.heading?_eq_filter]
    split
    · rename_i same
      rw [same, isOld]
      exact noHeading.symm
    · rfl
  have song := Model.song_congr parts
  exact ⟨Nat.le_of_eq (Model.size_modifyContent ..).symm,
    fun handle _ => congrFun parts handle,
    fun handle isStart => Or.inl (parts ▸ isStart), fun _ => song,
    fun remembers line => song ▸ remembers line, headings, rfl⟩

/-- The head of an instrument is read, and the rest of its children are left. -/
theorem sings_instrumentHead
    {instrument : Handle} {before : Analysis}
    (isStart : before.draft.model.part? instrument = some none) (node : Node) :
    Ensures (instrumentHead instrument node.children) before fun rest after =>
      before.Sings [] after ∧ rest = node.afterStaves := by
  suffices sung : Ensures (instrumentHead instrument node.children) before
      fun _ after => before.Sings [] after from
    ⟨sung, yields_instrumentHead instrument node before⟩
  rw [instrumentHead]
  apply Ensures.bind (overlooking_optionalText .instrumentName instrument _ before)
  rintro ⟨name, rest⟩ first toFirst
  apply Ensures.bind (overlooking_optionalText .abbreviation instrument rest first)
  rintro ⟨abbreviation, rest⟩ second toSecond
  apply Ensures.bind (Overlooking.optional overlooking_analyseStaves
    (take? .staves rest).1 second)
  intro _ third toThird
  have overlooks := toFirst.trans (toSecond.trans toThird)
  refine Ensures.readContext ?_
  apply Ensures.bind (sings_replaceInstrument (overlooks.draft.part? ▸ isStart) name
    abbreviation third.context.staves)
  intro _ last sings
  exact (Analysis.Sings.of_overlooks overlooks).trans sings

/-- An instrument starts, and the lyrics of its music are sung. -/
theorem sings_analyseInstrument (node : Node) (before : Analysis) :
    Ensures (analyseInstrument node anchor) before fun instrument after =>
      before.Sings (node.instrumentCues.flatMap Cue.parts) after ∧
        before.Starts instrument after := by
  rw [analyseInstrument, Node.instrumentCues, List.flatMap_cons]
  apply (overlooking_clearPending before).bind
  intro _ first toFirst
  have started : Ensures (modifyContext Context.startInstrument) first
      fun _ second => second.draft = first.draft ∧
        second.context = first.context.startInstrument := ⟨rfl, rfl⟩
  apply started.bind
  rintro _ second ⟨sameDraft, isStarted⟩
  have added : Ensures (addObject node anchor (.instrument none none 1)) second
      fun instrument third => before.Sings [none] third ∧
        before.Starts instrument third := by
    have isNew : ((addObject node anchor (.instrument none none 1)).run second).run.1 =
        second.draft.model.size :=
      second.draft.addObject_fst _ _ anchor (.instrument none none 1)
    have overlooks : before.draft.Overlooks second.draft := sameDraft ▸ toFirst.draft
    have forgotten := congrArg Context.lyricPlacements isStarted
    rw [Ensures, isNew]
    exact sings_startInstrument overlooks rfl forgotten
  apply added.bind
  rintro instrument third ⟨toThird, starts⟩
  apply (sings_instrumentHead starts.isStart node).bind
  rintro _ fourth ⟨toFourth, rfl⟩
  -- The music data is the only child in which anything is sung.
  have music : Singing (((take? .musicData node.afterStaves).1.toList.flatMap
      Node.musicCues).flatMap Cue.parts) (do
        let taken ← mandatory node .musicData node.afterStaves
        analyseOptional (fun music =>
          Functor.discard (analyseMusicData music (some instrument))) taken.1
        reportExtra node taken.2
        return instrument) := by
    rw [List.flatMap_assoc]
    refine .read (overlooking_mandatory _ _ _) (yields_mandatory _ _ _) ?_
    rintro _ rfl
    refine .before (.optional (fun music => ?_) _) fun _ => ?_
    · exact (singing_analyseMusicData music).discard
    · exact (overlooking_reportExtra _ _).bind fun _ => overlooking_pure _
  have same : Yields (do
        let taken ← mandatory node .musicData node.afterStaves
        analyseOptional (fun music =>
          Functor.discard (analyseMusicData music (some instrument))) taken.1
        reportExtra node taken.2
        return instrument) fun value => value = instrument :=
    .after fun _ => .after fun _ => .after fun _ => .pure rfl
  have played : Ensures _ fourth fun value after => fourth.Sings _ after ∧
      value = instrument := ⟨music fourth, same fourth⟩
  apply Ensures.mono played
  rintro _ last ⟨toLast, rfl⟩
  have noStart : none ∉ [] ++ ((take? .musicData node.afterStaves).1.toList.flatMap
      Node.musicCues).flatMap Cue.parts := by
    rw [List.nil_append, List.flatMap_assoc, List.mem_flatMap]
    rintro ⟨music, _, isPart⟩
    exact Node.none_notMem_musicCues music isPart
  exact ⟨toThird.trans (toFourth.trans toLast),
    starts.sings (toFourth.trans toLast) noStart⟩

end Analyser

end LdpScore
