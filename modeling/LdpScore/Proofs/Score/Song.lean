import LdpScore.Analysis.Mark
import LdpScore.Proofs.Score.Landmark
import Mathlib.Data.List.Basic

/-!
# The song of a score

The lyrics of a score make up its song, in the order in which they were added, and
where an instrument starts so does another part of the song.  A lyric whose element
gives no placement stands where the last one of its line does, unless an instrument
has started since.
-/

namespace LdpScore

/-! ## The elements of lyrics -/

namespace Node

open Analyser (take? leadingStrings)

/-- The line of a lyric: the first one, unless another one is given. -/
def lyricLine (lyric : Node) : Int :=
  match (take? .number lyric.children).1 with
  | some number => (Decimal.leadingInteger? number.text.toList).getD 1
  | none => 1

/-- What stands after the line of a lyric. -/
def afterLine (lyric : Node) : List Node :=
  (take? .number lyric.children).2

/-- The syllables that a lyric begins with, after its line. -/
def syllables (lyric : Node) : List String :=
  (leadingStrings lyric.afterLine).1

/-- The placement that a label names. -/
def placement? (label : Node) : Option Placement :=
  if label.text = "above" then some .above
  else if label.text = "below" then some .below
  else none

/-- The placement that the element of a lyric gives, if it gives one: the label after
the syllables if it names one, or else another label, before which there may be a
melisma.  If that one names no placement it means below. -/
def givenPlacement? (lyric : Node) : Option Placement :=
  let (first, rest) := take? .label (leadingStrings lyric.afterLine).2
  let second := (take? .label (take? .melisma rest).2).1
  (first.bind placement?).or (second.map fun label => label.placement?.getD .below)

/-- Whether a node is the element of a lyric that has syllables. -/
def isSung (node : Node) : Bool :=
  node.is .lyric && !node.syllables.isEmpty

end Node

/-! ## Songs -/

/-- A lyric as part of a song. -/
structure Verse where
  line : Int
  syllables : List String
  placement : Placement
deriving DecidableEq, Repr

/-- The verses of a song in order, and `none` wherever an instrument starts. -/
abbrev Song := List (Option Verse)

namespace Song

/-- What is remembered of a line after one more part. -/
def hear (line : Int) (placement : Placement) : Option Verse → Placement
  | none => .below
  | some verse => if verse.line = line then verse.placement else placement

/-- Where the lyrics of a line are placed after a song: where the last one stands
since an instrument started, and below if there is none. -/
def memory (song : Song) (line : Int) : Placement :=
  song.foldl (hear line) .below

@[simp]
theorem memory_nil (line : Int) : memory [] line = .below :=
  rfl

theorem memory_concat (song : Song) (part : Option Verse) (line : Int) :
    memory (song ++ [part]) line = hear line (song.memory line) part := by
  rw [memory, List.foldl_append]
  rfl

/-- The element of a lyric as the next verse of a song. -/
def verse (song : Song) (lyric : Node) : Verse where
  line := lyric.lyricLine
  syllables := lyric.syllables
  placement := lyric.givenPlacement?.getD (song.memory lyric.lyricLine)

/-- A song with one more part: the element of a lyric, or the start of an
instrument. -/
def extend (song : Song) (part : Option Node) : Song :=
  song ++ [part.map song.verse]

/-- A song with more parts. -/
def sing (song : Song) (parts : List (Option Node)) : Song :=
  parts.foldl extend song

theorem sing_append (song : Song) (parts more : List (Option Node)) :
    song.sing (parts ++ more) = (song.sing parts).sing more :=
  List.foldl_append

theorem sing_concat (song : Song) (parts : List (Option Node)) (part : Option Node) :
    song.sing (parts ++ [part]) =
      song.sing parts ++ [part.map (song.sing parts).verse] :=
  sing_append song parts [part]

end Song

namespace Content

/-- What an object adds to the song: a lyric, or the start of an instrument. -/
def part? : Content → Option (Option Verse)
  | instrument _ _ _ => some none
  | lyric line syllables _ _ placement _ => some (some ⟨line, syllables, placement⟩)
  | _ => none

theorem isLandmark_of_part?
    {content : Content} {part : Option Verse} (isPart : content.part? = some part) :
    content.isLandmark := by
  cases content <;> first | rfl | cases isPart

end Content

namespace Model

/-- What the object at a handle adds to the song. -/
def part? (model : Model) (handle : Handle) : Option (Option Verse) :=
  (model.landmark? handle).bind Content.part?

/-- The song of a score, with its verses in the order of creation. -/
def song (model : Model) : Song :=
  model.handles.filterMap model.part?

theorem part?_eq_bind (model : Model) (handle : Handle) :
    model.part? handle = (model.content? handle).bind Content.part? := by
  rw [part?, landmark?]
  cases model.content? handle with
  | none => rfl
  | some content =>
      cases isPart : content.part? with
      | none =>
          rw [Option.bind_some, isPart, Option.filter_some]
          split
          · exact isPart
          · rfl
      | some part =>
          rw [Option.filter_some, if_pos (Content.isLandmark_of_part? isPart)]

theorem part?_eq_some_iff
    {model : Model} {handle : Handle} {part : Option Verse} :
    model.part? handle = some part ↔
      ∃ content, model.content? handle = some content ∧
        content.part? = some part := by
  rw [part?_eq_bind, Option.bind_eq_some_iff]

theorem part?_of_size_le
    {model : Model} {handle : Handle} (outside : model.size ≤ handle) :
    model.part? handle = none := by
  rw [part?, landmark?_of_size_le outside]
  rfl

theorem lt_size_of_part?
    {model : Model} {handle : Handle} {part : Option Verse}
    (isPart : model.part? handle = some part) :
    handle < model.size := by
  rw [← Nat.not_le]
  intro outside
  rw [part?_of_size_le outside] at isPart
  cases isPart

/-- Beyond the objects nothing is sung. -/
theorem filterMap_part?_range
    {model : Model} {bound : Nat} (beyond : model.size ≤ bound) :
    (List.range bound).filterMap model.part? = model.song := by
  obtain ⟨more, rfl⟩ := Nat.exists_eq_add_of_le beyond
  rw [List.range_add, List.filterMap_append, List.filterMap_map]
  have nothing : (List.range more).filterMap
      (model.part? ∘ fun handle => model.size + handle) = [] := by
    rw [List.filterMap_eq_nil_iff]
    exact fun handle _ => part?_of_size_le (Nat.le_add_right ..)
  rw [nothing, List.append_nil]
  rfl

variable {before after : Model}

/-- The song depends on its parts only. -/
theorem song_congr (same : after.part? = before.part?) : after.song = before.song := by
  rw [← filterMap_part?_range (Nat.le_max_left before.size after.size), ← same,
    filterMap_part?_range (Nat.le_max_right before.size after.size)]

/-- One more object adds its part, if it has one. -/
theorem song_concat
    {bound : Nat} (beyond : before.size ≤ bound) (size : after.size = bound + 1)
    {part : Option Verse} (parts : ∀ handle, after.part? handle =
      if handle = bound then some part else before.part? handle) :
    after.song = before.song ++ [part] := by
  rw [song, handles, size, List.range_succ, List.filterMap_append,
    ← filterMap_part?_range beyond]
  congr 1
  · refine List.filterMap_congr fun handle listed => ?_
    rw [parts, if_neg (Nat.ne_of_lt (List.mem_range.mp listed))]
  · rw [List.filterMap_cons, parts, if_pos rfl]
    rfl

end Model

theorem Draft.Overlooks.part? {before after : Draft} (overlooks : before.Overlooks after) :
    after.model.part? = before.model.part? := by
  funext handle
  rw [Model.part?, Model.part?, overlooks.landmark?]

theorem Draft.part?_addObject
    (draft : Draft) (wanted : Option Int) (location : Location)
    (anchor : Option Handle) (content : Content) (handle : Handle) :
    (draft.addObject wanted location anchor content).2.model.part? handle =
      if handle = draft.model.size then content.part?
      else draft.model.part? handle := by
  rw [Model.part?_eq_bind, content?_addObject_eq]
  split
  · rfl
  · exact (Model.part?_eq_bind ..).symm

end LdpScore
