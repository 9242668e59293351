import LdpScore.Proofs.Relation.Adding

/-!
# Ties and the notes that know them

A tie has a start and an end, and both are told of it.  `Model.Ties` relates the
models before and after a tie is made; `Model.TiesSound` is what holds of ties in
every model of the analysis: whoever knows a tie is one of its ends, on the right
side, and the ends sound the same.
-/

namespace LdpScore

namespace Model

/-- A tie leads from a note to another one. -/
def IsTie (model : Model) (tie start finish : Handle) : Prop :=
  ∃ number color atStart atFinish, model.content? tie = some
    (.tie number color [(start, .tie true atStart), (finish, .tie false atFinish)])

theorem IsTie.lt_size
    {model : Model} {tie start finish : Handle}
    (isTie : model.IsTie tie start finish) :
    tie < model.size := by
  obtain ⟨_, _, _, _, found⟩ := isTie
  exact lt_size_of_content? found

/-- A tie is known by its name and its members. -/
theorem IsTie.of_members?
    {model : Model} {tie start finish : Handle} {content : Content}
    {atStart atFinish : Option Bezier}
    (found : model.content? tie = some content) (named : content.name = "tie")
    (members : content.members? =
      some [(start, .tie true atStart), (finish, .tie false atFinish)]) :
    model.IsTie tie start finish := by
  cases content <;> simp [Content.name] at named
  cases members
  exact ⟨_, _, _, _, found⟩

/-- A tie has one start and one end. -/
theorem IsTie.unique
    {model : Model} {tie start finish otherStart otherFinish : Handle}
    (isTie : model.IsTie tie start finish)
    (isTieToo : model.IsTie tie otherStart otherFinish) :
    start = otherStart ∧ finish = otherFinish := by
  obtain ⟨_, _, _, _, found⟩ := isTie
  obtain ⟨_, _, _, _, foundToo⟩ := isTieToo
  rw [found] at foundToo
  cases foundToo
  exact ⟨rfl, rfl⟩

theorem Omits.isTie_iff
    {before after : Model} (omits : Omits "tie" before after)
    (tie start finish : Handle) :
    after.IsTie tie start finish ↔ before.IsTie tie start finish := by
  constructor <;> rintro ⟨number, color, atStart, atFinish, found⟩
  · exact ⟨number, color, atStart, atFinish, (omits.same tie _ rfl).mp found⟩
  · exact ⟨number, color, atStart, atFinish, (omits.same tie _ rfl).mpr found⟩

/-- The tie that the note at a handle takes for the next one. -/
def tieNext? (model : Model) (handle : Handle) : Option Handle :=
  (model.note? handle).bind Note.tieNext

/-- The tie that the note at a handle takes for the one before. -/
def tiePrevious? (model : Model) (handle : Handle) : Option Handle :=
  (model.note? handle).bind Note.tiePrevious

theorem tieNext?_eq_bind (model : Model) (handle : Handle) :
    model.tieNext? handle = (model.tune? handle).bind Tune.tieNext := by
  rw [tune?_eq_bind, Option.bind_map]
  rfl

theorem tiePrevious?_eq_bind (model : Model) (handle : Handle) :
    model.tiePrevious? handle = (model.tune? handle).bind Tune.tiePrevious := by
  rw [tune?_eq_bind, Option.bind_map]
  rfl

/-- Two notes have the same voice, staff and pitch. -/
def Match (model : Model) (first second : Handle) : Prop :=
  ∃ tune other, model.tune? first = some tune ∧ model.tune? second = some other ∧
    tune.Matches other

theorem KeepsTunes.keepsMatch
    {before after : Model} (keeps : KeepsTunes before after)
    {first second : Handle} (matched : before.Match first second) :
    after.Match first second := by
  obtain ⟨tune, other, isFirst, isSecond, same⟩ := matched
  exact ⟨tune, other, keeps.tune? isFirst, keeps.tune? isSecond, same⟩

/-- What new notes lack stays as it is for all notes. -/
theorem KeepsTunes.bind_eq
    {before after : Model} (keeps : KeepsTunes before after)
    {part : Tune → Option Handle} {handle : Handle}
    (lacks : ∀ tune, before.size ≤ handle → after.tune? handle = some tune →
      part tune = none) :
    (after.tune? handle).bind part = (before.tune? handle).bind part := by
  by_cases inside : handle < before.size
  · rw [keeps.old handle inside]
  · have noTune : before.tune? handle = none := by
      rw [Option.eq_none_iff_forall_ne_some]
      exact fun tune tuned => inside (lt_size_of_tune? tuned)
    rw [noTune]
    cases isTune : after.tune? handle with
    | none => rfl
    | some tune => exact lacks tune (Nat.not_lt.mp inside) isTune

theorem KeepsTunes.tieNext?
    {before after : Model} (keeps : KeepsTunes before after) (handle : Handle) :
    after.tieNext? handle = before.tieNext? handle := by
  rw [tieNext?_eq_bind, tieNext?_eq_bind]
  exact keeps.bind_eq fun tune outside tuned =>
    (keeps.new handle tune outside tuned).1

theorem KeepsTunes.tiePrevious?
    {before after : Model} (keeps : KeepsTunes before after) (handle : Handle) :
    after.tiePrevious? handle = before.tiePrevious? handle := by
  rw [tiePrevious?_eq_bind, tiePrevious?_eq_bind]
  exact keeps.bind_eq fun tune outside tuned =>
    (keeps.new handle tune outside tuned).2

/-- Notes that can be tied sound the same. -/
theorem match_of_canTie
    {model : Model} {first second : Handle}
    (canTie : Tie.canTie model first second) :
    model.Match first second := by
  rw [Tie.canTie] at canTie
  split at canTie
  · rename_i note other isNote isOther
    refine ⟨note.tune, other.tune, ?_, ?_, ?_⟩
    · rw [tune?_eq_bind, isNote, Option.map_some]
    · rw [tune?_eq_bind, isOther, Option.map_some]
    · simp only [Tie.compatible, Bool.and_eq_true, beq_iff_eq] at canTie
      exact ⟨canTie.1.1, canTie.1.2, canTie.2⟩
  · cases canTie

/-! ## Making a tie -/

end Model

/-- A tune when a tie has been made: its ends are told of it. -/
def Tune.tell (tie start finish note : Handle) (tune : Tune) : Tune :=
  { tune with
    tieNext := if note = start then some tie else tune.tieNext
    tiePrevious := if note = finish then some tie else tune.tiePrevious }

theorem Tune.Matches.tell
    {first second : Tune} (matched : first.Matches second)
    (tie start finish note other : Handle) :
    (first.tell tie start finish note).Matches
      (second.tell tie start finish other) :=
  ⟨matched.voice, matched.staff, matched.pitch⟩

namespace Content

theorem tune?_effectOn_tie
    (number : Int) (color : Option Color) (start finish : Handle)
    (atStart atFinish : Role) (tie note : Handle) (old : Content) :
    ((Content.tie number color [(start, atStart), (finish, atFinish)]).effectOn
        tie note old).tune? =
      old.tune?.map (Tune.tell tie start finish note) := by
  cases old <;> rfl

end Content

namespace Model

/-- A tie from one note to another one is made, and its ends are told of it. -/
structure Ties (start finish : Handle) (before after : Model) : Prop where
  size : after.size = before.size + 1
  startIs : before.IsNote start
  finishIs : before.IsNote finish
  made : after.IsTie before.size start finish
  old : ∀ handle content, content.name = "tie" → handle ≠ before.size →
    (after.content? handle = some content ↔
      before.content? handle = some content)
  tune? : ∀ note, after.tune? note =
    (before.tune? note).map (Tune.tell before.size start finish note)

namespace Ties

variable {start finish : Handle} {before after : Model}

theorem isTie_iff
    (ties : Ties start finish before after) (tie first last : Handle) :
    after.IsTie tie first last ↔ before.IsTie tie first last ∨
      (tie = before.size ∧ first = start ∧ last = finish) := by
  constructor
  · intro isTie
    by_cases isNew : tie = before.size
    · subst isNew
      exact Or.inr ⟨rfl, isTie.unique ties.made⟩
    · obtain ⟨number, color, atStart, atFinish, found⟩ := isTie
      exact Or.inl ⟨number, color, atStart, atFinish,
        (ties.old tie _ rfl isNew).mp found⟩
  · rintro (isTie | ⟨rfl, rfl, rfl⟩)
    · obtain ⟨number, color, atStart, atFinish, found⟩ := isTie
      have isOld : tie ≠ before.size :=
        Nat.ne_of_lt (lt_size_of_content? found)
      exact ⟨number, color, atStart, atFinish,
        (ties.old tie _ rfl isOld).mpr found⟩
    · exact ties.made

/-- The start of a new tie takes it for the next one. -/
theorem tieNext?
    (ties : Ties start finish before after) (note : Handle) :
    after.tieNext? note =
      if note = start then some before.size else before.tieNext? note := by
  rw [tieNext?_eq_bind, ties.tune?, Option.bind_map]
  split
  · rename_i isStart
    obtain ⟨tune, tuned⟩ := ties.startIs.exists_tune?
    rw [isStart, tuned, Option.bind_some]
    exact if_pos rfl
  · rename_i other
    rw [tieNext?_eq_bind]
    congr 1
    funext tune
    exact if_neg other

/-- The end of a new tie takes it for the one before. -/
theorem tiePrevious?
    (ties : Ties start finish before after) (note : Handle) :
    after.tiePrevious? note =
      if note = finish then some before.size else before.tiePrevious? note := by
  rw [tiePrevious?_eq_bind, ties.tune?, Option.bind_map]
  split
  · rename_i isFinish
    obtain ⟨tune, tuned⟩ := ties.finishIs.exists_tune?
    rw [isFinish, tuned, Option.bind_some]
    exact if_pos rfl
  · rename_i other
    rw [tiePrevious?_eq_bind]
    congr 1
    funext tune
    exact if_neg other

theorem keepsMatch
    (ties : Ties start finish before after) {first second : Handle}
    (matched : before.Match first second) :
    after.Match first second := by
  obtain ⟨tune, other, isFirst, isSecond, same⟩ := matched
  exact ⟨_, _, by rw [ties.tune?, isFirst]; rfl,
    by rw [ties.tune?, isSecond]; rfl, same.tell ..⟩

end Ties

end Model

/-- A link between two notes makes a tie. -/
theorem Tie.ties_link
    (start finish : End) {draft : Draft}
    (canTie : canTie draft.model start.note finish.note)
    (number : Option Int) (color : Option Color) :
    draft.model.Ties start.note finish.note
      (link start finish number color draft).model := by
  obtain ⟨tune, other, isFirst, isSecond, _⟩ := Model.match_of_canTie canTie
  have startsAt := Model.lt_size_of_tune? isFirst
  have endsAt := Model.lt_size_of_tune? isSecond
  obtain ⟨tieNumber, _, created⟩ := creates_link startsAt endsAt number color
  refine ⟨created.size, Model.isNote_of_tune? isFirst,
    Model.isNote_of_tune? isSecond,
    ⟨tieNumber, color, start.bezier, finish.bezier, ?_⟩,
    fun handle content named isOld => ?_, fun note => ?_⟩
  · rw [created.content?, if_pos rfl]
  · have isRelation : content.members?.isSome :=
      (Content.members?_isSome_iff content).mpr (by simp [named])
    constructor
    · intro found
      exact (created.relation_cases found isRelation).resolve_left
        fun isNew => isOld isNew.1
    · intro found
      rw [created.content?, if_neg isOld, found, Option.map_some,
        Content.effectOn_of_members? isRelation]
  · rw [Model.tune?, created.content?]
    split
    · rename_i isNew
      have noTune : draft.model.tune? note = none := by
        rw [Option.eq_none_iff_forall_ne_some]
        intro tune tuned
        exact absurd (Model.lt_size_of_tune? tuned)
          (isNew ▸ Nat.lt_irrefl draft.model.size)
      rw [noTune]
      rfl
    · rw [Option.bind_map, Model.tune?, Option.map_bind]
      congr 1
      funext old
      exact Content.tune?_effectOn_tie ..

namespace Model

/-! ## Sound ties -/

/-- Ties have a start and an end that sound the same and are in order, and whoever
knows a tie is its start or its end. -/
structure TiesSound (model : Model) : Prop where
  shape : ∀ tie content, model.content? tie = some content →
    content.name = "tie" → ∃ start finish, model.IsTie tie start finish
  ordered : ∀ tie start finish, model.IsTie tie start finish → start < finish
  matched : ∀ tie start finish, model.IsTie tie start finish →
    model.Match start finish
  next : ∀ note tie, model.tieNext? note = some tie →
    ∃ finish, model.IsTie tie note finish
  previous : ∀ note tie, model.tiePrevious? note = some tie →
    ∃ start, model.IsTie tie start note

namespace TiesSound

variable {before after : Model}

theorem of_omits
    (sound : before.TiesSound) (omits : Omits "tie" before after)
    (keeps : KeepsTunes before after) :
    after.TiesSound := by
  constructor
  · intro tie content found named
    obtain ⟨start, finish, isTie⟩ := sound.shape tie content
      ((omits.same tie content named).mp found) named
    exact ⟨start, finish, (omits.isTie_iff ..).mpr isTie⟩
  · exact fun tie start finish isTie =>
      sound.ordered tie start finish ((omits.isTie_iff ..).mp isTie)
  · exact fun tie start finish isTie =>
      keeps.keepsMatch (sound.matched tie start finish ((omits.isTie_iff ..).mp isTie))
  · intro note tie known
    rw [keeps.tieNext?] at known
    obtain ⟨finish, isTie⟩ := sound.next note tie known
    exact ⟨finish, (omits.isTie_iff ..).mpr isTie⟩
  · intro note tie known
    rw [keeps.tiePrevious?] at known
    obtain ⟨start, isTie⟩ := sound.previous note tie known
    exact ⟨start, (omits.isTie_iff ..).mpr isTie⟩

/-- One more tie is made between notes that sound the same. -/
theorem tie
    {start finish : Handle} (sound : before.TiesSound)
    (ties : Ties start finish before after) (ordered : start < finish)
    (matched : before.Match start finish) :
    after.TiesSound := by
  have isTie := ties.isTie_iff
  have made := ties.made
  constructor
  · intro tie content found named
    by_cases isNew : tie = before.size
    · exact ⟨start, finish, isNew ▸ made⟩
    · obtain ⟨first, last, isOld⟩ := sound.shape tie content
        ((ties.old tie content named isNew).mp found) named
      exact ⟨first, last, (isTie ..).mpr (Or.inl isOld)⟩
  · intro tie first last known
    rcases (isTie ..).mp known with old | ⟨_, rfl, rfl⟩
    · exact sound.ordered tie first last old
    · exact ordered
  · intro tie first last known
    rcases (isTie ..).mp known with old | ⟨_, rfl, rfl⟩
    · exact ties.keepsMatch (sound.matched tie first last old)
    · exact ties.keepsMatch matched
  · intro note tie known
    rw [ties.tieNext?] at known
    split at known
    · rename_i isStart
      cases known
      exact ⟨finish, isStart ▸ made⟩
    · obtain ⟨last, isOld⟩ := sound.next note tie known
      exact ⟨last, (isTie ..).mpr (Or.inl isOld)⟩
  · intro note tie known
    rw [ties.tiePrevious?] at known
    split at known
    · rename_i isFinish
      cases known
      exact ⟨start, isFinish ▸ made⟩
    · obtain ⟨first, isOld⟩ := sound.previous note tie known
      exact ⟨first, (isTie ..).mpr (Or.inl isOld)⟩

end TiesSound

/-! ## Ties that are known -/

/-- The ends of a tie know it or a later one. -/
structure TellsTies (model : Model) : Prop where
  next : ∀ tie start finish, model.IsTie tie start finish →
    ∃ known, model.tieNext? start = some known ∧ tie ≤ known
  previous : ∀ tie start finish, model.IsTie tie start finish →
    ∃ known, model.tiePrevious? finish = some known ∧ tie ≤ known

namespace TellsTies

variable {before after : Model}

theorem of_omits
    (tells : before.TellsTies) (omits : Omits "tie" before after)
    (keeps : KeepsTunes before after) :
    after.TellsTies := by
  constructor
  · intro tie start finish isTie
    rw [keeps.tieNext?]
    exact tells.next tie start finish ((omits.isTie_iff ..).mp isTie)
  · intro tie start finish isTie
    rw [keeps.tiePrevious?]
    exact tells.previous tie start finish ((omits.isTie_iff ..).mp isTie)

/-- A new tie is the latest one of its ends. -/
theorem tie
    {start finish : Handle} (tells : before.TellsTies)
    (ties : Ties start finish before after) :
    after.TellsTies := by
  constructor
  · intro tie first last isTie
    rw [ties.tieNext?]
    rcases (ties.isTie_iff ..).mp isTie with old | ⟨rfl, rfl, _⟩
    · split
      · exact ⟨before.size, rfl, Nat.le_of_lt old.lt_size⟩
      · exact tells.next tie first last old
    · exact ⟨before.size, if_pos rfl, Nat.le_refl _⟩
  · intro tie first last isTie
    rw [ties.tiePrevious?]
    rcases (ties.isTie_iff ..).mp isTie with old | ⟨rfl, _, rfl⟩
    · split
      · exact ⟨before.size, rfl, Nat.le_of_lt old.lt_size⟩
      · exact tells.previous tie first last old
    · exact ⟨before.size, if_pos rfl, Nat.le_refl _⟩

end TellsTies

end Model

end LdpScore
