import LdpScore.Proofs.Analysis.Parts
import LdpScore.Proofs.Analysis.Version

/-!
# What an element asks about tuplets

A legacy label stops the tuplet that was opened last, and an option stops the tuplet
whose number it gives.  Whatever else an element of a note or rest says, and wherever
the label or the option stands in it, it is all that the element asks about tuplets,
and it changes nothing else.
-/

namespace LdpScore

open Analyser

/-- A descriptor on a note or rest stops the tuplet with a number. -/
structure TupletPoint.Stops
    (point : TupletPoint) (number : Int) (noteRest : Handle) : Prop where
  isStop : point.phase = .stop
  isNumber : point.number = number
  isOwn : point.noteRest = noteRest

/-- Parts that say nothing about tuplets. -/
structure Parts.Plain (parts : Parts) : Prop where
  noLabel : ∀ label ∈ parts.abbreviations, ¬ label.isLegacyTuplet
  noOption : ∀ option ∈ parts.options, ¬ option.is .tuplet

namespace Analyser

theorem run_bind
    {Value Result : Type} {action : Analyser Result}
    {next : Result → Analyser Value} {state middle : Analysis} {result : Result}
    (ran : (action.run state).run = (result, middle)) :
    ((action >>= next).run state).run = ((next result).run middle).run :=
  congrArg (fun result : Result × Analysis =>
    ((next result.1).run result.2).run) ran

/-! ## What is asked about tuplets -/

/-- What is asked about tuplets is changed, and nothing else. -/
def Decorations.mapTuplets
    (relabel : Option Node → Option Node)
    (change : Option TupletPoint → Option TupletPoint)
    (decorations : Decorations) : Decorations :=
  { decorations with
    legacyTuplet := relabel decorations.legacyTuplet
    tuplet := change decorations.tuplet }

/-- A legacy label of a tuplet is there. -/
def Decorations.withLabel (label : Node) : Decorations → Decorations :=
  mapTuplets (fun _ => some label) id

/-- A descriptor of a tuplet is there. -/
def Decorations.withTuplet (point : TupletPoint) : Decorations → Decorations :=
  mapTuplets id fun _ => some point

section Reading

variable {flavor : Flavor} {handle : Handle}
variable {relabel : Option Node → Option Node}
variable {change : Option TupletPoint → Option TupletPoint}

/-- Other labels hand through what is asked about tuplets. -/
theorem abbreviations_mapTuplets
    {labels : List Node} (others : ∀ label ∈ labels, ¬ label.isLegacyTuplet)
    (decorations : Decorations) :
    abbreviations flavor (decorations.mapTuplets relabel change) labels =
      Prod.map (Decorations.mapTuplets relabel change) id <$>
        abbreviations flavor decorations labels := by
  induction labels generalizing decorations with
  | nil => exact (map_pure ..).symm
  | cons label rest induction =>
      obtain ⟨noTuplet, others⟩ := List.forall_mem_cons.mp others
      have later := induction others
      rw [abbreviations, abbreviations]
      split
      · split
        · split
          · simp only [later, map_bind]
          · exact later { decorations with legacyTie := some label }
        · exact later { decorations with legacyBeam := some label }
        · rename_i isT
          exact absurd (beq_iff_eq.mpr isT) noTuplet
        · simp only [later, map_bind]
        · simp only [later, map_bind]
        · simp only [later, map_bind]
      · exact (map_pure ..).symm

/-- The options of notes hand through what is asked about tuplets. -/
theorem noteOptions_mapTuplets
    (options : List Node) (decorations : Decorations) :
    noteOptions handle (decorations.mapTuplets relabel change) options =
      Prod.map (Decorations.mapTuplets relabel change) id <$>
        noteOptions handle decorations options := by
  induction options generalizing decorations with
  | nil => exact (map_pure ..).symm
  | cons option rest induction =>
      rw [noteOptions, noteOptions]
      split
      · rw [map_bind]
        refine congrArg _ (funext fun point => ?_)
        exact induction { decorations with tie := point <|> decorations.tie }
      · rw [map_bind]
        refine congrArg _ (funext fun point => ?_)
        exact induction { decorations with slur := point <|> decorations.slur }
      · simp only [induction, map_bind]
      · simp only [induction, map_bind]
      · exact (map_pure ..).symm

/-- Options that are no tuplets hand through what is asked about tuplets. -/
theorem noteRestOptions_mapTuplets
    {options : List Node} (others : ∀ option ∈ options, ¬ option.is .tuplet)
    (decorations : Decorations) :
    noteRestOptions handle (decorations.mapTuplets relabel change) options =
      Prod.map (Decorations.mapTuplets relabel change) id <$>
        noteRestOptions handle decorations options := by
  induction options generalizing decorations with
  | nil => exact (map_pure ..).symm
  | cons option rest induction =>
      obtain ⟨noTuplet, others⟩ := List.forall_mem_cons.mp others
      have later := induction others
      rw [noteRestOptions, noteRestOptions]
      split
      · rename_i isTuplet
        exact absurd (beq_iff_eq.mpr isTuplet) noTuplet
      · rw [map_bind]
        refine congrArg _ (funext fun modification => ?_)
        exact later
          { decorations with
            timeModification := modification <|> decorations.timeModification }
      · rw [map_bind]
        refine congrArg _ (funext fun point => ?_)
        exact later { decorations with beam := point <|> decorations.beam }
      · simp only [later, map_bind]
      · exact (map_pure ..).symm

/-- Nothing is asked about tuplets. -/
def Decorations.AsksNoTuplet (decorations : Decorations) : Prop :=
  decorations.legacyTuplet = none ∧ decorations.tuplet = none

/-- The label that stops the tuplet that was opened last. -/
def stopLabel : Node :=
  .leaf .label "t-" .nowhere

/-- The option that stops the tuplet with a number. -/
def stopOption (number : String) : Node :=
  .element "t" none
    [.leaf .number number .nowhere, .leaf .label "-" .nowhere] .nowhere

/-- A stop among the abbreviations is kept to the end, wherever it stands. -/
theorem abbreviations_stopLabel
    (flavor : Flavor) {early late : List Node}
    (areLabels : ∀ label ∈ early, label.isLabel)
    (others : ∀ label ∈ late, ¬ label.isLegacyTuplet)
    (decorations : Decorations) :
    abbreviations flavor decorations (early ++ stopLabel :: late) =
      Prod.map (Decorations.withLabel stopLabel) id <$>
        abbreviations flavor decorations (early ++ late) := by
  rw [abbreviations_append areLabels, abbreviations_append areLabels, map_bind]
  refine congrArg _ (funext fun result => ?_)
  have first : abbreviations flavor result.1 (stopLabel :: late) =
      abbreviations flavor (result.1.withLabel stopLabel) late := by
    have isLabel : stopLabel.is .label := rfl
    have isT : stopLabel.text.toList.head? = some 't' := by decide
    rw [abbreviations, if_pos isLabel, isT]
    rfl
  exact first.trans (abbreviations_mapTuplets others result.1)

/-- An option that stops a tuplet changes nothing else.  Its number counts only in
versions whose tuplets have numbers. -/
theorem run_analyseTuplet_stopOption
    (handle : Handle) {number : String} {value : Int}
    (isNumber : signedInterval.read? number = some value) (state : Analysis) :
    ∃ point : TupletPoint,
      point.Stops
        (if lastVersionWithoutTupletNumbers < state.context.version then value
        else 0) handle ∧
      ((analyseTuplet (stopOption number) (some handle)).run state).run =
        (some point, state) := by
  have valued : numberValue (.leaf .number number .nowhere) 0 =
      pure value := by
    have isRead : signedInterval.read?
        (Node.leaf .number number .nowhere).text = some value := isNumber
    rw [numberValue, boundedValue, isRead]
  have numbered : tupletNumber (stopOption number).children = (do
      let context ← context
      return (if lastVersionWithoutTupletNumbers < context.version then value
        else 0, [.leaf .label "-" .nowhere])) := by
    show (do
      let value ← numberValue (.leaf .number number .nowhere) 0
      let context ← context
      return (if lastVersionWithoutTupletNumbers < context.version then value
        else 0, [Node.leaf .label "-" .nowhere])) = _
    rw [valued, pure_bind]
  rw [analyseTuplet, numbered]
  exact ⟨_, ⟨rfl, rfl, rfl⟩, rfl⟩

/-- A stop among the options is kept to the end, wherever it stands. -/
theorem run_noteRestOptions_stopOption
    (handle : Handle) {number : String} {value : Int} {front back : List Node}
    (areOptions : ∀ option ∈ front, option.isOption)
    (others : ∀ option ∈ back, ¬ option.is .tuplet)
    (isNumber : signedInterval.read? number = some value)
    (decorations : Decorations) (state : Analysis) :
    ∃ point : TupletPoint,
      point.Stops
        (if lastVersionWithoutTupletNumbers < state.context.version then value
        else 0) handle ∧
      ((noteRestOptions handle decorations
          (front ++ stopOption number :: back)).run state).run =
        ((Prod.map (Decorations.withTuplet point) id <$>
          noteRestOptions handle decorations (front ++ back)).run state).run := by
  have keeps := keepsVersion_noteRestOptions handle decorations front state
  rw [noteRestOptions_append areOptions, noteRestOptions_append areOptions]
  generalize isFront : ((noteRestOptions handle decorations front).run
    state).run = result at keeps
  obtain ⟨⟨earlier, left⟩, middle⟩ := result
  obtain ⟨point, stops, given⟩ :=
    run_analyseTuplet_stopOption handle isNumber middle
  have version : middle.context.version = state.context.version := keeps
  rw [version] at stops
  refine ⟨point, stops, ?_⟩
  have handedThrough :
      noteRestOptions handle (earlier.withTuplet point) back =
        Prod.map (Decorations.withTuplet point) id <$>
          noteRestOptions handle earlier back :=
    noteRestOptions_mapTuplets others earlier
  have atStop : noteRestOptions handle earlier (stopOption number :: back) = (do
      let point ← analyseTuplet (stopOption number) (some handle)
      noteRestOptions handle
        { earlier with tuplet := point <|> earlier.tuplet } back) := by
    rw [noteRestOptions]
    rfl
  rw [map_bind, run_bind isFront, run_bind isFront, atStop, run_bind given]
  exact congrArg (fun action => (action.run middle).run) handedThrough

/-! ## Adding a note or rest that stops a tuplet -/

/-- What is asked of a note or rest is changed. -/
def asking
    (change : Decorations → Decorations) :
    Handle × NoteValue × Decorations → Handle × NoteValue × Decorations :=
  Prod.map id (Prod.map id change)

variable {node : Node} {anchor base : Option Handle}

theorem keepsVersion_beginParts
    (flavor : Flavor) (node : Node) (anchor : Option Handle) (parts : Parts) :
    KeepsVersion (beginParts flavor node anchor parts) := by
  have head : KeepsVersion (readHead parts.required) := by
    unfold readHead
    split
    · simp
    · simp
    · exact keepsVersion_pure _
  rw [beginParts]
  refine head.bind fun result => ?_
  refine (keepsVersion_addObject _ _ _).bind fun handle => ?_
  refine (keepsVersion_abbreviations _ _ _).bind fun labelled => ?_
  refine (keepsVersion_placeInVoice handle).bind fun _ => ?_
  exact (keepsVersion_noteOptions _ _ _).bind fun _ => keepsVersion_pure _

/-- What abbreviations ask about tuplets is handed through to the end. -/
theorem beginParts_of_abbreviations
    {parts marked : Parts} (required : marked.required = parts.required)
    (noteOptions : marked.noteOptions = parts.noteOptions)
    (abbreviated : abbreviations flavor {} marked.abbreviations =
      Prod.map (Decorations.mapTuplets relabel change) id <$>
        abbreviations flavor {} parts.abbreviations) :
    beginParts flavor node anchor marked =
      asking (Decorations.mapTuplets relabel change) <$>
        beginParts flavor node anchor parts := by
  rw [beginParts, beginParts, required, noteOptions, abbreviated]
  simp only [map_bind, bind_map_left, Prod.map, id, noteOptions_mapTuplets]
  rfl

/-- What has been asked about tuplets before the options is handed through. -/
theorem addParts_of_beginParts
    {parts marked : Parts} (options : marked.options = parts.options)
    (others : marked.others = parts.others)
    (noTuplet : ∀ option ∈ parts.options, ¬ option.is .tuplet)
    (begun : beginParts flavor node anchor marked =
      asking (Decorations.mapTuplets relabel change) <$>
        beginParts flavor node anchor parts) :
    addParts flavor node anchor base marked =
      asking (Decorations.mapTuplets relabel change) <$>
        addParts flavor node anchor base parts := by
  rw [addParts, addParts, options, others, begun]
  simp only [map_bind, bind_map_left, asking, Prod.map, id,
    noteRestOptions_mapTuplets noTuplet]
  rfl

/-- Where nothing is said about tuplets, nothing is asked about them. -/
theorem asksNoTuplet_addParts
    {parts : Parts} (plain : parts.Plain) (state : Analysis) :
    ((addParts flavor node anchor base parts).run
      state).run.1.2.2.AsksNoTuplet := by
  -- Reading starts from nothing, which stays nothing when it is cleared.
  have abbreviated : abbreviations flavor {} parts.abbreviations =
      Prod.map (Decorations.mapTuplets (fun _ => none) fun _ => none) id <$>
        abbreviations flavor {} parts.abbreviations := by
    rw [← abbreviations_mapTuplets plain.noLabel]
    rfl
  have cleared : addParts flavor node anchor base parts =
      asking (Decorations.mapTuplets (fun _ => none) fun _ => none) <$>
        addParts flavor node anchor base parts :=
    addParts_of_beginParts rfl rfl plain.noOption
      (beginParts_of_abbreviations rfl rfl abbreviated)
  rw [cleared]
  exact ⟨rfl, rfl⟩

/-- The label that stops a tuplet is all that it adds. -/
theorem addParts_stopLabel
    {parts : Parts} {early late : List Node} (plain : parts.Plain)
    (split : parts.abbreviations = early ++ late)
    (areLabels : ∀ label ∈ early, label.isLabel) :
    addParts flavor node anchor base
        { parts with abbreviations := early ++ stopLabel :: late } =
      asking (Decorations.withLabel stopLabel) <$>
        addParts flavor node anchor base parts := by
  have others : ∀ label ∈ late, ¬ label.isLegacyTuplet :=
    fun label listed =>
      plain.noLabel label (split ▸ List.mem_append_right early listed)
  have abbreviated := abbreviations_stopLabel flavor areLabels others {}
  rw [← split] at abbreviated
  exact addParts_of_beginParts rfl rfl plain.noOption
    (beginParts_of_abbreviations rfl rfl abbreviated)

/-- The option that stops a tuplet gives its descriptor and adds nothing else. -/
theorem run_addParts_stopOption
    {parts : Parts} {front back : List Node} (plain : parts.Plain)
    (split : parts.options = front ++ back)
    (areOptions : ∀ option ∈ front, option.isOption)
    {number : String} {value : Int}
    (isNumber : signedInterval.read? number = some value) (state : Analysis) :
    ∃ point : TupletPoint,
      point.Stops
        (if lastVersionWithoutTupletNumbers < state.context.version then value
        else 0)
        ((addParts flavor node anchor base parts).run state).run.1.1 ∧
      ((addParts flavor node anchor base
          { parts with options := front ++ stopOption number :: back }).run
            state).run =
        ((asking (Decorations.withTuplet point) <$>
          addParts flavor node anchor base parts).run state).run := by
  have others : ∀ option ∈ back, ¬ option.is .tuplet :=
    fun option listed =>
      plain.noOption option (split ▸ List.mem_append_right front listed)
  have keeps := keepsVersion_beginParts flavor node anchor parts state
  generalize isBegun : ((beginParts flavor node anchor parts).run state).run =
    begun at keeps
  obtain ⟨⟨handle, valued, decorations⟩, middle⟩ := begun
  obtain ⟨point, stops, optioned⟩ := run_noteRestOptions_stopOption handle
    areOptions others isNumber decorations middle
  have version : middle.context.version = state.context.version := keeps
  rw [version] at stops
  rw [← split] at optioned
  have begunAlike : ((beginParts flavor node anchor
      { parts with options := front ++ stopOption number :: back }).run
        state).run = ((handle, valued, decorations), middle) := isBegun
  refine ⟨point, ?_, ?_⟩
  · rw [addParts, run_bind isBegun]
    exact stops
  · generalize isRead : ((noteRestOptions handle decorations parts.options).run
      middle).run = asked
    obtain ⟨⟨asks, left⟩, last⟩ := asked
    have readAlike := optioned.trans (congrArg
      (fun result : (Decorations × List Node) × Analysis =>
        ((result.1.1.withTuplet point, result.1.2), result.2)) isRead)
    rw [addParts, addParts, map_bind, run_bind begunAlike, run_bind isBegun,
      run_bind readAlike, map_bind, run_bind isRead, map_bind]
    rfl

end Reading

end Analyser

end LdpScore
