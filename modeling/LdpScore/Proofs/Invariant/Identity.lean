import LdpScore.Proofs.Invariant.Balance
import LdpScore.Proofs.Score.Ids

/-!
# The ids of objects

Every object has an id of its own.  An element that becomes an object keeps the id
that it asks for, unless an older object has it; then that is reported, and the
object gets a new id like all those whose elements ask for none.

No object keeps the id that a chord element asks for: the chord is created by its
notes, and relations always get new ids.
-/

namespace LdpScore

/-- The ids of all objects in the order of creation. -/
def Model.ids (model : Model) : List Int :=
  model.objects.toList.map Object.id

/-- Whether an object is of the kind that an element became, or a relation if it
comes from no element. -/
def Content.ComesFrom (content : Content) : Option Node → Prop
  | some node => ∃ made : Content, made.isFrom node ∧ made.name = content.name
  | none => content.members?.isSome

/-- Where the element that an object comes from stands, if it asks for the id of an
older object. -/
def clashOf (older : List Int) : Option Node → List Location
  | some node => if node.id?.any older.contains then [node.location] else []
  | none => []

/-- All elements that ask for the ids of older objects, in order. -/
def takenLocations
    (origins : List (Option Node)) (ids : List Int) : List Location :=
  origins.zipIdx.flatMap fun entry => clashOf (ids.take entry.2) entry.1

/-- How the objects of a model got their ids, if each of them comes from an element
or, if it is a relation, from none. -/
structure Model.Identified
    (model : Model) (origins : List (Option Node)) : Prop where
  length : origins.length = model.size
  distinct : model.ids.Nodup
  contents : ∀ handle origin, origins[handle]? = some origin →
    ∃ content, model.content? handle = some content ∧
      content.ComesFrom origin
  kept : ∀ handle node id, origins[handle]? = some (some node) →
    node.id? = some id → id ∉ model.ids.take handle →
      model.ids[handle]? = some id
  generated : ∀ handle origin id, origins[handle]? = some origin →
    model.ids[handle]? = some id →
      (∀ given, origin.bind Node.id? = some given →
        given ∈ model.ids.take handle) →
          IdPool.FollowsAll id (model.ids.take handle)

/-! ## One more id -/

theorem Content.ComesFrom.of_name
    {content later : Content} {origin : Option Node}
    (comesFrom : content.ComesFrom origin) (same : content.name = later.name) :
    later.ComesFrom origin := by
  cases origin with
  | none =>
      rw [ComesFrom, members?_isSome_iff] at comesFrom ⊢
      exact same ▸ comesFrom
  | some node =>
      obtain ⟨made, isFrom, sameName⟩ := comesFrom
      exact ⟨made, isFrom, sameName.trans same⟩

theorem Model.getElem?_ids (model : Model) (handle : Handle) :
    model.ids[handle]? = (model.get? handle).map Object.id := by
  simp [ids, get?]

theorem Model.length_ids (model : Model) : model.ids.length = model.size := by
  simp [ids, size]

/-- What stands in a list with one more item stood there before or is new. -/
theorem getElem?_concat_cases
    {Item : Type} {items : List Item} {last found : Item} {index : Nat}
    (isFound : (items ++ [last])[index]? = some found) :
    index < items.length ∧ items[index]? = some found ∨
      index = items.length ∧ found = last := by
  rcases Nat.lt_or_ge index items.length with old | new
  · rw [List.getElem?_append_left old] at isFound
    exact Or.inl ⟨old, isFound⟩
  · rw [List.getElem?_append_right new] at isFound
    obtain ⟨isFirst, isLast⟩ := List.getElem?_eq_some_iff.mp isFound
    have isFirst : index - items.length = 0 := by simpa using isFirst
    refine Or.inr ⟨Nat.le_antisymm (Nat.sub_eq_zero_iff_le.mp isFirst) new, ?_⟩
    simpa [isFirst] using isLast.symm

/-- One more object may add one more location. -/
theorem takenLocations_append
    {origins : List (Option Node)} {ids : List Int}
    (same : origins.length = ids.length) (origin : Option Node) (id : Int) :
    takenLocations (origins ++ [origin]) (ids ++ [id]) =
      takenLocations origins ids ++ clashOf ids origin := by
  rw [takenLocations, List.zipIdx_append, List.flatMap_append, takenLocations]
  congr 1
  · apply List.flatMap_congr
    intro entry listed
    have old := List.snd_lt_of_mem_zipIdx listed
    rw [List.take_append_of_le_length (Nat.le_of_lt (same ▸ old))]
  · rw [List.zipIdx_singleton, List.flatMap_singleton, Nat.zero_add, same,
      List.take_left]

namespace Model

variable {before after : Model} {origins : List (Option Node)}

theorem Identified.of_persists
    (identified : before.Identified origins)
    (persists : Persists before after) (ids : after.ids = before.ids) :
    after.Identified origins := by
  constructor
  · rw [identified.length, ← length_ids, ← ids, length_ids]
  · rw [ids]
    exact identified.distinct
  · intro handle origin isOrigin
    obtain ⟨content, found, comesFrom⟩ :=
      identified.contents handle origin isOrigin
    obtain ⟨later, foundLater, name⟩ := persists.exists_content found
    exact ⟨later, foundLater, comesFrom.of_name name.symm⟩
  · rw [ids]
    exact identified.kept
  · rw [ids]
    exact identified.generated

theorem Identified.append
    {origin : Option Node} {id : Int} {pool : IdPool} {new : Content}
    (identified : before.Identified origins)
    (persists : Persists before after) (ids : after.ids = before.ids ++ [id])
    (assigns : IdPool.Assigns before.ids (origin.bind Node.id?) id pool)
    (found : after.content? before.size = some new)
    (comesFrom : new.ComesFrom origin) :
    after.Identified (origins ++ [origin]) := by
  have size : before.ids.length = origins.length := by
    rw [length_ids, identified.length]
  have same : ∀ {handle}, handle ≤ origins.length →
      after.ids.take handle = before.ids.take handle := by
    intro handle le
    rw [ids, List.take_append_of_le_length (size ▸ le)]
  have whole : after.ids.take origins.length = before.ids := by
    rw [same (Nat.le_refl _), ← size, List.take_length]
  have last : after.ids[origins.length]? = some id := by
    rw [ids, ← size, List.getElem?_concat_length]
  have earlier : ∀ {handle}, handle < origins.length →
      after.ids[handle]? = before.ids[handle]? := by
    intro handle lt
    rw [ids, List.getElem?_append_left (size ▸ lt)]
  constructor
  · rw [List.length_append, List.length_singleton, ← size, ← length_ids, ids,
      List.length_append, List.length_singleton]
  · rw [ids, List.nodup_append]
    refine ⟨identified.distinct, List.nodup_singleton id, ?_⟩
    rintro old listed _ isNew rfl
    exact assigns.isNew (List.mem_singleton.mp isNew ▸ listed)
  · intro handle other isOrigin
    rcases getElem?_concat_cases isOrigin with ⟨_, old⟩ | ⟨isLast, rfl⟩
    · obtain ⟨content, isContent, wasFrom⟩ :=
        identified.contents handle other old
      obtain ⟨later, foundLater, name⟩ := persists.exists_content isContent
      exact ⟨later, foundLater, wasFrom.of_name name.symm⟩
    · rw [isLast, identified.length]
      exact ⟨new, found, comesFrom⟩
  · intro handle node given isOrigin wanted free
    rcases getElem?_concat_cases isOrigin with ⟨old, isOld⟩ | ⟨rfl, rfl⟩
    · rw [same (Nat.le_of_lt old)] at free
      rw [earlier old]
      exact identified.kept handle node given isOld wanted free
    · rw [whole] at free
      rw [last, assigns.kept given wanted free]
  · intro handle other given isOrigin isId clashes
    rcases getElem?_concat_cases isOrigin with ⟨old, isOld⟩ | ⟨rfl, rfl⟩
    · rw [same (Nat.le_of_lt old)] at clashes ⊢
      rw [earlier old] at isId
      exact identified.generated handle other given isOld isId clashes
    · rw [whole] at clashes ⊢
      cases last.symm.trans isId
      exact assigns.generated clashes

/-! ## Steps -/

theorem ids_of_get?
    (same : ∀ handle, (after.get? handle).map Object.id =
      (before.get? handle).map Object.id) :
    after.ids = before.ids := by
  apply List.ext_getElem?
  intro handle
  rw [getElem?_ids, getElem?_ids, same]

theorem ids_append
    {id : Int}
    (same : ∀ handle, (after.get? handle).map Object.id =
      if handle = before.size then some id
      else (before.get? handle).map Object.id) :
    after.ids = before.ids ++ [id] := by
  apply List.ext_getElem?
  intro handle
  rw [getElem?_ids, same]
  by_cases isNew : handle = before.size
  · rw [if_pos isNew, isNew, ← length_ids, List.getElem?_concat_length]
  · rw [if_neg isNew, ← getElem?_ids]
    rcases Nat.lt_or_ge handle before.ids.length with old | new
    · rw [List.getElem?_append_left old]
    · rw [List.getElem?_eq_none new, List.getElem?_eq_none]
      have beyond := Nat.lt_of_le_of_ne new
        (fun equal => isNew (equal.symm.trans before.length_ids))
      rw [List.length_append, List.length_singleton]
      exact beyond

theorem ids_modifyContent
    (model : Model) (changed : Handle) (change : Content → Content) :
    (model.modifyContent changed change).ids = model.ids := by
  apply ids_of_get?
  intro handle
  rw [get?_modifyContent, Option.map_map]
  rfl

theorem ids_includeMember
    (model : Model) (relation member : Handle) (role : Role) :
    (model.includeMember relation member role).ids = model.ids := by
  rcases related : model.members? relation with _ | earlier
  · rw [includeMember, related]
  · apply ids_of_get?
    intro handle
    rw [get?_includeMember related, Option.map_map]
    rfl

end Model

theorem Draft.ids_addObject_model
    {draft : Draft} {anchor : Option Handle} (wanted : Option Int)
    (location : Location) (anchored : draft.model.HasAnchor anchor)
    (content : Content) :
    (draft.addObject wanted location anchor content).2.model.ids =
      draft.model.ids ++ [draft.nextId wanted] := by
  apply Model.ids_append
  intro handle
  rw [get?_addObject _ _ _ anchored]
  split
  · rfl
  · rw [Option.map_map]
    rfl

theorem Draft.Creates.ids_model
    {content : Content} {before after : Draft}
    (created : Creates content before after) :
    after.model.ids = before.model.ids ++ [before.ids.next.1] := by
  apply Model.ids_append
  intro handle
  rw [created.get? handle]
  split
  · rfl
  · rw [Option.map_map]
    rfl

/-- How the ids of a score in the making came about. -/
structure Stage.Identified (stage : Stage) : Prop where
  objects : stage.model.Identified stage.origins
  pool : stage.draft.ids.Tracks stage.model.ids
  clashes : stage.draft.clashes =
    takenLocations stage.origins stage.model.ids

namespace Stage

variable {before after : Stage}

/-- A step that adds no object hands out no id. -/
theorem Identified.of_persists
    (identified : before.Identified)
    (persists : before.model.Persists after.model)
    (origins : after.origins = before.origins)
    (ids : after.model.ids = before.model.ids)
    (pool : after.draft.ids = before.draft.ids)
    (clashes : after.draft.clashes = before.draft.clashes) :
    after.Identified := by
  constructor
  · rw [origins]
    exact identified.objects.of_persists persists ids
  · rw [pool, ids]
    exact identified.pool
  · rw [clashes, origins, ids]
    exact identified.clashes

/-- A step that adds one object hands out one id. -/
theorem Identified.append
    {origin : Option Node} {id : Int} {new : Content}
    (identified : before.Identified)
    (persists : before.model.Persists after.model)
    (origins : after.origins = before.origins ++ [origin])
    (ids : after.model.ids = before.model.ids ++ [id])
    (assigns : IdPool.Assigns before.model.ids (origin.bind Node.id?) id
      after.draft.ids)
    (found : after.model.content? before.model.size = some new)
    (comesFrom : new.ComesFrom origin)
    (clashes : after.draft.clashes =
      before.draft.clashes ++ clashOf before.model.ids origin) :
    after.Identified := by
  have same : before.origins.length = before.model.ids.length := by
    rw [identified.objects.length, Model.length_ids]
  constructor
  · rw [origins]
    exact identified.objects.append persists ids assigns found comesFrom
  · rw [ids]
    exact assigns.tracks
  · rw [origins, ids, takenLocations_append same, ← identified.clashes]
    exact clashes

/-- What the pool takes for taken are the ids of the objects. -/
theorem Identified.isClash
    (identified : before.Identified) (node : Node) :
    (if before.draft.isClash node.id? then [node.location] else []) =
      clashOf before.model.ids (some node) := by
  have isTaken : before.draft.ids.isTaken = before.model.ids.contains := by
    ext id
    rw [Bool.eq_iff_iff, identified.pool.used id, List.contains_iff_mem]
  rw [Draft.isClash, isTaken]
  rfl

theorem Step.identified
    (step : Step before after) (identified : before.Identified) :
    after.Identified := by
  cases step with
  | @attend after silent awaited =>
      refine identified.of_persists ?_ rfl ?_ silent.ids silent.clashes
      · show before.model.Persists after.draft.model
        rw [silent.model]
        exact .refl _
      · exact congrArg Model.ids silent.model
  | enter scope nothing =>
      exact identified.of_persists (.refl _) rfl rfl rfl rfl
  | element node anchor content anchored fresh isFrom =>
      have found := Model.content?_addObject node.id? node.location anchored
        content before.model.size
      rw [if_pos rfl] at found
      refine identified.append
        (Model.Extends.addObject before.draft node.id? node.location anchored
          fresh).persists rfl
        (Draft.ids_addObject_model node.id? node.location anchored content)
        ?_ found ⟨content, isFrom, rfl⟩ ?_
      · show IdPool.Assigns _ node.id? _ (before.draft.addObject node.id?
          node.location anchor content).2.ids
        rw [Draft.ids_addObject]
        exact identified.pool.assign node.id?
      · rw [← identified.isClash]
        exact Draft.clashes_addObject ..
  | revise handle change keeps =>
      exact identified.of_persists
        (Model.Extends.modifyContent before.model handle keeps).persists rfl
        (Model.ids_modifyContent ..) rfl rfl
  | @relate after content created admitted listed =>
      refine identified.append created.persists rfl created.ids_model ?_
        created.content?_new admitted.isRelation ?_
      · show IdPool.Assigns _ none _ after.ids
        rw [created.ids]
        exact identified.pool.assign none
      · exact created.clashes.trans (List.append_nil _).symm
  | @sound base note chord waits joined isNote inScope newest =>
      have later : Analyser.joinChord base note before.draft = _ :=
        Analyser.joinChord_of_joined joined
      refine identified.of_persists (Analyser.persists_joinChord joined) rfl
        ?_ ?_ ?_
      · show (Analyser.joinChord base note before.draft).model.ids = _
        rw [later]
        exact (Model.ids_modifyContent ..).trans (Model.ids_includeMember ..)
      · show (Analyser.joinChord base note before.draft).ids = _
        rw [later]
        rfl
      · show (Analyser.joinChord base note before.draft).clashes = _
        rw [later]
        rfl
  | root handle known =>
      exact identified.of_persists (.setRoot before.model handle) rfl rfl rfl
        rfl

end Stage

theorem identified_start : Stage.start.Identified := by
  refine ⟨⟨rfl, List.nodup_nil, ?_, ?_, ?_⟩, IdPool.tracks_empty, rfl⟩ <;>
    exact nofun

/-! ## Texts -/

theorem clashLocations_append (earlier later : Array Diagnostic) :
    clashLocations (earlier ++ later) =
      clashLocations earlier ++ clashLocations later := by
  rw [clashLocations, Array.toList_append, List.filter_append,
    List.map_append]
  rfl

namespace Node

/-- Reading a tree never looks at whether an id is taken. -/
theorem clashLocations_append_problems
    (diagnostics : Array Diagnostic) (state : State) (token : LexedToken) :
    clashLocations (diagnostics ++ state.problems token) =
      clashLocations diagnostics := by
  have others : ∀ diagnostic ∈ state.problems token,
      ¬ (diagnostic.problem == .idTaken) = true := by
    unfold State.problems
    split
    · split
      · rintro _ (_ | ⟨_, ⟨⟩⟩) ⟨⟩
      · exact nofun
    · exact nofun
  rw [clashLocations, Array.toList_appendList, List.filter_append,
    List.filter_eq_nil_iff.mpr others, List.append_nil]
  rfl

theorem clashLocations_readFrom
    (state : State) (diagnostics : Array Diagnostic) (last : Location)
    (tokens : List LexedToken) :
    clashLocations (readFrom state diagnostics last tokens).diagnostics =
      clashLocations diagnostics := by
  induction tokens generalizing state diagnostics last with
  | nil => rfl
  | cons token rest inductionHypothesis =>
      rw [readFrom]
      split
      · rw [inductionHypothesis, clashLocations_append_problems]
      · rfl

end Node

/--
All ids differ.  An element that becomes an object keeps the id that it asks for,
unless an older object has it; then this is reported once where the element
stands, and the object gets a new id.

The object of a chord element is a relation, which always gets a new id.
-/
theorem identified_analyseSource
    (source file : String) {model : Model}
    (accepted : (analyseSource source file).result = .ok model) :
    ∃ root origins,
      (Node.read (Token.lex source file)).result = .ok root ∧
      (origins.filterMap id).Sublist root.nodes ∧
      model.Identified origins ∧
      clashLocations (analyseSource source file).diagnostics =
        takenLocations origins model.ids := by
  obtain ⟨root, isTree, isModel, diagnostics⟩ :=
    exists_tree_of_accepted accepted
  obtain ⟨stage, run, isStage, reported, ordered⟩ := exists_run_analyse root
  have identified := run.preserves Stage.Step.identified identified_start
  have isModel : stage.model = model := isStage.trans isModel
  refine ⟨root, stage.origins, isTree, ordered, ?_, ?_⟩
  · rw [← isModel]
    exact identified.objects
  · rw [diagnostics, clashLocations_append, Node.read,
      Node.clashLocations_readFrom, ← reported, ← isModel]
    exact identified.clashes

/-- The last note asks for the id of the first one. -/
theorem identified_three_notes :
    ∃ model root origins,
      (analyseSource "(musicData#7 (n#3 c4 q) (n c4 q) (n#3 d4 q))"
        "").result = .ok model ∧
      model.ids = [7, 3, 8, 9] ∧
      (Node.read (Token.lex "(musicData#7 (n#3 c4 q) (n c4 q) (n#3 d4 q))"
        "")).result = .ok root ∧
      (origins.filterMap id).Sublist root.nodes ∧
      model.Identified origins ∧
      clashLocations (analyseSource
        "(musicData#7 (n#3 c4 q) (n c4 q) (n#3 d4 q))" "").diagnostics =
          takenLocations origins model.ids := by
  obtain ⟨model, accepted, ids⟩ :=
    exists_model_of_any (fun model => model.ids == [7, 3, 8, 9])
      (by decide +kernel : (analyseSource
        "(musicData#7 (n#3 c4 q) (n c4 q) (n#3 d4 q))" "").result.toOption.any _)
  obtain ⟨root, origins, isTree, identified⟩ :=
    identified_analyseSource _ _ accepted
  exact ⟨model, root, origins, accepted, beq_iff_eq.mp ids, isTree, identified⟩

/-- A chord element that becomes the root does not keep the id that it asks for,
though no other object has it. -/
theorem not_all_roots_keep_ids :
    ¬ ∀ source file root model given handle,
      (Node.read (Token.lex source file)).result = .ok root →
      (analyseSource source file).result = .ok model →
      root.id? = some given → model.root = some handle →
        model.ids[handle]? = some given ∨ given ∈ model.ids.take handle := by
  intro keeps
  obtain ⟨model, accepted, checked⟩ :=
    exists_model_of_any
      (fun model => model.root == some 2 && model.ids == [0, 1, 2])
      (by decide +kernel : (analyseSource
        "(chord#9 (n c4 q) (n e4 q))" "").result.toOption.any _)
  obtain ⟨isRoot, ids⟩ := Bool.and_eq_true_iff.mp checked
  obtain ⟨root, isTree, _⟩ := exists_tree_of_accepted accepted
  have asks : (Node.read (Token.lex "(chord#9 (n c4 q) (n e4 q))"
      "")).result.toOption.bind Node.id? = some 9 := by
    decide +kernel
  rw [isTree] at asks
  have kept := keeps _ _ root model 9 2 isTree accepted asks
    (beq_iff_eq.mp isRoot)
  rw [beq_iff_eq.mp ids] at kept
  revert kept
  decide

end LdpScore
