import LdpScore.Proofs.Analysis.Quiet
import LdpScore.Proofs.Relation.Repetition

/-!
# Two analyses side by side

The same nodes are analysed twice, once where an instrument stands alone and once
at a site.  Two steps match if they take echoes to echoes and return the same, up
to later handles.  A step that refers to no handle matches itself: it `Repeats`.
Such steps are made of others that repeat, and `simp` puts them together.
-/

namespace LdpScore

/-- The settings are the same, but for the number of instruments before, and the
last note has a later handle. -/
def Context.Echoes (base : Handle) (alone within : Context) : Prop :=
  ∃ instruments, within =
    { alone with
      instruments := instruments
      lastNote := alone.lastNote.map (base + ·) }

/-- The analysis of an instrument alone, and the analysis of it at a site. -/
structure Analysis.Echoes (site : Site) (alone within : Analysis) : Prop where
  draft : Draft.Echoes site alone.draft within.draft
  context : Context.Echoes site.base alone.context within.context
  pending : within.pending = alone.pending.shift site.base

namespace Analyser

variable {Value Value' Result Result' : Type} {site : Site}

/-- Two steps take echoes to echoes and return what is the same in some sense. -/
def Matches
    (site : Site) (alone : Analyser Value) (within : Analyser Value')
    (same : Value → Value' → Prop) : Prop :=
  ∀ first second, Analysis.Echoes site first second →
    same (alone.run first).run.1 (within.run second).run.1 ∧
      Analysis.Echoes site (alone.run first).run.2 (within.run second).run.2

/-- A step does and returns the same at a site. -/
def Repeats (site : Site) (action : Analyser Value) : Prop :=
  Matches site action action Eq

/-- Two steps return an object each, the same one up to later handles. -/
abbrev MatchesObject
    (site : Site) (alone within : Analyser Handle) : Prop :=
  Matches site alone within fun handle later => later = site.base + handle

/-- Two steps return an object each or nothing. -/
abbrev MatchesOption
    (site : Site) (alone within : Analyser (Option Handle)) : Prop :=
  Matches site alone within fun result later =>
    later = result.map (site.base + ·)

namespace Matches

variable {same : Value → Value' → Prop}

theorem pure {value : Value} {value' : Value'} (holds : same value value') :
    Matches site (Pure.pure value) (Pure.pure value') same :=
  fun _ _ echoes => ⟨holds, echoes⟩

theorem bind
    {alone : Analyser Result} {within : Analyser Result'}
    {next : Result → Analyser Value} {next' : Result' → Analyser Value'}
    {between : Result → Result' → Prop}
    (first : Matches site alone within between)
    (second : ∀ result result', between result result' →
      Matches site (next result) (next' result') same) :
    Matches site (alone >>= next) (within >>= next') same := by
  intro before before' echoes
  obtain ⟨related, echoesBetween⟩ := first before before' echoes
  exact second _ _ related _ _ echoesBetween

theorem map
    {alone : Analyser Result} {within : Analyser Result'}
    {change : Result → Value} {change' : Result' → Value'}
    {between : Result → Result' → Prop}
    (first : Matches site alone within between)
    (implies : ∀ result result', between result result' →
      same (change result) (change' result')) :
    Matches site (change <$> alone) (change' <$> within) same := by
  intro before before' echoes
  obtain ⟨related, echoesAfter⟩ := first before before' echoes
  exact ⟨implies _ _ related, echoesAfter⟩

/-- What is returned does not matter if it is thrown away. -/
theorem discard
    {alone : Analyser Value} {within : Analyser Value'}
    (first : Matches site alone within same) :
    Matches site (discard alone) (discard within) Eq :=
  first.map fun _ _ _ => rfl

end Matches

theorem Repeats.then
    {action : Analyser Result} {next : Result → Analyser Value}
    {next' : Result → Analyser Value'} {same : Value → Value' → Prop}
    (first : Repeats site action)
    (second : ∀ result, Matches site (next result) (next' result) same) :
    Matches site (action >>= next) (action >>= next') same := by
  refine Matches.bind first fun result result' isSame => ?_
  subst isSame
  exact second result

@[simp]
theorem repeats_pure (value : Value) : Repeats site (pure value) :=
  Matches.pure rfl

@[simp]
theorem Repeats.bind
    {action : Analyser Result} {next : Result → Analyser Value}
    (first : Repeats site action) (second : ∀ result, Repeats site (next result)) :
    Repeats site (action >>= next) :=
  first.then second

@[simp]
theorem Repeats.map
    {action : Analyser Result} (first : Repeats site action)
    (change : Result → Value) :
    Repeats site (change <$> action) :=
  Matches.map first fun _ _ isSame => congrArg change isSame

/-- What repeats in either case repeats. -/
@[simp]
theorem repeats_ite
    {condition : Prop} [Decidable condition] {first second : Analyser Value}
    (whenTrue : Repeats site first) (whenFalse : Repeats site second) :
    Repeats site (if condition then first else second) := by
  split
  · exact whenTrue
  · exact whenFalse

/-! ## Elementary steps -/

theorem matches_context :
    Matches site context context (Context.Echoes site.base) :=
  fun _ _ echoes => ⟨echoes.context, echoes⟩

theorem matches_model :
    Matches site model model fun alone within =>
      Model.Echoes site alone within :=
  fun _ _ echoes => ⟨echoes.draft.model, echoes⟩

theorem matches_pending :
    Matches site pending pending fun alone within =>
      within = alone.shift site.base :=
  fun _ _ echoes => ⟨echoes.pending, echoes⟩

theorem matches_modifyContext
    {change change' : Context → Context}
    (fits : ∀ alone within, Context.Echoes site.base alone within →
      Context.Echoes site.base (change alone) (change' within)) :
    Matches site (modifyContext change) (modifyContext change') Eq :=
  fun _ _ echoes =>
    ⟨rfl, echoes.draft, fits _ _ echoes.context, echoes.pending⟩

/-- A setting changes, whatever the last note is. -/
theorem repeats_modifyContext
    {change : Context → Context}
    (fits : ∀ (settings : Context) instruments lastNote,
      change
        { settings with instruments := instruments, lastNote := lastNote } =
        { change settings with
          instruments := instruments
          lastNote := lastNote })
    (keeps : ∀ settings, (change settings).lastNote = settings.lastNote) :
    Repeats site (modifyContext change) := by
  refine matches_modifyContext ?_
  rintro settings _ ⟨instruments, rfl⟩
  refine ⟨instruments, ?_⟩
  rw [keeps]
  exact fits settings instruments _

@[simp]
theorem repeats_report (location : Location) (problem : Problem) :
    Repeats site (report location problem) :=
  fun _ _ echoes =>
    ⟨rfl, echoes.draft.report location problem, echoes.context, echoes.pending⟩

/-- The object of an element is added below the same anchor. -/
theorem matches_addObject
    (node : Node) (anchor : Option Handle) {content : Content}
    (plain : content.shift site.base = content) :
    MatchesObject site (addObject node anchor content)
      (addObject node (anchor.map (site.base + ·)) content) := by
  intro before before' echoes
  have added := echoes.draft.addObject node.id? node.location anchor plain
  exact ⟨added.value, added.draft, echoes.context, echoes.pending⟩

theorem matches_modifyModel
    {change change' : Model → Model}
    (fits : ∀ alone within, Model.Echoes site alone within →
      Model.Echoes site (change alone) (change' within)) :
    Matches site (modifyModel change) (modifyModel change') Eq :=
  fun _ _ echoes =>
    ⟨rfl, echoes.draft.mapModel (fits _ _ echoes.draft.model), echoes.context,
      echoes.pending⟩

theorem matches_modifyNoteRest
    (handle : Handle) (change : NoteRest → NoteRest) :
    Matches site
      (modifyModel fun model => model.modifyNoteRest handle change)
      (modifyModel fun model =>
        model.modifyNoteRest (site.base + handle) change) Eq :=
  matches_modifyModel fun _ _ echoes => echoes.modifyNoteRest handle change

/-- What waits is settled alike. -/
theorem matches_settle
    {change change' : Pending → Draft → Pending × Draft}
    (fits : ∀ pending alone within, Draft.Echoes site alone within →
      Draft.EchoesWith site (Pending.shift site.base) (change pending alone)
        (change' (pending.shift site.base) within)) :
    Matches site (settle change) (settle change') Eq := by
  intro before before' echoes
  have settled := fits before.pending _ _ echoes.draft
  rw [← echoes.pending] at settled
  exact ⟨rfl, settled.draft, echoes.context, settled.value⟩

theorem repeats_clearPending : Repeats site clearPending :=
  matches_settle fun pending _ _ echoes => pending.echoes_clear echoes

@[simp]
theorem repeats_reportMisplaced (child : Node) :
    Repeats site (reportMisplaced child) :=
  repeats_report _ _

@[simp]
theorem repeats_reportMissing (parent : Node) (kind : ElementKind) :
    Repeats site (reportMissing parent kind) :=
  repeats_report _ _

@[simp]
theorem repeats_reportExtra (node : Node) (children : List Node) :
    Repeats site (reportExtra node children) := by
  cases children <;> simp [reportExtra]

@[simp]
theorem repeats_mandatory
    (parent : Node) (kind : ElementKind) (children : List Node) :
    Repeats site (mandatory parent kind children) := by
  simp [mandatory]

/-- Whether the analysers of the children of two elements match. -/
def MatchEach
    (site : Site)
    (analyserOf analyserOf' : ElementKind → Option (Node → Analyser Unit)) :
    Prop :=
  ∀ kind, Option.Rel
    (fun analyser analyser' =>
      ∀ child, Matches site (analyser child) (analyser' child) Eq)
    (analyserOf kind) (analyserOf' kind)

/-- What matches for every child matches for all of them. -/
theorem matches_analyseEach
    {analyserOf analyserOf' : ElementKind → Option (Node → Analyser Unit)}
    (each : MatchEach site analyserOf analyserOf') (children : List Node) :
    Matches site (analyseEach analyserOf children)
      (analyseEach analyserOf' children) Eq := by
  induction children with
  | nil => exact .pure rfl
  | cons child rest induction =>
      have analysers : Option.Rel
          (fun analyser analyser' =>
            ∀ child, Matches site (analyser child) (analyser' child) Eq)
          (child.kind?.bind analyserOf) (child.kind?.bind analyserOf') := by
        cases child.kind? with
        | none => exact .none
        | some kind => exact each kind
      rw [analyseEach, analyseEach]
      generalize child.kind?.bind analyserOf = first,
        child.kind?.bind analyserOf' = second at analysers
      cases analysers with
      | none => exact (repeats_reportMisplaced child).then fun _ => induction
      | some matching => exact (matching child).bind fun _ _ _ => induction

theorem matches_analyseOptional
    {analyser analyser' : Node → Analyser Unit}
    (each : ∀ child, Matches site (analyser child) (analyser' child) Eq)
    (child : Option Node) :
    Matches site (analyseOptional analyser child)
      (analyseOptional analyser' child) Eq := by
  cases child with
  | none => exact .pure rfl
  | some child => exact each child

end Analyser

end LdpScore
