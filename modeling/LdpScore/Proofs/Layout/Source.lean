import LdpScore.Proofs.Layout.Document
import Mathlib.Data.List.Forall2

/-!
# Layout does not matter

Blanks, line breaks, comments and the choice between `name:value` and
`(name value)` decide where the tokens of a text stand and nothing else.  The
reader of trees and the analysis of a tree are blind to locations, and so two texts
with the same tokens mean the same: they fail alike or give the same model, and
they give the same reports apart from the lines that these mention.
-/

namespace LdpScore

/-! ## Reading a tree -/

def LexedToken.bare (token : LexedToken) : LexedToken :=
  { token with location := .nowhere }

/-- Tokens that are the same up to locations are the same without them. -/
theorem LexedToken.map_bare_congr
    {tokens others : List LexedToken}
    (same : tokens.map LexedToken.result = others.map LexedToken.result) :
    tokens.map LexedToken.bare = others.map LexedToken.bare := by
  have fromResult : ∀ tokens : List LexedToken, tokens.map LexedToken.bare =
      (tokens.map LexedToken.result).map fun result => ⟨result, .nowhere⟩ := by
    intro tokens
    rw [List.map_map]
    rfl
  rw [fromResult, fromResult, same]

namespace SyntaxError

/-- A syntax error without its location. -/
def bare : SyntaxError → SyntaxError
  | unexpectedEndOfFile expected _ => .unexpectedEndOfFile expected .nowhere
  | lexical error expected _ => .lexical error expected .nowhere
  | unexpectedToken expected _ => .unexpectedToken expected .nowhere
  | unbalancedParenthesis _ => .unbalancedParenthesis .nowhere
  | tooDeep _ => .tooDeep .nowhere

@[simp]
theorem code_bare (error : SyntaxError) : error.bare.code = error.code := by
  rcases error with _ | ⟨_ | _⟩ | _ | _ | _ <;> rfl

/-- An outcome without locations, where `strip` takes them away from a success. -/
def bareOutcome {Value : Type} (strip : Value → Value) :
    Except SyntaxError Value → Except SyntaxError Value
  | .ok value => .ok (strip value)
  | .error error => .error error.bare

/-- Outcomes that are the same up to locations are errors with one code, or the
same success. -/
theorem bareOutcome_cases
    {Value : Type} {first second : Except SyntaxError Value}
    (same : bareOutcome id first = bareOutcome id second) :
    (∃ error other, first = .error error ∧ second = .error other ∧
        error.code = other.code) ∨
      ∃ value, first = .ok value ∧ second = .ok value := by
  cases first with
  | error error =>
      cases second with
      | error other =>
          have bareErrors : error.bare = other.bare := Except.error.inj same
          refine .inl ⟨error, other, rfl, rfl, ?_⟩
          rw [← error.code_bare, bareErrors, other.code_bare]
      | ok value => cases same
  | ok value =>
      cases second with
      | error other => cases same
      | ok other => exact .inr ⟨value, rfl, congrArg _ (Except.ok.inj same).symm⟩

end SyntaxError

open SyntaxError (bareOutcome)

namespace Node

theorem ofLabel_bare (text : String) (location : Location) :
    ofLabel text .nowhere = (ofLabel text location).bare := by
  unfold ofLabel
  split <;> simp [bare]

namespace Frame

def bare (frame : Frame) : Frame where
  name := frame.name
  id := frame.id
  opened := .nowhere
  reversed := frame.reversed.map Node.bare

theorem add_bare (frame : Frame) (child : Node) :
    frame.bare.add child.bare = (frame.add child).bare :=
  rfl

theorem close_bare (frame : Frame) (closed : Location) :
    frame.bare.close .nowhere = (frame.close closed).bare := by
  simp [close, bare, Node.bare, Location.upTo, Location.nowhere]

end Frame

namespace State

/-- What has been read, without locations. -/
def bare : State → State
  | start => start
  | opened _ outer => opened .nowhere (outer.map Frame.bare)
  | inside frame outer => inside frame.bare (outer.map Frame.bare)
  | done root => done root.bare

theorem leave_bare (node : Node) (outer : List Frame) :
    leave node.bare (outer.map Frame.bare) = (leave node outer).bare := by
  cases outer <;> rfl

/-- A token does the same wherever it is written. -/
theorem step_bare (state : State) (token : LexedToken) :
    state.bare.step token.bare = bareOutcome bare (state.step token) := by
  obtain ⟨result, location⟩ := token
  cases state with
  | start => rcases result with _ | _ | _ | _ | _ | _ <;> rfl
  | opened => rcases result with _ | _ | _ | _ | _ | _ <;> rfl
  | done => rcases result with _ | _ | _ | _ | _ | _ <;> rfl
  | inside frame outer =>
      rcases result with error | _ | _ | text | text | text
      · rfl
      · simp only [step, bare, LexedToken.bare, List.length_map]
        split <;> rfl
      · simp only [step, bare, LexedToken.bare, bareOutcome,
          frame.close_bare location, leave_bare]
      · simp only [step, bare, LexedToken.bare, bareOutcome,
          ofLabel_bare text location, Frame.add_bare]
      · rfl
      · rfl

theorem problems_bare (state : State) (token : LexedToken) :
    state.bare.problems token.bare =
      (state.problems token).map Diagnostic.bare := by
  obtain ⟨result, location⟩ := token
  cases state with
  | start => rfl
  | inside => rfl
  | done => rfl
  | opened =>
      rcases result with _ | _ | _ | tag | _ | _
      case ok.label =>
        simp only [problems, bare, LexedToken.bare]
        split <;> rfl
      all_goals rfl

theorem finish_bare (lastLocation : Location) (state : State) :
    state.bare.finish .nowhere =
      bareOutcome Node.bare (state.finish lastLocation) := by
  cases state <;> rfl

end State

/-- The outcome of reading, without locations. -/
def Reading.bare (reading : Reading) : Reading where
  result := bareOutcome Node.bare reading.result
  diagnostics := reading.diagnostics.map Diagnostic.bare

theorem readFrom_bare
    (state : State) (diagnostics : Array Diagnostic) (lastLocation : Location)
    (tokens : List LexedToken) :
    readFrom state.bare (diagnostics.map Diagnostic.bare) .nowhere
        (tokens.map LexedToken.bare) =
      (readFrom state diagnostics lastLocation tokens).bare := by
  induction tokens generalizing state diagnostics lastLocation with
  | nil =>
      rw [List.map_nil, readFrom, readFrom, state.finish_bare lastLocation]
      rfl
  | cons token rest induction =>
      rw [List.map_cons, readFrom, readFrom, state.step_bare,
        state.problems_bare]
      cases state.step token with
      | error error => rfl
      | ok next =>
          have reported : (diagnostics ++ state.problems token).map
              Diagnostic.bare = diagnostics.map Diagnostic.bare ++
                (state.problems token).map Diagnostic.bare := by
            simp [← Array.toList_inj]
          have later := induction next (diagnostics ++ state.problems token)
            token.location
          rwa [reported] at later

/-- Tokens without locations give the same tree, without locations. -/
theorem read_bare (tokens : List LexedToken) :
    read (tokens.map LexedToken.bare) = (read tokens).bare := by
  have same := readFrom_bare .start #[] .nowhere tokens
  rwa [Array.map_empty] at same

end Node

/-! ## Analysing a text -/

/-- The analysis of what was read. -/
def SourceAnalysis.ofReading (reading : Node.Reading) : SourceAnalysis :=
  match reading.result with
  | .error error => ⟨.error error, reading.diagnostics⟩
  | .ok root => ⟨.ok (analyse root).1, reading.diagnostics ++ (analyse root).2⟩

theorem analyseSource_eq_ofReading (source file : String) :
    analyseSource source file = .ofReading (Node.read (Token.lex source file)) :=
  rfl

namespace SourceAnalysis

/-- The outcome of an analysis, without locations. -/
def bare (analysis : SourceAnalysis) : SourceAnalysis where
  result := bareOutcome id analysis.result
  diagnostics := analysis.diagnostics.map Diagnostic.bare

theorem ofReading_bare (reading : Node.Reading) :
    ofReading reading.bare = (ofReading reading).bare := by
  obtain ⟨result, diagnostics⟩ := reading
  cases result with
  | error error => rfl
  | ok root =>
      simp only [ofReading, bare, Node.Reading.bare, bareOutcome, analyse_bare,
        Array.map_append, id]

end SourceAnalysis

/-- The same tokens mean the same. -/
theorem analyseSource_bare_congr
    {source other file otherFile : String}
    (same : (Token.lex source file).map LexedToken.result =
      (Token.lex other otherFile).map LexedToken.result) :
    (analyseSource source file).bare = (analyseSource other otherFile).bare := by
  rw [analyseSource_eq_ofReading, analyseSource_eq_ofReading,
    ← SourceAnalysis.ofReading_bare, ← SourceAnalysis.ofReading_bare,
    ← Node.read_bare, ← Node.read_bare, LexedToken.map_bare_congr same]

/-! ## Messages -/

/-- A problem that mentions another line, if it mentions one. -/
def Problem.quoting (line : Nat) : Problem → Problem
  | .alreadyOnElement relation _ => .alreadyOnElement relation line
  | .alreadyStarted relation _ => .alreadyStarted relation line
  | problem => problem

theorem Problem.quoting_bare (line : Nat) (problem : Problem) :
    problem.bare.quoting line = problem.quoting line := by
  cases problem <;> rfl

theorem Problem.exists_eq_quoting (problem : Problem) :
    ∃ line, problem = problem.quoting line := by
  cases problem with
  | alreadyOnElement relation line => exact ⟨line, rfl⟩
  | alreadyStarted relation line => exact ⟨line, rfl⟩
  | _ => exact ⟨0, rfl⟩

/-- The second report has the message of the first, up to the line number quoted
inside it. -/
def Diagnostic.SaysTheSame (report other : Diagnostic) : Prop :=
  ∃ line, other.message = (report.problem.quoting line).message

theorem Diagnostic.SaysTheSame.of_bare
    {report other : Diagnostic} (same : report.bare = other.bare) :
    report.SaysTheSame other := by
  obtain ⟨line, quoted⟩ := other.problem.exists_eq_quoting
  refine ⟨line, congrArg Problem.message ?_⟩
  calc other.problem
      = other.problem.quoting line := quoted
    _ = other.bare.problem.quoting line :=
        (other.problem.quoting_bare line).symm
    _ = report.bare.problem.quoting line := by rw [same]
    _ = report.problem.quoting line := report.problem.quoting_bare line

theorem Diagnostic.forall₂_saysTheSame
    {reports others : List Diagnostic}
    (same : reports.map Diagnostic.bare = others.map Diagnostic.bare) :
    List.Forall₂ Diagnostic.SaysTheSame reports others := by
  have equal : List.Forall₂ Eq
      (reports.map Diagnostic.bare) (others.map Diagnostic.bare) := by
    rw [same]
    exact List.forall₂_refl _
  refine List.Forall₂.imp (fun _ _ => SaysTheSame.of_bare) ?_
  exact List.forall₂_map_right_iff.mp (List.forall₂_map_left_iff.mp equal)

/-! ## Texts with the same tokens -/

/-- Two texts whose tokens differ in nothing but their locations either fail with
the same error code or give the same model, and their reports say the same. -/
theorem alike_analyseSource
    (source other file otherFile : String)
    (same : (Token.lex source file).map LexedToken.result =
      (Token.lex other otherFile).map LexedToken.result) :
    ((∃ error otherError,
        (analyseSource source file).result = .error error ∧
        (analyseSource other otherFile).result = .error otherError ∧
        error.code = otherError.code) ∨
      ∃ model, (analyseSource source file).result = .ok model ∧
        (analyseSource other otherFile).result = .ok model) ∧
    List.Forall₂ Diagnostic.SaysTheSame
      (analyseSource source file).diagnostics.toList
      (analyseSource other otherFile).diagnostics.toList := by
  have alike := analyseSource_bare_congr same
  have results := congrArg SourceAnalysis.result alike
  have reports := congrArg (fun analysis => analysis.diagnostics.toList) alike
  refine ⟨SyntaxError.bareOutcome_cases results, ?_⟩
  refine Diagnostic.forall₂_saysTheSame ?_
  simpa only [SourceAnalysis.bare, Array.toList_map] using reports

/-- Compact notation, blanks and a comment leave the tokens as they are.  The second
start of tie 1 is rejected in both texts, with another line in its report. -/
theorem alike_rejected_start :
    ∃ source other,
      source =
        "(musicData (n c4 q (tie 1 start)) // one\n (n d4 q (tie 1 start) dx:5))" ∧
      other =
        "\n\n(musicData(n c4 q(tie 1 start))(n d4 q (tie 1 start)(dx 5)))" ∧
      (Token.lex source "a").map LexedToken.result =
        (Token.lex other "b").map LexedToken.result ∧
      (∃ model, (analyseSource source "a").result = .ok model ∧
        (analyseSource other "b").result = .ok model) ∧
      List.Forall₂ Diagnostic.SaysTheSame
        (analyseSource source "a").diagnostics.toList
        (analyseSource other "b").diagnostics.toList ∧
      Problem.alreadyStarted .tie 0 ∈
        (analyseSource source "a").diagnostics.map Diagnostic.problem ∧
      Problem.alreadyStarted .tie 2 ∈
        (analyseSource other "b").diagnostics.map Diagnostic.problem := by
  refine ⟨_, _, rfl, rfl, ?_⟩
  have same : (Token.lex
        "(musicData (n c4 q (tie 1 start)) // one\n (n d4 q (tie 1 start) dx:5))"
        "a").map LexedToken.result =
      (Token.lex
        "\n\n(musicData(n c4 q(tie 1 start))(n d4 q (tie 1 start)(dx 5)))"
        "b").map LexedToken.result := by
    decide +kernel
  obtain ⟨results, reports⟩ := alike_analyseSource _ _ _ _ same
  refine ⟨same, ?_, reports, by decide +kernel, by decide +kernel⟩
  rcases results with ⟨error, _, failed, _⟩ | accepted
  · have accepts : (analyseSource
        "(musicData (n c4 q (tie 1 start)) // one\n (n d4 q (tie 1 start) dx:5))"
        "a").result.toBool = true := by
      decide +kernel
    rw [failed] at accepts
    cases accepts
  · exact accepted

end LdpScore
