import LdpScore.Proofs.Reader.Acceptance

/-!
# Unfinished and wrong texts

While a list of tokens can still become an element, the reader has no quarrel with
it: if it ends too early, that is what is reported, and there are tokens that
complete it.  Any other error shows at the first token that no continuation can
mend, and what follows that token does not matter.
-/

namespace LdpScore.Node

namespace State

/-! ## Completion -/

/-- Closing parentheses lead out of every open element. -/
theorem exists_completion_inside (frame : Frame) (outer : List Frame) :
    ∃ more root, more ≠ [] ∧ (inside frame outer).run more = .ok (done root) := by
  let closing : LexedToken := ⟨.ok .parenRight, .nowhere⟩
  have stepped : ∀ (frame : Frame) (outer : List Frame),
      (inside frame outer).step closing =
        .ok (leave (frame.close .nowhere) outer) :=
    step_inside_of_closes rfl
  induction outer generalizing frame with
  | nil =>
      refine ⟨[closing], frame.close .nowhere, List.cons_ne_nil _ _, ?_⟩
      rw [run_cons_of_step (stepped frame [])]
      rfl
  | cons next outer induction =>
      obtain ⟨more, root, _, reached⟩ := induction (next.add (frame.close .nowhere))
      refine ⟨closing :: more, root, List.cons_ne_nil _ _, ?_⟩
      rw [run_cons_of_step (stepped frame (next :: outer))]
      exact reached

theorem exists_completion_opened (location : Location) (outer : List Frame) :
    ∃ more root, more ≠ [] ∧
      (opened location outer).run more = .ok (done root) := by
  let tag : LexedToken := ⟨.ok (.label "n"), .nowhere⟩
  obtain ⟨more, root, _, reached⟩ := exists_completion_inside
    ⟨tagName "n", tagId? "n", location, []⟩ outer
  refine ⟨tag :: more, root, List.cons_ne_nil _ _, ?_⟩
  rw [run_cons_of_step (step_opened_of_label rfl location outer)]
  exact reached

/-- Whatever has been read without an error can become a whole tree. -/
theorem exists_completion (state : State) (unfinished : ∀ root, state ≠ done root) :
    ∃ more root, more ≠ [] ∧ state.run more = .ok (done root) := by
  cases state with
  | start =>
      let opening : LexedToken := ⟨.ok .parenLeft, .nowhere⟩
      obtain ⟨more, root, _, reached⟩ := exists_completion_opened .nowhere []
      refine ⟨opening :: more, root, List.cons_ne_nil _ _, ?_⟩
      rw [run_cons_of_step (step_start_of_opens rfl)]
      exact reached
  | opened location outer => exact exists_completion_opened location outer
  | inside frame outer => exact exists_completion_inside frame outer
  | done root => exact absurd rfl (unfinished root)

/-! ## Errors -/

/-- No token is the end of the tokens. -/
theorem step_ne_endOfFile
    (state : State) (token : LexedToken) (expected : Expectation)
    (location : Location) :
    state.step token ≠ .error (.unexpectedEndOfFile expected location) := by
  obtain ⟨result, _⟩ := token
  cases state with
  | start => rcases result with _ | _ | _ | _ | _ | _ <;> exact nofun
  | opened => rcases result with _ | _ | _ | _ | _ | _ <;> exact nofun
  | done => rcases result with _ | _ | _ | _ | _ | _ <;> exact nofun
  | inside frame outer =>
      rcases result with _ | _ | _ | _ | _ | _
      case ok.parenLeft =>
        dsimp only [step]
        split <;> exact nofun
      all_goals exact nofun

theorem run_ne_endOfFile
    (state : State) (tokens : List LexedToken) (expected : Expectation)
    (location : Location) :
    state.run tokens ≠ .error (.unexpectedEndOfFile expected location) := by
  induction tokens generalizing state with
  | nil => exact nofun
  | cons token rest induction =>
      cases stepped : state.step token with
      | error error =>
          rw [run_cons_of_error stepped, ← stepped]
          exact step_ne_endOfFile state token expected location
      | ok next =>
          rw [run_cons_of_step stepped]
          exact induction next

theorem unfinished_of_finish
    {state : State} {location : Location} {error : SyntaxError}
    (failed : state.finish location = .error error) :
    (∀ root, state ≠ done root) ∧
      ∃ expected, error = .unexpectedEndOfFile expected location := by
  cases state with
  | done root => cases failed
  | start | opened | inside =>
      cases failed
      exact ⟨nofun, _, rfl⟩

theorem finish_of_unfinished
    {state : State} (unfinished : ∀ root, state ≠ done root)
    (location : Location) :
    ∃ expected,
      state.finish location = .error (.unexpectedEndOfFile expected location) := by
  cases state with
  | done root => exact absurd rfl (unfinished root)
  | start | opened | inside => exact ⟨_, rfl⟩

end State

open State

/-- The tokens end too early where what they are the beginning of is accepted. -/
theorem result_read_endOfFile_iff (tokens : List LexedToken) :
    (∃ expected location,
      (read tokens).result = .error (.unexpectedEndOfFile expected location)) ↔
    ∃ more, more ≠ [] ∧ ∃ root, (read (tokens ++ more)).result = .ok root := by
  constructor
  · rintro ⟨expected, location, failed⟩
    cases reached : start.run tokens with
    | error error =>
        rw [result_read_of_error reached] at failed
        cases failed
        exact absurd reached (run_ne_endOfFile start tokens expected location)
    | ok state =>
        rw [result_read_of_run reached] at failed
        obtain ⟨unfinished, _⟩ := unfinished_of_finish failed
        obtain ⟨more, root, several, completed⟩ :=
          state.exists_completion unfinished
        refine ⟨more, several, root, result_read_eq_ok_iff.mpr ?_⟩
        rw [run_append_of_ok reached, completed]
  · rintro ⟨more, several, root, accepted⟩
    have completed := result_read_eq_ok_iff.mp accepted
    cases reached : start.run tokens with
    | error error =>
        rw [run_append_of_error reached] at completed
        cases completed
    | ok state =>
        rw [run_append_of_ok reached] at completed
        have unfinished : ∀ root, state ≠ done root := by
          rintro root rfl
          exact several (run_done_eq_ok completed).1
        obtain ⟨expected, failed⟩ := finish_of_unfinished unfinished
          (lastLocation .nowhere tokens)
        exact ⟨expected, _, by rw [result_read_of_run reached, failed]⟩

/-- An error that is not the end of the tokens is there whatever follows. -/
theorem result_read_append_of_error
    {tokens : List LexedToken} {error : SyntaxError}
    (failed : (read tokens).result = .error error)
    (notEnd : ∀ expected location, error ≠ .unexpectedEndOfFile expected location)
    (more : List LexedToken) :
    (read (tokens ++ more)).result = .error error := by
  cases reached : start.run tokens with
  | error other =>
      rw [result_read_of_error reached] at failed
      cases failed
      exact result_read_of_error (run_append_of_error reached more)
  | ok state =>
      rw [result_read_of_run reached] at failed
      obtain ⟨_, expected, isEnd⟩ := unfinished_of_finish failed
      exact absurd isEnd (notEnd expected _)

/-- The end of the tokens is reported exactly where they can be continued to a whole
element; every other error is the same, code and location, whatever follows. -/
theorem endsEarly_iff_isPrefix (tokens : List LexedToken) :
    ((∃ expected location,
        (read tokens).result = .error (.unexpectedEndOfFile expected location)) ↔
      ∃ more, more ≠ [] ∧ ∃ root, (read (tokens ++ more)).result = .ok root) ∧
    ∀ error, (read tokens).result = .error error →
      (∀ expected location, error ≠ .unexpectedEndOfFile expected location) →
      ∀ more, (read (tokens ++ more)).result = .error error :=
  ⟨result_read_endOfFile_iff tokens,
    fun _ failed notEnd more => result_read_append_of_error failed notEnd more⟩

/-- An unfinished note, and a note with a comma in it. -/
theorem endsEarly_and_comma :
    (∃ more, more ≠ [] ∧ ∃ root,
      (read (Token.lex "(n c4" "" ++ more)).result = .ok root) ∧
    ∀ more, (read (Token.lex "(n c4," "" ++ more)).result =
      .error (.lexical .unexpectedCharacter .closeParenthesis ⟨"", 5, 6, 0, 5⟩) := by
  have early : (read (Token.lex "(n c4" "")).result =
      .error (.unexpectedEndOfFile .closeParenthesis ⟨"", 3, 5, 0, 3⟩) :=
    rfl
  have wrong : (read (Token.lex "(n c4," "")).result =
      .error (.lexical .unexpectedCharacter .closeParenthesis ⟨"", 5, 6, 0, 5⟩) :=
    rfl
  exact ⟨(endsEarly_iff_isPrefix _).1.mp ⟨_, _, early⟩,
    (endsEarly_iff_isPrefix _).2 _ wrong nofun⟩

end LdpScore.Node
