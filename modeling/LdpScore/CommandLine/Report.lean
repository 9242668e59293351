import LdpScore.Diagnostic
import LdpScore.Source.Place

/-!
# Reports

A report tells the user about one diagnostic or syntax error: a header in words
and the place in the source.
-/

namespace LdpScore.CommandLine

/-- A problem as it is told to the user. -/
structure Report where
  header : String
  /-- Where, unless it is in no file. -/
  place : Option Place
deriving DecidableEq, Repr

namespace Report

/-- The report of a diagnostic, which is a warning. -/
def ofDiagnostic (source : String) (diagnostic : Diagnostic) : Report :=
  ⟨"Warning: " ++ diagnostic.message, Place.ofLocation? source diagnostic.location⟩

/-- The report of a syntax error, with its number. -/
def ofSyntaxError (source : String) (error : SyntaxError) : Report :=
  ⟨s!"[E{error.code}] Error: {error.title}", Place.ofLocation? source error.location⟩

end Report

end LdpScore.CommandLine
