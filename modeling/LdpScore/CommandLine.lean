import LdpScore.Analysis
import LdpScore.CommandLine.Invocation
import LdpScore.CommandLine.Report
import LdpScore.CommandLine.Screen
import LdpScore.Grammar
import LdpScore.Score.Listing

/-!
# The command line

A run of the program as a pure function of its arguments, the files it can read and
whether its screen shows colors.  What it writes, what it reports and how it ends
are gathered in an `Outcome`.

A file that cannot be read ends a run at once, and what was written before stays.
A file that is not well formed is passed over and makes the run fail in the end.
-/

namespace LdpScore.CommandLine

/-- What surrounds a run. -/
structure Surroundings where
  /-- The text of a file; nothing if it cannot be read as text. -/
  readText : String → Option String
  screenSupportsColor : Bool

/-- Why a run fails. -/
inductive Failure where
  | unreadable (file : String)
  | badSettings (file : String)
  | illFormed (files : Nat)
  | problems (count : Nat)
  | unknownElement (name : String)
deriving DecidableEq, Repr

def Failure.message : Failure → String
  | unreadable file => s!"failed to read '{file}'"
  | badSettings file => s!"failed to parse '{file}'"
  | illFormed files => s!"{files} file(s) could not be parsed"
  | problems count => s!"{count} problem(s) found"
  | unknownElement name => s!"unknown element '{name}'"

/-- How a run ends. -/
inductive Ending where
  | success
  | failure (failure : Failure)
  | usage (error : UsageError)
deriving DecidableEq, Repr

def Ending.exitCode : Ending → Nat
  | success => 0
  | failure _ => 1
  | usage _ => 2

/-- What a run leaves behind. -/
structure Outcome where
  screen : String := ""
  /-- The reports in order. -/
  reports : List Report := []
  arrows : ArrowStyle := .unicode
  ending : Ending := .success

/-! ## Checking files -/

/-- What has been done so far. -/
structure Progress where
  pieces : List Piece := []
  reports : List Report := []
  illFormed : Nat := 0
  /-- How many problems the other files have. -/
  problems : Nat := 0

namespace Progress

def write (progress : Progress) (style : Style) (text : String) : Progress :=
  { progress with pieces := progress.pieces ++ [⟨style, text⟩] }

/-- Writes a piece of text if more than the result is to be shown. -/
def writeIf (progress : Progress) (isVerbose : Bool) (style : Style) (text : String) : Progress :=
  if isVerbose then progress.write style text else progress

def report (progress : Progress) (reports : List Report) : Progress :=
  { progress with reports := progress.reports ++ reports }

end Progress

def describeToken (token : LexedToken) : String :=
  match token.result with
  | .ok token => token.describe ++ "   "
  | .error _ => "ERROR   "

def summarize (file : String) (count : Nat) (progress : Progress) : Progress :=
  let written :=
    if count = 0 then progress.write .success s!"{file}: no problems found.\n"
    else progress.write .warning s!"{file}: {count} problem(s) found.\n"
  written.write .plain ""

def checkSource (request : CheckRequest) (file source : String) (progress : Progress) : Progress :=
  let verbose := request.isVerbose
  let tokens := Token.lex source file
  let progress := progress.writeIf verbose .plain s!"Lexing {file}...\n"
  let progress :=
    progress.writeIf verbose .faint (String.join (tokens.map describeToken) ++ "\n\n")
  let progress := progress.writeIf verbose .plain s!"Parsing {file}...\n"
  let reading := Node.read tokens
  let found := reading.diagnostics.toList
  match reading.result with
  | .error error =>
      let progress := progress.report (found.map (Report.ofDiagnostic source))
      let progress := (progress.write .failure "\n").report [Report.ofSyntaxError source error]
      { progress with illFormed := progress.illFormed + 1 }
  | .ok root =>
      let progress := progress.writeIf verbose .faint (root.toLdp ++ "\n\n")
      let progress := progress.writeIf verbose .plain s!"Analysing {file}...\n"
      let (model, diagnostics) := analyse root
      let found := found ++ diagnostics.toList
      let progress := progress.report (found.map (Report.ofDiagnostic source))
      let progress :=
        if request.listsModel then progress.write .plain model.listing else progress
      let progress := summarize file found.length progress
      { progress with problems := progress.problems + found.length }

/-- Checks files in order, up to the first that cannot be read. -/
def checkFiles (readText : String → Option String) (request : CheckRequest) :
    List String → Progress → Progress × Option Failure
  | [], progress => (progress, none)
  | file :: rest, progress =>
      match readText file with
      | some source => checkFiles readText request rest (checkSource request file source progress)
      | none => (progress, some (.unreadable file))

/-- How a check ends when all files were read. -/
def verdict (request : CheckRequest) (progress : Progress) : Ending :=
  if 0 < progress.illFormed then .failure (.illFormed progress.illFormed)
  else if request.isStrict && 0 < progress.problems then .failure (.problems progress.problems)
  else .success

/-- A request with the settings from a file.  An option of the command line that is
not left at its default takes precedence. -/
def withSettings (request : CheckRequest) (settings : Settings) : CheckRequest :=
  { request with
    isStrict := request.isStrict || settings.isStrict
    isVerbose := request.isVerbose || settings.isVerbose
    color := if request.color.getD .auto = .auto then settings.color else request.color
    arrows := if request.arrows.getD .unicode = .unicode then settings.arrows else request.arrows }

def loadSettings (readText : String → Option String) (file : Option String) :
    Except Failure Settings :=
  match file with
  | none => .ok {}
  | some file =>
      match readText file with
      | none => .error (.unreadable file)
      | some text =>
          match Settings.ofText? text with
          | some settings => .ok settings
          | none => .error (.badSettings file)

def check (surroundings : Surroundings) (given : CheckRequest) : Outcome :=
  match loadSettings surroundings.readText given.settingsFile with
  | .error failure => { ending := .failure failure }
  | .ok settings =>
      let request := withSettings given settings
      let colored := isColored (request.color.getD .auto) surroundings.screenSupportsColor
      let (progress, failure) := checkFiles surroundings.readText request request.files {}
      let (progress, ending) : Progress × Ending := match failure with
        | some failure => (progress, .failure failure)
        | none => (progress.writeIf request.isVerbose .plain "Done.\n", verdict request progress)
      { screen := render colored progress.pieces
        reports := progress.reports
        arrows := request.arrows.getD .unicode
        ending := ending }

/-! ## Other commands -/

/-- Shows the production of one element, or those of all. -/
def showGrammar (surroundings : Surroundings) (element : Option String) : Outcome :=
  let screen := fun (entries : List Grammar.Entry) =>
    render (isColored .auto surroundings.screenSupportsColor)
      (entries.map fun entry => ⟨.plain, entry.describe ++ "\n"⟩)
  match element with
  | none => { screen := screen Grammar.entries }
  | some name =>
      match Grammar.lookup? name with
      | some entry => { screen := screen [entry] }
      | none => { ending := .failure (.unknownElement name) }

def programName : String := "cadenza"

def programVersion : String := "0.1.0"

/-- The version of the program, or of one of its commands. -/
def describeVersion (command : Option String) : String :=
  let name := match command with
    | some command => programName ++ "-" ++ command
    | none => programName
  s!"{name} {programVersion}\n"

def usage : String :=
  s!"Usage: {programName} [check|dump] [--config FILE] [--strict] [-v|--verbose]\n" ++
    "           [--color auto|always|never] [--arrows unicode|ascii] FILE...\n" ++
    s!"       {programName} grammar [ELEMENT]\n"

def run (surroundings : Surroundings) (arguments : List String) : Outcome :=
  match Invocation.ofArguments arguments with
  | .error error => { ending := .usage error }
  | .ok (.check request) => check surroundings request
  | .ok (.grammar element) => showGrammar surroundings element
  | .ok (.version command) => { screen := describeVersion command }
  | .ok .help => { screen := usage }

/-- The files that a run may read. -/
def mentionedFiles (arguments : List String) : List String :=
  match Invocation.ofArguments arguments with
  | .ok (.check request) => request.settingsFile.toList ++ request.files
  | _ => []

end LdpScore.CommandLine
