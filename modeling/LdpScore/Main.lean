import LdpScore.CommandLine

/-!
# The program

The outer layer: reads the files, runs the program and writes what it leaves
behind, the screen to standard output and everything else to standard error.
-/

namespace LdpScore.Main

open LdpScore.CommandLine

/-- The text of a file; nothing if it cannot be read or is not text. -/
def readText (file : String) : IO (Option String) := do
  try
    let bytes ← IO.FS.readBinFile file
    return String.fromUTF8? bytes
  catch _ => return none

def writeReport (arrows : ArrowStyle) (report : Report) : String :=
  match report.place with
  | some place => report.header ++ "\n  " ++ arrows.arrow ++ " " ++ place.describe
  | none => report.header

/-- What is written about the end of a run. -/
def writeEnding : Ending → Option String
  | .success => none
  | .failure failure => some ("Error: " ++ failure.message)
  | .usage error => some ("error: " ++ error.message ++ "\n\n" ++ usage)

end LdpScore.Main

/-- Runs the program on the arguments of the command line. -/
def main (arguments : List String) : IO UInt32 := do
  let files ← (LdpScore.CommandLine.mentionedFiles arguments).mapM fun file => do
    return (file, ← LdpScore.Main.readText file)
  let surroundings : LdpScore.CommandLine.Surroundings :=
    { readText := fun file => (files.lookup file).join
      screenSupportsColor := LdpScore.CommandLine.supportsColor (← IO.getEnv "TERM")
        (← IO.getEnv "NO_COLOR") }
  let outcome := LdpScore.CommandLine.run surroundings arguments
  IO.print outcome.screen
  for report in outcome.reports do
    IO.eprintln (LdpScore.Main.writeReport outcome.arrows report)
  match LdpScore.Main.writeEnding outcome.ending with
  | some message => IO.eprintln message
  | none => pure ()
  return outcome.ending.exitCode.toUInt32
