import FormulaLang.CommandLine.Outcome

/-!
# `Main` — the command line program

Evaluates one expression and prints its value.
-/

namespace FormulaLang.CommandLine

/-- The text of an open file. One that holds no text counts as empty, which no reader of settings
accepts. -/
def readText (handle : IO.FS.Handle) : IO String := do
  try return (String.fromUTF8? (← handle.readBinToEnd)).getD ""
  catch _ => return ""

/-- The text of a file, or nothing if it cannot be opened. -/
def readFile (path : String) : IO (Option String) := do
  try return some (← readText (← IO.FS.Handle.mk path .read))
  catch _ => return none

/-- The file that a command names for its settings. -/
def configPath? (words : List String) : Option String :=
  match Command.ofWords words with
  | .ok (.evaluate options _) => options.config
  | _ => none

/-- Carries out a command, with the one file that it may name. -/
def runIO (words : List String) : IO UInt32 := do
  let text ←
    match configPath? words with
    | some path => readFile path
    | none => pure none
  match run (fun _ => text) words with
  | none => return 1
  | some outcome =>
    IO.print outcome.stdout
    IO.eprint outcome.stderr
    return outcome.status

end FormulaLang.CommandLine

def main (words : List String) : IO UInt32 := FormulaLang.CommandLine.runIO words
