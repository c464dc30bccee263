/-!
# `CommandLine.Report` — failures as text for people

A report names what failed and lists the causes, the nearest first. A single cause is indented;
several are numbered, and the further lines of a cause stand under its first.
-/

namespace FormulaLang.CommandLine

/-- The first line of a report. -/
def headline (failed : String) : String := "Error: " ++ failed

/-- Starts the first line of a text with `first` and every other one with `other`. -/
def indent (first other : String) (text : String) : String :=
  first ++ ("\n" ++ other).intercalate ((text.splitOn "\n"))

/-- `number` in at least five places. -/
def numberLabel (number : Nat) : String :=
  let digits := toString number
  String.ofList (List.replicate (5 - digits.length) ' ') ++ digits ++ ": "

/-- Causes as the paragraphs of a report. -/
def causeLines : List String → List String
  | [cause] => [indent "    " "    " cause]
  | causes => causes.mapIdx fun i cause => indent (numberLabel i) "       " cause

/-- A report on what failed and why. -/
def report (failed : String) (causes : List String) : String :=
  "\n".intercalate (headline failed :: "" :: "Caused by:" :: causeLines causes) ++ "\n"

end FormulaLang.CommandLine
