import FormulaLang.CommandLine.Arguments
import FormulaLang.CommandLine.Report
import FormulaLang.Json.ToValue
import FormulaLang.Vm.ConfigReader
import FormulaLang.Vm.Session

/-!
# `CommandLine.Outcome` — from the words of a command to its outcome

A command reads its settings first, then its bindings, and then evaluates its expression once, with
the builtin functions and no host. The single bindings count more than those of the JSON object.
-/

namespace FormulaLang.CommandLine

/-- How a command ends. -/
inductive Outcome where
  /-- With a result. -/
  | printed (text : String)
  /-- Without an attempt, since the words are no command. -/
  | misused (misuse : Misuse)
  /-- Before evaluation; `failed` says what could not be done. -/
  | unprepared (failed : String)
  /-- With an expression that has no value. -/
  | unevaluated (expression : String) (error : Error)

/-- The name and the version of the program. -/
def versionText : String := "arith-eval 0.1.0\n"

/-- How the program is used. -/
def usage : String := "Usage: arith-eval [OPTIONS] <EXPR>\n"

/-- What the program does and which options it takes, in brief. -/
def briefHelp : String :=
  "Evaluates a single integer expression and prints the result\n\n" ++ usage ++
  "\nArguments:\n" ++
  "  <EXPR>  The expression to evaluate\n" ++
  "\nOptions:\n" ++
  "      --var <NAME=VALUE>  Bind a variable, e.g. `--var a=2`. Values that parse as integers " ++
  "are bound as integers, anything else as a string\n" ++
  "      --env <JSON>        A JSON object of variable bindings\n" ++
  "      --config <FILE>     Path to a JSON VM config file\n" ++
  "      --no-optimize       Skip constant folding of function calls\n" ++
  "      --no-builtins       Start without the builtin functions\n" ++
  "  -h, --help              Print help (see more with '--help')\n" ++
  "  -V, --version           Print version\n"

/-- What the program does and which options it takes, at length. -/
def fullHelp : String :=
  "Evaluates a single integer expression and prints the result.\n\n" ++
  "Variables can be bound individually with `--var name=value` or all at once from a JSON " ++
  "object with `--env`. Individual bindings win over the JSON object.\n\n" ++ usage ++
  "\nArguments:\n" ++
  "  <EXPR>\n          The expression to evaluate\n" ++
  "\nOptions:\n" ++
  "      --var <NAME=VALUE>\n          Bind a variable, e.g. `--var a=2`. Values that parse as " ++
  "integers are bound as integers, anything else as a string\n\n" ++
  "      --env <JSON>\n          A JSON object of variable bindings\n\n" ++
  "      --config <FILE>\n          Path to a JSON VM config file\n\n" ++
  "      --no-optimize\n          Skip constant folding of function calls\n\n" ++
  "      --no-builtins\n          Start without the builtin functions\n\n" ++
  "  -h, --help\n          Print help (see a summary with '-h')\n\n" ++
  "  -V, --version\n          Print version\n"

/-- The settings of a command. `file` has the text of a file, or nothing if it cannot be opened. -/
def readConfig (file : String → Option String) (options : Options) : Except String Config := do
  let config ←
    match options.config with
    | none => .ok Config.standard
    | some path =>
      match file path with
      | none => .error ("opening " ++ path)
      | some text =>
        match Config.ofJson text with
        | .ok config => .ok config
        | .error _ => .error ("reading config " ++ path)
  .ok (if options.noOptimize then { config with optimize := false } else config)

/-- The bindings of a command. -/
def readEnv (options : Options) : Except String Env := do
  let members ←
    match options.env with
    | none => .ok []
    | some text =>
      match Json.parse text with
      | .ok (.object members) => .ok members
      | .ok _ => .error "--env must be a JSON object"
      | .error _ => .error "parsing --env"
  let bindings := members.mapIdx fun id (name, json) => (name, json.toValue id)
  .ok ((Env.empty.bindAll bindings).bindAll options.vars)

/-- A host without code. -/
def noHost : Host Unit Empty := ⟨fun code _ => nomatch code⟩

/-- Evaluates a source once. Builtin functions do not call back, so one call runs at a time and one
round of folding settles. -/
def evaluate (registry : Registry Empty) (config : Config) (source : String) (env : Env) :
    Option (Except Error Value) :=
  let session : Session Unit Empty := ⟨.new registry config, (), []⟩
  ((noHost.perform 1 (.eval source env)).run session).map fun (answer, _) => answer

/-- Carries out a command. -/
def run (file : String → Option String) (words : List String) : Option Outcome :=
  match Command.ofWords words with
  | .error misuse => some (.misused misuse)
  | .ok .version => some (.printed versionText)
  | .ok .briefHelp => some (.printed briefHelp)
  | .ok .fullHelp => some (.printed fullHelp)
  | .ok (.evaluate options expression) =>
    match readConfig file options with
    | .error failed => some (.unprepared failed)
    | .ok config =>
      match readEnv options with
      | .error failed => some (.unprepared failed)
      | .ok env =>
        let registry := if options.noBuiltins then .empty else .builtins
        match evaluate registry config expression env with
        | some (.ok v) => some (.printed (v.display ++ "\n"))
        | some (.error error) => some (.unevaluated expression error)
        | none => none

namespace Outcome

/-- The exit status of a command. -/
def status : Outcome → UInt32
  | .printed _ => 0
  | .misused _ => 2
  | .unprepared _ | .unevaluated _ _ => 1

/-- What a command prints as its result. -/
def stdout : Outcome → String
  | .printed text => text
  | _ => ""

/-- What a command reports. -/
def stderr : Outcome → String
  | .printed _ => ""
  | .misused misuse => "error: " ++ misuse.message ++ "\n\n" ++ usage ++
    "\nFor more information, try '--help'.\n"
  | .unprepared failed => headline failed ++ "\n"
  | .unevaluated expression error =>
    report ("evaluating " ++ Text.quoted expression) (error.message :: error.causes)

end Outcome

end FormulaLang.CommandLine
