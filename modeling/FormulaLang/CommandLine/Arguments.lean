import FormulaLang.Numeral
import FormulaLang.Value.Basic

/-!
# `CommandLine.Arguments` — what the words of a command mean

Words are read from left to right, options and the expression in any order, and the first fault ends
the reading. An option that takes a value takes it from the same word, after `=`, or from the next
one, which may then not begin with `-`. After a word `--` no word is an option.
-/

namespace FormulaLang.CommandLine

/-- What a command asks for. -/
structure Options where
  /-- Bindings of variables, in the order given. -/
  vars : List (String × Value)
  /-- Bindings of variables as a JSON object. -/
  env : Option String
  /-- Where the settings are. -/
  config : Option String
  noOptimize : Bool
  noBuiltins : Bool
  expression : Option String
deriving Repr

/-- Nothing yet. -/
def Options.empty : Options := ⟨[], none, none, false, false, none⟩

/-- A command: to evaluate, or to tell something about the program. -/
inductive Command where
  | evaluate (options : Options) (expression : String)
  | version
  | briefHelp
  | fullHelp

/-- What is wrong with the words of a command. -/
inductive Misuse where
  | unknownOption (word : String)
  | unexpectedValue (option : String)
  | missingValue (option : String)
  | invalidValue (option value : String)
  | repeated (option : String)
  | unexpectedArgument (word : String)
  | missingExpression
deriving DecidableEq, Repr

/-- The text of a misuse. -/
def Misuse.message : Misuse → String
  | .unknownOption word => s!"unexpected argument '{word}' found"
  | .unexpectedValue option => s!"unexpected value for '{option}' found; no more were expected"
  | .missingValue option => s!"a value is required for '{option}' but none was supplied"
  | .invalidValue option value => s!"invalid value '{value}' for '{option}'"
  | .repeated option => s!"the argument '{option}' cannot be used multiple times"
  | .unexpectedArgument word => s!"unexpected argument '{word}' found"
  | .missingExpression => "the following required arguments were not provided:\n  <EXPR>"

/-- A binding `NAME=VALUE`: the name is not empty and ends at the first `=`; a value that reads as
an integer is one, and any other is a text. -/
def binding? (word : String) : Option (String × Value) :=
  match word.toList.span (· != '=') with
  | ([], _) => none
  | (_, []) => none
  | (name, _ :: value) =>
    let text := String.ofList value
    some (String.ofList name, ((Numeral.read? text).map Value.integer).getD (.string text))

/-- The options that take a value. -/
inductive Valued where
  | var
  | env
  | config
deriving DecidableEq, Repr

/-- The name of an option that takes a value. -/
def Valued.name : Valued → String
  | .var => "--var"
  | .env => "--env"
  | .config => "--config"

/-- Takes note of the value of an option. -/
def Valued.set (option : Valued) (value : String) (options : Options) : Except Misuse Options :=
  match option with
  | .var =>
    match binding? value with
    | some binding => .ok { options with vars := options.vars ++ [binding] }
    | none => .error (.invalidValue option.name value)
  | .env =>
    if options.env.isSome then .error (.repeated option.name)
    else .ok { options with env := some value }
  | .config =>
    if options.config.isSome then .error (.repeated option.name)
    else if value.isEmpty then .error (.invalidValue option.name value)
    else .ok { options with config := some value }

/-- Takes note of the expression. -/
def Options.setExpression (options : Options) (word : String) : Except Misuse Options :=
  match options.expression with
  | some _ => .error (.unexpectedArgument word)
  | none => .ok { options with expression := some word }

/-- The word after `--` and before `=`, and what follows the `=`, of a long option. -/
def splitLong (word : List Char) : String × Option String :=
  match word.span (· != '=') with
  | (name, []) => (String.ofList name, none)
  | (name, _ :: value) => (String.ofList name, some (String.ofList value))

/-- A long option, by its name. -/
inductive Long where
  | valued (option : Valued)
  | noOptimize
  | noBuiltins
  | version
  | help

/-- The long option of a name. -/
def Long.ofName? : String → Option Long
  | "var" => some (.valued .var)
  | "env" => some (.valued .env)
  | "config" => some (.valued .config)
  | "no-optimize" => some .noOptimize
  | "no-builtins" => some .noBuiltins
  | "version" => some .version
  | "help" => some .help
  | _ => none

/-- Whether a word is an option: it begins with `-` and goes on. -/
def isOption (word : String) : Bool :=
  match word.toList with
  | '-' :: _ :: _ => true
  | _ => false

/-- Reads words that are all expressions. -/
def readRest (options : Options) : List String → Except Misuse Options
  | [] => .ok options
  | word :: words => do readRest (← options.setExpression word) words

/-- What a command asks for once all its words are read. -/
def finish (options : Options) : Except Misuse Command :=
  match options.expression with
  | some expression => .ok (.evaluate options expression)
  | none => .error .missingExpression

/-- Reads the words of a command. -/
def read (options : Options) : List String → Except Misuse Command
  | [] => finish options
  | word :: words =>
    match word.toList with
    | ['-', '-'] => do finish (← readRest options words)
    | '-' :: '-' :: rest =>
      let (name, value?) := splitLong rest
      match Long.ofName? name, value? with
      | none, _ => .error (.unknownOption word)
      | some (.valued option), some value => do read (← option.set value options) words
      | some (.valued option), none =>
        match words with
        | [] => .error (.missingValue option.name)
        | value :: words =>
          if isOption value then .error (.missingValue option.name)
          else do read (← option.set value options) words
      | some _, some _ => .error (.unexpectedValue word)
      | some .noOptimize, none =>
        if options.noOptimize then .error (.repeated word)
        else read { options with noOptimize := true } words
      | some .noBuiltins, none =>
        if options.noBuiltins then .error (.repeated word)
        else read { options with noBuiltins := true } words
      | some .version, none => .ok .version
      | some .help, none => .ok .fullHelp
    | '-' :: 'V' :: _ => .ok .version
    | '-' :: 'h' :: _ => .ok .briefHelp
    | '-' :: _ :: _ => .error (.unknownOption word)
    | _ => do read (← options.setExpression word) words

/-- The command that words spell. -/
def Command.ofWords (words : List String) : Except Misuse Command := read .empty words

end FormulaLang.CommandLine
