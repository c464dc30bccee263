import FormulaLang.Expr.Parser
import FormulaLang.Function.Basic

/-!
# `Error` — what can go wrong with a source, and how it is told

An error is a cause: each type lists the ways in which one stage fails. Its text is its `message`;
where one error comes of another, `causes` lists the texts of those behind it, the nearest first.
-/

namespace FormulaLang

/-- The text of a lexical error. -/
def LexError.message : LexError → String
  | .unexpectedCharacter found p context =>
    s!"invalid character '{found}' at line {p.line}, column {p.column}: {context}..."
  | .unterminatedString p =>
    s!"unterminated string literal starting at line {p.line}, column {p.column}"

/-- The text of a syntax error. -/
def SyntaxError.message : SyntaxError → String
  | .unexpectedToken expected found p =>
    s!"expected {expected.text} instead of '{found}' at line {p.line}, column {p.column}"
  | .unexpectedEnd expected => s!"expected {expected.text} but reached the end of input"
  | .trailingInput found p =>
    s!"expression before line {p.line}, column {p.column} is valid but '{found}' and everything " ++
      "after it is redundant"
  | .invalidNumber text p =>
    s!"number '{text}' at line {p.line}, column {p.column} does not fit in a 64-bit integer"
  | .nestingTooDeep limit p =>
    s!"expression nesting exceeds the limit of {limit} at line {p.line}, column {p.column}"

/-- The text of a parse error. -/
def ParseError.message : ParseError → String
  | .lexical error => error.message
  | .syntactic error => error.message

/-- Why the calls of a tree cannot be folded. -/
inductive FoldError where
  /-- The call of the function `name` failed. -/
  | call (name : String) (error : FunctionError)
  | depthLimitExceeded (limit : Nat)
deriving DecidableEq, Repr

/-- Why a tree has no value. `op` is the symbol of the operator at fault. -/
inductive EvalError where
  | unknownFunction (name : String)
  | arityMismatch (name : String) (expected found : Nat)
  | type (op : String) (error : TypeError)
  | divisionByZero (op : String)
  | overflow (op : String)
  | depthLimitExceeded (limit : Nat)
  | fold (error : FoldError)
  /-- The call of the function `name` failed. -/
  | call (name : String) (error : FunctionError)
deriving DecidableEq, Repr

/-- Why a source has no value. -/
inductive Error where
  | parse (error : ParseError)
  | eval (error : EvalError)
deriving DecidableEq, Repr

/-- The text of a folding error. -/
def FoldError.message : FoldError → String
  | .call name _ => s!"failed to fold call to '{name}'"
  | .depthLimitExceeded limit => s!"expression nesting exceeds the optimizer limit of {limit}"

/-- The texts behind a folding error. -/
def FoldError.causes : FoldError → List String
  | .call _ error => error.message :: error.causes
  | .depthLimitExceeded _ => []

namespace EvalError

/-- The error that the operator `op` met. -/
def ofValueError (op : String) : ValueError → EvalError
  | .divisionByZero _ => .divisionByZero op
  | .overflow _ => .overflow op
  | .outOfRange _ _ => .overflow op
  | .type error => .type op error
  | .invalidConversion source _ => .type op (.invalidUnary op source)

/-- The text of an evaluation error. -/
def message : EvalError → String
  | .unknownFunction name => s!"invalid udf named '{name}'"
  | .arityMismatch name expected found =>
    s!"the function '{name}' requires {expected} argument(s) instead of {found}"
  | .type op error => s!"operator '{op}': {error.message}"
  | .divisionByZero op => s!"operator '{op}' divides by zero"
  | .overflow op => s!"operator '{op}' overflows a 64-bit integer"
  | .depthLimitExceeded limit => s!"expression nesting exceeds the evaluation limit of {limit}"
  | .fold _ => "error when optimizing expression"
  | .call name _ => s!"call to '{name}' failed"

/-- The texts behind an evaluation error. -/
def causes : EvalError → List String
  | .type _ error => [error.message]
  | .fold error => error.message :: error.causes
  | .call _ error => error.message :: error.causes
  | _ => []

end EvalError

namespace Error

/-- The text of an error. -/
def message : Error → String
  | .parse error => error.message
  | .eval error => error.message

/-- The texts behind an error. -/
def causes : Error → List String
  | .parse _ => []
  | .eval error => error.causes

/-- An error as a failure of the function that met it. -/
def toFailure (error : Error) : Failure := ⟨error.message, error.causes⟩

end Error

end FormulaLang
