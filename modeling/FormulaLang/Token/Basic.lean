/-!
# `Token.Basic` — tokens and their positions
-/

namespace FormulaLang

/-- A place in the source: lines count from 1, columns from 0 in characters. -/
structure Position where
  line : Nat
  column : Nat
deriving DecidableEq, Repr

/-- What a token is. -/
inductive TokenKind where
  /-- One of `+ - * / %`. -/
  | operator
  /-- A name that an opening parenthesis follows at once. -/
  | functionName
  /-- A run of ASCII digits. -/
  | number
  /-- A text between quotes, the quotes included. -/
  | stringLiteral
  /-- Any other name. -/
  | variable
  /-- `(` or `)`. -/
  | control
  | comma
  /-- A line feed. -/
  | newLine
  /-- One white-space character other than a line feed. -/
  | whitespace
deriving DecidableEq, Repr

/-- The name of a kind of token. -/
def TokenKind.name : TokenKind → String
  | .operator => "operator"
  | .functionName => "function name"
  | .number => "number"
  | .stringLiteral => "string"
  | .variable => "variable"
  | .control => "paren"
  | .comma => "comma"
  | .newLine => "newline"
  | .whitespace => "whitespace"

/-- A piece of the source with its kind and the position of its first character. -/
structure Token where
  kind : TokenKind
  text : String
  position : Position
deriving DecidableEq, Repr

/-- Whether the token is the given parenthesis. -/
def Token.isControl (t : Token) (paren : Char) : Bool :=
  t.kind == .control && t.text.toList.head? == some paren

end FormulaLang
