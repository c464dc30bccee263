import FormulaLang.Expr.Basic
import FormulaLang.Limits
import FormulaLang.Numeral
import FormulaLang.Token.Lexer

/-!
# `Expr.Parser` — expressions from tokens

    expression  := sum
    sum         := product (("+" | "-") product)*
    product     := signed (("*" | "/" | "%") signed)*
    signed      := ("+" | "-") atom | atom
    atom        := variable | text | number | name "(" arguments ")" | "(" expression ")"
    arguments   := (expression ("," expression)*)?

White space between tokens is dropped first; line feeds are not, and no rule takes one. Parentheses
and calls are groups. `expression limit room` reads an expression inside of which `room` more groups
may be open at once: opening one leaves one less, and with no room left the opening token is the
error. The loops over operators and arguments run at most once for each token that is left, since
every turn takes one.

## Contents
- Rules as functions from the tokens ahead to a result and the tokens left (`Parser`).
- `parseTokens` for tokens from anywhere, `parse` for a source.
-/

namespace FormulaLang

/-- What a rule asks for. -/
inductive Expected where
  | expression
  | openParen
  | closeParen
  | closeParenOrComma
deriving DecidableEq, Repr

/-- How messages say what was asked for. -/
def Expected.text : Expected → String
  | .expression => "an expression"
  | .openParen => "'('"
  | .closeParen => "')'"
  | .closeParenOrComma => "')' or ','"

/-- Why tokens are no expression. -/
inductive SyntaxError where
  | unexpectedToken (expected : Expected) (found : String) (position : Position)
  | unexpectedEnd (expected : Expected)
  /-- A complete expression, and then more. -/
  | trailingInput (found : String) (position : Position)
  /-- A number that 64 bits do not hold. -/
  | invalidNumber (text : String) (position : Position)
  /-- The token at `position` opens one group too many. -/
  | nestingTooDeep (limit : Nat) (position : Position)
deriving DecidableEq, Repr

/-- Why a source is no expression. -/
inductive ParseError where
  | lexical (error : LexError)
  | syntactic (error : SyntaxError)
deriving DecidableEq, Repr

/-- A rule: from the tokens ahead to a result and the tokens left. -/
abbrev Parser (α : Type) := List Token → Except SyntaxError (α × List Token)

namespace Parser

/-! ## Single tokens -/

/-- The error that `token` is not what was asked for. -/
def unexpected (expected : Expected) (token : Token) : SyntaxError :=
  .unexpectedToken expected token.text token.position

/-- Takes the next token. -/
def next (expected : Expected) : Parser Token
  | [] => .error (.unexpectedEnd expected)
  | token :: ts => .ok (token, ts)

/-- Takes the given parenthesis. -/
def paren (paren : Char) (expected : Expected) : Parser Unit := fun ts => do
  let (token, ts) ← next expected ts
  if token.isControl paren then .ok ((), ts) else .error (unexpected expected token)

/-- The operator of the given level that comes next, if one does. -/
def operator? (priority : Priority) : List Token → Option Operator
  | [] => none
  | token :: _ =>
    if token.kind = .operator then (Operator.ofSymbol? token.text).filter priority.accepts else none

/-- The sign that comes next, if one does. -/
def sign? : List Token → Option Sign
  | [] => none
  | token :: _ => if token.kind = .operator then Sign.ofSymbol? token.text else none

/-- Whether a comma comes next. -/
def isComma : List Token → Bool
  | [] => false
  | token :: _ => token.kind == .comma

/-- Whether the given parenthesis comes next. -/
def isParen (paren : Char) : List Token → Bool
  | [] => false
  | token :: _ => token.isControl paren

/-- A text without its first and its last character. -/
def unquote (text : String) : String := String.ofList (text.toList.drop 1).dropLast

/-! ## Rules -/

/-- At most `count` further steps of a run: operators of one level, each with an operand. -/
def steps (priority : Priority) (operand : Parser Expr) : Nat → Parser (List (Operator × Expr))
  | 0, ts => .ok ([], ts)
  | count + 1, ts =>
    match operator? priority ts with
    | none => .ok ([], ts)
    | some op => do
      let (e, ts) ← operand ts.tail
      let (rest, ts) ← steps priority operand count ts
      .ok ((op, e) :: rest, ts)

/-- A run of operators of one level. -/
def run (priority : Priority) (operand : Parser Expr) : Parser Expr := fun ts => do
  let (left, ts) ← operand ts
  let (rest, ts) ← steps priority operand ts.length ts
  .ok (.run left priority rest, ts)

/-- An atom, or a sign and an atom. -/
def signed (atom : Parser Expr) : Parser Expr := fun ts =>
  match sign? ts with
  | none => atom ts
  | some sign => do
    let (e, ts) ← atom ts.tail
    .ok (.unary sign e, ts)

/-- At most `count` further arguments, each after a comma. -/
def moreArguments (expression : Parser Expr) : Nat → Parser (List Expr)
  | 0, ts => .ok ([], ts)
  | count + 1, ts =>
    if isComma ts then do
      let (e, ts) ← expression ts.tail
      let (es, ts) ← moreArguments expression count ts
      .ok (e :: es, ts)
    else .ok ([], ts)

/-- Arguments up to the closing parenthesis, which is not taken. -/
def arguments (expression : Parser Expr) : Parser (List Expr) := fun ts =>
  if isParen ')' ts then .ok ([], ts)
  else do
    let (e, ts) ← expression ts
    let (es, ts) ← moreArguments expression ts.length ts
    .ok (e :: es, ts)

/-- The rest of a call, after the name of the function. -/
def call (expression : Parser Expr) (name : String) : Parser Expr := fun ts => do
  let (_, ts) ← paren '(' .openParen ts
  let (args, ts) ← arguments expression ts
  let (_, ts) ← paren ')' .closeParenOrComma ts
  .ok (.call name args, ts)

/-- The rest of a parenthesized expression, after the parenthesis. -/
def group (expression : Parser Expr) : Parser Expr := fun ts => do
  let (inner, ts) ← expression ts
  let (_, ts) ← paren ')' .closeParen ts
  .ok (.group inner, ts)

/-- A group that `opening` opens, read by `rule` from the expressions inside; without a rule for
those no group may be opened. -/
def grouped (limit : Nat) (inner : Option (Parser Expr)) (opening : Token)
    (rule : Parser Expr → Parser Expr) : Parser Expr := fun ts =>
  match inner with
  | none => .error (.nestingTooDeep limit opening.position)
  | some expression => rule expression ts

/-- An atom; `inner` reads the expressions inside a group, if one may be opened. -/
def atom (limit : Nat) (inner : Option (Parser Expr)) : Parser Expr := fun ts => do
  let (token, ts) ← next .expression ts
  match token.kind with
  | .variable => .ok (.variable token.text, ts)
  | .stringLiteral => .ok (.string (unquote token.text), ts)
  | .number =>
    match Numeral.read? token.text with
    | some n => .ok (.number n, ts)
    | none => .error (.invalidNumber token.text token.position)
  | .functionName => grouped limit inner token (fun expression => call expression token.text) ts
  | _ =>
    if token.isControl '(' then grouped limit inner token group ts
    else .error (unexpected .expression token)

/-- An expression over the given atoms. -/
def levels (atom : Parser Expr) : Parser Expr :=
  run .additive (run .multiplicative (signed atom))

/-- An expression with at most `room` groups open inside it at once. -/
def expression (limit : Nat) : Nat → Parser Expr
  | 0, ts => levels (atom limit none) ts
  | room + 1, ts => levels (atom limit (some fun ts => expression limit room ts)) ts

end Parser

/-- The one expression that tokens spell, white space aside; no tokens spell the empty one. -/
def parseTokens (tokens : List Token) (maxDepth : Nat) : Except SyntaxError Expr :=
  match tokens.filter fun token => token.kind != .whitespace with
  | [] => .ok .empty
  | ts => do
    match ← Parser.expression maxDepth maxDepth ts with
    | (e, []) => .ok e
    | (_, token :: _) => .error (.trailingInput token.text token.position)

/-- The expression that a source spells, with at most `maxDepth` groups open at once. -/
def parse (source : String) (maxDepth : Nat) : Except ParseError Expr :=
  match tokenize source with
  | .error error => .error (.lexical error)
  | .ok tokens =>
    match parseTokens tokens maxDepth with
    | .error error => .error (.syntactic error)
    | .ok e => .ok e

end FormulaLang
