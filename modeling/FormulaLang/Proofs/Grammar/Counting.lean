import FormulaLang.Expr.Parser

/-!
# `Grammar.Counting` — the parser with a counter of open groups

Here the rules do not know how much room there is for groups. They share one counter, which every
group counts up when it is opened and down when it is closed, and compare it with the limit. Nothing
else ends their recursion, so the parser has a bound on how often `expression` may be active at once,
and comes to a stop of its own where that is not enough.

Every rule notes that it starts (`Start`), and which rules are active then. That makes visible how
deep the rules recurse, and what the counter stands for.

## Contents
- `Rule` and `Start`, the rules and what is noted of them.
- `Counting`, a run of the parser on tokens, a counter and notes.
- The rules, and `parse` for tokens from anywhere.
-/

namespace FormulaLang

/-- The rules of the parser. -/
inductive Rule where
  | expression
  | binary (priority : Priority)
  /-- An operand of a level. -/
  | lower (priority : Priority)
  | signedAtom
  | atom
  | functionCall
  | parenthesized
deriving DecidableEq, Repr

/-- Whether a rule opens a group. -/
def Rule.isGroup : Rule → Bool
  | .functionCall | .parenthesized => true
  | _ => false

/-- A rule that starts. -/
structure Start where
  rule : Rule
  /-- The rules that are active, the one that starts this one first. -/
  callers : List Rule
  /-- What the counter says. -/
  counter : Nat
  ahead : List Token
deriving DecidableEq, Repr

/-- How often `expression` is active. -/
def Start.activations (start : Start) : Nat := (start.rule :: start.callers).count .expression

/-- How many groups are open: one for each rule that has opened one and is still active. -/
def Start.openGroups (start : Start) : Nat := start.callers.countP Rule.isGroup

namespace Counting

/-- The parser at work. -/
structure State where
  ahead : List Token
  counter : Nat
  /-- The rules that have started, the latest first. -/
  starts : List Start

/-- Why the parser stops. -/
inductive Stop where
  | error (error : SyntaxError)
  /-- One more `expression` would have been active than may be. -/
  | cutOff
deriving DecidableEq, Repr

end Counting

/-- A part of a run of the parser. -/
abbrev Counting (α : Type) := ExceptT Counting.Stop (StateM Counting.State) α

namespace Counting

variable {α : Type}

/-- What a part of a run comes to, and the parser after it. -/
def result (x : Counting α) (s : State) : Except Stop α × State := x.run.run s

/-- Ends the run with an error. -/
def fail (error : SyntaxError) : Counting α := throw (.error error)

/-- Notes that a rule starts. -/
def start (rule : Rule) (callers : List Rule) : Counting Unit :=
  modify fun s => { s with starts := ⟨rule, callers, s.counter, s.ahead⟩ :: s.starts }

/-- The tokens ahead. -/
def ahead : Counting (List Token) := do return (← get).ahead

/-- Drops the next token. -/
def skip : Counting Unit := modify fun s => { s with ahead := s.ahead.tail }

/-- Takes the next token. -/
def next (expected : Expected) : Counting Token := do
  match ← ahead with
  | [] => fail (.unexpectedEnd expected)
  | token :: _ =>
    skip
    return token

/-- Takes the given parenthesis. -/
def paren (paren : Char) (expected : Expected) : Counting Unit := do
  let token ← next expected
  if token.isControl paren then return () else fail (Parser.unexpected expected token)

/-- Counts a group that is opened, if one more may be open. -/
def enter (limit : Nat) (opening : Token) : Counting Unit := do
  if limit ≤ (← get).counter then fail (.nestingTooDeep limit opening.position)
  else modify fun s => { s with counter := s.counter + 1 }

/-- Counts a group that is closed. -/
def leave : Counting Unit := modify fun s => { s with counter := s.counter - 1 }

/-! ## Rules -/

/-- At most `count` further steps of a run. -/
def steps (priority : Priority) (operand : Counting Expr) :
    Nat → Counting (List (Operator × Expr))
  | 0 => return []
  | count + 1 => do
    match Parser.operator? priority (← ahead) with
    | none => return []
    | some op =>
      skip
      let e ← operand
      return (op, e) :: (← steps priority operand count)

/-- An operand of a level. -/
def lower (priority : Priority) (operand : List Rule → Counting Expr) (callers : List Rule) :
    Counting Expr := do
  start (.lower priority) callers
  operand (.lower priority :: callers)

/-- A run of operators of one level. -/
def binary (priority : Priority) (operand : List Rule → Counting Expr) (callers : List Rule) :
    Counting Expr := do
  start (.binary priority) callers
  let callers := .binary priority :: callers
  let left ← lower priority operand callers
  let rest ← steps priority (lower priority operand callers) (← ahead).length
  return .run left priority rest

/-- An atom, or a sign and an atom. -/
def signedAtom (atom : List Rule → Counting Expr) (callers : List Rule) : Counting Expr := do
  start .signedAtom callers
  let callers := .signedAtom :: callers
  match Parser.sign? (← ahead) with
  | none => atom callers
  | some sign =>
    skip
    return .unary sign (← atom callers)

/-- At most `count` further arguments, each after a comma. -/
def moreArguments (expression : Counting Expr) : Nat → Counting (List Expr)
  | 0 => return []
  | count + 1 => do
    if Parser.isComma (← ahead) then
      skip
      let e ← expression
      return e :: (← moreArguments expression count)
    else return []

/-- Arguments up to the closing parenthesis, which is not taken. -/
def arguments (expression : Counting Expr) : Counting (List Expr) := do
  if Parser.isParen ')' (← ahead) then return []
  else
    let e ← expression
    return e :: (← moreArguments expression (← ahead).length)

/-- The rest of a call, after the name of the function. -/
def functionCall (limit : Nat) (expression : List Rule → Counting Expr) (name : Token)
    (callers : List Rule) : Counting Expr := do
  start .functionCall callers
  enter limit name
  paren '(' .openParen
  let args ← arguments (expression (.functionCall :: callers))
  paren ')' .closeParenOrComma
  leave
  return .call name.text args

/-- The rest of a parenthesized expression, after the parenthesis. -/
def parenthesized (limit : Nat) (expression : List Rule → Counting Expr) (opening : Token)
    (callers : List Rule) : Counting Expr := do
  start .parenthesized callers
  enter limit opening
  let inner ← expression (.parenthesized :: callers)
  paren ')' .closeParen
  leave
  return .group inner

/-- An expression that neither operators nor signs make up. -/
def atom (limit : Nat) (expression : List Rule → Counting Expr) (callers : List Rule) :
    Counting Expr := do
  start .atom callers
  let callers := .atom :: callers
  let token ← next .expression
  match token.kind with
  | .variable => return .variable token.text
  | .stringLiteral => return .string (Parser.unquote token.text)
  | .number =>
    match Numeral.read? token.text with
    | some n => return .number n
    | none => fail (.invalidNumber token.text token.position)
  | .functionName => functionCall limit expression token callers
  | _ =>
    if token.isControl '(' then parenthesized limit expression token callers
    else fail (Parser.unexpected .expression token)

/-- An expression, if `cutoff` allows one more to be active. -/
def expression (limit : Nat) : Nat → List Rule → Counting Expr
  | 0, _ => throw .cutOff
  | cutoff + 1, callers => do
    start .expression callers
    binary .additive (binary .multiplicative (signedAtom (atom limit (expression limit cutoff))))
      (.expression :: callers)

/-- The one expression that the tokens ahead spell. -/
def whole (limit cutoff : Nat) : Counting Expr := do
  if (← ahead).isEmpty then return .empty
  else
    let e ← expression limit cutoff []
    match ← ahead with
    | [] => return e
    | token :: _ => fail (.trailingInput token.text token.position)

/-- The one expression that tokens spell, white space aside, and the rules that have started on the
way, the latest first. At most `cutoff` times `expression` is active at once. -/
def parse (cutoff : Nat) (tokens : List Token) (maxDepth : Nat) :
    Except Stop Expr × List Start :=
  let (r, s) := (whole maxDepth cutoff).result
    ⟨tokens.filter fun token => token.kind != .whitespace, 0, []⟩
  (r, s.starts)

end Counting

end FormulaLang
