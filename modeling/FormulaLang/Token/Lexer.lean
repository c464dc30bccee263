import FormulaLang.Text.CharClass
import FormulaLang.Token.Basic

/-!
# `Token.Lexer` — cutting a source into tokens

The source is cut into pieces, each one as long as its class allows; a character that begins no
token is a piece of its own, and a text that is never closed takes the rest of the source. Every
character belongs to exactly one piece (`Piece.flatMap_split`), so the position of a piece follows
from the pieces before it. A piece then is a token or an error; `tokenize` asks for tokens only.

## Contents
- **Pieces.** `Piece.first` takes one piece off a source, `Piece.split` all of them.
- **Positions.** `Cursor` says where a piece begins; only a line feed that is a token of its own
  begins a line.
- **Tokens.** `lex` lists tokens and errors, `tokenize` stops at the first error.
-/

namespace FormulaLang

open Text

/-- Why a piece of the source is no token. -/
inductive LexError where
  /-- The language has no token that begins with `found`. `context` is the source up to and
  including it. -/
  | unexpectedCharacter (found : Char) (position : Position) (context : String)
  /-- The text that begins at `position` is never closed. -/
  | unterminatedString (position : Position)
deriving DecidableEq, Repr

/-! ## Pieces -/

namespace Piece

/-- What a piece is: a token, a character that begins none, or a text without its end. -/
inductive Category where
  | token (kind : TokenKind)
  | stray (found : Char)
  | unterminated
deriving DecidableEq, Repr

end Piece

/-- A piece of the source. -/
structure Piece where
  category : Piece.Category
  text : List Char
deriving DecidableEq, Repr

namespace Piece

/-- Whether `c` is an operator. -/
def isOperator (c : Char) : Bool := c == '+' || c == '-' || c == '*' || c == '/' || c == '%'

/-- Whether `c` opens, and closes, a text. -/
def isQuote (c : Char) : Bool := c == '\'' || c == '\"'

/-- Splits a source after the first `quote` that no backslash escapes. `escaped` says that the
character before was a backslash that escapes the next one. -/
def closeString (quote : Char) : Bool → List Char → Option (List Char × List Char)
  | _, [] => none
  | true, c :: cs => (closeString quote false cs).map fun (body, rest) => (c :: body, rest)
  | false, c :: cs =>
    if c = '\\' then (closeString quote true cs).map fun (body, rest) => (c :: body, rest)
    else if c = quote then some ([c], cs)
    else (closeString quote false cs).map fun (body, rest) => (c :: body, rest)

/-- The first piece of the source `c :: cs`, and what follows it. -/
def first (c : Char) (cs : List Char) : Piece × List Char :=
  if isOperator c then
    (⟨.token .operator, [c]⟩, cs)
  else if c.isDigit then
    (⟨.token .number, c :: cs.takeWhile Char.isDigit⟩, cs.dropWhile Char.isDigit)
  else if isQuote c then
    match closeString c false cs with
    | some (body, rest) => (⟨.token .stringLiteral, c :: body⟩, rest)
    | none => (⟨.unterminated, c :: cs⟩, [])
  else if isNameStart c then
    let rest := cs.dropWhile isNamePart
    let kind := if rest.head? = some '(' then TokenKind.functionName else .variable
    (⟨.token kind, c :: cs.takeWhile isNamePart⟩, rest)
  else if c = '(' ∨ c = ')' then
    (⟨.token .control, [c]⟩, cs)
  else if c = '\n' then
    (⟨.token .newLine, [c]⟩, cs)
  else if isBlank c then
    (⟨.token .whitespace, [c]⟩, cs)
  else if c = ',' then
    (⟨.token .comma, [c]⟩, cs)
  else
    (⟨.stray c, [c]⟩, cs)

theorem append_of_closeString {quote : Char} {escaped : Bool} {cs body rest : List Char}
    (h : closeString quote escaped cs = some (body, rest)) : body ++ rest = cs := by
  induction cs generalizing escaped body with
  | nil => simp [closeString] at h
  | cons c cs ih =>
    have later {e : Bool}
        (h : (closeString quote e cs).map (fun p => (c :: p.1, p.2)) = some (body, rest)) :
        body ++ rest = c :: cs := by
      obtain ⟨⟨b, r⟩, hb, heq⟩ := Option.map_eq_some_iff.1 h
      obtain ⟨rfl, rfl⟩ := Prod.mk.inj heq
      simp [ih hb]
    cases escaped with
    | true => exact later h
    | false =>
      rw [closeString] at h
      split at h
      · exact later h
      · split at h
        · obtain ⟨rfl, rfl⟩ := Prod.mk.inj (Option.some.inj h)
          rfl
        · exact later h

/-- Taking a piece off a source loses nothing. -/
theorem first_append (c : Char) (cs : List Char) :
    (first c cs).1.text ++ (first c cs).2 = c :: cs := by
  unfold first
  split
  · rfl
  split
  · simp
  split
  · split
    · rename_i h
      simp [append_of_closeString h]
    · simp
  split
  · simp
  repeat' split
  all_goals rfl

/-- A piece is never empty. -/
theorem first_text_ne_nil (c : Char) (cs : List Char) : (first c cs).1.text ≠ [] := by
  unfold first
  repeat' split
  all_goals simp

/-- What follows a piece is shorter than the source. -/
theorem length_first_lt (c : Char) (cs : List Char) :
    (first c cs).2.length < (c :: cs).length := by
  have h := congrArg List.length (first_append c cs)
  have hpos := List.length_pos_iff.2 (first_text_ne_nil c cs)
  rw [List.length_append] at h
  omega

/-- All pieces of a source, in order. -/
def split : List Char → List Piece
  | [] => []
  | c :: cs => (first c cs).1 :: split (first c cs).2
termination_by cs => cs.length
decreasing_by exact length_first_lt c cs

@[simp] theorem split_nil : split [] = [] := by rw [split]

@[simp] theorem split_cons (c : Char) (cs : List Char) :
    split (c :: cs) = (first c cs).1 :: split (first c cs).2 := by rw [split]

/-- **The pieces of a source, put together, are the source.** -/
theorem flatMap_split (cs : List Char) : (split cs).flatMap Piece.text = cs := by
  induction h : cs.length using Nat.strongRecOn generalizing cs with
  | ind n ih =>
    cases cs with
    | nil => simp
    | cons c cs =>
      subst h
      rw [split_cons, List.flatMap_cons, ih _ (length_first_lt c cs) _ rfl, first_append]

end Piece

/-! ## Positions -/

/-- A place between two pieces: the text before it, last character first, and its position. -/
structure Cursor where
  before : List Char
  position : Position
deriving DecidableEq, Repr

namespace Cursor

/-- The beginning of a source. -/
def start : Cursor := ⟨[], 1, 0⟩

/-- The place after a piece that begins here. -/
def past (here : Cursor) (piece : Piece) : Cursor where
  before := piece.text.reverse ++ here.before
  position :=
    if piece.category = .token .newLine then ⟨here.position.line + 1, 0⟩
    else { here.position with column := here.position.column + piece.text.length }

end Cursor

/-! ## Tokens -/

/-- The token or the error that a piece at the given place is. -/
def Piece.item (here : Cursor) (piece : Piece) : Except LexError Token :=
  match piece.category with
  | .token kind => .ok ⟨kind, String.ofList piece.text, here.position⟩
  | .stray found =>
    .error (.unexpectedCharacter found here.position
      (String.ofList (here.before.reverse ++ piece.text)))
  | .unterminated => .error (.unterminatedString here.position)

/-- The tokens and errors of pieces that begin at the given place. -/
def Piece.items : Cursor → List Piece → List (Except LexError Token)
  | _, [] => []
  | here, piece :: pieces => piece.item here :: items (here.past piece) pieces

/-- Every token and every error of a source, in order. -/
def lex (source : String) : List (Except LexError Token) :=
  Piece.items .start (Piece.split source.toList)

/-- The tokens of a source, or its first error. -/
def tokenize (source : String) : Except LexError (List Token) := (lex source).mapM id

end FormulaLang
