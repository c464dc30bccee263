import FormulaLang.Proofs.Text.Classes
import FormulaLang.Token.Lexer

/-!
# `Lexical.Grammar` — which texts are tokens, and what may follow them

A lexeme is a token without its position. `Fits` says which texts a kind of token has, and `Stops`
what the source after a token has to begin with, so that the token could not have been longer or of
another kind. Neither says how a source is read.

- **`first_eq_token_iff`**: the first piece of a source is the one lexeme that fits and stops there.
-/

namespace FormulaLang

open Text

/-- A token without its position. -/
structure Lexeme where
  kind : TokenKind
  text : List Char
deriving DecidableEq, Repr

/-- What a token is, wherever it stands. -/
def Token.lexeme (token : Token) : Lexeme := ⟨token.kind, token.text.toList⟩

/-- A lexeme as a piece of the source. -/
def Lexeme.piece (lexeme : Lexeme) : Piece := ⟨.token lexeme.kind, lexeme.text⟩

theorem Lexeme.piece_injective {l l' : Lexeme} (h : l.piece = l'.piece) : l = l' := by
  obtain ⟨kind, text⟩ := l
  obtain ⟨kind', text'⟩ := l'
  simpa [piece] using h

namespace Lexical

/-! ## The texts of tokens -/

/-- What may stand between two quotes: a backslash takes the next character along, whatever it is,
    and the quote itself stands only behind one. -/
inductive Body (quote : Char) : List Char → Prop where
  | nil : Body quote []
  | plain {c : Char} {cs : List Char} (backslash : c ≠ '\\') (other : c ≠ quote)
      (rest : Body quote cs) : Body quote (c :: cs)
  | escape {c : Char} {cs : List Char} (rest : Body quote cs) : Body quote ('\\' :: c :: cs)

/-- A name begins with a letter or an underscore and goes on with letters, numbers and
    underscores. -/
def IsName (cs : List Char) : Prop :=
  ∃ c rest, cs = c :: rest ∧ isNameStart c = true ∧ ∀ d ∈ rest, isNamePart d = true

/-- The text is one that a token of the kind may have. -/
def Fits : TokenKind → List Char → Prop
  | .operator, cs => ∃ c ∈ ['+', '-', '*', '/', '%'], cs = [c]
  | .functionName, cs => IsName cs
  | .number, cs => cs ≠ [] ∧ ∀ c ∈ cs, c.isDigit = true
  | .stringLiteral, cs =>
      ∃ quote ∈ ['\'', '\"'], ∃ body, Body quote body ∧ cs = quote :: (body ++ [quote])
  | .variable, cs => IsName cs
  | .control, cs => cs = ['('] ∨ cs = [')']
  | .comma, cs => cs = [',']
  | .newLine, cs => cs = ['\n']
  | .whitespace, cs => ∃ c, cs = [c] ∧ isBlank c = true ∧ c ≠ '\n'

/-- A token of the kind ends before the rest of the source. -/
def Stops : TokenKind → List Char → Prop
  | .number, rest => ∀ c ∈ rest.head?, c.isDigit = false
  | .variable, rest => ∀ c ∈ rest.head?, isNamePart c = false ∧ c ≠ '('
  | .functionName, rest => rest.head? = some '('
  | _, _ => True

/-- A token has at least one character. -/
theorem Fits.ne_nil {kind : TokenKind} {cs : List Char} (h : Fits kind cs) : cs ≠ [] := by
  cases kind with
  | operator | whitespace =>
      obtain ⟨c, h⟩ := h
      simp [h]
  | functionName | «variable» =>
      obtain ⟨c, rest, rfl, -⟩ := h
      simp
  | number => exact h.1
  | stringLiteral =>
      obtain ⟨quote, -, body, -, rfl⟩ := h
      simp
  | control =>
      rcases h with rfl | rfl
      · simp
      · simp
  | comma | newLine =>
      obtain rfl := h
      simp

/-- The characters that a token of the kind may begin with. -/
def Begins : TokenKind → Char → Prop
  | .operator, c => c ∈ ['+', '-', '*', '/', '%']
  | .functionName, c => isNameStart c = true
  | .number, c => c.isDigit = true
  | .stringLiteral, c => c ∈ ['\'', '\"']
  | .variable, c => isNameStart c = true
  | .control, c => c ∈ ['(', ')']
  | .comma, c => c = ','
  | .newLine, c => c = '\n'
  | .whitespace, c => isBlank c = true ∧ c ≠ '\n'

section
variable {kind : TokenKind} {d : Char} {ds : List Char}

theorem Fits.begins (h : Fits kind (d :: ds)) : Begins kind d := by
  cases kind with
  | operator =>
      obtain ⟨c, hc, heq⟩ := h
      obtain ⟨rfl, -⟩ := List.cons.inj heq
      exact hc
  | functionName | «variable» =>
      obtain ⟨c, rest, heq, hstart, -⟩ := h
      obtain ⟨rfl, -⟩ := List.cons.inj heq
      exact hstart
  | number => exact h.2 d List.mem_cons_self
  | stringLiteral =>
      obtain ⟨quote, hquote, body, -, heq⟩ := h
      obtain ⟨rfl, -⟩ := List.cons.inj heq
      exact hquote
  | control =>
      rcases h with heq | heq
      · obtain ⟨rfl, -⟩ := List.cons.inj heq
        exact List.mem_cons_self
      · obtain ⟨rfl, -⟩ := List.cons.inj heq
        exact List.mem_cons_of_mem _ List.mem_cons_self
  | comma | newLine =>
      obtain ⟨rfl, -⟩ := List.cons.inj h
      rfl
  | whitespace =>
      obtain ⟨c, heq, hblank, hline⟩ := h
      obtain ⟨rfl, -⟩ := List.cons.inj heq
      exact ⟨hblank, hline⟩

/-- Only a number begins with a digit. -/
theorem Begins.isDigit_iff (h : Begins kind d) : d.isDigit = true ↔ kind = .number := by
  constructor
  · intro hdigit
    cases kind with
    | number => rfl
    | operator | stringLiteral | control =>
        exact absurd hdigit (List.any_eq_false.1 (by decide) d h)
    | functionName | «variable» => exact absurd h (by simp [Begins, isNameStart_of_isDigit hdigit])
    | comma | newLine =>
        obtain rfl := h
        exact absurd hdigit (by decide)
    | whitespace => exact absurd h.1 (by simp [isBlank_of_isDigit hdigit])
  · rintro rfl
    exact h

/-- Only a parenthesis begins with a parenthesis. -/
theorem Begins.kind_of_paren (h : Begins kind '(') : kind = .control := by
  cases kind with
  | control => rfl
  | _ => exact absurd h (by simp only [Begins]; decide)

end

/-! ## Reading as far as a class goes -/

section
variable {α : Type} {p : α → Bool} {xs ys rest : List α}

/-- What is taken while a class lasts, and what is left, are known by their characters. -/
theorem takeWhile_dropWhile_eq_iff :
    (xs.takeWhile p = ys ∧ xs.dropWhile p = rest) ↔
      ys ++ rest = xs ∧ (∀ x ∈ ys, p x = true) ∧ ∀ x ∈ rest.head?, p x = false := by
  constructor
  · rintro ⟨rfl, rfl⟩
    refine ⟨List.takeWhile_append_dropWhile, fun x hx => ?_, fun x hx => ?_⟩
    · exact List.all_eq_true.1 List.all_takeWhile x hx
    · have hhead := List.head?_dropWhile_not p xs
      rw [hx] at hhead
      exact hhead
  · rintro ⟨rfl, hys, hrest⟩
    rw [List.takeWhile_append_of_pos hys, List.dropWhile_append_of_pos hys]
    cases rest with
    | nil => simp
    | cons x rest => simp [hrest x rfl]

end

/-- A text goes to the first quote that is not escaped. -/
theorem body_of_closeString {quote : Char} {escaped : Bool} {cs text rest : List Char}
    (h : Piece.closeString quote escaped cs = some (text, rest)) :
    ∃ skipped body, skipped.length = escaped.toNat ∧ Body quote body ∧
      text = skipped ++ (body ++ [quote]) := by
  induction cs generalizing escaped text with
  | nil => simp [Piece.closeString] at h
  | cons c cs ih =>
      cases escaped with
      | true =>
          obtain ⟨⟨text', rest'⟩, hclose, heq⟩ := Option.map_eq_some_iff.1 h
          obtain ⟨rfl, rfl⟩ := Prod.mk.inj heq
          obtain ⟨skipped, body, hlength, hbody, rfl⟩ := ih hclose
          obtain rfl := List.length_eq_zero_iff.1 hlength
          exact ⟨[c], body, rfl, hbody, rfl⟩
      | false =>
          rw [Piece.closeString] at h
          split at h
          · rename_i hbackslash
            obtain ⟨⟨text', rest'⟩, hclose, heq⟩ := Option.map_eq_some_iff.1 h
            obtain ⟨rfl, rfl⟩ := Prod.mk.inj heq
            obtain ⟨skipped, body, hlength, hbody, rfl⟩ := ih hclose
            obtain ⟨d, rfl⟩ := List.length_eq_one_iff.1 hlength
            exact ⟨[], '\\' :: d :: body, rfl, .escape hbody, by simp [hbackslash]⟩
          · rename_i hbackslash
            split at h
            · rename_i hquote
              obtain ⟨rfl, rfl⟩ := Prod.mk.inj (Option.some.inj h)
              exact ⟨[], [], rfl, .nil, by simp [hquote]⟩
            · rename_i hquote
              obtain ⟨⟨text', rest'⟩, hclose, heq⟩ := Option.map_eq_some_iff.1 h
              obtain ⟨rfl, rfl⟩ := Prod.mk.inj heq
              obtain ⟨skipped, body, hlength, hbody, rfl⟩ := ih hclose
              obtain rfl := List.length_eq_zero_iff.1 hlength
              exact ⟨[], c :: body, rfl, .plain hbackslash hquote hbody, rfl⟩

theorem Body.closeString {quote : Char} (hquote : quote ≠ '\\') {body : List Char}
    (h : Body quote body) (rest : List Char) :
    Piece.closeString quote false (body ++ quote :: rest) = some (body ++ [quote], rest) := by
  induction h with
  | nil => simp [Piece.closeString, hquote]
  | plain backslash other _ ih => simp [Piece.closeString, backslash, other, ih]
  | escape _ ih => simp [Piece.closeString, ih]

/-! ## The first piece of a source -/

variable {c : Char} {cs text rest : List Char} {kind : TokenKind}

theorem isOperator_iff : Piece.isOperator c = true ↔ c ∈ ['+', '-', '*', '/', '%'] := by
  simp [Piece.isOperator, or_assoc]

theorem isQuote_iff : Piece.isQuote c = true ↔ c ∈ ['\'', '\"'] := by
  simp [Piece.isQuote]

/-- A character of a class without operators is no operator. -/
theorem isOperator_eq_false {p : Char → Bool} (hp : ['+', '-', '*', '/', '%'].any p = false)
    (h : p c = true) : Piece.isOperator c = false := by
  rw [Bool.eq_false_iff, ne_eq, isOperator_iff]
  intro hc
  exact List.any_eq_false.1 hp c hc h

/-- A character of a class without quotes is no quote. -/
theorem isQuote_eq_false {p : Char → Bool} (hp : ['\'', '\"'].any p = false)
    (h : p c = true) : Piece.isQuote c = false := by
  rw [Bool.eq_false_iff, ne_eq, isQuote_iff]
  intro hc
  exact List.any_eq_false.1 hp c hc h

theorem first_of_isDigit (h : c.isDigit = true) (cs : List Char) :
    Piece.first c cs =
      (⟨.token .number, c :: cs.takeWhile Char.isDigit⟩, cs.dropWhile Char.isDigit) := by
  simp [Piece.first, isOperator_eq_false (p := Char.isDigit) (by decide) h, h]

theorem first_of_mem_quotes {quote : Char} (h : quote ∈ ['\'', '\"']) (cs : List Char) :
    Piece.first quote cs =
      match Piece.closeString quote false cs with
      | some (body, rest) => (⟨.token .stringLiteral, quote :: body⟩, rest)
      | none => (⟨.unterminated, quote :: cs⟩, []) := by
  have hoperator := isOperator_eq_false (p := Piece.isQuote) (by decide) (isQuote_iff.2 h)
  have hdigit : ¬ quote.isDigit = true := List.any_eq_false.1 (by decide) quote h
  rw [Piece.first, if_neg (by simp [hoperator]), if_neg hdigit]
  exact if_pos (isQuote_iff.2 h)

theorem first_of_isNameStart (h : isNameStart c = true) (cs : List Char) :
    Piece.first c cs =
      (⟨.token (if (cs.dropWhile isNamePart).head? = some '(' then .functionName else .variable),
        c :: cs.takeWhile isNamePart⟩, cs.dropWhile isNamePart) := by
  have hdigit := isDigit_eq_false (fun _ => isNameStart_of_isDigit) h
  have hoperator := isOperator_eq_false (p := isNameStart) (by decide) h
  have hquote := isQuote_eq_false (p := isNameStart) (by decide) h
  simp [Piece.first, hoperator, hdigit, hquote, h]

theorem first_of_isBlank (h : isBlank c = true) (hline : c ≠ '\n') (cs : List Char) :
    Piece.first c cs = (⟨.token .whitespace, [c]⟩, cs) := by
  have hdigit := isDigit_eq_false (fun _ => isBlank_of_isDigit) h
  have hparen : ¬ (c = '(' ∨ c = ')') := by
    rintro (rfl | rfl)
    · exact absurd h (by decide)
    · exact absurd h (by decide)
  have hoperator := isOperator_eq_false (p := isBlank) (by decide) h
  have hquote := isQuote_eq_false (p := isBlank) (by decide) h
  simp [Piece.first, hoperator, hdigit, hquote, isNameStart_of_isBlank h, hparen, hline, h]

/-- A token that is read off a source fits and stops. -/
theorem fits_of_first (h : Piece.first c cs = (⟨.token kind, text⟩, rest)) :
    Fits kind text ∧ Stops kind rest := by
  unfold Piece.first at h
  split at h
  · rename_i hoperator
    cases h
    exact ⟨⟨c, isOperator_iff.1 hoperator, rfl⟩, trivial⟩
  split at h
  · rename_i hdigit
    cases h
    obtain ⟨-, hdigits, hstops⟩ := takeWhile_dropWhile_eq_iff.1 ⟨rfl, rfl⟩
    exact ⟨⟨List.cons_ne_nil _ _, List.forall_mem_cons.2 ⟨hdigit, hdigits⟩⟩, hstops⟩
  split at h
  · rename_i hquote
    split at h
    · rename_i hclose
      cases h
      obtain ⟨skipped, body, hlength, hbody, rfl⟩ := body_of_closeString hclose
      obtain rfl := List.length_eq_zero_iff.1 hlength
      exact ⟨⟨c, isQuote_iff.1 hquote, body, hbody, rfl⟩, trivial⟩
    · cases h
  split at h
  · rename_i hstart
    obtain ⟨-, hparts, hstops⟩ := takeWhile_dropWhile_eq_iff.1
      (⟨rfl, rfl⟩ : cs.takeWhile isNamePart = _ ∧ cs.dropWhile isNamePart = _)
    have hname : IsName (c :: cs.takeWhile isNamePart) := ⟨c, _, rfl, hstart, hparts⟩
    by_cases hparen : (cs.dropWhile isNamePart).head? = some '('
    · simp only [if_pos hparen] at h
      cases h
      exact ⟨hname, hparen⟩
    · simp only [if_neg hparen] at h
      cases h
      refine ⟨hname, fun d hd => ⟨hstops d hd, ?_⟩⟩
      rintro rfl
      exact hparen hd
  split at h
  · rename_i hparen
    cases h
    exact ⟨hparen.imp (congrArg ([·])) (congrArg ([·])), trivial⟩
  split at h
  · rename_i hline
    cases h
    exact ⟨congrArg ([·]) hline, trivial⟩
  split at h
  · rename_i hline hblank
    cases h
    exact ⟨⟨c, rfl, hblank, hline⟩, trivial⟩
  split at h
  · rename_i hcomma
    cases h
    exact ⟨congrArg ([·]) hcomma, trivial⟩
  · cases h

/-- **The first piece of a source is the lexeme that fits and stops.** -/
theorem first_eq_token_iff :
    Piece.first c cs = (⟨.token kind, text⟩, rest) ↔
      Fits kind text ∧ Stops kind rest ∧ text ++ rest = c :: cs := by
  constructor
  · intro h
    obtain ⟨hfits, hstops⟩ := fits_of_first h
    have happend := Piece.first_append c cs
    rw [h] at happend
    exact ⟨hfits, hstops, happend⟩
  · rintro ⟨hfits, hstops, happend⟩
    cases kind with
    | operator =>
        obtain ⟨d, hd, rfl⟩ := hfits
        obtain ⟨rfl, rfl⟩ := List.cons.inj happend
        simp [Piece.first, isOperator_iff.2 hd]
    | functionName =>
        obtain ⟨d, ds, rfl, hstart, hparts⟩ := hfits
        obtain ⟨rfl, hcs⟩ := List.cons.inj happend
        have hparen : rest.head? = some '(' := hstops
        have hend : ∀ x ∈ rest.head?, isNamePart x = false := by
          intro x hx
          rw [hparen] at hx
          obtain rfl := Option.some.inj hx
          decide
        obtain ⟨htake, hdrop⟩ := takeWhile_dropWhile_eq_iff.2 ⟨hcs, hparts, hend⟩
        rw [first_of_isNameStart hstart, htake, hdrop, if_pos hparen]
    | «variable» =>
        obtain ⟨d, ds, rfl, hstart, hparts⟩ := hfits
        obtain ⟨rfl, hcs⟩ := List.cons.inj happend
        obtain ⟨htake, hdrop⟩ :=
          takeWhile_dropWhile_eq_iff.2 ⟨hcs, hparts, fun x hx => (hstops x hx).1⟩
        rw [first_of_isNameStart hstart, htake, hdrop, if_neg]
        exact fun hparen => (hstops '(' hparen).2 rfl
    | number =>
        obtain ⟨hne, hdigits⟩ := hfits
        obtain ⟨d, ds, rfl⟩ := List.exists_cons_of_ne_nil hne
        obtain ⟨rfl, hcs⟩ := List.cons.inj happend
        obtain ⟨hdigit, hdigits⟩ := List.forall_mem_cons.1 hdigits
        obtain ⟨htake, hdrop⟩ := takeWhile_dropWhile_eq_iff.2 ⟨hcs, hdigits, hstops⟩
        rw [first_of_isDigit hdigit, htake, hdrop]
    | stringLiteral =>
        obtain ⟨quote, hquote, body, hbody, rfl⟩ := hfits
        rw [List.cons_append, List.append_assoc, List.singleton_append] at happend
        obtain ⟨rfl, rfl⟩ := List.cons.inj happend
        have hbackslash : quote ≠ '\\' := by
          rintro rfl
          exact absurd hquote (by decide)
        rw [first_of_mem_quotes hquote, hbody.closeString hbackslash]
    | control =>
        rcases hfits with rfl | rfl
        · obtain ⟨rfl, rfl⟩ := List.cons.inj happend
          rfl
        · obtain ⟨rfl, rfl⟩ := List.cons.inj happend
          rfl
    | comma | newLine =>
        obtain rfl := hfits
        obtain ⟨rfl, rfl⟩ := List.cons.inj happend
        rfl
    | whitespace =>
        obtain ⟨d, rfl, hblank, hline⟩ := hfits
        obtain ⟨rfl, rfl⟩ := List.cons.inj happend
        exact first_of_isBlank hblank hline _

end Lexical

end FormulaLang
