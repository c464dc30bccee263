import Mathlib.Data.List.Induction
import FormulaLang.Proofs.Lexical.Grammar

/-!
# `Lexical.Segmentation` — tokenizing is the lexical grammar

A `Segmentation` of a source is a list of lexemes that together are the source, each of them with a
text of its kind, and no two of them side by side that would be read in another way: two numbers, a
name and what would go on with it, a name and the parenthesis that makes it the name of a function.
The source has at most one, and it is the one that tokenizing finds. Where a token stands follows
from the tokens before it (`Piece.positionAfter`).

- **`tokenize_eq_ok_iff`**: the tokens of a source are its segmentation, each at its position.
-/

namespace FormulaLang

open Text Lexical

/-- What holds wherever a list is split at one of its elements, by the first element. -/
theorem forall_split_cons {α : Type} {P : List α → α → List α → Prop} {a : α} {as : List α} :
    (∀ before x after, a :: as = before ++ x :: after → P before x after) ↔
      P [] a as ∧ ∀ before x after, as = before ++ x :: after → P (a :: before) x after := by
  constructor
  · intro h
    exact ⟨h [] a as rfl, fun before x after has => h (a :: before) x after (by rw [has]; rfl)⟩
  · rintro ⟨hfirst, hlater⟩ before x after h
    cases before with
    | nil =>
        obtain ⟨rfl, rfl⟩ := List.cons.inj h
        exact hfirst
    | cons b before =>
        obtain ⟨rfl, has⟩ := List.cons.inj h
        exact hlater before x after has

/-! ## Neighbours -/

namespace Lexeme

/-- The lexeme is an opening parenthesis. -/
def Opens (l : Lexeme) : Prop := l.kind = .control ∧ l.text = ['(']

/-- The lexeme begins with a character that could go on with a name. -/
def ContinuesName (l : Lexeme) : Prop := ∃ c ∈ l.text.head?, isNamePart c = true

/-- The lexeme may stand directly before the next one, or at the end of the source. -/
def MayPrecede (l : Lexeme) (next : Option Lexeme) : Prop :=
  match l.kind with
  | .number => ∀ l' ∈ next, l'.kind ≠ .number
  | .variable => ∀ l' ∈ next, ¬ l'.ContinuesName ∧ ¬ l'.Opens
  | .functionName => (∀ l' ∈ next, ¬ l'.ContinuesName) ∧ ∃ l' ∈ next, l'.Opens
  | _ => True

end Lexeme

/-- Lexemes that a source is cut into. -/
structure Segmentation (source : List Char) (lexemes : List Lexeme) : Prop where
  lossless : lexemes.flatMap Lexeme.text = source
  fits : ∀ l ∈ lexemes, Fits l.kind l.text
  neighbours : ∀ before l after, lexemes = before ++ l :: after → l.MayPrecede after.head?

namespace Segmentation

variable {source : List Char} {l : Lexeme} {ls : List Lexeme}

theorem nil_iff : Segmentation source [] ↔ source = [] := by
  constructor
  · intro h
    exact h.lossless.symm
  · rintro rfl
    exact ⟨rfl, by simp, by simp⟩

theorem cons_iff : Segmentation source (l :: ls) ↔
    ∃ rest, l.text ++ rest = source ∧ Fits l.kind l.text ∧ l.MayPrecede ls.head? ∧
      Segmentation rest ls := by
  constructor
  · rintro ⟨hlossless, hfits, hneighbours⟩
    obtain ⟨hfit, hfits⟩ := List.forall_mem_cons.1 hfits
    obtain ⟨hfirst, hlater⟩ := forall_split_cons.1 hneighbours
    exact ⟨ls.flatMap Lexeme.text, hlossless, hfit, hfirst, rfl, hfits, hlater⟩
  · rintro ⟨rest, rfl, hfit, hfirst, rfl, hfits, hlater⟩
    exact ⟨rfl, List.forall_mem_cons.2 ⟨hfit, hfits⟩, forall_split_cons.2 ⟨hfirst, hlater⟩⟩

end Segmentation

namespace Lexical

/-- Only the opening parenthesis begins with one. -/
theorem Fits.eq_paren_iff {kind : TokenKind} {d : Char} {ds : List Char}
    (h : Fits kind (d :: ds)) : d = '(' ↔ kind = .control ∧ d :: ds = ['('] := by
  constructor
  · rintro rfl
    obtain rfl := h.begins.kind_of_paren
    rcases h with heq | heq
    · exact ⟨rfl, heq⟩
    · cases heq
  · rintro ⟨-, heq⟩
    exact (List.cons.inj heq).1

/-- What a lexeme asks of its neighbour is what it asks of the source behind it. -/
theorem mayPrecede_iff_stops {l : Lexeme} {rest : List Char} {ls : List Lexeme}
    (h : Segmentation rest ls) : l.MayPrecede ls.head? ↔ Stops l.kind rest := by
  cases ls with
  | nil =>
      obtain rfl := Segmentation.nil_iff.1 h
      cases hkind : l.kind <;> simp [Lexeme.MayPrecede, hkind, Stops]
  | cons l' ls =>
      obtain ⟨rest', rfl, hfits, -, -⟩ := Segmentation.cons_iff.1 h
      obtain ⟨d, ds, htext⟩ := List.exists_cons_of_ne_nil hfits.ne_nil
      have hopens : l'.Opens ↔ d = '(' := by
        rw [htext] at hfits
        rw [Lexeme.Opens, htext, hfits.eq_paren_iff]
      have hcontinues : l'.ContinuesName ↔ isNamePart d = true := by
        simp [Lexeme.ContinuesName, htext]
      have hnumber : l'.kind = .number ↔ d.isDigit = true := by
        rw [htext] at hfits
        exact hfits.begins.isDigit_iff.symm
      cases hkind : l.kind with
      | number => simp [Lexeme.MayPrecede, hkind, Stops, htext, hnumber]
      | functionName =>
          simp only [Lexeme.MayPrecede, hkind, Stops, htext, List.head?_cons, Option.mem_def,
            Option.some.injEq, forall_eq', exists_eq_left', hopens, hcontinues, List.cons_append]
          constructor
          · exact And.right
          · rintro rfl
            exact ⟨by decide, rfl⟩
      | «variable» => simp [Lexeme.MayPrecede, hkind, Stops, htext, hopens, hcontinues]
      | _ => simp [Lexeme.MayPrecede, hkind, Stops]

end Lexical

/-- **The pieces of a source are its one segmentation,** if each of them is a token. -/
theorem split_eq_map_piece_iff {cs : List Char} {ls : List Lexeme} :
    Piece.split cs = ls.map Lexeme.piece ↔ Segmentation cs ls := by
  induction ls generalizing cs with
  | nil =>
      rw [Segmentation.nil_iff]
      cases cs with
      | nil => simp
      | cons c cs => simp
  | cons l ls ih =>
      rw [Segmentation.cons_iff]
      cases cs with
      | nil =>
          simp only [Piece.split_nil, List.map_cons, List.nil_eq, reduceCtorEq, false_iff]
          rintro ⟨rest, happend, hfits, -⟩
          exact hfits.ne_nil (List.append_eq_nil_iff.1 happend).1
      | cons c cs =>
          rw [Piece.split_cons, List.map_cons, List.cons.injEq, ih]
          constructor
          · rintro ⟨hfirst, hrest⟩
            obtain ⟨hfits, hstops, happend⟩ := first_eq_token_iff.1
              (Prod.ext hfirst rfl : Piece.first c cs = (l.piece, (Piece.first c cs).2))
            exact ⟨_, happend, hfits, (mayPrecede_iff_stops hrest).2 hstops, hrest⟩
          · rintro ⟨rest, happend, hfits, hnext, hrest⟩
            have hstops := (mayPrecede_iff_stops hrest).1 hnext
            have hfirst : Piece.first c cs = (l.piece, rest) :=
              first_eq_token_iff.2 ⟨hfits, hstops, happend⟩
            rw [hfirst]
            exact ⟨rfl, hrest⟩

/-- A source has at most one segmentation. -/
theorem Segmentation.unique {cs : List Char} {ls ls' : List Lexeme} (h : Segmentation cs ls)
    (h' : Segmentation cs ls') : ls = ls' := by
  have hpieces := (split_eq_map_piece_iff.2 h).symm.trans (split_eq_map_piece_iff.2 h')
  exact (List.map_inj_right fun _ _ => Lexeme.piece_injective).1 hpieces

/-- A source has no more pieces than characters. -/
theorem Piece.length_split_le (cs : List Char) : (Piece.split cs).length ≤ cs.length := by
  induction h : cs.length using Nat.strongRecOn generalizing cs with
  | ind n ih =>
      cases cs with
      | nil => simp
      | cons c cs =>
          subst h
          have hfirst := Piece.length_first_lt c cs
          have hrest := ih _ hfirst _ rfl
          rw [Piece.split_cons, List.length_cons]
          omega

/-! ## Positions -/

namespace Piece

/-- A line ends with the piece. -/
def EndsLine (piece : Piece) : Prop := piece.category = .token .newLine

instance (piece : Piece) : Decidable piece.EndsLine := inferInstanceAs (Decidable (_ = _))

/-- The position after the pieces: one line more than there are line feeds that are tokens, and as
    many columns as there are characters after the last of them. -/
def positionAfter (pieces : List Piece) : Position where
  line := 1 + pieces.countP fun piece => piece.EndsLine
  column := ((pieces.reverse.takeWhile fun piece => ¬ piece.EndsLine).flatMap Piece.text).length

theorem positionAfter_append_singleton (pieces : List Piece) (piece : Piece) :
    positionAfter (pieces ++ [piece]) =
      if piece.EndsLine then ⟨(positionAfter pieces).line + 1, 0⟩
      else ⟨(positionAfter pieces).line, (positionAfter pieces).column + piece.text.length⟩ := by
  by_cases hline : piece.EndsLine
  · simp [positionAfter, hline, Nat.add_assoc]
  · simp [positionAfter, hline, Nat.add_comm]

/-- Going on from piece to piece, the cursor is at the position after all of them. -/
theorem position_foldl_past (pieces : List Piece) :
    (pieces.foldl Cursor.past .start).position = positionAfter pieces := by
  induction pieces using List.reverseRecOn with
  | nil => rfl
  | append_singleton pieces piece ih =>
      rw [positionAfter_append_singleton, ← ih, List.foldl_append, List.foldl_cons, List.foldl_nil]
      rfl

theorem item_eq_ok_iff {here : Cursor} {piece : Piece} {token : Token} :
    piece.item here = .ok token ↔
      piece = token.lexeme.piece ∧ token.position = here.position := by
  obtain ⟨category, text⟩ := piece
  obtain ⟨kind, string, position⟩ := token
  cases category with
  | token kind' =>
      simp only [item, Token.lexeme, Lexeme.piece, Except.ok.injEq, Token.mk.injEq, Piece.mk.injEq,
        Category.token.injEq, String.ext_iff, String.toList_ofList]
      constructor
      · rintro ⟨rfl, htext, rfl⟩
        exact ⟨⟨rfl, htext⟩, rfl⟩
      · rintro ⟨⟨rfl, htext⟩, rfl⟩
        exact ⟨rfl, htext, rfl⟩
  | stray found => simp [item, Lexeme.piece]
  | unterminated => simp [item, Lexeme.piece]

/-- All items are tokens if the pieces are theirs, each token at the place of its piece. -/
theorem items_eq_map_ok_iff {here : Cursor} {pieces : List Piece} {tokens : List Token} :
    items here pieces = tokens.map .ok ↔
      pieces = tokens.map (fun token => token.lexeme.piece) ∧
        ∀ before token after, tokens = before ++ token :: after → token.position =
          ((before.map fun token => token.lexeme.piece).foldl Cursor.past here).position := by
  induction tokens generalizing here pieces with
  | nil => cases pieces <;> simp [items]
  | cons token tokens ih =>
      cases pieces with
      | nil => simp [items]
      | cons piece pieces =>
          rw [items, List.map_cons, List.cons.injEq, item_eq_ok_iff, ih, List.map_cons,
            List.cons.injEq, forall_split_cons]
          constructor
          · rintro ⟨⟨rfl, hposition⟩, hpieces, hlater⟩
            exact ⟨⟨rfl, hpieces⟩, hposition, hlater⟩
          · rintro ⟨⟨rfl, hpieces⟩, hposition, hlater⟩
            exact ⟨⟨rfl, hposition⟩, hpieces, hlater⟩

/-- Wherever they stand, the pieces that lexemes are become tokens. -/
theorem exists_items_eq (here : Cursor) (ls : List Lexeme) :
    ∃ tokens : List Token,
      items here (ls.map Lexeme.piece) = tokens.map .ok ∧ tokens.map Token.lexeme = ls := by
  induction ls generalizing here with
  | nil => exact ⟨[], rfl, rfl⟩
  | cons l ls ih =>
      obtain ⟨tokens, hitems, hlexemes⟩ := ih (here.past l.piece)
      let token : Token := ⟨l.kind, String.ofList l.text, here.position⟩
      refine ⟨token :: tokens, ?_, ?_⟩
      · rw [List.map_cons, items, hitems]
        rfl
      · rw [List.map_cons, hlexemes, Token.lexeme, String.toList_ofList]

end Piece

/-! ## Tokens -/

theorem mapM_id_eq_ok_iff {ε α : Type} {items : List (Except ε α)} {as : List α} :
    items.mapM id = .ok as ↔ items = as.map .ok := by
  induction items generalizing as with
  | nil => cases as <;> simp [pure, Except.pure]
  | cons item items ih =>
      rw [List.mapM_cons]
      cases item with
      | error e => cases as <;> simp [bind, Except.bind]
      | ok a =>
          show ((items.mapM id).bind fun as => .ok (a :: as)) = .ok as ↔ _
          cases as with
          | nil => cases items.mapM id <;> simp [Except.bind]
          | cons b bs =>
              rw [List.map_cons, List.cons.injEq, ← ih]
              cases items.mapM id <;> simp [Except.bind]

/-- Every token stands where the tokens before it end. -/
def Located (tokens : List Token) : Prop :=
  ∀ before token after, tokens = before ++ token :: after →
    token.position = Piece.positionAfter (before.map fun token => token.lexeme.piece)

/-- The tokens of a source are its segmentation, each token where it stands. -/
theorem tokenize_eq_ok_iff {source : String} {tokens : List Token} :
    tokenize source = .ok tokens ↔
      Segmentation source.toList (tokens.map Token.lexeme) ∧ Located tokens := by
  rw [tokenize, mapM_id_eq_ok_iff, lex, Piece.items_eq_map_ok_iff, ← split_eq_map_piece_iff,
    List.map_map]
  simp only [Piece.position_foldl_past]
  rfl

/-- Every segmentation is that of the tokens of its source. -/
theorem exists_tokenize_iff {source : String} {ls : List Lexeme} :
    (∃ tokens, tokenize source = .ok tokens ∧ tokens.map Token.lexeme = ls) ↔
      Segmentation source.toList ls := by
  constructor
  · rintro ⟨tokens, htokens, rfl⟩
    exact (tokenize_eq_ok_iff.1 htokens).1
  · intro h
    obtain ⟨tokens, hitems, hlexemes⟩ := Piece.exists_items_eq .start ls
    refine ⟨tokens, ?_, hlexemes⟩
    rw [tokenize, mapM_id_eq_ok_iff, lex, split_eq_map_piece_iff.2 h, hitems]

/-- **Tokenizing is the lexical grammar, which is unambiguous.** A source has the tokens exactly if
    their texts together are the source, each text fits its kind, no two neighbours would be read
    in another way, and each token is at the position that those before it lead to. No source can
    be cut into lexemes in two ways. -/
theorem tokenize_is_segmentation (source : String) :
    (∀ tokens, tokenize source = .ok tokens ↔
      Segmentation source.toList (tokens.map Token.lexeme) ∧ Located tokens) ∧
    ∀ ls ls', Segmentation source.toList ls → Segmentation source.toList ls' → ls = ls' :=
  ⟨fun _ => tokenize_eq_ok_iff, fun _ _ h h' => h.unique h'⟩

end FormulaLang
