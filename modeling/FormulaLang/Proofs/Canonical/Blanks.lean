import FormulaLang.Proofs.Canonical.Words
import FormulaLang.Proofs.Grammar.Relocation

/-!
# `Canonical.Blanks` — white space between tokens never matters

A white-space character is a token of its own, wherever it stands, and no token runs on into it. So
if one is put between two tokens, at the start or at the end, the tokens of the source are the old
ones and the new one among them, unless it parts the name of a function from its parenthesis. The
tokens behind it on its line have moved by one column, and all others are where they were. The
parser drops white space and passes positions on, so it comes to the same, with the position of an
error moved like the token that it points at.

- **`tokenize_insert_blank`**: the tokens of the longer source.
- **`blank_between_tokens`**: what it is parsed to.
-/

namespace FormulaLang

open Text Lexical

/-! ## Lexemes -/

/-- A white-space character as a lexeme. -/
def Lexeme.blank (w : Char) : Lexeme := ⟨.whitespace, [w]⟩

/-- White space may stand where a lexeme ends that is not the name of a function. -/
theorem Lexeme.MayPrecede.blank {l : Lexeme} {next : Option Lexeme} (h : l.MayPrecede next)
    (hgap : ∀ right ∈ next, l.kind ≠ .functionName) {w : Char} (hw : isBlank w = true) :
    l.MayPrecede (some (.blank w)) := by
  obtain ⟨kind, text⟩ := l
  cases kind with
  | number =>
      rintro _ ⟨⟩ hkind
      cases hkind
  | «variable» =>
      rintro _ ⟨⟩
      refine ⟨?_, fun hopens => ?_⟩
      · rintro ⟨c, ⟨⟩, hc⟩
        rw [isNamePart_of_isBlank hw] at hc
        cases hc
      · cases hopens.1
  | functionName =>
      -- at the end of a source there is no name of a function
      obtain ⟨-, right, hright, -⟩ := h
      exact absurd rfl (hgap right hright)
  | _ => trivial

/-- White space may be put between lexemes. -/
theorem Readable.insert_blank {ls ls' : List Lexeme} (h : Readable (ls ++ ls'))
    (hgap : ∀ left ∈ ls.getLast?, ∀ right ∈ ls'.head?, left.kind ≠ .functionName) {w : Char}
    (hw : isBlank w = true) (hline : w ≠ '\n') : Readable (ls ++ .blank w :: ls') := by
  induction ls with
  | nil => exact readable_cons.2 ⟨⟨w, rfl, hw, hline⟩, trivial, h⟩
  | cons l ls ih =>
      obtain ⟨hfits, hnext, hrest⟩ := readable_cons.1 h
      cases ls with
      | nil =>
          refine readable_cons.2 ⟨hfits, hnext.blank (hgap l rfl) hw, ih hrest ?_⟩
          rintro left ⟨⟩
      | cons l' ls =>
          refine readable_cons.2 ⟨hfits, hnext, ih hrest ?_⟩
          rwa [List.getLast?_cons_cons] at hgap

/-! ## Positions -/

namespace Position

/-- The place is not before `here`. -/
def Behind (here p : Position) : Prop :=
  here.line < p.line ∨ (here.line = p.line ∧ here.column ≤ p.column)

/-- Where a place of a source is after one character was put in at `here`, in the same line. -/
def pushed (here p : Position) : Position :=
  if p.line = here.line ∧ here.column ≤ p.column then { p with column := p.column + 1 } else p

variable {here p q : Position}

theorem Behind.refl (p : Position) : Behind p p := .inr ⟨rfl, Nat.le_refl _⟩

theorem Behind.trans {r : Position} (h : Behind p q) (h' : Behind q r) : Behind p r := by
  unfold Behind at *
  omega

/-- Places before the character stay. -/
theorem pushed_of_not_behind (h : ¬ Behind here p) : pushed here p = p := by
  rw [pushed, if_neg]
  unfold Behind at h
  omega

/-- Places behind it move by one column if they are in its line. -/
theorem pushed_of_behind (h : Behind here p) : pushed here p =
    if p.line = here.line then { p with column := p.column + 1 } else p := by
  unfold Behind at h
  by_cases hline : p.line = here.line
  · have hcolumn : here.column ≤ p.column := by omega
    rw [pushed, if_pos ⟨hline, hcolumn⟩, if_pos hline]
  · rw [pushed, if_neg fun hboth => hline hboth.1, if_neg hline]

@[simp] theorem line_pushed : (pushed here p).line = p.line := by
  unfold pushed
  split
  · rfl
  · rfl

/-- The lines behind the place begin where they did. -/
theorem pushed_next_line (h : Behind here p) : pushed here ⟨p.line + 1, 0⟩ = ⟨p.line + 1, 0⟩ := by
  unfold Behind at h
  rw [pushed, if_neg]
  simp only
  omega

/-- What stands further on in a line moves along. -/
theorem pushed_further (h : Behind here p) (n : Nat) : pushed here ⟨p.line, p.column + n⟩ =
    ⟨p.line, (pushed here p).column + n⟩ := by
  have hfurther : Behind here ⟨p.line, p.column + n⟩ := h.trans (.inr ⟨rfl, Nat.le_add_right _ _⟩)
  rw [pushed_of_behind h, pushed_of_behind hfurther]
  split
  · simp only [Position.mk.injEq, true_and]
    omega
  · rfl

end Position

namespace Piece
open Position

/-- Piece by piece, positions go on. -/
theorem behind_positionAfter (xs ys : List Piece) :
    Behind (positionAfter xs) (positionAfter (xs ++ ys)) := by
  induction ys using List.reverseRecOn with
  | nil =>
      rw [List.append_nil]
      exact .refl _
  | append_singleton ys y ih =>
      refine ih.trans ?_
      rw [← List.append_assoc, positionAfter_append_singleton]
      split
      · exact .inl (Nat.lt_succ_self _)
      · exact .inr ⟨rfl, Nat.le_add_right _ _⟩

/-- A piece that is not empty is before what follows it. -/
theorem not_behind_positionAfter (xs ys : List Piece) {y : Piece} (hy : y.text ≠ []) :
    ¬ Behind (positionAfter (xs ++ y :: ys)) (positionAfter xs) := by
  rw [List.append_cons]
  intro hbehind
  have h := (behind_positionAfter (xs ++ [y]) ys).trans hbehind
  have hlength := List.length_pos_iff.2 hy
  rw [positionAfter_append_singleton] at h
  unfold Behind at h
  split at h
  · simp only at h
    omega
  · simp only at h
    omega

/-- A piece of one character that ends no line pushes what is behind it. -/
theorem positionAfter_insert (xs ys : List Piece) {b : Piece} (hline : ¬ b.EndsLine)
    (hlength : b.text.length = 1) : positionAfter (xs ++ b :: ys) =
      pushed (positionAfter xs) (positionAfter (xs ++ ys)) := by
  induction ys using List.reverseRecOn with
  | nil =>
      rw [positionAfter_append_singleton, if_neg hline, hlength, List.append_nil,
        pushed_of_behind (.refl _), if_pos rfl]
  | append_singleton ys y ih =>
      have hbehind := behind_positionAfter xs ys
      rw [← List.cons_append, ← List.append_assoc, ← List.append_assoc,
        positionAfter_append_singleton, positionAfter_append_singleton, ih, line_pushed]
      split
      · exact (pushed_next_line hbehind).symm
      · exact (pushed_further hbehind y.text.length).symm

end Piece

/-! ## Tokens -/

/-- The tokens stand where they do behind others. -/
def LocatedBehind (before tokens : List Token) : Prop :=
  ∀ between token rest, tokens = between ++ token :: rest → token.position =
    Piece.positionAfter ((before ++ between).map fun token => token.lexeme.piece)

/-- The first tokens do not depend on the others. -/
theorem located_append {xs ys : List Token} :
    Located (xs ++ ys) ↔ Located xs ∧ LocatedBehind xs ys := by
  constructor
  · intro h
    refine ⟨fun before token after hxs => ?_, fun between token rest hys => ?_⟩
    · exact h before token (after ++ ys) (by simp [hxs])
    · exact h (xs ++ between) token rest (by simp [hys])
  · rintro ⟨hxs, hys⟩ before token after hsplit
    rcases List.append_eq_append_iff.1 hsplit with ⟨between, rfl, hrest⟩ | ⟨more, rfl, hrest⟩
    · exact hys between token after hrest
    · cases more with
      | nil =>
          have := hys [] token after hrest.symm
          rwa [List.append_nil, List.append_nil] at this
      | cons first more =>
          obtain ⟨rfl, -⟩ := List.cons.inj hrest
          exact hxs before token more rfl

section
variable {front back : String} {before after : List Token} {w : Char}

/-- The position behind tokens from the start of a source. -/
def positionBehind (tokens : List Token) : Position :=
  Piece.positionAfter (tokens.map fun token => token.lexeme.piece)

theorem piece_relocate (g : Position → Position) (tokens : List Token) :
    (tokens.map (Token.relocate g)).map (fun token => token.lexeme.piece) =
      tokens.map fun token => token.lexeme.piece := by
  rw [List.map_map]
  rfl

/-- The tokens behind a white-space character have been pushed. -/
theorem LocatedBehind.insert_blank (h : LocatedBehind before after) (w : Char) :
    LocatedBehind before (⟨.whitespace, String.singleton w, positionBehind before⟩ ::
      after.map (Token.relocate (Position.pushed (positionBehind before)))) := by
  intro between token rest hsplit
  cases between with
  | nil =>
      obtain ⟨rfl, -⟩ := List.cons.inj hsplit
      rw [List.append_nil]
      rfl
  | cons blank between =>
      obtain ⟨rfl, hlater⟩ := List.cons.inj hsplit
      obtain ⟨between, more, rfl, rfl, hmore⟩ := List.map_eq_append_iff.1 hlater
      obtain ⟨token, rest, rfl, rfl, -⟩ := List.map_eq_cons_iff.1 hmore
      have hposition := h between token rest rfl
      show Position.pushed (positionBehind before) token.position = _
      rw [hposition, List.map_append, List.map_append, List.map_cons, piece_relocate]
      refine (Piece.positionAfter_insert _ _ ?_ ?_).symm
      · intro hends
        cases hends
      · show (String.singleton w).toList.length = 1
        rw [String.toList_singleton]
        rfl

/-- The lexemes on the two sides of the place have the texts on the two sides. -/
theorem texts_of_tokenize (htokens : tokenize (front ++ back) = .ok (before ++ after))
    (hfront : String.join (before.map Token.text) = front) :
    (before.map Token.lexeme).flatMap Lexeme.text = front.toList ∧
      (after.map Token.lexeme).flatMap Lexeme.text = back.toList := by
  have hfrontText : (before.map Token.lexeme).flatMap Lexeme.text = front.toList := by
    rw [← hfront, String.toList_join, List.flatMap_map, List.flatMap_map]
    rfl
  have hlossless := (tokenize_eq_ok_iff.1 htokens).1.lossless
  rw [List.map_append, List.flatMap_append, hfrontText, String.toList_append] at hlossless
  exact ⟨hfrontText, List.append_cancel_left hlossless⟩

/-- White space may be put between the lexemes of a source. -/
theorem readable_insert_blank (htokens : tokenize (front ++ back) = .ok (before ++ after))
    (hgap : ∀ left ∈ before.getLast?, ∀ right ∈ after.head?, left.kind ≠ .functionName)
    (hw : isBlank w = true) (hline : w ≠ '\n') :
    Readable (before.map Token.lexeme ++ .blank w :: after.map Token.lexeme) := by
  have hsegmentation := (tokenize_eq_ok_iff.1 htokens).1
  refine Readable.insert_blank ?_ ?_ hw hline
  · rw [← List.map_append, Readable, hsegmentation.lossless]
    exact hsegmentation
  · intro left hleft right hright
    rw [List.getLast?_map] at hleft
    rw [List.head?_map] at hright
    obtain ⟨left, hbeforeLast, rfl⟩ := Option.map_eq_some_iff.1 hleft
    obtain ⟨right, hafterHead, -⟩ := Option.map_eq_some_iff.1 hright
    exact hgap left hbeforeLast right hafterHead

/-- **Tokens of a source with white space put in.** -/
theorem tokenize_insert_blank (htokens : tokenize (front ++ back) = .ok (before ++ after))
    (hfront : String.join (before.map Token.text) = front)
    (hgap : ∀ left ∈ before.getLast?, ∀ right ∈ after.head?, left.kind ≠ .functionName)
    (hw : isBlank w = true) (hline : w ≠ '\n') :
    tokenize (front ++ String.singleton w ++ back) =
      .ok (before ++ ⟨.whitespace, String.singleton w, positionBehind before⟩ ::
        after.map (Token.relocate (Position.pushed (positionBehind before)))) := by
  obtain ⟨hbefore, hafter⟩ := located_append.1 (tokenize_eq_ok_iff.1 htokens).2
  obtain ⟨hfrontText, hbackText⟩ := texts_of_tokenize htokens hfront
  have hlexemes : (before ++ ⟨.whitespace, String.singleton w, positionBehind before⟩ ::
      after.map (Token.relocate (Position.pushed (positionBehind before)))).map Token.lexeme =
        before.map Token.lexeme ++ .blank w :: after.map Token.lexeme := by
    rw [List.map_append, List.map_cons, List.map_map, Token.lexeme, String.toList_singleton]
    rfl
  have hsource : (front ++ String.singleton w ++ back).toList =
      (before.map Token.lexeme ++ .blank w :: after.map Token.lexeme).flatMap Lexeme.text := by
    rw [List.flatMap_append, List.flatMap_cons, hfrontText, hbackText, String.toList_append,
      String.toList_append, String.toList_singleton, List.append_assoc]
    rfl
  refine tokenize_eq_ok_iff.2 ⟨?_, located_append.2 ⟨hbefore, hafter.insert_blank w⟩⟩
  rw [hlexemes, hsource]
  exact readable_insert_blank htokens hgap hw hline

/-- The tokens before the place stay where they are. -/
theorem pushed_of_mem_before (htokens : tokenize (front ++ back) = .ok (before ++ after))
    {token : Token} (htoken : token ∈ before) :
    Position.pushed (positionBehind before) token.position = token.position := by
  obtain ⟨hsegmentation, hlocated⟩ := tokenize_eq_ok_iff.1 htokens
  obtain ⟨earlier, later, rfl⟩ := List.append_of_mem htoken
  have hne : token.lexeme.piece.text ≠ [] := by
    refine (hsegmentation.fits token.lexeme ?_).ne_nil
    exact List.mem_map_of_mem (List.mem_append_left after htoken)
  rw [hlocated earlier token (later ++ after) (by simp)]
  refine Position.pushed_of_not_behind ?_
  rw [positionBehind, List.map_append, List.map_cons]
  exact Piece.not_behind_positionAfter _ _ hne

/-- The others are pushed if they are on its line. -/
theorem pushed_of_mem_after (htokens : tokenize (front ++ back) = .ok (before ++ after))
    {token : Token} (htoken : token ∈ after) :
    Position.pushed (positionBehind before) token.position =
      if token.position.line = (positionBehind before).line then
        { token.position with column := token.position.column + 1 }
      else token.position := by
  obtain ⟨-, hlocated⟩ := tokenize_eq_ok_iff.1 htokens
  obtain ⟨earlier, later, rfl⟩ := List.append_of_mem htoken
  refine Position.pushed_of_behind ?_
  rw [hlocated (before ++ earlier) token later (by simp), List.map_append]
  exact Piece.behind_positionAfter _ _

/-! ## Parsing -/

/-- White space put in is dropped again, and the other tokens are all pushed alike. -/
theorem parseTokens_insert_blank
    (htokens : tokenize (front ++ back) = .ok (before ++ after)) (maxDepth : Nat) :
    parseTokens (before ++ ⟨.whitespace, String.singleton w, positionBehind before⟩ ::
        after.map (Token.relocate (Position.pushed (positionBehind before)))) maxDepth =
      (parseTokens (before ++ after) maxDepth).mapError
        (SyntaxError.relocate (Position.pushed (positionBehind before))) := by
  have hbefore :
      before.map (Token.relocate (Position.pushed (positionBehind before))) = before := by
    refine (List.map_congr_left fun token htoken => ?_).trans (List.map_id before)
    rw [Token.relocate, pushed_of_mem_before htokens htoken]
    rfl
  rw [← parseTokens_relocate, List.map_append, hbefore]
  simp [parseTokens]

end

/-- **White space between tokens never matters, except after the name of a function.** Let a source
    be cut into tokens, and put a white-space character other than a line feed at its start, at its
    end or between two neighbours the left one of which is not the name of a function. Then the
    tokens are the old ones with the new one among them; those before it stay, and those behind it
    have moved by one column exactly if they are on its line. Under every limit the longer source
    has the same tree as the old one, or the same syntax error. This is that of the end, or it
    points at one of the old tokens, and has moved with it. -/
theorem blank_between_tokens {front back : String} {before after : List Token} {w : Char}
    (htokens : tokenize (front ++ back) = .ok (before ++ after))
    (hfront : String.join (before.map Token.text) = front)
    (hgap : ∀ left ∈ before.getLast?, ∀ right ∈ after.head?, left.kind ≠ .functionName)
    (hw : isBlank w = true) (hline : w ≠ '\n') :
    let here := positionBehind before
    tokenize (front ++ String.singleton w ++ back) =
      .ok (before ++ ⟨.whitespace, String.singleton w, here⟩ ::
        after.map (Token.relocate here.pushed)) ∧
    (∀ token ∈ before, here.pushed token.position = token.position) ∧
    (∀ token ∈ after, here.pushed token.position =
      if token.position.line = here.line then
        { token.position with column := token.position.column + 1 }
      else token.position) ∧
    ∀ maxDepth,
      match parse (front ++ back) maxDepth with
      | .ok e => parse (front ++ String.singleton w ++ back) maxDepth = .ok e
      | .error (.lexical _) => False
      | .error (.syntactic error) =>
        parse (front ++ String.singleton w ++ back) maxDepth =
          .error (.syntactic (error.relocate here.pushed)) ∧
        ((∃ expected, error = .unexpectedEnd expected) ∨
          ∃ token ∈ before ++ after, error.PointsAt token) := by
  intro here
  have hlonger := tokenize_insert_blank htokens hfront hgap hw hline
  refine ⟨hlonger, fun token => pushed_of_mem_before htokens,
    fun token => pushed_of_mem_after htokens, fun maxDepth => ?_⟩
  rw [parse, parse, htokens, hlonger]
  dsimp only
  rw [parseTokens_insert_blank htokens]
  cases hparse : parseTokens (before ++ after) maxDepth with
  | ok e => rfl
  | error error => exact ⟨rfl, pointsAt_of_parseTokens hparse⟩

/-- In `1+)` the parenthesis is one column further on if there is a blank before it. -/
theorem blank_between_tokens_closing :
    isBlank ' ' = true ∧
    tokenize ("1+" ++ ")") = .ok ([⟨.number, "1", ⟨1, 0⟩⟩, ⟨.operator, "+", ⟨1, 1⟩⟩] ++
      [⟨.control, ")", ⟨1, 2⟩⟩]) ∧
    parse ("1+" ++ ")") 1 = .error (.syntactic (.unexpectedToken .expression ")" ⟨1, 2⟩)) ∧
    parse ("1+" ++ String.singleton ' ' ++ ")") 1 =
      .error (.syntactic (.unexpectedToken .expression ")" ⟨1, 3⟩)) := by
  have hblank : isBlank ' ' = true := by decide
  have htokens : tokenize ("1+" ++ ")") = .ok ([⟨.number, "1", ⟨1, 0⟩⟩,
      ⟨.operator, "+", ⟨1, 1⟩⟩] ++ [⟨.control, ")", ⟨1, 2⟩⟩]) := by decide +kernel
  have hparse : parse ("1+" ++ ")") 1 =
      .error (.syntactic (.unexpectedToken .expression ")" ⟨1, 2⟩)) := by decide +kernel
  obtain ⟨-, -, -, h⟩ := blank_between_tokens htokens (by decide) (by decide) hblank (by decide)
  have hlonger := h 1
  rw [hparse] at hlonger
  exact ⟨hblank, htokens, hparse, hlonger.1⟩

/-- A blank after the name of a function makes a variable of it. -/
example : parse "f(1)" 1 = .ok (.call "f" [.number 1]) ∧
    parse "f (1)" 1 = .error (.syntactic (.trailingInput "(" ⟨1, 2⟩)) := by
  decide +kernel

end FormulaLang
