import FormulaLang.Proofs.Canonical.Words

/-!
# `Canonical.Image` — the trees that sources spell

The lexemes of a canonical tree spell it: each level of the grammar derives what may stand at it
(`Derived`), one rule for each kind of tree. With `Canonical.Words` the text of the tree is
therefore a source for it, and with `Canonical.Tree` there is none for a tree of another shape.

- **`exists_parse_iff`**: the trees that parsing finds are the blank one and the canonical ones that
  keep within the limit on groups.
-/

namespace FormulaLang

open Lexical

namespace Grammar

/-! ## From level to level -/

/-- The tokens are the tree at every level at which it may stand without parentheses. -/
structure Derived (ts : List Token) (e : Expr) : Prop where
  atom : e.isRun = false → e.isSigned = false → Atom ts e
  signed : e.isRun = false → Signed ts e
  product : e.isSum = false → Binary .multiplicative ts e
  sum : Binary .additive ts e

namespace Derived

variable {ts : List Token} {e : Expr}

theorem of_atom (h : Atom ts e) : Derived ts e := by
  have hsigned : Signed ts e := .atom h
  have hproduct : Binary .multiplicative ts e := .of_lower (lower_multiplicative.2 hsigned)
  exact ⟨fun _ _ => h, fun _ => hsigned, fun _ => hproduct, .of_lower (lower_additive.2 hproduct)⟩

theorem of_signed (h : Signed ts e) (hsigned : e.isSigned = true) : Derived ts e := by
  have hproduct : Binary .multiplicative ts e := .of_lower (lower_multiplicative.2 h)
  refine ⟨fun _ hunsigned => ?_, fun _ => h, fun _ => hproduct,
    .of_lower (lower_additive.2 hproduct)⟩
  rw [hsigned] at hunsigned
  cases hunsigned

theorem of_run {p : Priority} {left : Expr} {operands : Operands}
    (h : Binary p ts (.binary left p operands)) : Derived ts (.binary left p operands) := by
  cases p with
  | additive => exact ⟨by simp [Expr.isRun], by simp [Expr.isRun], by simp [Expr.isSum], h⟩
  | multiplicative =>
      exact ⟨by simp [Expr.isRun], by simp [Expr.isRun], fun _ => h, .of_lower (lower_additive.2 h)⟩

/-- What may stand in a run is an operand of it. -/
theorem lower {p : Priority} (h : Derived ts e) (hstands : e.StandsIn p) : Lower p ts e := by
  cases p with
  | additive => exact lower_additive.2 (h.product hstands)
  | multiplicative => exact lower_multiplicative.2 (h.signed hstands)

end Derived

/-! ## Tokens by their lexemes -/

theorem isSymbol_of_lexeme {token : Token} {text : String} (h : token.lexeme = .symbol text) :
    IsSymbol token text := by
  obtain ⟨hkind, htext⟩ := Lexeme.mk.inj h
  exact ⟨hkind, String.toList_inj.1 htext⟩

theorem isControl_of_lexeme {token : Token} {c : Char} (h : token.lexeme = ⟨.control, [c]⟩) :
    token.isControl c := by
  obtain ⟨hkind, htext⟩ := Lexeme.mk.inj h
  simp [Token.isControl, hkind, htext]

/-- The tokens have the given lexemes. -/
abbrev Spell (ts : List Token) (ls : List Lexeme) : Prop := ts.map Token.lexeme = ls

theorem spell_cons {ts : List Token} {l : Lexeme} {ls : List Lexeme} :
    Spell ts (l :: ls) ↔ ∃ token us, ts = token :: us ∧ token.lexeme = l ∧ Spell us ls :=
  List.map_eq_cons_iff

theorem spell_append {ts : List Token} {ls ls' : List Lexeme} :
    Spell ts (ls ++ ls') ↔ ∃ us vs, ts = us ++ vs ∧ Spell us ls ∧ Spell vs ls' :=
  List.map_eq_append_iff

theorem spell_nil {ts : List Token} : Spell ts [] ↔ ts = [] := List.map_eq_nil_iff

theorem spell_singleton {ts : List Token} {l : Lexeme} :
    Spell ts [l] ↔ ∃ token, ts = [token] ∧ token.lexeme = l := List.map_eq_singleton_iff

end Grammar

open Grammar

theorem Operands.ofList_toList (op : Operator) (e : Expr) (rest : Operands) :
    Operands.ofList op e rest.toList = .more op e rest := by
  match rest with
  | .one op' e' => rfl
  | .more op' e' rest' => rw [Operands.toList, Operands.ofList, ofList_toList op' e' rest']

/-- A run is made of its own steps. -/
theorem Expr.run_toList (left : Expr) (p : Priority) (os : Operands) :
    Expr.run left p os.toList = .binary left p os := by
  cases os with
  | one op e => rfl
  | more op e rest => rw [Operands.toList, Expr.run, Operands.ofList_toList]

mutual

/-- **Tokens with the lexemes of a canonical tree spell it.** -/
theorem Expr.derived_words (e : Expr) (he : e.Canonical) {ts : List Token}
    (hts : Spell ts e.words) : Derived ts e := by
  cases e with
  | empty => exact he.elim
  | number n =>
      obtain ⟨token, rfl, hlexeme⟩ := spell_singleton.1 hts
      obtain ⟨hkind, htext⟩ := Lexeme.mk.inj hlexeme
      refine .of_atom (.number hkind ?_)
      rw [String.toList_inj.1 htext]
      exact Numeral.read?_write he
  | string text =>
      obtain ⟨token, rfl, hlexeme⟩ := spell_singleton.1 hts
      obtain ⟨hkind, htext⟩ := Lexeme.mk.inj hlexeme
      have hatom := Atom.string hkind
      rw [htext, List.tail_cons, List.dropLast_concat, String.ofList_toList] at hatom
      exact .of_atom hatom
  | «variable» name =>
      obtain ⟨token, rfl, hlexeme⟩ := spell_singleton.1 hts
      obtain ⟨hkind, htext⟩ := Lexeme.mk.inj hlexeme
      have hatom := Atom.variable hkind
      rw [String.toList_inj.1 htext] at hatom
      exact .of_atom hatom
  | unary sign operand =>
      obtain ⟨hrun, hsigned, hoperand⟩ := he
      obtain ⟨token, us, rfl, hlexeme, hus⟩ := spell_cons.1 hts
      have hatom := (operand.derived_words hoperand hus).atom hrun hsigned
      exact .of_signed (.sign (isSymbol_of_lexeme hlexeme) hatom) rfl
  | binary left p operands =>
      obtain ⟨hstands, hleft, hoperands⟩ := he
      obtain ⟨us, vs, rfl, hus, hvs⟩ := spell_append.1 hts
      have hfirst := (left.derived_words hleft hus).lower hstands
      have hrun := Binary.run hfirst (operands.derived_words hoperands hvs)
      rw [Expr.run_toList] at hrun
      exact .of_run hrun
  | call name args =>
      obtain ⟨hname, hargs⟩ := he
      obtain ⟨token, us, rfl, hlexeme, hus⟩ := spell_cons.1 hts
      obtain ⟨opening, us, rfl, hopening, hus⟩ := spell_cons.1 hus
      obtain ⟨us, vs, rfl, harguments, hvs⟩ := spell_append.1 hus
      obtain ⟨closing, rfl, hclosing⟩ := spell_singleton.1 hvs
      obtain ⟨hkind, htext⟩ := Lexeme.mk.inj hlexeme
      have hatom := Atom.call hkind (isControl_of_lexeme hopening)
        (Expr.derived_argsWords args hargs harguments) (isControl_of_lexeme hclosing)
      rw [String.toList_inj.1 htext] at hatom
      exact .of_atom hatom
  | group inner =>
      obtain ⟨opening, us, rfl, hopening, hus⟩ := spell_cons.1 hts
      obtain ⟨us, vs, rfl, hinner, hvs⟩ := spell_append.1 hus
      obtain ⟨closing, rfl, hclosing⟩ := spell_singleton.1 hvs
      exact .of_atom (.group (isControl_of_lexeme hopening) (inner.derived_words he hinner).sum
        (isControl_of_lexeme hclosing))

theorem Operands.derived_words {p : Priority} (os : Operands) (hos : os.Canonical p)
    {ts : List Token} (hts : Spell ts os.words) : Steps p ts os.toList := by
  cases os with
  | one op e =>
      obtain ⟨hlevel, hstands, he⟩ := hos
      obtain ⟨token, us, rfl, hlexeme, hus⟩ := spell_cons.1 hts
      have hoperand := (e.derived_words he hus).lower hstands
      have hsteps := Steps.cons (isSymbol_of_lexeme hlexeme) hlevel hoperand .nil
      rwa [List.append_nil] at hsteps
  | more op e rest =>
      obtain ⟨⟨hlevel, hstands, he⟩, hrest⟩ := hos
      obtain ⟨token, us, rfl, hlexeme, hus⟩ := spell_cons.1 hts
      obtain ⟨us, vs, rfl, hus, hvs⟩ := spell_append.1 hus
      exact .cons (isSymbol_of_lexeme hlexeme) hlevel ((e.derived_words he hus).lower hstands)
        (rest.derived_words hrest hvs)

theorem Expr.derived_argsWords (es : List Expr) (hes : Expr.ArgsCanonical es) {ts : List Token}
    (hts : Spell ts (Expr.argsWords es)) : Arguments ts es := by
  cases es with
  | nil =>
      obtain rfl := spell_nil.1 hts
      exact .none
  | cons e es =>
      obtain ⟨us, vs, rfl, hus, hvs⟩ := spell_append.1 hts
      exact .some (e.derived_words hes.1 hus).sum (Expr.derived_moreWords es hes.2 hvs)

theorem Expr.derived_moreWords (es : List Expr) (hes : Expr.ArgsCanonical es) {ts : List Token}
    (hts : Spell ts (Expr.moreWords es)) : MoreArguments ts es := by
  cases es with
  | nil =>
      obtain rfl := spell_nil.1 hts
      exact .nil
  | cons e es =>
      obtain ⟨comma, us, rfl, hlexeme, hus⟩ := spell_cons.1 hts
      obtain ⟨us, vs, rfl, hus, hvs⟩ := spell_append.1 hus
      exact .cons (Lexeme.mk.inj hlexeme).1 (e.derived_words hes.1 hus).sum
        (Expr.derived_moreWords es hes.2 hvs)

end

/-! ## Sources -/

/-- A canonical tree is read back from its text. -/
theorem parse_source {e : Expr} (he : e.Canonical) {maxDepth : Nat} (hnest : e.nesting ≤ maxDepth) :
    parse e.source maxDepth = .ok e := by
  have hreadable := e.readable_words he readable_nil endsOperand_nil
  rw [List.append_nil] at hreadable
  have hsegmentation : Segmentation e.source.toList e.words := by
    rwa [Expr.source, String.toList_ofList]
  obtain ⟨tokens, htokens, hlexemes⟩ := exists_tokenize_iff.2 hsegmentation
  have hsum := (e.derived_words he hlexemes).sum
  refine parse_eq_ok_iff.2 ⟨tokens, htokens, ?_, hnest⟩
  rw [significant_eq_self hsum.noBlank]
  exact .expression hsum

theorem parse_blank (maxDepth : Nat) : parse "" maxDepth = .ok .empty :=
  parse_eq_ok_iff.2
    ⟨[], tokenize_eq_ok_iff.2 ⟨readable_nil, by simp [Located]⟩, .blank, Nat.zero_le _⟩

/-- **The trees of sources are the canonical ones.** A tree is what some source spells with at most
    `maxDepth` groups open at once exactly if it is the blank one, or if it is canonical and no more
    than `maxDepth` of its groups are inside one another. -/
theorem exists_parse_iff (e : Expr) (maxDepth : Nat) :
    (∃ source, parse source maxDepth = .ok e) ↔
      e = .empty ∨ (e.Canonical ∧ e.nesting ≤ maxDepth) := by
  constructor
  · rintro ⟨source, h⟩
    obtain ⟨-, -, -, hnest⟩ := parse_eq_ok_iff.1 h
    exact (canonical_of_parse h).imp_right fun he => ⟨he, hnest⟩
  · rintro (rfl | ⟨he, hnest⟩)
    · exact ⟨"", parse_blank maxDepth⟩
    · exact ⟨e.source, parse_source he hnest⟩

end FormulaLang
