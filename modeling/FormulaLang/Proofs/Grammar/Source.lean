import FormulaLang.Proofs.Grammar.Completeness
import FormulaLang.Proofs.Lexical.Segmentation

/-!
# `Grammar.Source` — which sources spell which trees

Between a source and its tree stand the tokens that are more than white space. They spell the empty
tree if there are none, and otherwise the one that the grammar derives; no rule of it takes a token
of white space, so nothing is lost with them.

- **`parse_eq_ok_iff`**: parsing a source is tokenizing it and spelling, within the limit on groups.
-/

namespace FormulaLang

namespace Grammar

/-! ## White space -/

/-- No token of the list is white space. -/
def NoBlank (ts : List Token) : Prop := ∀ token ∈ ts, token.kind ≠ .whitespace

theorem noBlank_nil : NoBlank [] := List.forall_mem_nil _

theorem noBlank_cons {token : Token} {ts : List Token} :
    NoBlank (token :: ts) ↔ token.kind ≠ .whitespace ∧ NoBlank ts := List.forall_mem_cons

theorem noBlank_append {ts us : List Token} : NoBlank (ts ++ us) ↔ NoBlank ts ∧ NoBlank us :=
  List.forall_mem_append

theorem kind_of_isControl {token : Token} {c : Char} (h : token.isControl c = true) :
    token.kind = .control := by
  simp only [Token.isControl, Bool.and_eq_true, beq_iff_eq] at h
  exact h.1

theorem ne_whitespace_of_isControl {token : Token} {c : Char} (h : token.isControl c) :
    token.kind ≠ .whitespace := by
  simp [kind_of_isControl h]

/-- **No rule takes white space.** -/
theorem Binary.noBlank {p : Priority} {ts : List Token} {e : Expr} (h : Binary p ts e) :
    NoBlank ts := by
  refine @Binary.rec (fun _ ts _ _ => NoBlank ts) (fun _ ts _ _ => NoBlank ts)
    (fun _ ts _ _ => NoBlank ts) (fun ts _ _ => NoBlank ts) (fun ts _ _ => NoBlank ts)
    (fun ts _ _ => NoBlank ts) (fun ts _ _ => NoBlank ts) ?run ?level ?signed ?noStep ?step
    ?sign ?unsigned ?name ?text ?number ?call ?group ?noArgument ?arguments ?noMore ?more p ts e h
  case run | arguments =>
    intros
    exact noBlank_append.2 ⟨‹_›, ‹_›⟩
  case level | signed | unsigned =>
    intros
    assumption
  case noStep | noArgument | noMore =>
    intros
    exact noBlank_nil
  case step =>
    intro p op token ts us e steps symbol level operand more hts hus
    exact noBlank_cons.2 ⟨by simp [symbol.1], noBlank_append.2 ⟨hts, hus⟩⟩
  case sign =>
    intro sign token ts e symbol operand hts
    exact noBlank_cons.2 ⟨by simp [symbol.1], hts⟩
  case name | text =>
    intro token kind
    exact noBlank_cons.2 ⟨by simp [kind], noBlank_nil⟩
  case number =>
    intro token n kind value
    exact noBlank_cons.2 ⟨by simp [kind], noBlank_nil⟩
  case call =>
    intro name opening ts closing args kind opens arguments closes hts
    have hclosing := noBlank_cons.2 ⟨ne_whitespace_of_isControl closes, noBlank_nil⟩
    exact noBlank_cons.2 ⟨by simp [kind], noBlank_cons.2 ⟨ne_whitespace_of_isControl opens,
      noBlank_append.2 ⟨hts, hclosing⟩⟩⟩
  case group =>
    intro opening ts closing e opens inner closes hts
    have hclosing := noBlank_cons.2 ⟨ne_whitespace_of_isControl closes, noBlank_nil⟩
    exact noBlank_cons.2 ⟨ne_whitespace_of_isControl opens, noBlank_append.2 ⟨hts, hclosing⟩⟩
  case more =>
    intro comma ts us e es kind argument more hts hus
    exact noBlank_cons.2 ⟨by simp [kind], noBlank_append.2 ⟨hts, hus⟩⟩

/-! ## What tokens spell -/

/-- The tokens that are more than white space. -/
def significant (tokens : List Token) : List Token :=
  tokens.filter fun token => token.kind != .whitespace

theorem significant_eq_self {ts : List Token} (h : NoBlank ts) : significant ts = ts :=
  List.filter_eq_self.2 fun token htoken => by simpa using h token htoken

/-- What tokens without white space spell: nothing at all, or one expression. -/
inductive Spells : List Token → Expr → Prop where
  | blank : Spells [] .empty
  | expression {ts e} (derived : Expression ts e) : Spells ts e

theorem spells_cons_iff {token : Token} {ts : List Token} {e : Expr} :
    Spells (token :: ts) e ↔ Expression (token :: ts) e := by
  constructor
  · intro h
    cases h with
    | expression derived => exact derived
  · exact .expression

theorem spells_nil_iff {e : Expr} : Spells [] e ↔ e = .empty := by
  constructor
  · intro h
    cases h with
    | blank => rfl
    | expression derived => exact absurd rfl derived.ne_nil
  · rintro rfl
    exact .blank

end Grammar

open Grammar

/-- **A source spells a tree within a limit if its tokens do.** -/
theorem parse_eq_ok_iff {source : String} {maxDepth : Nat} {e : Expr} :
    parse source maxDepth = .ok e ↔
      ∃ tokens, tokenize source = .ok tokens ∧ Spells (significant tokens) e ∧
        e.nesting ≤ maxDepth := by
  rw [parse]
  cases tokenize source with
  | error error => simp
  | ok tokens =>
      simp only [Except.ok.injEq, exists_eq_left', parseTokens, significant]
      cases tokens.filter fun token => token.kind != .whitespace with
      | nil =>
          simp only [spells_nil_iff, Except.ok.injEq]
          constructor
          · rintro rfl
            exact ⟨rfl, Nat.zero_le _⟩
          · rintro ⟨rfl, -⟩
            rfl
      | cons token ts =>
          rw [spells_cons_iff, ← expression_eq_ok_nil_iff maxDepth]
          cases hrun : Parser.expression maxDepth maxDepth (token :: ts) with
          | error error => simp [hrun, bind, Except.bind]
          | ok result =>
              obtain ⟨e', rest⟩ := result
              cases rest <;> simp [hrun, bind, Except.bind]

end FormulaLang
