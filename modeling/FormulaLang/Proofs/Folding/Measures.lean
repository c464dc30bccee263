import FormulaLang.Proofs.Folding.Folded

/-!
# `Folding.Measures` — folding makes no tree taller

A literal takes the place of a call, which has at least as many levels and one more group. So a
folded tree is no taller than the tree it comes from, and its groups nest no deeper.

- **`Expr.Folded.measures_le`**: neither measure grows.
-/

namespace FormulaLang

variable {calls : Calls}

/-- The literal of a value is one level and no group. -/
theorem Value.measures_of_toLiteral? {v : Value} {t : Expr} (h : v.toLiteral? = some t) :
    t.height = 1 ∧ t.nesting = 0 := by
  cases v <;> cases h <;> exact ⟨rfl, rfl⟩

mutual

/-- **A folded tree is no taller, and its groups nest no deeper.** -/
theorem Expr.Folded.measures_le {e t : Expr} (h : Expr.Folded calls e t) :
    t.height ≤ e.height ∧ t.nesting ≤ e.nesting := by
  cases e with
  | empty | number | string | «variable» =>
      cases h
      exact ⟨Nat.le_refl _, Nat.le_refl _⟩
  | unary sign e =>
      cases h with
      | unary operand =>
          obtain ⟨hheight, hnesting⟩ := operand.measures_le
          exact ⟨Nat.succ_le_succ hheight, hnesting⟩
  | binary e p os =>
      cases h with
      | binary left operands =>
          obtain ⟨hheight, hnesting⟩ := left.measures_le
          obtain ⟨hheights, hnestings⟩ := operands.measures_le
          simp only [Expr.height, Expr.nesting]
          omega
  | group e =>
      cases h with
      | group inner =>
          obtain ⟨hheight, hnesting⟩ := inner.measures_le
          exact ⟨Nat.succ_le_succ hheight, Nat.succ_le_succ hnesting⟩
  | call name es =>
      cases h with
      | call args =>
          obtain ⟨hheight, hnesting⟩ := args.measures_le
          exact ⟨Nat.succ_le_succ hheight, Nat.succ_le_succ hnesting⟩
      | literal _ _ _ literal =>
          obtain ⟨hheight, hnesting⟩ := Value.measures_of_toLiteral? literal
          rw [hheight, hnesting]
          exact ⟨Expr.height_pos _, Nat.zero_le _⟩

theorem Operands.Folded.measures_le {os ts : Operands} (h : Operands.Folded calls os ts) :
    ts.height ≤ os.height ∧ ts.nesting ≤ os.nesting := by
  cases os with
  | one op e =>
      cases h with
      | one operand => exact operand.measures_le
  | more op e os =>
      cases h with
      | more operand rest =>
          obtain ⟨hheight, hnesting⟩ := operand.measures_le
          obtain ⟨hheights, hnestings⟩ := rest.measures_le
          simp only [Operands.height, Operands.nesting]
          omega

theorem Expr.ArgsFolded.measures_le {es ts : List Expr} (h : Expr.ArgsFolded calls es ts) :
    Expr.argsHeight ts ≤ Expr.argsHeight es ∧ Expr.argsNesting ts ≤ Expr.argsNesting es := by
  cases es with
  | nil =>
      cases h
      exact ⟨Nat.le_refl _, Nat.le_refl _⟩
  | cons e es =>
      cases h with
      | cons first rest =>
          obtain ⟨hheight, hnesting⟩ := first.measures_le
          obtain ⟨hheights, hnestings⟩ := rest.measures_le
          simp only [Expr.argsHeight, Expr.argsNesting]
          omega

end

end FormulaLang
