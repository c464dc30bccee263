import FormulaLang.Proofs.Canonical.Image

/-!
# `Canonical.Tallest` — the limit on levels is reached

Four levels are as many as one group can add: a sum, in it a product, in it a sign, in it the group.
A tower of such groups is canonical, so it has a source, and as long as the limit on levels does not
saturate it is exactly as tall as that limit allows.

- **`exists_parse_tallest`**: some source has a tree of as many levels as there may be.
-/

namespace FormulaLang

namespace Expr

/-- Three levels around an expression: the sum `1+1*-e`, its product and the sign. -/
def layered (e : Expr) : Expr :=
  .binary (.number 1) .additive (.one .add
    (.binary (.number 1) .multiplicative (.one .mul (.unary .minus e))))

/-- As many groups inside one another, with all the levels that each of them can add. -/
def tower : Nat → Expr
  | 0 => layered (.number 1)
  | groups + 1 => layered (.group (tower groups))

theorem height_layered (e : Expr) : e.layered.height = e.height + 3 := by
  have := e.height_pos
  simp only [layered, Expr.height, Operands.height]
  omega

theorem nesting_layered (e : Expr) : e.layered.nesting = e.nesting := by
  simp [layered, Expr.nesting, Operands.nesting]

theorem canonical_one : (Expr.number 1).Canonical := by
  rw [Expr.Canonical]
  decide

/-- An operand of a sign can be layered. -/
theorem canonical_layered {e : Expr} (h : e.Canonical) (hrun : e.isRun = false)
    (hsigned : e.isSigned = false) : e.layered.Canonical := by
  have hsign : (Expr.unary .minus e).Canonical := ⟨hrun, hsigned, h⟩
  have hproduct : (Expr.binary (.number 1) .multiplicative
      (.one .mul (.unary .minus e))).Canonical := ⟨rfl, canonical_one, rfl, rfl, hsign⟩
  exact ⟨rfl, canonical_one, rfl, rfl, hproduct⟩

theorem height_tower (groups : Nat) : (tower groups).height = levelsPerGroup * (groups + 1) := by
  induction groups with
  | zero => rfl
  | succ groups ih =>
      rw [tower, height_layered, Expr.height, ih, levelsPerGroup]
      omega

theorem nesting_tower (groups : Nat) : (tower groups).nesting = groups := by
  induction groups with
  | zero => rfl
  | succ groups ih => rw [tower, nesting_layered, Expr.nesting, ih]

theorem canonical_tower (groups : Nat) : (tower groups).Canonical := by
  induction groups with
  | zero => exact canonical_layered canonical_one rfl rfl
  | succ groups ih => exact canonical_layered ih rfl rfl

end Expr

/-- **The limit on levels is tight.** Below its saturation some source has a tree of exactly that
    many levels. -/
theorem exists_parse_tallest {maxDepth : Nat} (h : levelsPerGroup * (maxDepth + 1) ≤ wordMax) :
    ∃ source e, parse source maxDepth = .ok e ∧ e.height = maxTreeDepth maxDepth := by
  refine ⟨(Expr.tower maxDepth).source, .tower maxDepth, ?_, ?_⟩
  · exact parse_source (Expr.canonical_tower maxDepth) (Nat.le_of_eq (Expr.nesting_tower maxDepth))
  · rw [Expr.height_tower, maxTreeDepth_eq h]

end FormulaLang
