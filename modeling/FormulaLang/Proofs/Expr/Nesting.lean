import FormulaLang.Expr.Walk

/-!
# `Expr.Nesting` — how tall a tree is and how deep its groups nest

Two measures of a tree, each by recursion on it: its `height` counts expressions on a path from
the root, its `nesting` only the calls and parentheses among them. Every limit of the language
bounds one of the two. Bounds on a node are bounds on its parts (`height_run_le`,
`nesting_args_le`, …), so later proofs never unfold a maximum.

- **`depth_eq_height`**: the depth that a walk finds is the height.
-/

namespace FormulaLang

/-! ## Measures -/

mutual

/-- The number of expressions on the longest path from the root. -/
def Expr.height : Expr → Nat
  | .empty | .number _ | .string _ | .variable _ => 1
  | .unary _ operand => operand.height + 1
  | .binary left _ operands => max left.height operands.height + 1
  | .call _ args => Expr.argsHeight args + 1
  | .group inner => inner.height + 1

/-- The height of the tallest operand. -/
def Operands.height : Operands → Nat
  | .one _ e => e.height
  | .more _ e rest => max e.height rest.height

/-- The height of the tallest argument. -/
def Expr.argsHeight : List Expr → Nat
  | [] => 0
  | e :: es => max e.height (Expr.argsHeight es)

end

mutual

/-- The number of calls and parentheses on a path from the root that has the most of them. -/
def Expr.nesting : Expr → Nat
  | .empty | .number _ | .string _ | .variable _ => 0
  | .unary _ operand => operand.nesting
  | .binary left _ operands => max left.nesting operands.nesting
  | .call _ args => Expr.argsNesting args + 1
  | .group inner => inner.nesting + 1

/-- The nesting of the operand with the deepest groups. -/
def Operands.nesting : Operands → Nat
  | .one _ e => e.nesting
  | .more _ e rest => max e.nesting rest.nesting

/-- The nesting of the argument with the deepest groups. -/
def Expr.argsNesting : List Expr → Nat
  | [] => 0
  | e :: es => max e.nesting (Expr.argsNesting es)

end

/-! ## Bounds on a node are bounds on its parts -/

theorem Expr.height_pos (e : Expr) : 0 < e.height := by
  cases e <;> simp [Expr.height]

theorem Expr.argsHeight_pos {es : List Expr} (h : es ≠ []) : 0 < Expr.argsHeight es := by
  cases es with
  | nil => exact absurd rfl h
  | cons e es =>
      have := e.height_pos
      simp only [Expr.argsHeight]
      omega

theorem Operands.height_le (os : Operands) {n : Nat} :
    os.height ≤ n ↔ ∀ step ∈ os.toList, step.2.height ≤ n := by
  match os with
  | .one op e => simp [Operands.height, Operands.toList]
  | .more op e rest =>
      rw [Operands.height, Operands.toList, Nat.max_le, rest.height_le, List.forall_mem_cons]

theorem Operands.nesting_le (os : Operands) {n : Nat} :
    os.nesting ≤ n ↔ ∀ step ∈ os.toList, step.2.nesting ≤ n := by
  match os with
  | .one op e => simp [Operands.nesting, Operands.toList]
  | .more op e rest =>
      rw [Operands.nesting, Operands.toList, Nat.max_le, rest.nesting_le, List.forall_mem_cons]

theorem Expr.argsHeight_le {es : List Expr} {n : Nat} :
    Expr.argsHeight es ≤ n ↔ ∀ e ∈ es, e.height ≤ n := by
  induction es with
  | nil => simp [Expr.argsHeight]
  | cons e es ih => rw [Expr.argsHeight, Nat.max_le, ih, List.forall_mem_cons]

theorem Expr.argsNesting_le {es : List Expr} {n : Nat} :
    Expr.argsNesting es ≤ n ↔ ∀ e ∈ es, e.nesting ≤ n := by
  induction es with
  | nil => simp [Expr.argsNesting]
  | cons e es ih => rw [Expr.argsNesting, Nat.max_le, ih, List.forall_mem_cons]

/-- The groups of a run are those of its operands. -/
theorem Expr.nesting_run_le {left : Expr} {p : Priority} {steps : List (Operator × Expr)}
    {n : Nat} : (Expr.run left p steps).nesting ≤ n ↔
      left.nesting ≤ n ∧ ∀ step ∈ steps, step.2.nesting ≤ n := by
  cases steps with
  | nil => simp [Expr.run]
  | cons step steps =>
      rw [Expr.run, Expr.nesting, Nat.max_le, Operands.nesting_le, Operands.toList_ofList]

/-- A run is at most one level taller than its operands. -/
theorem Expr.height_run_le {left : Expr} {p : Priority} {steps : List (Operator × Expr)} {n : Nat}
    (hleft : left.height ≤ n) (hsteps : ∀ step ∈ steps, step.2.height ≤ n) :
    (Expr.run left p steps).height ≤ n + 1 := by
  cases steps with
  | nil => exact Nat.le_succ_of_le hleft
  | cons step steps =>
      have hos : (Operands.ofList step.1 step.2 steps).height ≤ n := by
        rw [Operands.height_le, Operands.toList_ofList]
        exact hsteps
      simp only [Expr.run, Expr.height]
      omega

/-! ## The depth that a walk finds -/

/-- The visitor that keeps the deepest place at which it has seen an expression. -/
def Visitor.deepest : Visitor Nat := fun depth node deepest =>
  match node with
  | .expr _ => (.descend, max deepest depth)
  | _ => (.descend, deepest)

mutual

/-- From depth `d` on, the deepest place is as many levels down as the expression is tall. -/
theorem Visitor.expr_deepest (d : Nat) (e : Expr) (a : Nat) :
    Visitor.expr deepest d e a = max a (d + e.height - 1) := by
  cases e with
  | empty | number | string | «variable» =>
      rw [Visitor.expr]
      simp [deepest, Expr.height]
  | unary sign operand =>
      rw [Visitor.expr]
      simp only [deepest, Expr.height]
      rw [Visitor.expr_deepest]
      have := operand.height_pos
      omega
  | binary left p operands =>
      rw [Visitor.expr]
      simp only [deepest, Expr.height]
      rw [Visitor.operands_deepest, Visitor.expr_deepest]
      have := left.height_pos
      omega
  | call name args =>
      rw [Visitor.expr]
      simp only [deepest, Expr.height]
      -- a call without arguments is the deepest place itself, which has just been counted
      rw [Visitor.args_deepest _ _ _ (by omega)]
      omega
  | group inner =>
      rw [Visitor.expr]
      simp only [deepest, Expr.height]
      rw [Visitor.expr_deepest]
      have := inner.height_pos
      omega

theorem Visitor.operands_deepest (d : Nat) (os : Operands) (a : Nat) :
    Visitor.operands deepest d os a = max a (d + os.height - 1) := by
  cases os with
  | one op e =>
      simp only [Visitor.operands, Operands.height]
      exact Visitor.expr_deepest d e a
  | more op e rest =>
      simp only [Visitor.operands, Operands.height]
      rw [Visitor.operands_deepest, Visitor.expr_deepest]
      simp only [deepest]
      omega

/-- Without arguments nothing below the call is seen, so the call itself has to be counted
    already. -/
theorem Visitor.args_deepest (d : Nat) (es : List Expr) (a : Nat) (h : d - 1 ≤ a) :
    Visitor.args deepest d es a = max a (d + Expr.argsHeight es - 1) := by
  cases es with
  | nil =>
      simp only [Visitor.args, Expr.argsHeight]
      omega
  | cons e es =>
      simp only [Visitor.args, Expr.argsHeight]
      rw [Visitor.args_deepest _ _ _ (by rw [Visitor.expr_deepest]; omega), Visitor.expr_deepest]
      omega

end

/-- **The depth of a tree is its height.** -/
theorem Expr.depth_eq_height (e : Expr) : e.depth = e.height := by
  have h : e.depth = Visitor.expr Visitor.deepest 1 e 0 := rfl
  rw [h, Visitor.expr_deepest]
  omega

end FormulaLang
