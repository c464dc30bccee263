import FormulaLang.Proofs.Expr.Nesting
import FormulaLang.Proofs.Folding.Folded

/-!
# `Expr.Fits` — evaluation within its limits

Every expression that is evaluated passes a test for the limit on levels, and every call and every
parenthesis one more for the limit on groups. A tree that `Fits` at a depth passes all of them: the
tests are the same on every path, so it is enough that the longest ones pass. Below a node the depth
grows by as much as the measures of the parts shrink (`Fits.down`, `Fits.enter`).

The equations of evaluation are restated without the test for levels, one for each constructor.
-/

namespace FormulaLang

/-- At the depth, there is room for as many more levels and groups. -/
structure Depth.Fits (depth : Depth) (maxDepth height nesting : Nat) : Prop where
  levels : depth.levels + height ≤ maxTreeDepth maxDepth
  groups : depth.groups + nesting ≤ maxDepth

namespace Depth.Fits

variable {depth : Depth} {maxDepth height nesting height' nesting' : Nat}

theorem mono (h : depth.Fits maxDepth height nesting) (hheight : height' ≤ height)
    (hnesting : nesting' ≤ nesting) : depth.Fits maxDepth height' nesting' := by
  constructor
  · have := h.levels
    omega
  · have := h.groups
    omega

theorem levels_lt (h : depth.Fits maxDepth height nesting) (hpos : 0 < height) :
    depth.levels < maxTreeDepth maxDepth := by
  have := h.levels
  omega

theorem down (h : depth.Fits maxDepth (height + 1) nesting) :
    depth.down.Fits maxDepth height nesting := by
  constructor
  · have := h.levels
    simp only [Depth.down]
    omega
  · exact h.groups

/-- A group that fits may be opened. -/
theorem enter (h : depth.Fits maxDepth (height + 1) (nesting + 1)) :
    ∃ inside, depth.down.enter maxDepth = .ok inside ∧ inside.Fits maxDepth height nesting := by
  have hgroups := h.groups
  refine ⟨{ depth.down with groups := depth.groups + 1 }, ?_, h.down.levels, ?_⟩
  · rw [Depth.enter, if_neg]
    · rfl
    · simp only [Depth.down]
      omega
  · show depth.groups + 1 + nesting ≤ maxDepth
    omega

theorem root {e : Expr} (hnesting : e.nesting ≤ maxDepth)
    (hheight : e.height ≤ maxTreeDepth maxDepth) :
    Depth.root.Fits maxDepth e.height e.nesting := by
  constructor
  · simpa [Depth.root] using hheight
  · simpa [Depth.root] using hnesting

end Depth.Fits

namespace Expr

variable {m : Type → Type} [Monad m] {β : Type} {world : Surroundings m β} {maxDepth : Nat}
variable {env : Env} {depth : Depth}

/-! ## Equations of evaluation -/

theorem liftExcept_ok_bind [LawfulMonad m] {ε α γ : Type} (a : α) (f : α → ExceptT ε m γ) :
    (liftExcept (.ok a : Except ε α) >>= f : ExceptT ε m γ) = f a := by
  show pure a >>= f = f a
  rw [pure_bind]

theorem throw_bind [LawfulMonad m] {ε α γ : Type} (e : ε) (f : α → ExceptT ε m γ) :
    (throw e >>= f : ExceptT ε m γ) = throw e := by
  show ExceptT.mk (pure (.error e) >>= ExceptT.bindCont f) = _
  rw [pure_bind]
  rfl

section
variable (h : depth.levels < maxTreeDepth maxDepth)
include h

theorem evalAt_unary (sign : Sign) (e : Expr) :
    Expr.evalAt world maxDepth env depth (.unary sign e) = (do
      let v ← Expr.evalAt world maxDepth env depth.down e
      liftExcept (sign.eval v)) := by
  rw [Expr.evalAt, if_neg (Nat.not_le.2 h)]

theorem evalAt_binary (e : Expr) (p : Priority) (os : Operands) :
    Expr.evalAt world maxDepth env depth (.binary e p os) = (do
      let v ← Expr.evalAt world maxDepth env depth.down e
      Operands.evalAt world maxDepth env depth.down v os) := by
  rw [Expr.evalAt, if_neg (Nat.not_le.2 h)]

theorem evalAt_call (name : String) (es : List Expr) :
    Expr.evalAt world maxDepth env depth (.call name es) = (do
      let depth ← liftExcept (depth.down.enter maxDepth)
      let f ← world.resolve name es.length
      let values ← Expr.evalArgs world maxDepth env depth es
      world.apply name f values) := by
  rw [Expr.evalAt, if_neg (Nat.not_le.2 h)]

theorem evalAt_group (e : Expr) :
    Expr.evalAt world maxDepth env depth (.group e) = (do
      let depth ← liftExcept (depth.down.enter maxDepth)
      Expr.evalAt world maxDepth env depth e) := by
  rw [Expr.evalAt, if_neg (Nat.not_le.2 h)]

/-- A literal has its value. -/
theorem evalAt_literal {e : Expr} {v : Value} (hliteral : e.literal? = some v) :
    Expr.evalAt world maxDepth env depth e = pure v := by
  rw [Expr.evalAt.eq_def, if_neg (Nat.not_le.2 h)]
  cases e with
  | number | string =>
      cases hliteral
      rfl
  | _ => cases hliteral

end

/-- The values of literal arguments, if there are any and they are within the limit on levels. -/
theorem evalArgs_literals [LawfulMonad m] {es : List Expr} {values : List Value}
    (h : es ≠ [] → depth.levels < maxTreeDepth maxDepth)
    (hvalues : es.mapM Expr.literal? = some values) :
    Expr.evalArgs world maxDepth env depth es = pure values := by
  induction es generalizing values with
  | nil =>
      cases hvalues
      rfl
  | cons e es ih =>
      obtain ⟨v, vs, hv, hvs, rfl⟩ := literals_cons_eq_some_iff.1 hvalues
      have hlt := h (List.cons_ne_nil e es)
      rw [Expr.evalArgs, evalAt_literal hlt hv, ih (fun _ => hlt) hvs, pure_bind, pure_bind]

end Expr

end FormulaLang
