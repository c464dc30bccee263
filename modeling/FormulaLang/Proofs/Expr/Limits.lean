import FormulaLang.Proofs.Expr.Fits

/-!
# `Expr.Limits` — trees that fit are evaluated within the limits

Evaluation tests two limits, one at every expression and one at every group. A tree that fits at a
depth passes all of these tests, whatever the functions do that it calls: what they return, and the
errors they fail with, are not the evaluation's own.

- **`sat_eval_withinLimits`**: evaluating a tree that fits meets no limit.
-/

namespace FormulaLang

/-- The error is that of a limit on levels or groups, in evaluation or in folding. Errors of
    functions are not, whatever they tell. -/
def EvalError.IsDepthLimit : EvalError → Prop
  | .depthLimitExceeded _ => True
  | .fold (.depthLimitExceeded _) => True
  | _ => False

/-- No limit was met. -/
def WithinLimits {α : Type} (r : Except EvalError α) : Prop :=
  ∀ error, r = .error error → ¬ error.IsDepthLimit

namespace WithinLimits

variable {α γ : Type}

theorem ok (a : α) : WithinLimits (.ok a : Except EvalError α) := by
  intro error h
  cases h

theorem error {e : EvalError} (h : ¬ e.IsDepthLimit) :
    WithinLimits (.error e : Except EvalError α) := by
  intro error herror
  cases herror
  exact h

/-- An error that ends a part ends the whole. -/
theorem of_error {e : EvalError} (h : WithinLimits (.error e : Except EvalError α)) :
    WithinLimits (.error e : Except EvalError γ) :=
  error (h e rfl)

/-- No operation on values meets a limit. -/
theorem ofValueError (op : String) (x : Except ValueError α) :
    WithinLimits (x.mapError (EvalError.ofValueError op)) := by
  cases x with
  | ok a => exact ok a
  | error e => cases e <;> exact error fun h => h

end WithinLimits

namespace ProgramLogic

variable {m : Type → Type} [Monad m] (L : ProgramLogic m) {w : L.World}

/-- A sequence keeps within the limits if both parts do, wherever the second one begins. -/
theorem sat_seq_withinLimits {α γ : Type} {x : ExceptT EvalError m α}
    {f : α → ExceptT EvalError m γ} (hx : L.Sat x.run w fun r _ => WithinLimits r)
    (hf : ∀ a w', L.Sat (f a).run w' fun r _ => WithinLimits r) :
    L.Sat (x >>= f).run w fun r _ => WithinLimits r := by
  refine L.sat_seq hx ?_ ?_
  · intro e w' he
    exact he.of_error
  · intro a w' _ _
    exact hf a w'

variable {β : Type} {world : Surroundings m β} {maxDepth : Nat} {env : Env}

theorem sat_resolve_withinLimits [LawfulMonad m]
    (hfind : ∀ w name, L.Sat (world.find name) w fun _ _ => True) (name : String) (found : Nat) :
    L.Sat (world.resolve name found).run w fun r _ => WithinLimits r := by
  refine L.sat_lift (hfind w name) fun f? w' _ _ => ?_
  cases f? with
  | none => exact L.sat_throw (.error fun h => h)
  | some f =>
      cases harity : f.arity with
      | variadic =>
          simp only [harity]
          exact L.sat_ok (.ok f)
      | fixed expected =>
          simp only [harity]
          by_cases hcount : expected = found
          · rw [if_pos hcount]
            exact L.sat_ok (.ok f)
          · rw [if_neg hcount]
            exact L.sat_throw (.error fun h => h)

theorem sat_apply_withinLimits [LawfulMonad m]
    (hcall : ∀ w f values, L.Sat (world.call f values) w fun _ _ => True) (name : String)
    (f : Function β) (values : List Value) :
    L.Sat (world.apply name f values).run w fun r _ => WithinLimits r := by
  refine L.sat_lift (hcall w f values) fun r w' _ _ => ?_
  cases r with
  | ok v => exact L.sat_ok (.ok v)
  | error error => exact L.sat_throw (.error fun h => h)

mutual

/-- **Evaluation at a depth at which the tree fits meets no limit.** -/
theorem sat_evalAt_withinLimits [LawfulMonad m]
    (hfind : ∀ w name, L.Sat (world.find name) w fun _ _ => True)
    (hcall : ∀ w f values, L.Sat (world.call f values) w fun _ _ => True) (w : L.World)
    {depth : Depth} (e : Expr) (h : depth.Fits maxDepth e.height e.nesting) :
    L.Sat (Expr.evalAt world maxDepth env depth e).run w fun r _ => WithinLimits r := by
  have hlevels := h.levels_lt e.height_pos
  cases e with
  | empty | number | string | «variable» =>
      rw [Expr.evalAt, if_neg (Nat.not_le.2 hlevels)]
      exact L.sat_ok (.ok _)
  | unary sign operand =>
      rw [Expr.evalAt_unary hlevels]
      refine L.sat_seq_withinLimits (sat_evalAt_withinLimits hfind hcall w operand h.down) ?_
      intro v w
      exact L.sat_liftExcept (.ofValueError _ _)
  | binary left p operands =>
      rw [Expr.evalAt_binary hlevels]
      have hleft := h.down.mono (Nat.le_max_left _ _) (Nat.le_max_left _ _)
      have hoperands := h.down.mono (Nat.le_max_right _ _) (Nat.le_max_right _ _)
      refine L.sat_seq_withinLimits (sat_evalAt_withinLimits hfind hcall w left hleft) fun v w => ?_
      exact sat_evalOperands_withinLimits hfind hcall w v operands hoperands
  | call name args =>
      rw [Expr.evalAt_call hlevels]
      obtain ⟨inside, henter, hinside⟩ := h.enter
      rw [henter, Expr.liftExcept_ok_bind]
      refine L.sat_seq_withinLimits (L.sat_resolve_withinLimits hfind name _) fun f w => ?_
      refine L.sat_seq_withinLimits (sat_evalArgs_withinLimits hfind hcall w args hinside) ?_
      intro values w
      exact L.sat_apply_withinLimits hcall name f values
  | group inner =>
      rw [Expr.evalAt_group hlevels]
      obtain ⟨inside, henter, hinside⟩ := h.enter
      rw [henter, Expr.liftExcept_ok_bind]
      exact sat_evalAt_withinLimits hfind hcall w inner hinside

theorem sat_evalOperands_withinLimits [LawfulMonad m]
    (hfind : ∀ w name, L.Sat (world.find name) w fun _ _ => True)
    (hcall : ∀ w f values, L.Sat (world.call f values) w fun _ _ => True) (w : L.World)
    {depth : Depth} (left : Value) (os : Operands) (h : depth.Fits maxDepth os.height os.nesting) :
    L.Sat (Operands.evalAt world maxDepth env depth left os).run w fun r _ => WithinLimits r := by
  cases os with
  | one op e =>
      refine L.sat_seq_withinLimits (sat_evalAt_withinLimits hfind hcall w e h) fun right w => ?_
      exact L.sat_liftExcept (.ofValueError _ _)
  | more op e rest =>
      have he := h.mono (Nat.le_max_left _ _) (Nat.le_max_left _ _)
      have hrest := h.mono (Nat.le_max_right _ _) (Nat.le_max_right _ _)
      refine L.sat_seq_withinLimits (sat_evalAt_withinLimits hfind hcall w e he) fun right w => ?_
      refine L.sat_seq_withinLimits (L.sat_liftExcept (.ofValueError _ _)) fun v w => ?_
      exact sat_evalOperands_withinLimits hfind hcall w v rest hrest

theorem sat_evalArgs_withinLimits [LawfulMonad m]
    (hfind : ∀ w name, L.Sat (world.find name) w fun _ _ => True)
    (hcall : ∀ w f values, L.Sat (world.call f values) w fun _ _ => True) (w : L.World)
    {depth : Depth} (es : List Expr)
    (h : depth.Fits maxDepth (Expr.argsHeight es) (Expr.argsNesting es)) :
    L.Sat (Expr.evalArgs world maxDepth env depth es).run w fun r _ => WithinLimits r := by
  cases es with
  | nil => exact L.sat_ok (.ok _)
  | cons e es =>
      have he := h.mono (Nat.le_max_left _ _) (Nat.le_max_left _ _)
      have hes := h.mono (Nat.le_max_right _ _) (Nat.le_max_right _ _)
      refine L.sat_seq_withinLimits (sat_evalAt_withinLimits hfind hcall w e he) fun v w => ?_
      refine L.sat_seq_withinLimits (sat_evalArgs_withinLimits hfind hcall w es hes) fun vs w => ?_
      exact L.sat_ok (.ok _)

end

/-- **Evaluating a tree that fits meets no limit.** -/
theorem sat_eval_withinLimits [LawfulMonad m]
    (hfind : ∀ w name, L.Sat (world.find name) w fun _ _ => True)
    (hcall : ∀ w f values, L.Sat (world.call f values) w fun _ _ => True) (w : L.World)
    (env : Env) {e : Expr} (hnesting : e.nesting ≤ maxDepth)
    (hheight : e.height ≤ maxTreeDepth maxDepth) :
    L.Sat (e.eval world maxDepth env) w fun r _ => WithinLimits r :=
  L.sat_evalAt_withinLimits hfind hcall w e (Depth.Fits.root hnesting hheight)

end ProgramLogic

end FormulaLang
