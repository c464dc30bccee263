import FormulaLang.Proofs.Expr.Fits

/-!
# `Expr.Arity` — no function is called with too few or too many arguments

Evaluation tests the number of arguments where it finds a function, before it evaluates any of them,
and folding where it has folded all of them. Both hand on as many values as there are arguments, and
folding keeps as many, so what a function would do with another number of them does not matter: two
ways of calling functions that are the same for the numbers they take are the same for every tree
(`AgreeAccepted`).

- **`Expr.evalAt_accepted`**, **`Expr.foldAt_accepted`**: evaluation and folding of any tree.
- **`Expr.foldAt_call_of_not_accepts`**: folding where the number of arguments does not fit.
-/

namespace FormulaLang

variable {m : Type → Type} [Monad m] {β : Type}

/-- The two ways of calling functions are the same for as many arguments as a function takes. -/
def AgreeAccepted (call call' : Caller m β) : Prop :=
  ∀ f args, f.arity.accepts args.length = true → call f args = call' f args

variable {γ : Type} {maxDepth : Nat}

/-! ## Evaluation -/

section
variable {world : Surroundings m β} {env : Env}

/-- A function that is found takes as many arguments as it was looked up for. -/
theorem Surroundings.resolve_bind_congr [LawfulMonad m] (name : String) {found : Nat}
    {k k' : Function β → ExceptT EvalError m γ}
    (h : ∀ f, f.arity.accepts found = true → k f = k' f) :
    world.resolve name found >>= k = world.resolve name found >>= k' := by
  rw [Surroundings.resolve, bind_assoc, bind_assoc]
  refine bind_congr fun f? => ?_
  cases f? with
  | none => rw [Expr.throw_bind, Expr.throw_bind]
  | some f =>
      dsimp only
      cases harity : f.arity with
      | variadic =>
          dsimp only
          rw [pure_bind, pure_bind]
          exact h f (by rw [harity]; rfl)
      | fixed expected =>
          dsimp only
          by_cases hcount : expected = found
          · rw [if_pos hcount, pure_bind, pure_bind]
            exact h f (by rw [harity, Arity.accepts]; simpa using hcount)
          · rw [if_neg hcount, Expr.throw_bind, Expr.throw_bind]

/-- There are as many values as arguments. -/
theorem Expr.evalArgs_bind_congr [LawfulMonad m] {depth : Depth} {es : List Expr}
    {k k' : List Value → ExceptT EvalError m γ}
    (h : ∀ values, values.length = es.length → k values = k' values) :
    Expr.evalArgs world maxDepth env depth es >>= k =
      Expr.evalArgs world maxDepth env depth es >>= k' := by
  induction es generalizing k k' with
  | nil =>
      rw [Expr.evalArgs, pure_bind, pure_bind]
      exact h [] rfl
  | cons e es ih =>
      rw [Expr.evalArgs, bind_assoc, bind_assoc]
      refine bind_congr fun v => ?_
      rw [bind_assoc, bind_assoc]
      refine ih fun values hlength => ?_
      rw [pure_bind, pure_bind]
      exact h (v :: values) (by rw [List.length_cons, hlength, List.length_cons])

variable {call : Caller m β}

/-- A function that takes as many arguments returns the same. -/
theorem Surroundings.apply_accepted (hcall : AgreeAccepted world.call call) (name : String)
    {f : Function β} {values : List Value} (h : f.arity.accepts values.length = true) :
    world.apply name f values = { world with call }.apply name f values := by
  rw [Surroundings.apply, Surroundings.apply, hcall f values h]

mutual

/-- **Evaluation calls functions only with as many arguments as they take.** -/
theorem Expr.evalAt_accepted [LawfulMonad m] (hcall : AgreeAccepted world.call call)
    (depth : Depth) (e : Expr) :
    Expr.evalAt world maxDepth env depth e =
      Expr.evalAt { world with call } maxDepth env depth e := by
  by_cases hlevels : depth.levels < maxTreeDepth maxDepth
  case neg =>
    rw [Expr.evalAt.eq_def, Expr.evalAt.eq_def, if_pos (Nat.not_lt.1 hlevels),
      if_pos (Nat.not_lt.1 hlevels)]
  cases e with
  | empty | number | string | «variable» => rw [Expr.evalAt, Expr.evalAt]
  | unary sign e =>
      rw [Expr.evalAt_unary hlevels, Expr.evalAt_unary hlevels,
        Expr.evalAt_accepted hcall depth.down e]
  | binary left p os =>
      rw [Expr.evalAt_binary hlevels, Expr.evalAt_binary hlevels,
        Expr.evalAt_accepted hcall depth.down left]
      exact bind_congr fun v => Operands.evalAt_accepted hcall depth.down v os
  | call name es =>
      rw [Expr.evalAt_call hlevels, Expr.evalAt_call hlevels]
      refine bind_congr fun inside => ?_
      -- the arguments are the same, so there are as many values as the function was tested for
      rw [← Expr.evalArgs_accepted hcall inside es]
      refine Surroundings.resolve_bind_congr name fun f haccepts => ?_
      refine Expr.evalArgs_bind_congr fun values hlength => ?_
      exact Surroundings.apply_accepted hcall name (hlength ▸ haccepts)
  | group e =>
      rw [Expr.evalAt_group hlevels, Expr.evalAt_group hlevels]
      exact bind_congr fun inside => Expr.evalAt_accepted hcall inside e

theorem Operands.evalAt_accepted [LawfulMonad m] (hcall : AgreeAccepted world.call call)
    (depth : Depth) (left : Value) (os : Operands) :
    Operands.evalAt world maxDepth env depth left os =
      Operands.evalAt { world with call } maxDepth env depth left os := by
  cases os with
  | one op e => rw [Operands.evalAt, Operands.evalAt, Expr.evalAt_accepted hcall depth e]
  | more op e os =>
      rw [Operands.evalAt, Operands.evalAt, Expr.evalAt_accepted hcall depth e]
      exact bind_congr fun right => bind_congr fun v => Operands.evalAt_accepted hcall depth v os

theorem Expr.evalArgs_accepted [LawfulMonad m] (hcall : AgreeAccepted world.call call)
    (depth : Depth) (es : List Expr) :
    Expr.evalArgs world maxDepth env depth es =
      Expr.evalArgs { world with call } maxDepth env depth es := by
  cases es with
  | nil => rfl
  | cons e es =>
      rw [Expr.evalArgs, Expr.evalArgs, Expr.evalAt_accepted hcall depth e,
        Expr.evalArgs_accepted hcall depth es]

end

end

/-! ## Folding -/

section
variable {registry : Registry β} {call call' : Caller m β}

theorem foldCall_accepted (hcall : AgreeAccepted call call') (name : String) (args : List Expr) :
    foldCall call registry name args = foldCall call' registry name args := by
  rw [foldCall, foldCall]
  cases registry.get? name with
  | none => rfl
  | some f =>
      dsimp only
      by_cases hconstant : (f.foldEligible && f.arity.accepts args.length) = true
      · rw [if_pos hconstant, if_pos hconstant]
        cases hvalues : args.mapM Expr.literal? with
        | none => rfl
        | some values =>
            have haccepts : f.arity.accepts values.length = true := by
              rw [length_literals hvalues]
              exact (Bool.and_eq_true _ _ ▸ hconstant).2
            dsimp only
            rw [hcall f values haccepts]
      · rw [if_neg hconstant, if_neg hconstant]

/-- A call with too few or too many arguments stays. -/
theorem foldCall_of_not_accepts {name : String} {f : Function β} {args : List Expr}
    (hget : registry.get? name = some f) (haccepts : f.arity.accepts args.length = false) :
    foldCall call registry name args = pure (.call name args) := by
  rw [foldCall, hget]
  dsimp only
  rw [haccepts, Bool.and_false, if_neg Bool.false_ne_true]

mutual

/-- **Folding calls functions only with as many arguments as they take.** -/
theorem Expr.foldAt_accepted (hcall : AgreeAccepted call call') (level : Nat) (e : Expr) :
    Expr.foldAt call registry maxDepth level e = Expr.foldAt call' registry maxDepth level e := by
  rw [Expr.foldAt.eq_def, Expr.foldAt.eq_def]
  split
  · rfl
  cases e with
  | empty | number | string | «variable» => rfl
  | unary sign e =>
      dsimp only
      rw [Expr.foldAt_accepted hcall (level + 1) e]
  | binary left p os =>
      dsimp only
      rw [Expr.foldAt_accepted hcall (level + 1) left,
        Operands.foldAt_accepted hcall (level + 1) os]
  | call name es =>
      dsimp only
      rw [Expr.foldArgs_accepted hcall (level + 1) es]
      exact bind_congr fun ts => foldCall_accepted hcall name ts
  | group e =>
      dsimp only
      rw [Expr.foldAt_accepted hcall (level + 1) e]

theorem Operands.foldAt_accepted (hcall : AgreeAccepted call call') (level : Nat) (os : Operands) :
    Operands.foldAt call registry maxDepth level os =
      Operands.foldAt call' registry maxDepth level os := by
  cases os with
  | one op e => rw [Operands.foldAt, Operands.foldAt, Expr.foldAt_accepted hcall level e]
  | more op e os =>
      rw [Operands.foldAt, Operands.foldAt, Expr.foldAt_accepted hcall level e,
        Operands.foldAt_accepted hcall level os]

theorem Expr.foldArgs_accepted (hcall : AgreeAccepted call call') (level : Nat) (es : List Expr) :
    Expr.foldArgs call registry maxDepth level es =
      Expr.foldArgs call' registry maxDepth level es := by
  cases es with
  | nil => rfl
  | cons e es =>
      rw [Expr.foldArgs, Expr.foldArgs, Expr.foldAt_accepted hcall level e,
        Expr.foldArgs_accepted hcall level es]

end

variable [LawfulMonad m]

/-- Folding keeps as many arguments as there are. -/
theorem Expr.foldArgs_bind_congr {level : Nat} {es : List Expr}
    {k k' : List Expr → ExceptT FoldError m γ} (h : ∀ ts, ts.length = es.length → k ts = k' ts) :
    Expr.foldArgs call registry maxDepth level es >>= k =
      Expr.foldArgs call registry maxDepth level es >>= k' := by
  induction es generalizing k k' with
  | nil =>
      rw [Expr.foldArgs, pure_bind, pure_bind]
      exact h [] rfl
  | cons e es ih =>
      rw [Expr.foldArgs, bind_assoc, bind_assoc]
      refine bind_congr fun t => ?_
      rw [bind_assoc, bind_assoc]
      refine ih fun ts hlength => ?_
      rw [pure_bind, pure_bind]
      exact h (t :: ts) (by rw [List.length_cons, hlength, List.length_cons])

/-- **Where the number of arguments does not fit, folding keeps the call** with its arguments
    folded. -/
theorem Expr.foldAt_call_of_not_accepts {name : String} {f : Function β} {es : List Expr}
    {level : Nat} (hget : registry.get? name = some f)
    (haccepts : f.arity.accepts es.length = false) (hlevel : level < maxTreeDepth maxDepth) :
    Expr.foldAt call registry maxDepth level (.call name es) = (do
      let ts ← Expr.foldArgs call registry maxDepth (level + 1) es
      return .call name ts) := by
  rw [Expr.foldAt, if_neg (Nat.not_le.2 hlevel)]
  refine Expr.foldArgs_bind_congr fun ts hlength => ?_
  exact foldCall_of_not_accepts hget (hlength ▸ haccepts)

end

end FormulaLang
