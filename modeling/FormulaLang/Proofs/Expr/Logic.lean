import FormulaLang.Expr.Evaluation

/-!
# `Expr.Logic` — reasoning about trees in any monad

Evaluation and folding run the functions of a tree in a monad they know nothing of. What can be
said about them is said the same way for every monad: `Sat x w Q` is some notion of the program
`x` having the postcondition `Q` if it starts in the world `w`, a world being what is known of the
state. All that is asked of the notion is that it holds of a program that only returns and passes
through a sequence. Total correctness, partial correctness and leaving the state alone are all of
this kind, so that each needs one such structure and none needs an induction over trees of its
own.

- **`sat_evalAt`**: whatever holds of finding and of calling functions holds of evaluation.
-/

namespace FormulaLang

/-- A way to reason about the programs of a monad. -/
structure ProgramLogic (m : Type → Type) [Monad m] where
  World : Type
  /-- The second world may come after the first. -/
  Later : World → World → Prop
  /-- From the world on, the program ends with results and in worlds of the given kind only. -/
  Sat {α : Type} (x : m α) (w : World) (Q : α → World → Prop) : Prop
  sat_pure {α : Type} {a : α} {w : World} {Q : α → World → Prop} (h : Q a w) : Sat (pure a) w Q
  sat_bind {α γ : Type} {x : m α} {f : α → m γ} {w : World} {Q : α → World → Prop}
    {R : γ → World → Prop} (hx : Sat x w Q)
    (hf : ∀ a w', Later w w' → Q a w' → Sat (f a) w' R) : Sat (x >>= f) w R

namespace ProgramLogic

variable {m : Type → Type} [Monad m] (L : ProgramLogic m) {ε α γ : Type} {w : L.World}

/-- A weaker postcondition holds, too. -/
theorem sat_mono [LawfulMonad m] {x : m α} {Q R : α → L.World → Prop} (hx : L.Sat x w Q)
    (hQR : ∀ a w', Q a w' → R a w') : L.Sat x w R := by
  rw [← bind_pure x]
  exact L.sat_bind hx fun a w' _ ha => L.sat_pure (hQR a w' ha)

/-! ## Programs with errors -/

theorem sat_ok {a : α} {R : Except ε α → L.World → Prop} (h : R (.ok a) w) :
    L.Sat (pure a : ExceptT ε m α).run w R :=
  L.sat_pure h

theorem sat_throw {e : ε} {R : Except ε α → L.World → Prop} (h : R (.error e) w) :
    L.Sat (throw e : ExceptT ε m α).run w R :=
  L.sat_pure h

theorem sat_liftExcept {x : Except ε α} {R : Except ε α → L.World → Prop} (h : R x w) :
    L.Sat (liftExcept x : ExceptT ε m α).run w R := by
  cases x with
  | ok a => exact L.sat_ok h
  | error e => exact L.sat_throw h

/-- An error ends a sequence; a result goes on. -/
theorem sat_seq {x : ExceptT ε m α} {f : α → ExceptT ε m γ} {Q : Except ε α → L.World → Prop}
    {R : Except ε γ → L.World → Prop} (hx : L.Sat x.run w Q)
    (herror : ∀ e w', Q (.error e) w' → R (.error e) w')
    (hok : ∀ a w', L.Later w w' → Q (.ok a) w' → L.Sat (f a).run w' R) :
    L.Sat (x >>= f).run w R := by
  refine L.sat_bind hx fun r w' hlater hr => ?_
  cases r with
  | ok a => exact hok a w' hlater hr
  | error e => exact L.sat_pure (herror e w' hr)

theorem sat_seq_liftExcept {x : Except ε α} {f : α → ExceptT ε m γ}
    {R : Except ε γ → L.World → Prop} (herror : ∀ e, x = .error e → R (.error e) w)
    (hok : ∀ a, x = .ok a → L.Sat (f a).run w R) : L.Sat (liftExcept x >>= f).run w R := by
  have hx : L.Sat (liftExcept x : ExceptT ε m α).run w fun r w' => r = x ∧ w' = w :=
    L.sat_liftExcept ⟨rfl, rfl⟩
  refine L.sat_seq hx ?_ ?_
  · rintro e w' ⟨rfl, rfl⟩
    exact herror e rfl
  · rintro a w' - ⟨rfl, rfl⟩
    exact hok a rfl

/-- A program of the monad itself has no errors. -/
theorem sat_lift [LawfulMonad m] {x : m α} {f : α → ExceptT ε m γ} {Q : α → L.World → Prop}
    {R : Except ε γ → L.World → Prop} (hx : L.Sat x w Q)
    (hf : ∀ a w', L.Later w w' → Q a w' → L.Sat (f a).run w' R) :
    L.Sat (liftM x >>= f : ExceptT ε m γ).run w R := by
  show L.Sat (ExceptT.lift x >>= f).run w R
  rw [ExceptT.run_bind_lift]
  exact L.sat_bind hx hf

/-! ## Evaluation -/

section
variable {β : Type} {world : Surroundings m β} {maxDepth : Nat} {env : Env}
variable {known : Function β → Prop}

/-- Only functions that were found are resolved. -/
theorem sat_resolve [LawfulMonad m]
    (hfind : ∀ w name, L.Sat (world.find name) w fun f? _ => ∀ f ∈ f?, known f)
    (name : String) (found : Nat) :
    L.Sat (world.resolve name found).run w fun r _ => ∀ f, r = .ok f → known f := by
  refine L.sat_lift (hfind w name) fun f? w' _ hknown => ?_
  cases f? with
  | none => exact L.sat_throw (by simp)
  | some f =>
      have hf : L.Sat (pure f : ExceptT EvalError m (Function β)).run w'
          fun r _ => ∀ f, r = .ok f → known f := by
        refine L.sat_ok fun f' h => ?_
        cases h
        exact hknown f rfl
      cases harity : f.arity with
      | variadic => simpa only [harity] using hf
      | fixed expected =>
          simp only [harity]
          by_cases hcount : expected = found
          · simpa only [hcount, if_true] using hf
          · rw [if_neg hcount]
            exact L.sat_throw (by simp)

theorem sat_apply [LawfulMonad m]
    (hcall : ∀ w f values, known f → L.Sat (world.call f values) w fun _ _ => True)
    (name : String) {f : Function β} (hf : known f) (values : List Value) :
    L.Sat (world.apply name f values).run w fun _ _ => True := by
  refine L.sat_lift (hcall w f values hf) fun r w' _ _ => ?_
  cases r with
  | ok v => exact L.sat_ok trivial
  | error error => exact L.sat_throw trivial

mutual

/-- **What holds of finding functions and of calling those found holds of evaluation.** -/
theorem sat_evalAt [LawfulMonad m]
    (hfind : ∀ w name, L.Sat (world.find name) w fun f? _ => ∀ f ∈ f?, known f)
    (hcall : ∀ w f values, known f → L.Sat (world.call f values) w fun _ _ => True) (w : L.World)
    (depth : Depth) (e : Expr) :
    L.Sat (Expr.evalAt world maxDepth env depth e).run w fun _ _ => True := by
  rw [Expr.evalAt.eq_def]
  -- the test for the limit on levels comes before all else
  split
  · exact L.sat_throw trivial
  cases e with
  | empty | number | string | «variable» => exact L.sat_ok trivial
  | unary sign operand =>
      refine L.sat_seq (sat_evalAt hfind hcall w depth.down operand) (fun _ _ _ => trivial) ?_
      intro v w _ _
      exact L.sat_liftExcept trivial
  | binary left p operands =>
      refine L.sat_seq (sat_evalAt hfind hcall w depth.down left) (fun _ _ _ => trivial) ?_
      intro v w _ _
      exact sat_evalOperands hfind hcall w depth.down v operands
  | call name args =>
      refine L.sat_seq_liftExcept (fun _ _ => trivial) fun depth _ => ?_
      refine L.sat_seq (L.sat_resolve hfind name args.length) (fun _ _ _ => trivial) ?_
      intro f w _ hf
      refine L.sat_seq (sat_evalArgs hfind hcall w depth args) (fun _ _ _ => trivial) ?_
      intro values w _ _
      exact L.sat_apply hcall name (hf f rfl) values
  | group inner =>
      refine L.sat_seq_liftExcept (fun _ _ => trivial) fun depth _ => ?_
      exact sat_evalAt hfind hcall w depth inner

theorem sat_evalOperands [LawfulMonad m]
    (hfind : ∀ w name, L.Sat (world.find name) w fun f? _ => ∀ f ∈ f?, known f)
    (hcall : ∀ w f values, known f → L.Sat (world.call f values) w fun _ _ => True) (w : L.World)
    (depth : Depth) (left : Value) (os : Operands) :
    L.Sat (Operands.evalAt world maxDepth env depth left os).run w fun _ _ => True := by
  cases os with
  | one op e =>
      refine L.sat_seq (sat_evalAt hfind hcall w depth e) (fun _ _ _ => trivial) ?_
      intro right w _ _
      exact L.sat_liftExcept trivial
  | more op e rest =>
      refine L.sat_seq (sat_evalAt hfind hcall w depth e) (fun _ _ _ => trivial) ?_
      intro right w _ _
      refine L.sat_seq_liftExcept (fun _ _ => trivial) fun v _ => ?_
      exact sat_evalOperands hfind hcall w depth v rest

theorem sat_evalArgs [LawfulMonad m]
    (hfind : ∀ w name, L.Sat (world.find name) w fun f? _ => ∀ f ∈ f?, known f)
    (hcall : ∀ w f values, known f → L.Sat (world.call f values) w fun _ _ => True) (w : L.World)
    (depth : Depth) (es : List Expr) :
    L.Sat (Expr.evalArgs world maxDepth env depth es).run w fun _ _ => True := by
  cases es with
  | nil => exact L.sat_ok trivial
  | cons e es =>
      refine L.sat_seq (sat_evalAt hfind hcall w depth e) (fun _ _ _ => trivial) ?_
      intro v w _ _
      refine L.sat_seq (sat_evalArgs hfind hcall w depth es) (fun _ _ _ => trivial) ?_
      intro vs w _ _
      exact L.sat_ok trivial

end

/-- Evaluating a whole tree. -/
theorem sat_eval [LawfulMonad m] (known : Function β → Prop)
    (hfind : ∀ w name, L.Sat (world.find name) w fun f? _ => ∀ f ∈ f?, known f)
    (hcall : ∀ w f values, known f → L.Sat (world.call f values) w fun _ _ => True)
    (w : L.World) (maxDepth : Nat) (env : Env) (e : Expr) :
    L.Sat (e.eval world maxDepth env) w fun _ _ => True :=
  L.sat_evalAt hfind hcall w .root e

end

end ProgramLogic

end FormulaLang
