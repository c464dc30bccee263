import FormulaLang.Proofs.Folding.Folded

/-!
# `Folding.Computed` — folding as a function

Where functions only compute, so does folding: the same traversal, run without any effects, is a
function from trees to folded trees or errors. It has one equation for each constructor, free of
the test for the limit on levels below which it holds.

- **`sat_foldAt_eq`**: folding in any monad, with functions that return what they are said to
  return, comes to what the function gives.
-/

namespace FormulaLang

/-- What functions return. -/
abbrev Results (β : Type) := Function β → List Value → Except FunctionError Value

variable {β : Type}

/-! ## Folding without effects -/

section
variable (returns : Results β) (registry : Registry β)

/-- Folds a call whose arguments are folded already. -/
def foldedCall (name : String) (es : List Expr) : Except FoldError Expr :=
  (foldCall (fun f values => pure (returns f values)) registry name es : ExceptT _ Id _).run.run

/-- Folds an expression that has `level` expressions above it. -/
def Expr.foldedAt (maxDepth level : Nat) (e : Expr) : Except FoldError Expr :=
  (Expr.foldAt (fun f values => pure (returns f values)) registry maxDepth level e :
    ExceptT _ Id _).run.run

/-- Folds the operands of a run. -/
def Operands.foldedAt (maxDepth level : Nat) (os : Operands) : Except FoldError Operands :=
  (Operands.foldAt (fun f values => pure (returns f values)) registry maxDepth level os :
    ExceptT _ Id _).run.run

/-- Folds arguments. -/
def Expr.foldedArgs (maxDepth level : Nat) (es : List Expr) : Except FoldError (List Expr) :=
  (Expr.foldArgs (fun f values => pure (returns f values)) registry maxDepth level es :
    ExceptT _ Id _).run.run

end

theorem run_bind_of_id {ε α γ : Type} (x : ExceptT ε Id α) (f : α → ExceptT ε Id γ) :
    (x >>= f).run.run = (x.run.run >>= fun a => (f a).run.run : Except ε γ) := by
  show (x.run >>= ExceptT.bindCont f : Id (Except ε γ)).run = _
  rw [Id.run_bind]
  cases x.run.run <;> rfl

section
variable {returns : Results β} {registry : Registry β} {maxDepth level : Nat}

/-! ## Equations -/

theorem Expr.foldedAt_of_le (h : maxTreeDepth maxDepth ≤ level) (e : Expr) :
    e.foldedAt returns registry maxDepth level = .error (.depthLimitExceeded maxDepth) := by
  rw [Expr.foldedAt, Expr.foldAt.eq_def, if_pos h]
  rfl

/-- What has been folded has no more levels above it than there may be. -/
theorem Expr.level_lt_of_foldedAt {e t : Expr}
    (h : e.foldedAt returns registry maxDepth level = .ok t) : level < maxTreeDepth maxDepth := by
  refine Nat.lt_of_not_le fun hle => ?_
  rw [Expr.foldedAt_of_le hle] at h
  cases h

section
variable (h : level < maxTreeDepth maxDepth)
include h

theorem Expr.foldedAt_empty :
    Expr.empty.foldedAt returns registry maxDepth level = .ok .empty := by
  rw [Expr.foldedAt, Expr.foldAt, if_neg (Nat.not_le.2 h)]
  rfl

theorem Expr.foldedAt_variable (name : String) :
    (Expr.variable name).foldedAt returns registry maxDepth level = .ok (.variable name) := by
  rw [Expr.foldedAt, Expr.foldAt, if_neg (Nat.not_le.2 h)]
  rfl

/-- A literal stays. -/
theorem Expr.foldedAt_literal {e : Expr} {v : Value} (hliteral : e.literal? = some v) :
    e.foldedAt returns registry maxDepth level = .ok e := by
  rw [Expr.foldedAt, Expr.foldAt.eq_def, if_neg (Nat.not_le.2 h)]
  cases e with
  | number | string => rfl
  | _ => cases hliteral

theorem Expr.foldedAt_unary (sign : Sign) (e : Expr) :
    (Expr.unary sign e).foldedAt returns registry maxDepth level = (do
      let t ← e.foldedAt returns registry maxDepth (level + 1)
      return .unary sign t) := by
  rw [Expr.foldedAt, Expr.foldAt, if_neg (Nat.not_le.2 h), run_bind_of_id]
  rfl

theorem Expr.foldedAt_binary (e : Expr) (p : Priority) (os : Operands) :
    (Expr.binary e p os).foldedAt returns registry maxDepth level = (do
      let t ← e.foldedAt returns registry maxDepth (level + 1)
      let ts ← os.foldedAt returns registry maxDepth (level + 1)
      return .binary t p ts) := by
  rw [Expr.foldedAt, Expr.foldAt, if_neg (Nat.not_le.2 h), run_bind_of_id]
  simp only [run_bind_of_id]
  rfl

theorem Expr.foldedAt_call (name : String) (es : List Expr) :
    (Expr.call name es).foldedAt returns registry maxDepth level = (do
      let ts ← Expr.foldedArgs returns registry maxDepth (level + 1) es
      foldedCall returns registry name ts) := by
  rw [Expr.foldedAt, Expr.foldAt, if_neg (Nat.not_le.2 h), run_bind_of_id]
  rfl

theorem Expr.foldedAt_group (e : Expr) :
    (Expr.group e).foldedAt returns registry maxDepth level = (do
      let t ← e.foldedAt returns registry maxDepth (level + 1)
      return .group t) := by
  rw [Expr.foldedAt, Expr.foldAt, if_neg (Nat.not_le.2 h), run_bind_of_id]
  rfl

end

theorem Operands.foldedAt_one (op : Operator) (e : Expr) :
    (Operands.one op e).foldedAt returns registry maxDepth level = (do
      let t ← e.foldedAt returns registry maxDepth level
      return .one op t) := by
  rw [Operands.foldedAt, Operands.foldAt, run_bind_of_id]
  rfl

theorem Operands.foldedAt_more (op : Operator) (e : Expr) (os : Operands) :
    (Operands.more op e os).foldedAt returns registry maxDepth level = (do
      let t ← e.foldedAt returns registry maxDepth level
      let ts ← os.foldedAt returns registry maxDepth level
      return .more op t ts) := by
  rw [Operands.foldedAt, Operands.foldAt, run_bind_of_id]
  simp only [run_bind_of_id]
  rfl

theorem Expr.foldedArgs_nil :
    Expr.foldedArgs returns registry maxDepth level [] = .ok [] := by
  rw [Expr.foldedArgs, Expr.foldArgs]
  rfl

theorem Expr.foldedArgs_cons (e : Expr) (es : List Expr) :
    Expr.foldedArgs returns registry maxDepth level (e :: es) = (do
      let t ← e.foldedAt returns registry maxDepth level
      let ts ← Expr.foldedArgs returns registry maxDepth level es
      return t :: ts) := by
  rw [Expr.foldedArgs, Expr.foldArgs, run_bind_of_id]
  simp only [run_bind_of_id]
  rfl

end

/-! ## Calls -/

section
variable {returns : Results β} {registry : Registry β} {name : String} {es : List Expr}

theorem foldedCall_of_constant {f : Function β} {values : List Value}
    (h : ConstantCall registry name es f values) :
    foldedCall returns registry name es =
      match returns f values with
      | .error error => .error (.call name error)
      | .ok v => .ok (v.toLiteral?.getD (.call name es)) := by
  rw [foldedCall, foldCall_of_constant h]
  show (ExceptT.lift (pure (returns f values)) >>= _ : ExceptT _ Id _).run.run = _
  rw [ExceptT.run_bind_lift, pure_bind]
  cases returns f values <;> rfl

theorem foldedCall_of_not_constant (h : ∀ f values, ¬ ConstantCall registry name es f values) :
    foldedCall returns registry name es = .ok (.call name es) := by
  rw [foldedCall, foldCall_of_not_constant h]
  rfl

/-- A call that folds is kept, or is a constant call that has become the literal returned. -/
theorem foldedCall_eq_ok {t : Expr} (h : foldedCall returns registry name es = .ok t) :
    t = .call name es ∨ ∃ f values v, ConstantCall registry name es f values ∧
      returns f values = .ok v ∧ v.toLiteral? = some t := by
  by_cases hconstant : ∃ f values, ConstantCall registry name es f values
  · obtain ⟨f, values, hconstant⟩ := hconstant
    rw [foldedCall_of_constant hconstant] at h
    cases hreturns : returns f values with
    | error error => simp [hreturns] at h
    | ok v =>
        simp only [hreturns, Except.ok.injEq] at h
        cases hliteral : v.toLiteral? with
        | none =>
            rw [hliteral] at h
            exact .inl h.symm
        | some literal =>
            rw [hliteral] at h
            cases h
            exact .inr ⟨f, values, v, hconstant, hreturns, hliteral⟩
  · have hnot : ∀ f values, ¬ ConstantCall registry name es f values :=
      fun f values h => hconstant ⟨f, values, h⟩
    rw [foldedCall_of_not_constant hnot] at h
    cases h
    exact .inl rfl

end

/-! ## Folding in any monad -/

namespace ProgramLogic

variable {m : Type → Type} [Monad m] (L : ProgramLogic m) {w : L.World}
variable {call : Caller m β} {registry : Registry β} {returns : Results β} {maxDepth : Nat}

/-- What is known of the parts of a sequence is known of the sequence. -/
theorem sat_seq_eq {ε α γ : Type} {x : ExceptT ε m α} {f : α → ExceptT ε m γ} {a : Except ε α}
    {k : α → Except ε γ} (hx : L.Sat x.run w fun r _ => r = a)
    (hf : ∀ b w', L.Sat (f b).run w' fun r _ => r = k b) :
    L.Sat (x >>= f).run w fun r _ => r = (a >>= k) := by
  refine L.sat_seq hx ?_ ?_
  · rintro error w' rfl
    rfl
  · rintro b w' - rfl
    exact hf b w'

/-- Functions of the registry return what they determine, whatever the world they are called in. -/
def ReturnsAs (call : Caller m β) (registry : Registry β) (returns : Results β) : Prop :=
  ∀ w name f values, registry.get? name = some f →
    L.Sat (call f values) w fun r _ => r = returns f values

theorem sat_foldCall_eq [LawfulMonad m] (hcall : L.ReturnsAs call registry returns)
    (w : L.World) (name : String) (ts : List Expr) :
    L.Sat (foldCall call registry name ts).run w fun r _ =>
      r = foldedCall returns registry name ts := by
  by_cases hconstant : ∃ f values, ConstantCall registry name ts f values
  · obtain ⟨f, values, hconstant⟩ := hconstant
    rw [foldCall_of_constant hconstant, foldedCall_of_constant hconstant]
    refine L.sat_lift (hcall w name f values hconstant.get) fun r w' _ hr => ?_
    rw [← hr]
    cases r with
    | error error => exact L.sat_throw rfl
    | ok v => exact L.sat_ok rfl
  · have hnot : ∀ f values, ¬ ConstantCall registry name ts f values :=
      fun f values h => hconstant ⟨f, values, h⟩
    rw [foldCall_of_not_constant hnot, foldedCall_of_not_constant hnot]
    exact L.sat_ok rfl

mutual

/-- **Folding with functions that only compute gives what they determine.** -/
theorem sat_foldAt_eq [LawfulMonad m] (hcall : L.ReturnsAs call registry returns)
    (w : L.World) (level : Nat) (e : Expr) :
    L.Sat (Expr.foldAt call registry maxDepth level e).run w fun r _ =>
      r = e.foldedAt returns registry maxDepth level := by
  rw [Expr.foldAt.eq_def]
  split
  · rename_i hle
    rw [Expr.foldedAt_of_le hle]
    exact L.sat_throw rfl
  rename_i hle
  have hlt := Nat.lt_of_not_le hle
  cases e with
  | empty => exact L.sat_ok (Expr.foldedAt_empty hlt).symm
  | number n => exact L.sat_ok (Expr.foldedAt_literal hlt rfl).symm
  | string text => exact L.sat_ok (Expr.foldedAt_literal hlt rfl).symm
  | «variable» name => exact L.sat_ok (Expr.foldedAt_variable hlt name).symm
  | unary sign e =>
      rw [Expr.foldedAt_unary hlt]
      refine L.sat_seq_eq (sat_foldAt_eq hcall w (level + 1) e) fun t w' => ?_
      exact L.sat_ok rfl
  | binary e p os =>
      rw [Expr.foldedAt_binary hlt]
      refine L.sat_seq_eq (sat_foldAt_eq hcall w (level + 1) e) fun t w' => ?_
      refine L.sat_seq_eq (sat_foldOperands_eq hcall w' (level + 1) os) fun ts w'' => ?_
      exact L.sat_ok rfl
  | call name es =>
      rw [Expr.foldedAt_call hlt]
      refine L.sat_seq_eq (sat_foldArgs_eq hcall w (level + 1) es) fun ts w' => ?_
      exact L.sat_foldCall_eq hcall w' name ts
  | group e =>
      rw [Expr.foldedAt_group hlt]
      refine L.sat_seq_eq (sat_foldAt_eq hcall w (level + 1) e) fun t w' => ?_
      exact L.sat_ok rfl

theorem sat_foldOperands_eq [LawfulMonad m] (hcall : L.ReturnsAs call registry returns)
    (w : L.World) (level : Nat) (os : Operands) :
    L.Sat (Operands.foldAt call registry maxDepth level os).run w fun r _ =>
      r = os.foldedAt returns registry maxDepth level := by
  cases os with
  | one op e =>
      rw [Operands.foldedAt_one]
      refine L.sat_seq_eq (sat_foldAt_eq hcall w level e) fun t w' => ?_
      exact L.sat_ok rfl
  | more op e os =>
      rw [Operands.foldedAt_more]
      refine L.sat_seq_eq (sat_foldAt_eq hcall w level e) fun t w' => ?_
      refine L.sat_seq_eq (sat_foldOperands_eq hcall w' level os) fun ts w'' => ?_
      exact L.sat_ok rfl

theorem sat_foldArgs_eq [LawfulMonad m] (hcall : L.ReturnsAs call registry returns)
    (w : L.World) (level : Nat) (es : List Expr) :
    L.Sat (Expr.foldArgs call registry maxDepth level es).run w fun r _ =>
      r = Expr.foldedArgs returns registry maxDepth level es := by
  cases es with
  | nil => exact L.sat_ok Expr.foldedArgs_nil.symm
  | cons e es =>
      rw [Expr.foldedArgs_cons]
      refine L.sat_seq_eq (sat_foldAt_eq hcall w level e) fun t w' => ?_
      refine L.sat_seq_eq (sat_foldArgs_eq hcall w' level es) fun ts w'' => ?_
      exact L.sat_ok rfl

end

end ProgramLogic

end FormulaLang
