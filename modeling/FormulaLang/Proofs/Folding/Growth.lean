import FormulaLang.Proofs.Folding.Computed
import FormulaLang.Proofs.Folding.Preservation
import FormulaLang.Proofs.Session.Transparency

/-!
# `Folding.Growth` — folding again, against more functions

A tree folded against some functions is folded again when there are more. What the first folding
left is a call that the second one meets with the same folded arguments, and what it replaced is
now a literal, for a call that the second one would have replaced by the same literal. So it makes
no difference whether the tree was folded before: the two foldings meet the same calls, in the same
order, and come to the same tree or to the same error. The limit on levels does not tell the trees
apart either, since the first folding has been below every expression of the original.

- **`fold_growth`**: folding a folded tree is folding the original, and against the same functions
  it changes nothing.
-/

namespace FormulaLang

variable {β : Type} {returns : Results β} {r0 r1 : Registry β} {maxDepth level : Nat}

/-! ## Calls -/

/-- A call that is constant stays so where there are more functions. -/
theorem ConstantCall.mono (hwithin : r0.Within r1) {name : String} {es : List Expr}
    {f : Function β} {values : List Value} (h : ConstantCall r0 name es f values) :
    ConstantCall r1 name es f values where
  get := hwithin name f h.get
  eligible := h.eligible
  accepts := h.accepts
  literals := h.literals

/-- Literal arguments stay, if there are any and they are within the limit on levels. -/
theorem Expr.foldedArgs_literals {es : List Expr} {values : List Value}
    (h : es ≠ [] → level < maxTreeDepth maxDepth) (hvalues : es.mapM Expr.literal? = some values) :
    Expr.foldedArgs returns r1 maxDepth level es = .ok es := by
  induction es generalizing values with
  | nil => exact Expr.foldedArgs_nil
  | cons e es ih =>
      obtain ⟨v, vs, hv, hvs, rfl⟩ := literals_cons_eq_some_iff.1 hvalues
      have hlt := h (List.cons_ne_nil e es)
      rw [Expr.foldedArgs_cons, Expr.foldedAt_literal hlt hv, ih (fun _ => hlt) hvs]
      rfl

/-- Arguments that have been folded, if there are any, are within the limit on levels. -/
theorem Expr.level_lt_of_foldedArgs {es ts : List Expr}
    (h : Expr.foldedArgs returns r0 maxDepth level es = .ok ts) (hts : ts ≠ []) :
    level < maxTreeDepth maxDepth := by
  cases es with
  | nil =>
      rw [Expr.foldedArgs_nil] at h
      cases h
      exact absurd rfl hts
  | cons e es =>
      rw [Expr.foldedArgs_cons] at h
      obtain ⟨t, ht, -⟩ := Except.bind_eq_ok.1 h
      exact Expr.level_lt_of_foldedAt ht

/-! ## Trees -/

mutual

/-- **Folding a folded tree is folding the original.** -/
theorem Expr.foldedAt_foldedAt (hwithin : r0.Within r1) {level : Nat} {e t : Expr}
    (h : e.foldedAt returns r0 maxDepth level = .ok t) :
    t.foldedAt returns r1 maxDepth level = e.foldedAt returns r1 maxDepth level := by
  have hlt := Expr.level_lt_of_foldedAt h
  cases e with
  | empty =>
      rw [Expr.foldedAt_empty hlt] at h
      cases h
      rfl
  | number n =>
      rw [Expr.foldedAt_literal hlt rfl] at h
      cases h
      rfl
  | string text =>
      rw [Expr.foldedAt_literal hlt rfl] at h
      cases h
      rfl
  | «variable» name =>
      rw [Expr.foldedAt_variable hlt] at h
      cases h
      rfl
  | unary sign e =>
      rw [Expr.foldedAt_unary hlt] at h
      obtain ⟨t, ht, h⟩ := Except.bind_eq_ok.1 h
      cases h
      rw [Expr.foldedAt_unary hlt, Expr.foldedAt_unary hlt, Expr.foldedAt_foldedAt hwithin ht]
  | binary e p os =>
      rw [Expr.foldedAt_binary hlt] at h
      obtain ⟨t, ht, h⟩ := Except.bind_eq_ok.1 h
      obtain ⟨ts, hts, h⟩ := Except.bind_eq_ok.1 h
      cases h
      rw [Expr.foldedAt_binary hlt, Expr.foldedAt_binary hlt, Expr.foldedAt_foldedAt hwithin ht,
        Operands.foldedAt_foldedAt hwithin hts]
  | group e =>
      rw [Expr.foldedAt_group hlt] at h
      obtain ⟨t, ht, h⟩ := Except.bind_eq_ok.1 h
      cases h
      rw [Expr.foldedAt_group hlt, Expr.foldedAt_group hlt, Expr.foldedAt_foldedAt hwithin ht]
  | call name es =>
      rw [Expr.foldedAt_call hlt] at h
      obtain ⟨ts, hts, h⟩ := Except.bind_eq_ok.1 h
      rw [Expr.foldedAt_call hlt, ← Expr.foldedArgs_foldedArgs hwithin hts]
      rcases foldedCall_eq_ok h with rfl | ⟨f, values, v, hconstant, hreturned, hliteral⟩
      · rw [Expr.foldedAt_call hlt]
      · -- the literal stays, and the call it stands for becomes the same literal
        have hvalue : t.literal? = some v := Value.literal?_of_toLiteral? hliteral
        have hargs : Expr.foldedArgs returns r1 maxDepth (level + 1) ts = .ok ts :=
          Expr.foldedArgs_literals (Expr.level_lt_of_foldedArgs hts) hconstant.literals
        have hcall : foldedCall returns r1 name ts = .ok t := by
          rw [foldedCall_of_constant (hconstant.mono hwithin), hreturned]
          simp only [hliteral, Option.getD_some]
        rw [Expr.foldedAt_literal hlt hvalue, hargs]
        exact hcall.symm

theorem Operands.foldedAt_foldedAt (hwithin : r0.Within r1) {level : Nat} {os ts : Operands}
    (h : os.foldedAt returns r0 maxDepth level = .ok ts) :
    ts.foldedAt returns r1 maxDepth level = os.foldedAt returns r1 maxDepth level := by
  cases os with
  | one op e =>
      rw [Operands.foldedAt_one] at h
      obtain ⟨t, ht, h⟩ := Except.bind_eq_ok.1 h
      cases h
      rw [Operands.foldedAt_one, Operands.foldedAt_one, Expr.foldedAt_foldedAt hwithin ht]
  | more op e os =>
      rw [Operands.foldedAt_more] at h
      obtain ⟨t, ht, h⟩ := Except.bind_eq_ok.1 h
      obtain ⟨ts, hts, h⟩ := Except.bind_eq_ok.1 h
      cases h
      rw [Operands.foldedAt_more, Operands.foldedAt_more, Expr.foldedAt_foldedAt hwithin ht,
        Operands.foldedAt_foldedAt hwithin hts]

theorem Expr.foldedArgs_foldedArgs (hwithin : r0.Within r1) {level : Nat} {es ts : List Expr}
    (h : Expr.foldedArgs returns r0 maxDepth level es = .ok ts) :
    Expr.foldedArgs returns r1 maxDepth level ts =
      Expr.foldedArgs returns r1 maxDepth level es := by
  cases es with
  | nil =>
      rw [Expr.foldedArgs_nil] at h
      cases h
      rfl
  | cons e es =>
      rw [Expr.foldedArgs_cons] at h
      obtain ⟨t, ht, h⟩ := Except.bind_eq_ok.1 h
      obtain ⟨ts, hts, h⟩ := Except.bind_eq_ok.1 h
      cases h
      rw [Expr.foldedArgs_cons, Expr.foldedArgs_cons, Expr.foldedAt_foldedAt hwithin ht,
        Expr.foldedArgs_foldedArgs hwithin hts]

end

/-! ## Folding in a session -/

namespace Host
open Run

variable {σ : Type} {host : Host σ β} {fuel : Nat}

/-- One table has what the functions of a registry return, if they compute. -/
theorem exists_results {registry : Registry β}
    (hfunctional : ∀ f ∈ registry.functions, host.Functional f) :
    ∃ (returns : Results β) (enough : Nat), ∀ fuel ≥ enough, ∀ name f,
      registry.get? name = some f → ∀ args, host.Gives AnyState fuel f args (returns f args) := by
  have hreturns : ∀ f ∈ registry.functions, ∃ (results : List Value → Except FunctionError Value),
      ∃ enough, ∀ fuel ≥ enough, ∀ args, host.Gives AnyState fuel f args (results args) :=
    hfunctional
  choose! returns hreturns using hreturns
  obtain ⟨enough, h⟩ := exists_enough hreturns
  refine ⟨returns, enough, fun fuel hfuel name f hget => ?_⟩
  exact h fuel hfuel f (Registry.mem_of_get? hget)

/-- In sessions, too, functions that compute determine what a tree is folded to. -/
theorem result_fold_eq {registry : Registry β}
    (hgives : ∀ name f, registry.get? name = some f → ∀ args,
      host.Gives AnyState fuel f args (returns f args))
    (maxDepth : Nat) (e : Expr) (s : Session σ β) :
    ((e.fold (host.call fuel) registry maxDepth).result s).1 =
      some (e.foldedAt returns registry maxDepth 0) := by
  have hcall : ∀ w name f values, registry.get? name = some f →
      (totalLogic fun _ => True).Sat (host.call fuel f values) w
        fun r _ => r = returns f values := by
    intro _ name f values hget s _
    obtain ⟨s', hrun, -⟩ := hgives name f hget values s
    exact ⟨returns f values, s', hrun, trivial, rfl⟩
  have hsat : (totalLogic fun _ => True).Sat (e.fold (host.call fuel) registry maxDepth) ()
      fun r _ => r = e.foldedAt returns registry maxDepth 0 :=
    (totalLogic fun _ => True).sat_foldAt_eq hcall () 0 e
  obtain ⟨r, s', hrun, -, rfl⟩ := hsat s trivial
  rw [run_eq_some_iff] at hrun
  exact congrArg Prod.fst hrun

/-- **Folding commutes with the growth of the registry.** Let the functions of `r1` only compute,
    and those of `r0` be among them, under the same names. Then folding against either of them
    ends, with a result that depends on the tree and the limit alone. If a tree folds to `t`
    against `r0`, then `t` folds against `r1` to what the tree itself folds to, be it a tree or an
    error; and `t` folds against `r0` to itself. -/
theorem fold_growth (host : Host σ β) (hwithin : r0.Within r1)
    (hfunctional : ∀ f ∈ r1.functions, host.Functional f) :
    ∃ enough, ∀ fuel ≥ enough, ∀ (maxDepth : Nat) (e : Expr),
      ∃ outcome0 outcome1 : Except FoldError Expr,
        (∀ s, ((e.fold (host.call fuel) r0 maxDepth).result s).1 = some outcome0) ∧
        (∀ s, ((e.fold (host.call fuel) r1 maxDepth).result s).1 = some outcome1) ∧
        ∀ t, outcome0 = .ok t →
          (∀ s, ((t.fold (host.call fuel) r1 maxDepth).result s).1 = some outcome1) ∧
          ∀ s, ((t.fold (host.call fuel) r0 maxDepth).result s).1 = some (.ok t) := by
  obtain ⟨returns, enough, hreturns⟩ := exists_results hfunctional
  refine ⟨enough, fun fuel hfuel maxDepth e => ?_⟩
  have hgives1 := hreturns fuel hfuel
  have hgives0 : ∀ name f, r0.get? name = some f → ∀ args,
      host.Gives AnyState fuel f args (returns f args) := by
    intro name f hget
    exact hgives1 name f (hwithin name f hget)
  refine ⟨e.foldedAt returns r0 maxDepth 0, e.foldedAt returns r1 maxDepth 0,
    result_fold_eq hgives0 maxDepth e, result_fold_eq hgives1 maxDepth e, fun t ht => ⟨?_, ?_⟩⟩
  · intro s
    rw [result_fold_eq hgives1, Expr.foldedAt_foldedAt hwithin ht]
  · intro s
    have hsame : r0.Within r0 := fun _ _ h => h
    rw [result_fold_eq hgives0, Expr.foldedAt_foldedAt hsame ht, ht]

/-! ## The builtins, and then one function more -/

/-- The builtin functions and `seven`. -/
def builtinsAndSeven : Registry Unit where
  functions := seven :: Registry.builtins.functions
  nodup := by simp [Registry.builtins, Builtin.name, seven]

theorem functional_builtinsAndSeven : ∀ f ∈ builtinsAndSeven.functions, tally.Functional f := by
  intro f hf
  rcases List.mem_cons.1 hf with rfl | hbuiltin
  · exact functional_seven
  · exact (pure_of_mem_builtins hbuiltin).functional

/-- `max(abs(3), seven())`. -/
def maxOfAbsAndSeven : Expr := .call "max" [.call "abs" [.number 3], .call "seven" []]

/-- Against the builtins the tree folds to `max(3, seven())`, and with `seven` both fold to `7`. -/
theorem fold_growth_seven :
    Registry.builtins.Within builtinsAndSeven ∧
      (∀ f ∈ builtinsAndSeven.functions, tally.Functional f) ∧
      ∃ enough, ∀ fuel ≥ enough, ∀ s : Session Nat Unit,
        ((maxOfAbsAndSeven.fold (tally.call fuel) Registry.builtins 2).result s).1 =
          some (.ok (.call "max" [.number 3, .call "seven" []])) ∧
        (((Expr.call "max" [.number 3, .call "seven" []]).fold (tally.call fuel) builtinsAndSeven
          2).result s).1 = some (.ok (.number 7)) := by
  have hwithin : Registry.builtins.Within builtinsAndSeven := Registry.within_of_cons rfl rfl
  obtain ⟨enough, h⟩ := fold_growth tally hwithin functional_builtinsAndSeven
  refine ⟨hwithin, functional_builtinsAndSeven, enough + 1, fun fuel hfuel s => ?_⟩
  -- one call deep is enough to run the two functions
  obtain ⟨fuel, rfl⟩ : ∃ n, fuel = n + 1 := ⟨fuel - 1, by omega⟩
  obtain ⟨outcome0, outcome1, h0, h1, hagain⟩ := h (fuel + 1) (by omega) 2 maxOfAbsAndSeven
  have hfirst : ((maxOfAbsAndSeven.fold (tally.call (fuel + 1)) Registry.builtins 2).result s).1 =
      some (.ok (.call "max" [.number 3, .call "seven" []])) := rfl
  have hboth : ((maxOfAbsAndSeven.fold (tally.call (fuel + 1)) builtinsAndSeven 2).result s).1 =
      some (.ok (.number 7)) := rfl
  obtain rfl : outcome0 = .ok (.call "max" [.number 3, .call "seven" []]) :=
    Option.some.inj ((h0 s).symm.trans hfirst)
  obtain rfl : outcome1 = .ok (.number 7) := Option.some.inj ((h1 s).symm.trans hboth)
  exact ⟨hfirst, (hagain _ rfl).1 s⟩

end Host

end FormulaLang
