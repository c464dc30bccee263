import FormulaLang.Proofs.Evaluation.Reference
import FormulaLang.Proofs.Session.Transparency

/-!
# `Evaluation.Exactness` — evaluation is exact and reports the first failure

Within its limits, evaluation comes to what the rules of the reference say: to the same value, or
to the error of the same step. The induction is over the tree, in any monad in which functions are
found in one registry and return what the rules say they return; sessions whose functions only
compute are of that kind.

- **`evalTree_exact`**: a tree within the limits has the result of the reference, and quotient and
  remainder fit together.
-/

namespace FormulaLang

variable {β : Type}

/-! ## Evaluation follows the rules -/

namespace ProgramLogic

variable {m : Type → Type} [Monad m] (L : ProgramLogic m) {w : L.World}
variable {world : Surroundings m β} {maxDepth : Nat} {env : Env} {registry : Registry β}
variable {returns : Function β → List Value → Except FunctionError Value → Prop}

/-- Functions are found in the registry, and return what is known of them. -/
structure Provides (world : Surroundings m β) (registry : Registry β)
    (returns : Function β → List Value → Except FunctionError Value → Prop) : Prop where
  find : ∀ w name, L.Sat (world.find name) w fun f? _ => f? = registry.get? name
  call : ∀ w name f values, registry.get? name = some f →
    L.Sat (world.call f values) w fun r _ => returns f values r

theorem sat_resolve_resolves [LawfulMonad m] (hworld : L.Provides world registry returns)
    (name : String) (found : Nat) :
    L.Sat (world.resolve name found).run w fun r _ => registry.Resolves name found r := by
  refine L.sat_lift (hworld.find w name) fun f? w' _ hget => ?_
  cases f? with
  | none => exact L.sat_throw (.unknown hget.symm)
  | some f =>
      have hfound (haccepts : f.arity.accepts found = true) :
          L.Sat (pure f : ExceptT EvalError m (Function β)).run w' fun r _ =>
            registry.Resolves name found r := L.sat_ok (.found hget.symm haccepts)
      cases harity : f.arity with
      | variadic =>
          simp only [harity]
          exact hfound (by rw [harity]; rfl)
      | fixed expected =>
          simp only [harity]
          by_cases hcount : expected = found
          · rw [if_pos hcount]
            exact hfound (by simp [harity, Arity.accepts, hcount])
          · rw [if_neg hcount]
            exact L.sat_throw (.mismatch hget.symm harity hcount)

mutual

/-- **Evaluation at a depth at which the tree fits follows the rules.** -/
theorem sat_evalAt_evaluates [LawfulMonad m] (hworld : L.Provides world registry returns)
    (w : L.World) {depth : Depth} (e : Expr) (h : depth.Fits maxDepth e.height e.nesting) :
    L.Sat (Expr.evalAt world maxDepth env depth e).run w fun r _ =>
      Expr.Evaluates registry returns env e (r.map Value.exact) := by
  have hlevels := h.levels_lt e.height_pos
  cases e with
  | empty =>
      rw [Expr.evalAt, if_neg (Nat.not_le.2 hlevels)]
      exact L.sat_ok .empty
  | number n =>
      rw [Expr.evalAt, if_neg (Nat.not_le.2 hlevels)]
      exact L.sat_ok (.number n)
  | string text =>
      rw [Expr.evalAt, if_neg (Nat.not_le.2 hlevels)]
      exact L.sat_ok (.string text)
  | «variable» name =>
      rw [Expr.evalAt, if_neg (Nat.not_le.2 hlevels)]
      exact L.sat_ok (.variable name)
  | unary sign e =>
      rw [Expr.evalAt_unary hlevels]
      refine L.sat_seq (sat_evalAt_evaluates hworld w e h.down) ?_ ?_
      · intro error w' herror
        exact .unaryError herror
      · intro v w' _ hv
        refine L.sat_liftExcept ?_
        rw [Sign.map_exact_eval]
        exact .unary hv
  | binary e p os =>
      rw [Expr.evalAt_binary hlevels]
      have hleft := h.down.mono (Nat.le_max_left _ _) (Nat.le_max_left _ _)
      have hrun := h.down.mono (Nat.le_max_right _ _) (Nat.le_max_right _ _)
      refine L.sat_seq (sat_evalAt_evaluates hworld w e hleft) ?_ ?_
      · intro error w' herror
        exact .leftError herror
      · intro v w' _ hv
        refine L.sat_mono (sat_evalOperands_evaluates hworld w' v os hrun) fun r _ hr => ?_
        exact .binary hv hr
  | call name es =>
      obtain ⟨inside, henter, hinside⟩ := h.enter
      rw [Expr.evalAt_call hlevels, henter, Expr.liftExcept_ok_bind]
      refine L.sat_seq (L.sat_resolve_resolves hworld name es.length) ?_ ?_
      · intro error w' hresolves
        exact .unresolved hresolves
      intro f w' _ hresolves
      refine L.sat_seq (sat_evalArgs_evaluates hworld w' es hinside) ?_ ?_
      · intro error w' hargs
        exact .argumentError hresolves hargs
      intro values w' _ hargs
      have hget := hresolves.get?_eq_some
      refine L.sat_lift (hworld.call w' name f values hget) ?_
      intro r w' _ hreturned
      cases r with
      | ok v => exact L.sat_ok (.call hresolves hargs hreturned)
      | error error => exact L.sat_throw (.call hresolves hargs hreturned)
  | group e =>
      obtain ⟨inside, henter, hinside⟩ := h.enter
      rw [Expr.evalAt_group hlevels, henter, Expr.liftExcept_ok_bind]
      refine L.sat_mono (sat_evalAt_evaluates hworld w e hinside) fun r _ hr => ?_
      exact .group hr

theorem sat_evalOperands_evaluates [LawfulMonad m] (hworld : L.Provides world registry returns)
    (w : L.World) {depth : Depth} (left : Value) (os : Operands)
    (h : depth.Fits maxDepth os.height os.nesting) :
    L.Sat (Operands.evalAt world maxDepth env depth left os).run w fun r _ =>
      Operands.Evaluate registry returns env left.exact os (r.map Value.exact) := by
  cases os with
  | one op e =>
      refine L.sat_seq (sat_evalAt_evaluates hworld w e h) ?_ ?_
      · intro error w' herror
        exact .oneError herror
      · intro right w' _ hright
        refine L.sat_liftExcept ?_
        rw [Operator.map_exact_eval]
        exact .one hright
  | more op e rest =>
      have hfirst := h.mono (Nat.le_max_left _ _) (Nat.le_max_left _ _)
      have hrest := h.mono (Nat.le_max_right _ _) (Nat.le_max_right _ _)
      refine L.sat_seq (sat_evalAt_evaluates hworld w e hfirst) ?_ ?_
      · intro error w' herror
        exact .moreError herror
      intro right w' _ hright
      have hexact := Operator.map_exact_eval op left right
      refine L.sat_seq_liftExcept ?_ ?_
      · intro error herror
        rw [herror] at hexact
        exact .stops hright hexact.symm
      · intro v hv
        rw [hv] at hexact
        refine L.sat_mono (sat_evalOperands_evaluates hworld w' v rest hrest) fun r _ hr => ?_
        exact .more hright hexact.symm hr

theorem sat_evalArgs_evaluates [LawfulMonad m] (hworld : L.Provides world registry returns)
    (w : L.World) {depth : Depth} (es : List Expr)
    (h : depth.Fits maxDepth (Expr.argsHeight es) (Expr.argsNesting es)) :
    L.Sat (Expr.evalArgs world maxDepth env depth es).run w fun r _ =>
      Expr.ArgsEvaluate registry returns env es r := by
  cases es with
  | nil => exact L.sat_ok .nil
  | cons e es =>
      have hfirst := h.mono (Nat.le_max_left _ _) (Nat.le_max_left _ _)
      have hrest := h.mono (Nat.le_max_right _ _) (Nat.le_max_right _ _)
      refine L.sat_seq (sat_evalAt_evaluates hworld w e hfirst) ?_ ?_
      · intro error w' herror
        exact .firstError herror
      intro v w' _ hv
      refine L.sat_seq (sat_evalArgs_evaluates hworld w' es hrest) ?_ ?_
      · intro error w' herror
        exact .restError hv herror
      · intro vs w' _ hvs
        exact L.sat_ok (.cons hv hvs)

end

end ProgramLogic

/-! ## Functions that compute -/

namespace Host
open Run

variable {σ : Type} {host : Host σ β} {f : Function β} {args : List Value}

/-- With enough fuel, a call returns the result wherever it is made, and leaves the evaluator as it
    was. -/
def Yields (host : Host σ β) (f : Function β) (args : List Value)
    (r : Except FunctionError Value) : Prop :=
  ∃ enough, ∀ fuel ≥ enough, host.Gives AnyState fuel f args r

/-- A call yields one result, if there is a session to make it in. -/
theorem Yields.unique (s : Session σ β) {r r' : Except FunctionError Value}
    (h : host.Yields f args r) (h' : host.Yields f args r') : r = r' := by
  obtain ⟨n, hn⟩ := h
  obtain ⟨k, hk⟩ := h'
  obtain ⟨s₁, hrun, -⟩ := hn (max n k) (Nat.le_max_left n k) s
  obtain ⟨s₂, hrun', -⟩ := hk (max n k) (Nat.le_max_right n k) s
  have hsame : some (r, s₁) = some (r', s₂) := hrun.symm.trans hrun'
  cases hsame
  rfl

/-- A function that computes yields what it gives. -/
theorem Functional.exists_yields (h : host.Functional f) :
    ∃ enough, ∀ fuel ≥ enough, ∀ args, ∃ r, host.Gives AnyState fuel f args r ∧
      host.Yields f args r := by
  obtain ⟨result, enough, hgives⟩ := h
  refine ⟨enough, fun fuel hfuel args => ⟨result args, hgives fuel hfuel args, ?_⟩⟩
  exact ⟨enough, fun fuel hfuel => hgives fuel hfuel args⟩

/-- In a session whose functions yield what they give, a tree within the limits evaluates as the
    rules say. -/
theorem evalTree_evaluates {registry : Registry β} {fuel : Nat} {s : Session σ β}
    (hyields : ∀ f ∈ registry.functions, ∀ args, ∃ r, host.Gives AnyState fuel f args r ∧
      host.Yields f args r)
    (hs : s.vm.registry = registry) {e : Expr} (hnesting : e.nesting ≤ s.vm.config.maxDepth)
    (hheight : e.height ≤ maxTreeDepth s.vm.config.maxDepth) (env : Env) :
    ∃ r, ((host.perform fuel (.evalTree e env)).result s).1 = some r ∧
      Expr.Evaluates registry host.Yields env e (r.map Value.exact) := by
  let world := Session.surroundings (host.call fuel)
  have hfind : ∀ w name, (totalLogic (· = s.vm)).Sat (world.find name) w
      fun f? _ => f? = registry.get? name := by
    intro _ name s' hs'
    exact ⟨s'.vm.registry.get? name, s', rfl, hs', by rw [hs', hs]⟩
  have hcall : ∀ w name f values, registry.get? name = some f →
      (totalLogic (· = s.vm)).Sat (world.call f values) w fun r _ => host.Yields f values r := by
    intro _ name f values hget s' hs'
    obtain ⟨r, hgives, hr⟩ := hyields f (Registry.mem_of_get? hget) values
    obtain ⟨s'', hrun, hvm, -⟩ := hgives s'
    exact ⟨r, s'', hrun, hvm.trans hs', hr⟩
  have hsat : (totalLogic (· = s.vm)).Sat (e.eval world s.vm.config.maxDepth env) ()
      fun r _ => Expr.Evaluates registry host.Yields env e (r.map Value.exact) :=
    (totalLogic (· = s.vm)).sat_evalAt_evaluates ⟨hfind, hcall⟩ () e
      (Depth.Fits.root hnesting hheight)
  obtain ⟨r, s', hrun, -, hr⟩ := hsat s rfl
  rw [run_eq_some_iff] at hrun
  have hresult : ((host.perform fuel (.evalTree e env)).result s).1 = some r := by
    rw [result_evalTree]
    exact congrArg Prod.fst hrun
  exact ⟨r, hresult, hr⟩

/-- **Evaluation is exact arithmetic, and the first failure is reported.** With functions that only
    compute, every tree within the limits evaluates, and to the one result that the rules give it:
    the exact value, or the error of the first step that fails, named by its operator. No result
    ever wraps, and where two values have a quotient and a remainder, these give back the
    dividend. -/
theorem evalTree_exact (host : Host σ β) (registry : Registry β)
    (hfunctional : ∀ f ∈ registry.functions, host.Functional f) :
    (∃ enough, ∀ fuel ≥ enough, ∀ (s : Session σ β) (e : Expr) (env : Env),
      s.vm.registry = registry → e.nesting ≤ s.vm.config.maxDepth →
      e.depth ≤ maxTreeDepth s.vm.config.maxDepth →
        ∃ r, ((host.perform fuel (.evalTree e env)).result s).1 = some r ∧
          ∀ r', Expr.Evaluates registry host.Yields env e r' ↔ r' = r.map Value.exact) ∧
    ∀ a b q r, Operator.div.eval a b = .ok q → Operator.mod.eval a b = .ok r →
      ∃ i j k l, a.exact.number? = some i ∧ b.exact.number? = some j ∧
        q.exact = .integer k ∧ r.exact = .integer l ∧ k * j + l = i := by
  constructor
  · obtain ⟨enough, hyields⟩ := exists_enough fun f hf => (hfunctional f hf).exists_yields
    refine ⟨enough, fun fuel hfuel s e env hs hnesting hdepth => ?_⟩
    rw [Expr.depth_eq_height] at hdepth
    obtain ⟨r, hresult, hr⟩ := evalTree_evaluates (hyields fuel hfuel) hs hnesting hdepth env
    have hunique : ∀ f args r r', host.Yields f args r → host.Yields f args r' → r = r' :=
      fun _ _ _ _ => Yields.unique s
    refine ⟨r, hresult, fun r' => ⟨fun h => Expr.Evaluates.unique hunique h hr, ?_⟩⟩
    rintro rfl
    exact hr
  · intro a b q r hq hr
    have hquotient := Operator.map_exact_eval .div a b
    have hremainder := Operator.map_exact_eval .mod a b
    rw [hq] at hquotient
    rw [hr] at hremainder
    exact Operator.div_mul_add_mod hquotient.symm hremainder.symm

/-! ## A sum that leaves the range and would come back -/

/-- The registry with `seven` alone. -/
def onlySeven : Registry Unit where
  functions := [seven]
  nodup := by simp

/-- `seven() + 9223372036854775807 - 7`. -/
def sevenAndBack : Expr :=
  .binary (.call "seven" []) .additive
    (.more .add (.number Int64.maxValue) (.one .sub (.number 7)))

theorem yields_seven : tally.Yields seven [] (.ok (.integer 7)) := by
  refine ⟨1, fun fuel hfuel => ?_⟩
  obtain ⟨fuel, rfl⟩ : ∃ n, fuel = n + 1 := ⟨fuel - 1, by omega⟩
  refine gives_of_runBody rfl fun answer s => ?_
  exact ⟨{ s with host := s.host + 1 }, rfl, rfl, trivial⟩

/-- The sum overflows, although the difference would be in range again. -/
theorem evalTree_exact_seven :
    (∀ f ∈ onlySeven.functions, tally.Functional f) ∧ sevenAndBack.nesting ≤ 1 ∧
      sevenAndBack.depth ≤ maxTreeDepth 1 ∧
      ∃ enough, ∀ fuel ≥ enough, ∀ s : Session Nat Unit, s.vm = .new onlySeven ⟨1, true⟩ →
        ((tally.perform fuel (.evalTree sevenAndBack .empty)).result s).1 =
          some (.error (.overflow "+")) := by
  have hfunctional : ∀ f ∈ onlySeven.functions, tally.Functional f := by
    intro f hf
    obtain rfl : f = seven := List.mem_singleton.1 hf
    exact functional_seven
  have hnesting : sevenAndBack.nesting ≤ 1 := by decide
  have hdepth : sevenAndBack.depth ≤ maxTreeDepth 1 := by decide
  obtain ⟨⟨enough, h⟩, -⟩ := evalTree_exact tally onlySeven hfunctional
  refine ⟨hfunctional, hnesting, hdepth, enough, fun fuel hfuel s hs => ?_⟩
  obtain ⟨r, hresult, hr⟩ := h fuel hfuel s sevenAndBack .empty (by rw [hs]; rfl)
    (by rw [hs]; exact hnesting) (by rw [hs]; exact hdepth)
  -- the call, then the first step of the run, which stops it
  have hcall : Expr.Evaluates onlySeven tally.Yields .empty (.call "seven" [])
      (.ok (.integer 7)) :=
    .call (.found rfl rfl) .nil yields_seven
  have hoverflow : Operator.add.exact (.integer 7) (.integer Int64.maxValue.toInt) =
      .error (.overflow "+") := rfl
  have hderived : Expr.Evaluates onlySeven tally.Yields .empty sevenAndBack
      (.error (.overflow "+")) :=
    .binary hcall (.stops (.number _) hoverflow)
  have hmap := (hr _).1 hderived
  cases r with
  | ok v => cases hmap
  | error error =>
      cases hmap
      exact hresult

end Host

end FormulaLang
