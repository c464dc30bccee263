import FormulaLang.Proofs.Folding.Preservation
import FormulaLang.Proofs.Function.Accumulation

/-!
# `Evaluation.Accumulation` — a sum or product called and spelled out

`add(x, y, z)` and `0 + x + y + z` go different ways: one looks a function up and hands it all values
at once, the other applies an operator to two values at a time. On integers both are at the same exact
value after each of them, so both have a value or neither has, and it is the same one. Only the call
is a group, and a group has to be allowed.

- **`accumulation_exact`**: what the builtin returns, and that the call and the run agree.
-/

namespace FormulaLang

namespace Accumulation

variable {a : Accumulation}

/-- The builtin as a registry holds it. -/
def function {β : Type} (a : Accumulation) : Function β :=
  ⟨a.builtin.name, true, a.builtin.callable⟩

/-- The call with variables as arguments. -/
def call (a : Accumulation) (xs : List String) : Expr := .call a.builtin.name (xs.map .variable)

/-- The run from the start over variables. -/
def chain (a : Accumulation) (xs : List String) : Expr :=
  .run (.number a.start) a.operator.priority (xs.map fun x => (a.operator, .variable x))

theorem get?_builtins {β : Type} (a : Accumulation) :
    (Registry.builtins : Registry β).get? a.builtin.name = some a.function := by
  cases a <;> rfl

/-! ## Operators on integers -/

theorem eval_integers (a : Accumulation) (m n : Int64) :
    a.operator.eval (.integer m) (.integer n) =
      match a.operator.checked? m n with
      | some k => .ok (.integer k)
      | none => .error (.overflow a.operator.symbol) := by
  have happly : a.operator.apply (.integer m) (.integer n) =
      Value.ofChecked a.operator.operation (a.operator.checked? m n) := by
    cases a <;> rfl
  rw [Operator.eval, happly]
  cases a.operator.checked? m n with
  | some k => rfl
  | none => rfl

/-- Applying the operator to one integer after the other has a value where the loop of the builtin
    has, and the same one. -/
theorem foldlM_eval_eq_ok_iff {values : List Value} (h : ∀ v ∈ values, v.kind = .integer)
    (i : Nat) (m : Int64) (v : Value) :
    values.foldlM a.operator.eval (.integer m) = .ok v ↔
      Builtin.combine a.builtin.name a.operator.checked? i m values = .ok v := by
  induction values generalizing i m with
  | nil =>
      constructor
      · rintro ⟨⟩
        rfl
      · rintro ⟨⟩
        rfl
  | cons w ws ih =>
      obtain ⟨hw, hws⟩ := List.forall_mem_cons.1 h
      obtain ⟨n, rfl⟩ := exists_integer_of_kind hw
      rw [List.foldlM_cons, eval_integers, combine_integer]
      cases a.operator.checked? m n with
      | some k => exact ih hws (i + 1) k
      | none =>
          constructor
          · rintro ⟨⟩
          · rintro ⟨⟩

/-! ## Evaluating both -/

theorem mapError_eq_ok_iff {ε ε' α : Type} {f : ε → ε'} {x : Except ε α} {b : α} :
    x.mapError f = .ok b ↔ x = .ok b := by
  cases x <;> simp [Except.mapError]

section
variable {m : Type → Type} [Monad m] {β : Type} {world : Surroundings m β}
variable {maxDepth : Nat} {env : Env} {depth : Depth}

theorem evalAt_variable (h : depth.levels < maxTreeDepth maxDepth) (x : String) :
    Expr.evalAt world maxDepth env depth (.variable x) = pure (env.get x) := by
  rw [Expr.evalAt, if_neg (Nat.not_le.2 h)]

variable [LawfulMonad m]

theorem evalArgs_variables (h : depth.levels < maxTreeDepth maxDepth) (xs : List String) :
    Expr.evalArgs world maxDepth env depth (xs.map .variable) = pure (xs.map env.get) := by
  induction xs with
  | nil => rfl
  | cons x xs ih =>
      rw [List.map_cons, Expr.evalArgs, evalAt_variable h, ih, pure_bind, pure_bind]
      rfl

/-- A run over variables applies its operator to their values. -/
theorem evalAt_variables (h : depth.levels < maxTreeDepth maxDepth) (op : Operator) (v : Value)
    (x : String) (xs : List String) :
    Operands.evalAt world maxDepth env depth v
        (.ofList op (.variable x) (xs.map fun x => (op, .variable x))) =
      liftExcept (((x :: xs).map env.get).foldlM op.eval v) := by
  induction xs generalizing x v with
  | nil =>
      rw [List.map_nil, Operands.ofList, Operands.evalAt, evalAt_variable h, pure_bind,
        List.map_cons, List.map_nil, List.foldlM_cons]
      cases op.eval v (env.get x) with
      | ok w => rfl
      | error e => rfl
  | cons y ys ih =>
      rw [List.map_cons, Operands.ofList, Operands.evalAt, evalAt_variable h, pure_bind,
        List.map_cons, List.foldlM_cons]
      cases op.eval v (env.get x) with
      | ok w =>
          rw [Expr.liftExcept_ok_bind]
          exact ih w y
      | error e => exact Expr.throw_bind e _

/-- Every limit allows the two levels of a run over variables. -/
theorem evalAt_chain (a : Accumulation) (xs : List String) :
    Expr.evalAt world maxDepth env .root (a.chain xs) =
      liftExcept ((xs.map env.get).foldlM a.operator.eval (.integer a.start)) := by
  have hroot : Depth.root.levels < maxTreeDepth maxDepth := maxTreeDepth_pos maxDepth
  have hdown : Depth.root.down.levels < maxTreeDepth maxDepth := by
    simp only [Depth.root, Depth.down, maxTreeDepth, levelsPerGroup, wordMax, UInt64.size]
    omega
  cases xs with
  | nil => exact Expr.evalAt_literal hroot rfl
  | cons x xs =>
      show Expr.evalAt world maxDepth env .root (.binary _ _ (.ofList _ _ _)) = _
      rw [Expr.evalAt_binary hroot, Expr.evalAt_literal hdown rfl, pure_bind]
      exact evalAt_variables hdown a.operator (.integer a.start) x xs

end

end Accumulation

/-! ## In a session -/

namespace Host
open Run Accumulation

variable {σ β : Type}

/-- A run over variables comes to what its operator makes of their values, and leaves no trace. -/
theorem result_chain (host : Host σ β) (a : Accumulation) (fuel : Nat) (s : Session σ β)
    (env : Env) (xs : List String) :
    (host.perform fuel (.evalTree (a.chain xs) env)).result s =
      (some ((xs.map env.get).foldlM a.operator.eval (.integer a.start)), s) := by
  rw [result_evalTree, evalAt_chain, result_liftExcept]

/-- A call of the builtin, where one group may be open, comes to what the builtin returns. -/
theorem result_accumulationCall (host : Host σ β) (a : Accumulation) (fuel : Nat)
    {s : Session σ β} (hget : s.vm.registry.get? a.builtin.name = some a.function)
    (hdepth : 0 < s.vm.config.maxDepth) (env : Env) (xs : List String) :
    ∃ s', (host.perform (fuel + 1) (.evalTree (a.call xs) env)).result s =
      (some ((a.builtin.result (xs.map env.get)).mapError (.call a.builtin.name)), s') := by
  have hroot : Depth.root.levels < maxTreeDepth s.vm.config.maxDepth := maxTreeDepth_pos _
  have hinside : Depth.levels ⟨1, 1⟩ < maxTreeDepth s.vm.config.maxDepth := by
    simp only [maxTreeDepth, levelsPerGroup, wordMax, UInt64.size]
    omega
  have henter : Depth.root.down.enter s.vm.config.maxDepth = .ok ⟨1, 1⟩ :=
    if_neg (Nat.not_le.2 hdepth)
  have hresolve : ((Session.surroundings (host.call (fuel + 1))).resolve a.builtin.name
      (xs.map Expr.variable).length).run.result s = (some (.ok a.function), s) := by
    rw [Session.result_resolve, Registry.resolve_eq_ok_iff.2 ⟨hget, ?_⟩]
    cases a <;> rfl
  obtain ⟨s', hcall⟩ : ∃ s', (host.call (fuel + 1) a.function (xs.map env.get)).result s =
      (some (a.builtin.result (xs.map env.get)), s') := by
    cases a with
    | sum => exact ⟨_, rfl⟩
    | product => exact ⟨_, rfl⟩
  refine ⟨s', ?_⟩
  rw [result_evalTree, Accumulation.call, Expr.evalAt_call hroot, henter, Expr.liftExcept_ok_bind,
    result_bind_of_ok hresolve, evalArgs_variables hinside, pure_bind, Surroundings.apply]
  refine (result_lift_bind hcall _).trans ?_
  cases a.builtin.result (xs.map env.get) with
  | ok v => rfl
  | error error => rfl

/-- **Sums and products of any number of integers are exact.** Without an argument that ends the
    loop, the builtin returns the exact value of all of them, and otherwise the first such argument
    says what the error is. Where the builtin is registered and one group may be open, a call of it
    with variables that are bound to integers has a value exactly when the run over these variables
    has, and the same one. -/
theorem accumulation_exact (host : Host σ β) (a : Accumulation) :
    (∀ args, (∀ i, ¬ a.StopsAt args i) →
      (a.builtin.result args).map Value.exact = .ok (.integer (a.exact (integers args)))) ∧
    (∀ args i v, args[i]? = some v → a.StopsAt args i → (∀ j < i, ¬ a.StopsAt args j) →
      a.builtin.result args = .error (a.fault i v)) ∧
    ∀ fuel (s : Session σ β) env xs, s.vm.registry.get? a.builtin.name = some a.function →
      0 < s.vm.config.maxDepth → (∀ x ∈ xs, (env.get x).kind = .integer) →
      ∃ called spelled s',
        (host.perform (fuel + 1) (.evalTree (a.call xs) env)).run s = some (called, s') ∧
        (host.perform fuel (.evalTree (a.chain xs) env)).run s = some (spelled, s) ∧
        ∀ v, called = .ok v ↔ spelled = .ok v := by
  refine ⟨fun args => result_of_no_stop, fun args i v hv => result_of_first_stop hv, ?_⟩
  intro fuel s env xs hget hdepth hintegers
  obtain ⟨s', hcalled⟩ := host.result_accumulationCall a fuel hget hdepth env xs
  refine ⟨_, _, s', run_eq_some_iff.2 hcalled,
    run_eq_some_iff.2 (host.result_chain a fuel s env xs), fun v => ?_⟩
  have hkinds : ∀ w ∈ xs.map env.get, w.kind = .integer := by
    intro w hw
    obtain ⟨x, hx, rfl⟩ := List.mem_map.1 hw
    exact hintegers x hx
  calc (a.builtin.result (xs.map env.get)).mapError (EvalError.call a.builtin.name) = .ok v
    _ ↔ a.builtin.result (xs.map env.get) = .ok v := mapError_eq_ok_iff
    _ ↔ Builtin.combine a.builtin.name a.operator.checked? 0 a.start (xs.map env.get) = .ok v := by
      rw [result_eq]
    _ ↔ (xs.map env.get).foldlM a.operator.eval (.integer a.start) = .ok v :=
      (foldlM_eval_eq_ok_iff hkinds 0 a.start v).symm

/-! ## Around the end of the range -/

/-- The host without code of its own. -/
def codeless : Host Unit Empty := ⟨nofun⟩

/-- An evaluator with the builtins where the given number of groups may be open. -/
def builtinSession (maxDepth : Nat) : Session Unit Empty :=
  ⟨.new .builtins ⟨maxDepth, true⟩, (), []⟩

/-- `x` at the largest integer, `y` at one and `z` at minus one. -/
def aroundLargest : Env :=
  ((Env.empty.bind "x" (.integer Int64.maxValue)).bind "y" (.integer 1)).bind "z" (.integer (-1))

/-- Once `y` has taken a sum beyond the largest integer, `z` does not bring it back; with `z` before
    `y` the sum is exact, and call and run agree. -/
theorem accumulation_exact_around_largest :
    Accumulation.sum.StopsAt [.integer Int64.maxValue, .integer 1, .integer (-1)] 1 ∧
      Builtin.add.result [.integer Int64.maxValue, .integer 1, .integer (-1)] =
        .error (.overflow "add") ∧
      (∀ i, ¬ Accumulation.sum.StopsAt [.integer Int64.maxValue, .integer (-1), .integer 1] i) ∧
      (Builtin.add.result [.integer Int64.maxValue, .integer (-1), .integer 1]).map Value.exact =
        .ok (.integer Int64.maxValue.toInt) ∧
      (∀ x ∈ ["x", "z", "y"], (aroundLargest.get x).kind = .integer) ∧
      ∃ s',
        (codeless.perform 1 (.evalTree (Accumulation.sum.call ["x", "z", "y"]) aroundLargest)).run
          (builtinSession 1) = some (.ok (.integer Int64.maxValue), s') ∧
        (codeless.perform 0 (.evalTree (Accumulation.sum.chain ["x", "z", "y"]) aroundLargest)).run
          (builtinSession 1) = some (.ok (.integer Int64.maxValue), builtinSession 1) := by
  have hstop : Accumulation.sum.StopsAt
      [.integer Int64.maxValue, .integer 1, .integer (-1)] 1 := by decide
  have hgoesOn : ∀ i, ¬ Accumulation.sum.StopsAt
      [.integer Int64.maxValue, .integer (-1), .integer 1] i :=
    not_stopsAt_of_forall_lt (by decide)
  have hintegers : ∀ x ∈ ["x", "z", "y"], (aroundLargest.get x).kind = .integer := by decide
  obtain ⟨hexact, hfirst, hagree⟩ := codeless.accumulation_exact .sum
  obtain ⟨called, spelled, s', hcalled, hspelled, hiff⟩ :=
    hagree 0 (builtinSession 1) aroundLargest ["x", "z", "y"] (get?_builtins .sum) Nat.one_pos
      hintegers
  have hvalue : (codeless.perform 0
      (.evalTree (Accumulation.sum.chain ["x", "z", "y"]) aroundLargest)).run (builtinSession 1) =
        some (.ok (.integer Int64.maxValue), builtinSession 1) := rfl
  have hsame : spelled = .ok (.integer Int64.maxValue) :=
    congrArg Prod.fst (Option.some.inj (hspelled.symm.trans hvalue))
  rw [(hiff _).2 hsame] at hcalled
  exact ⟨hstop, hfirst _ 1 (.integer 1) rfl hstop (by decide), hgoesOn, hexact _ hgoesOn, hintegers, s',
    hcalled, hvalue⟩

/-- Where no group may be open, a call of the builtin is refused, although the run has a value. -/
theorem accumulation_call_refused :
    (builtinSession 0).vm.registry.get? "add" = some Accumulation.sum.function ∧
      aroundLargest.get "x" = .integer Int64.maxValue ∧
      (codeless.perform 1 (.evalTree (Accumulation.sum.call ["x"]) aroundLargest)).run
        (builtinSession 0) = some (.error (.depthLimitExceeded 0), builtinSession 0) ∧
      (codeless.perform 1 (.evalTree (Accumulation.sum.chain ["x"]) aroundLargest)).run
        (builtinSession 0) = some (.ok (.integer Int64.maxValue), builtinSession 0) :=
  ⟨rfl, rfl, rfl, rfl⟩

end Host

end FormulaLang
