import FormulaLang.Proofs.Evaluation.Order

/-!
# `Session.Failure` — what fails leaves the evaluator as it was

A request may be given up at several places: in reading the source, in folding its tree, in
evaluating it, or because a name is taken or unknown. Each of these places comes before the first
change of the evaluator, except evaluation: by then the tree is in the cache, and there it stays.
So an error tells what has changed. After one of compiling nothing has, and after any other, as
after success, at most an entry for the source was added (`Vm.Leaves`). That the two kinds of
errors can be told apart needs that evaluation never reports an error of compiling.

All of this is about functions that do not call back: one that does may change whatever it likes
before it fails.

- **`compile_of_silent`**: how compiling ends.
- **`failures_leave_vm`**: what every request leaves of the evaluator if it fails.
-/

namespace FormulaLang
open Run

variable {σ β : Type}

/-- The error is that of a source that could not be parsed or folded. -/
def Error.IsOfCompiling : Error → Prop
  | .parse _ => True
  | .eval (.fold _) => True
  | .eval _ => False

/-! ## Errors of evaluation -/

section
variable {α : Type} {Allowed : Registry β → Prop} {maxDepth : Nat}

/-- No operation on values reports an error of compiling. -/
theorem ValueError.not_isOfCompiling {op : String} {x : Except ValueError α} {error : EvalError}
    (h : x.mapError (EvalError.ofValueError op) = .error error) :
    ¬ (Error.eval error).IsOfCompiling := by
  cases x with
  | ok a => cases h
  | error why =>
      obtain rfl := Except.error.inj h
      cases why <;> exact id

/-- Looking up a function does not report one either. -/
theorem Registry.not_isOfCompiling_of_resolve {registry : Registry β} {name : String} {found : Nat}
    {error : EvalError} (h : registry.resolve name found = .error error) :
    ¬ (Error.eval error).IsOfCompiling := by
  unfold Registry.resolve at h
  repeat' split at h
  all_goals
    cases h
    try exact id

theorem Step.Fails.not_isOfCompiling {step : Step} {error : EvalError}
    (h : step.Fails Allowed maxDepth error) : ¬ (Error.eval error).IsOfCompiling := by
  cases h with
  | level | enter | call => exact id
  | resolve _ missing => exact Registry.not_isOfCompiling_of_resolve missing
  | sign failed => exact ValueError.not_isOfCompiling failed
  | operator failed => exact ValueError.not_isOfCompiling failed

end

/-! ## What a request leaves -/

/-- The second evaluator is the first one with an entry for the source: the same, if it had one,
    and with exactly one entry more, if not. -/
inductive Vm.Caches (source : String) (vm : Vm β) : Vm β → Prop where
  | known {entry : Entry} (h : vm.cache.find? source = some entry) : Caches source vm vm
  | new (h : vm.cache.find? source = none) (tree : Expr) : Caches source vm { vm with
      cache := ⟨⟨vm.cache.next, source, tree⟩ :: vm.cache.entries, vm.cache.next + 1⟩ }

/-- What compiling or evaluating a source leaves of an evaluator, by its result. -/
structure Vm.Leaves {α : Type} (source : String) (vm : Vm β) (r : Except Error α) (vm' : Vm β) :
    Prop where
  /-- If the source could not be compiled, nothing has changed. -/
  failed : ∀ error, r = .error error → error.IsOfCompiling → vm' = vm
  /-- Otherwise it has an entry now, and nothing else has changed. -/
  cached : (∀ error, r = .error error → ¬ error.IsOfCompiling) → vm.Caches source vm'

/-- How compiling a source ends: with an error and nothing changed, or with the entry that the
    source has then. -/
def Vm.Compiles (source : String) (vm vm' : Vm β) : Except Error Entry → Prop
  | .error error => error.IsOfCompiling ∧ vm' = vm
  | .ok entry => vm.Caches source vm' ∧ vm'.cache.find? source = some entry

namespace Vm

variable {source : String} {vm vm' : Vm β}

/-- A tree is stored for a new source as one entry more. -/
theorem caches_store (tree : Expr) (h : vm.cache.find? source = none) :
    vm.Caches source (vm.store source tree).2 := by
  rw [store, Cache.store_of_find?_eq_none tree h]
  exact .new h tree

theorem find?_store (tree : Expr) :
    (vm.store source tree).2.cache.find? source = some (vm.store source tree).1 := by
  show (vm.cache.store source tree).2.find? source = _
  rw [Cache.find?_store, if_pos rfl]
  rfl

theorem compiles_store (tree : Expr) (h : vm.cache.find? source = none) :
    vm.Compiles source (vm.store source tree).2 (.ok (vm.store source tree).1) :=
  ⟨caches_store tree h, find?_store tree⟩

theorem Caches.registry (h : vm.Caches source vm') : vm'.registry = vm.registry := by
  cases h <;> rfl

theorem Leaves.of_failed {α : Type} {error : Error} (h : error.IsOfCompiling) :
    vm.Leaves source (.error error : Except Error α) vm :=
  ⟨fun _ _ _ => rfl, fun hother => absurd h (hother error rfl)⟩

theorem Compiles.leaves {r : Except Error Entry} (h : vm.Compiles source vm' r) :
    vm.Leaves source r vm' := by
  cases r with
  | error error =>
      obtain ⟨hcompiling, rfl⟩ := h
      exact .of_failed hcompiling
  | ok entry => exact ⟨fun _ herror _ => (nomatch herror), fun _ => h.1⟩

end Vm

/-! ## Requests to functions that do not call back -/

namespace Host

variable {host : Host σ β} {s : Session σ β} {source : String}

/-- Evaluation never reports an error of compiling, whatever the functions do. -/
theorem not_isOfCompiling_of_evalTree {fuel : Nat} {e : Expr} {env : Env} {s' : Session σ β}
    {error : EvalError}
    (hrun : (host.perform fuel (.evalTree e env)).run s = some (.error error, s')) :
    ¬ (Error.eval error).IsOfCompiling := by
  -- nothing has to be known of the registries on the way
  have hstays : ∀ registry : Registry β, True → ∀ f ∈ registry.functions,
      host.StaysIn (fun _ => True) f := by
    intro registry _ f _ fuel args t r t' _ _
    trivial
  obtain ⟨calls, hcourse⟩ := evalTree_course hstays trivial hrun
  cases hcourse.ended with
  | stopped _ _ _ fails => exact fails.not_isOfCompiling

section
variable (fuel : Nat) (hsilent : ∀ f ∈ s.vm.registry.functions, host.Silent f)
include hsilent

/-- Folding ends and leaves the evaluator as it was. -/
theorem fold_of_silent (maxDepth : Nat) (e : Expr) :
    ∃ r s', (e.fold (host.call (fuel + 1)) s.vm.registry maxDepth).run s = some (r, s') ∧
      s'.vm = s.vm := by
  have hcall : ∀ w name f values, s.vm.registry.get? name = some f → f.foldEligible = true →
      f.arity.accepts values.length = true →
      (totalLogic (· = s.vm)).Sat (host.call (fuel + 1) f values) w fun _ _ => True := by
    intro _ name f values hget _ _ t ht
    have hf := hsilent f (Registry.mem_of_get? hget)
    obtain ⟨r, state', hresult⟩ := hf.result_call values t.host
    obtain ⟨journal, hresult⟩ := hresult fuel t rfl
    exact ⟨r, _, run_eq_some_iff.2 hresult, ht, trivial⟩
  obtain ⟨r, s', hrun, hvm, -⟩ := (totalLogic (· = s.vm)).sat_fold (fun _ _ _ _ => True)
    (fun _ _ _ => le_rfl) hcall () maxDepth e s rfl
  exact ⟨r, s', hrun, hvm⟩

/-- The generation stays as it was while a tree is folded, so the first folded tree is kept. -/
theorem foldAndStore_of_silent (tree : Expr) (rounds : Nat)
    (hnew : s.vm.cache.find? source = none) :
    ∃ r s', (Session.foldAndStore (host.call (fuel + 1)) source tree (rounds + 1)).run s =
      some (r, s') ∧ s.vm.Compiles source s'.vm r := by
  obtain ⟨r, s₁, hrun, hvm⟩ := fold_of_silent fuel hsilent s.vm.config.maxDepth tree
  rw [run_eq_some_iff] at hrun
  simp only [run_eq_some_iff, Session.foldAndStore, result_get_bind]
  rw [result_bind, after, hrun]
  cases r with
  | error error =>
      exact ⟨_, s₁, rfl, trivial, hvm⟩
  | ok folded =>
      have hgeneration : s₁.vm.generation = s.vm.generation := by rw [hvm]
      simp only [result_get_bind, if_pos hgeneration]
      rw [result_bind, after, Session.result_store, hvm]
      exact ⟨_, _, rfl, Vm.compiles_store folded hnew⟩

/-- **Compiling ends, and keeps a tree exactly if it gives one.** -/
theorem compile_of_silent (source : String) (rounds : Nat) :
    ∃ r s', (Session.compile (host.call (fuel + 1)) (rounds + 1) source).run s = some (r, s') ∧
      s.vm.Compiles source s'.vm r := by
  cases hentry : s.vm.cache.find? source with
  | some entry =>
      simp only [run_eq_some_iff, Session.compile, result_get_bind, hentry]
      exact ⟨_, _, rfl, .known hentry, hentry⟩
  | none =>
      cases hparse : parse source s.vm.config.maxDepth with
      | error error =>
          simp only [run_eq_some_iff, Session.compile, result_get_bind, hentry, hparse]
          exact ⟨_, _, rfl, trivial, rfl⟩
      | ok tree =>
          by_cases hoptimize : s.vm.config.optimize = true
          · obtain ⟨r, s', hrun, h⟩ :=
              foldAndStore_of_silent fuel hsilent tree rounds hentry
            refine ⟨r, s', ?_, h⟩
            rw [run_eq_some_iff] at hrun ⊢
            simp only [Session.compile, result_get_bind, hentry, hparse, if_pos hoptimize, hrun]
          · simp only [run_eq_some_iff, Session.compile, result_get_bind, hentry, hparse,
              if_neg hoptimize]
            rw [result_bind, after, Session.result_store]
            exact ⟨_, _, rfl, Vm.compiles_store tree hentry⟩

/-- **Evaluating a source ends, and leaves the evaluator as compiling it does.** -/
theorem eval_of_silent (source : String) (env : Env) :
    ∃ r s', (host.perform (fuel + 1) (.eval source env)).run s = some (r, s') ∧
      s.vm.Leaves source r s'.vm := by
  obtain ⟨c, s₁, hcompile, hcompiles⟩ := compile_of_silent fuel hsilent source fuel
  rw [run_eq_some_iff] at hcompile
  cases c with
  | error error =>
      obtain ⟨herror, hvm⟩ := hcompiles
      refine ⟨.error error, s₁, run_eq_some_iff.2 ?_, hvm ▸ .of_failed herror⟩
      show (Session.eval _ _ _ _).result s = _
      rw [Session.eval, result_bind, after, hcompile]
      rfl
  | ok entry =>
      obtain ⟨hcaches, -⟩ := hcompiles
      have hsilent₁ : ∀ f ∈ s₁.vm.registry.functions, host.Silent f := by
        rw [hcaches.registry]
        exact hsilent
      obtain ⟨r, s₂, heval, hvm⟩ := evalTree_of_silent hsilent₁ entry.tree env
      have htree : (Session.evalTree (host.call (fuel + 1)) entry.tree env).result s₁ =
          (some r, s₂) := run_eq_some_iff.1 heval
      -- the tree is in the cache by now, whatever comes of it
      refine ⟨r.mapError .eval, s₂, run_eq_some_iff.2 ?_, ?_, fun _ => ?_⟩
      · show (Session.eval _ _ _ _).result s = _
        rw [Session.eval, result_bind, after, hcompile]
        dsimp only
        rw [result_bind, after, htree]
        cases r with
        | error error => rfl
        | ok v => rfl
      · intro error herror hcompiling
        cases r with
        | error why =>
            obtain rfl := Except.error.inj herror
            exact absurd hcompiling (not_isOfCompiling_of_evalTree heval)
        | ok v => cases herror
      · rw [hvm]
        exact hcaches

end

/-- Registering under a name that is taken fails and changes nothing. -/
theorem register_of_get? {fuel : Nat} {f first : Function β}
    (h : s.vm.registry.get? f.name = some first) :
    (host.perform fuel (.register f)).run s = some (.error (.alreadyRegistered f.name), s) := by
  have hcontains : s.vm.registry.contains f.name = true := by
    rw [Registry.contains, h]
    rfl
  exact run_eq_some_iff.2 (Session.result_register_of_error
    (Vm.register_eq_error_iff.2 ⟨hcontains, rfl⟩))

/-- A registration ends, and fails for no other reason. -/
theorem register_ends {fuel : Nat} (f : Function β) :
    ∃ r s', (host.perform fuel (.register f)).run s = some (r, s') ∧
      ∀ error, r = .error error → error = .alreadyRegistered f.name ∧ s' = s ∧
        ∃ first, s.vm.registry.get? f.name = some first := by
  cases hvm : s.vm.register f with
  | error error =>
      obtain ⟨hcontains, rfl⟩ := Vm.register_eq_error_iff.1 hvm
      obtain ⟨first, hfirst⟩ := Option.isSome_iff_exists.1 hcontains
      refine ⟨_, _, register_of_get? hfirst, ?_⟩
      rintro error ⟨⟩
      exact ⟨rfl, rfl, first, hfirst⟩
  | ok vm =>
      refine ⟨_, _, run_eq_some_iff.2 (Session.result_register_of_ok hvm), ?_⟩
      rintro error ⟨⟩

/-- **Failures leave the evaluator as it was.** Let no function of the registry call back. Then
    every request to compile or to evaluate ends. If the source cannot be parsed or folded, the
    evaluator is as it was; otherwise, whether the tree has a value or not, it is as it was but for
    one entry of the source, if there was none. Evaluating a tree changes nothing. Registering a
    function fails exactly if its name is taken, and changes nothing then, so that the name keeps
    the function that it has. Removing an unknown name changes nothing and finds nothing. -/
theorem failures_leave_vm (host : Host σ β) {fuel : Nat} (hfuel : 0 < fuel) (s : Session σ β)
    (hsilent : ∀ f ∈ s.vm.registry.functions, host.Silent f) :
    (∀ source, ∃ r s', (host.perform fuel (.compile source)).run s = some (r, s') ∧
      s.vm.Leaves source r s'.vm) ∧
    (∀ source env, ∃ r s', (host.perform fuel (.eval source env)).run s = some (r, s') ∧
      s.vm.Leaves source r s'.vm) ∧
    (∀ e env, ∃ r s', (host.perform fuel (.evalTree e env)).run s = some (r, s') ∧
      s'.vm = s.vm) ∧
    (∀ f, ∃ r s', (host.perform fuel (.register f)).run s = some (r, s') ∧
      ∀ error, r = .error error → error = .alreadyRegistered f.name ∧ s' = s ∧
        ∃ first, s.vm.registry.get? f.name = some first) ∧
    (∀ f first, s.vm.registry.get? f.name = some first →
      (host.perform fuel (.register f)).run s = some (.error (.alreadyRegistered f.name), s)) ∧
    ∀ name, s.vm.registry.get? name = none →
      (host.perform fuel (.remove name)).run s = some (false, s) := by
  obtain ⟨fuel, rfl⟩ : ∃ n, fuel = n + 1 := ⟨fuel - 1, by omega⟩
  refine ⟨fun source => ?_, eval_of_silent fuel hsilent, evalTree_of_silent hsilent, register_ends,
    fun f first => register_of_get?, fun name hname => ?_⟩
  · obtain ⟨r, s', hrun, hcompiles⟩ := compile_of_silent fuel hsilent source fuel
    exact ⟨r, s', hrun, hcompiles.leaves⟩
  · refine run_eq_some_iff.2 (Session.result_remove_of_not_contains ?_)
    rw [Registry.contains, hname]
    exact Bool.false_ne_true

/-- A new evaluator of one level with the builtins and `tick`. -/
def shallowTick : Session Nat Unit := ⟨.new builtinsAndTick ⟨1, true⟩, 0, []⟩

/-- `1/` cannot be parsed and leaves nothing behind, `1/0` has no value and leaves an entry, `tick`
    cannot be registered twice, and what was never registered cannot be removed. -/
theorem failures_leave_vm_tick :
    0 < 1 ∧ (∀ f ∈ shallowTick.vm.registry.functions, counter.Silent f) ∧
      (∃ error s', (counter.perform 1 (.eval "1/" .empty)).run shallowTick =
        some (.error (.parse error), s') ∧ s'.vm = shallowTick.vm) ∧
      (∃ s', (counter.perform 1 (.eval "1/0" .empty)).run shallowTick =
        some (.error (.eval (.divisionByZero "/")), s') ∧ shallowTick.vm.Caches "1/0" s'.vm) ∧
      (counter.perform 1 (.register tick)).run shallowTick =
        some (.error (.alreadyRegistered "tick"), shallowTick) ∧
      (counter.perform 1 (.remove "tock")).run shallowTick = some (false, shallowTick) := by
  have hfuel : 0 < 1 := by decide
  obtain ⟨-, heval, -, -, hregister, hremove⟩ :=
    failures_leave_vm counter hfuel shallowTick silent_builtinsAndTick
  refine ⟨hfuel, silent_builtinsAndTick, ?_, ?_, hregister tick tick rfl, hremove "tock" rfl⟩
  · have hresult : ((Session.eval (counter.call 1) 1 "1/" .empty).result shallowTick).1 =
        some (.error (.parse (.syntactic (.unexpectedEnd .expression)))) := by decide +kernel
    obtain ⟨r, s', hrun, hleaves⟩ := heval "1/" .empty
    obtain rfl := Option.some.inj
      (hresult.symm.trans (congrArg Prod.fst (run_eq_some_iff.1 hrun)))
    exact ⟨_, s', hrun, hleaves.failed _ rfl trivial⟩
  · have hresult : ((Session.eval (counter.call 1) 1 "1/0" .empty).result shallowTick).1 =
        some (.error (.eval (.divisionByZero "/"))) := by decide +kernel
    obtain ⟨r, s', hrun, hleaves⟩ := heval "1/0" .empty
    obtain rfl := Option.some.inj
      (hresult.symm.trans (congrArg Prod.fst (run_eq_some_iff.1 hrun)))
    refine ⟨s', hrun, hleaves.cached ?_⟩
    rintro error ⟨⟩
    exact id

end Host

end FormulaLang
