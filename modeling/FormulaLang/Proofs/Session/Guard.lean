import FormulaLang.Proofs.Expr.Limits
import FormulaLang.Proofs.Folding.Preservation
import FormulaLang.Proofs.Session.InStep
import FormulaLang.Proofs.Session.Silence
import FormulaLang.Proofs.Session.Transparency

/-!
# `Session.Guard` — the limit on depth is a guard and nothing else

Parsing, folding and evaluation count depth each in a way of its own, and every count is compared
with the limit and used for nothing else. So two runs under different limits go in step until the
smaller limit stops the one: they make the same calls, in the same order, and the host passes
through the same states. What the functions are told does not depend on the limit either, as long as
they do not call back; one that does can ask the evaluator for something that the limit decides.

What is kept is `StopOrAgree` (`Session.InStep`): the first run is stopped by its limit, or both
have the same result and leave sessions that are related again.

- **`limit_is_guard`**: parsing, folding and evaluation come to the same under every larger limit.
-/

namespace FormulaLang

variable {σ β : Type}

/-- The error is that of too many levels. -/
def FoldError.IsLimit : FoldError → Prop
  | .depthLimitExceeded _ => True
  | .call _ _ => False

/-- The error is that of a limit on depth, in whichever stage. -/
def Error.IsLimit : Error → Prop
  | .parse error => error.IsLimit
  | .eval error => error.IsDepthLimit

open Run

/-! ## Trees -/

section
variable {Same : Session σ β → Session σ β → Prop} {call : Caller (Run σ β) β}
variable {registry : Registry β} {d d' : Nat} {env : Env}

/-- Functions of the registry end together where they are called in sessions of the relation. -/
def CallsEndTogether (Same : Session σ β → Session σ β → Prop) (registry : Registry β)
    (call : Caller (Run σ β) β) : Prop :=
  ∀ name f, registry.get? name = some f → ∀ values,
    EndTogether Same Same (call f values) (call f values)

theorem foldCall_stopOrAgree (hcall : CallsEndTogether Same registry call) (name : String)
    (ts : List Expr) :
    StopOrAgree Same Same FoldError.IsLimit (foldCall call registry name ts).run
      (foldCall call registry name ts).run := by
  by_cases hconstant : ∃ f values, ConstantCall registry name ts f values
  · obtain ⟨f, values, hconstant⟩ := hconstant
    rw [foldCall_of_constant hconstant]
    refine StopOrAgree.lift (hcall name f hconstant.get values) fun r => ?_
    cases r with
    | error error => exact .same _
    | ok v => exact .same _
  · rw [foldCall_of_not_constant fun f values h => hconstant ⟨f, values, h⟩]
    exact .same _

/-- Both sides find the same function of the registry. -/
theorem resolve_stopOrAgree
    (hregistry : ∀ s s', Same s s' → s.vm.registry = registry ∧ s'.vm.registry = registry)
    {α : Type} {name : String} {found : Nat} {k k' : Function β → ExceptT EvalError (Run σ β) α}
    (hk : ∀ f, registry.get? name = some f →
      StopOrAgree Same Same EvalError.IsDepthLimit (k f).run (k' f).run) :
    StopOrAgree Same Same EvalError.IsDepthLimit
      ((Session.surroundings call).resolve name found >>= k).run
      ((Session.surroundings call).resolve name found >>= k').run := by
  have hresolve : EndTogether Same Same ((Session.surroundings call).resolve name found).run
      ((Session.surroundings call).resolve name found).run := by
    intro s s' hsame
    obtain ⟨hs, hs'⟩ := hregistry s s' hsame
    rw [after, after, Session.result_resolve, Session.result_resolve, hs, hs']
    exact ⟨registry.resolve name found, rfl, rfl, hsame⟩
  refine StopOrAgree.bindE hresolve.stopOrAgree fun s s' f hsame hf => ?_
  rw [Session.result_resolve, (hregistry s s' hsame).1, Option.some.injEq,
    Registry.resolve_eq_ok_iff] at hf
  exact hk f hf.1

theorem apply_stopOrAgree {f : Function β} {values : List Value}
    (hcall : EndTogether Same Same (call f values) (call f values)) (name : String) :
    StopOrAgree Same Same EvalError.IsDepthLimit
      ((Session.surroundings call).apply name f values).run
      ((Session.surroundings call).apply name f values).run := by
  refine StopOrAgree.lift hcall fun r => ?_
  cases r with
  | ok v => exact .same _
  | error error => exact .same _

/-- With the larger limit a group may be opened wherever it may with the smaller one. -/
theorem enter_stopOrAgree (hd : d ≤ d') {α : Type} {depth : Depth}
    {k k' : Depth → ExceptT EvalError (Run σ β) α}
    (hk : ∀ inside, StopOrAgree Same Same EvalError.IsDepthLimit (k inside).run (k' inside).run) :
    StopOrAgree Same Same EvalError.IsDepthLimit (liftExcept (depth.enter d) >>= k).run
      (liftExcept (depth.enter d') >>= k').run := by
  by_cases hgroups : d ≤ depth.groups
  · have henter : depth.enter d = .error (.depthLimitExceeded d) := by
      rw [Depth.enter, if_pos hgroups]
    rw [henter]
    exact .stops trivial _
  · have hgroups' : ¬ d' ≤ depth.groups := by omega
    have hsame : depth.enter d = depth.enter d' := by
      rw [Depth.enter, Depth.enter, if_neg hgroups, if_neg hgroups']
    rw [hsame]
    exact StopOrAgree.seqE (.ofExcept _) hk

mutual

/-- **In folding the limit is a guard and nothing else.** -/
theorem Expr.foldAt_stopOrAgree (hd : d ≤ d') (hcall : CallsEndTogether Same registry call)
    (level : Nat) (e : Expr) :
    StopOrAgree Same Same FoldError.IsLimit (Expr.foldAt call registry d level e).run
      (Expr.foldAt call registry d' level e).run := by
  rw [Expr.foldAt.eq_def, Expr.foldAt.eq_def]
  by_cases hlevel : maxTreeDepth d ≤ level
  · rw [if_pos hlevel]
    exact .stops trivial _
  have hlevel' : ¬ maxTreeDepth d' ≤ level := by
    have := maxTreeDepth_mono hd
    omega
  rw [if_neg hlevel, if_neg hlevel']
  cases e with
  | empty | number | string | «variable» => exact .same _
  | unary sign e =>
      refine StopOrAgree.seqE (Expr.foldAt_stopOrAgree hd hcall (level + 1) e) fun t => ?_
      exact .same _
  | binary e p os =>
      refine StopOrAgree.seqE (Expr.foldAt_stopOrAgree hd hcall (level + 1) e) fun t => ?_
      refine StopOrAgree.seqE (Operands.foldAt_stopOrAgree hd hcall (level + 1) os) fun ts => ?_
      exact .same _
  | call name es =>
      refine StopOrAgree.seqE (Expr.foldArgs_stopOrAgree hd hcall (level + 1) es) fun ts => ?_
      exact foldCall_stopOrAgree hcall name ts
  | group e =>
      refine StopOrAgree.seqE (Expr.foldAt_stopOrAgree hd hcall (level + 1) e) fun t => ?_
      exact .same _

theorem Operands.foldAt_stopOrAgree (hd : d ≤ d') (hcall : CallsEndTogether Same registry call)
    (level : Nat) (os : Operands) :
    StopOrAgree Same Same FoldError.IsLimit (Operands.foldAt call registry d level os).run
      (Operands.foldAt call registry d' level os).run := by
  cases os with
  | one op e =>
      refine StopOrAgree.seqE (Expr.foldAt_stopOrAgree hd hcall level e) fun t => ?_
      exact .same _
  | more op e os =>
      refine StopOrAgree.seqE (Expr.foldAt_stopOrAgree hd hcall level e) fun t => ?_
      refine StopOrAgree.seqE (Operands.foldAt_stopOrAgree hd hcall level os) fun ts => ?_
      exact .same _

theorem Expr.foldArgs_stopOrAgree (hd : d ≤ d') (hcall : CallsEndTogether Same registry call)
    (level : Nat) (es : List Expr) :
    StopOrAgree Same Same FoldError.IsLimit (Expr.foldArgs call registry d level es).run
      (Expr.foldArgs call registry d' level es).run := by
  cases es with
  | nil => exact .same _
  | cons e es =>
      refine StopOrAgree.seqE (Expr.foldAt_stopOrAgree hd hcall level e) fun t => ?_
      refine StopOrAgree.seqE (Expr.foldArgs_stopOrAgree hd hcall level es) fun ts => ?_
      exact .same _

end

mutual

/-- **In evaluation the limit is a guard and nothing else.** -/
theorem Expr.evalAt_stopOrAgree (hd : d ≤ d') (hcall : CallsEndTogether Same registry call)
    (hregistry : ∀ s s', Same s s' → s.vm.registry = registry ∧ s'.vm.registry = registry)
    (depth : Depth) (e : Expr) :
    StopOrAgree Same Same EvalError.IsDepthLimit
      (Expr.evalAt (Session.surroundings call) d env depth e).run
      (Expr.evalAt (Session.surroundings call) d' env depth e).run := by
  by_cases hlevel : maxTreeDepth d ≤ depth.levels
  · rw [Expr.evalAt.eq_def, if_pos hlevel]
    exact .stops trivial _
  have hlt : depth.levels < maxTreeDepth d := Nat.lt_of_not_le hlevel
  have hlt' : depth.levels < maxTreeDepth d' := Nat.lt_of_lt_of_le hlt (maxTreeDepth_mono hd)
  cases e with
  | empty | number | string | «variable» =>
      rw [Expr.evalAt.eq_def, Expr.evalAt.eq_def, if_neg hlevel, if_neg (Nat.not_le.2 hlt')]
      exact .same _
  | unary sign e =>
      rw [Expr.evalAt_unary hlt, Expr.evalAt_unary hlt']
      refine StopOrAgree.seqE (Expr.evalAt_stopOrAgree hd hcall hregistry depth.down e) fun v => ?_
      exact .ofExcept _
  | binary e p os =>
      rw [Expr.evalAt_binary hlt, Expr.evalAt_binary hlt']
      refine StopOrAgree.seqE (Expr.evalAt_stopOrAgree hd hcall hregistry depth.down e) fun v => ?_
      exact Operands.evalAt_stopOrAgree hd hcall hregistry depth.down v os
  | call name es =>
      rw [Expr.evalAt_call hlt, Expr.evalAt_call hlt']
      refine enter_stopOrAgree hd fun inside => ?_
      refine resolve_stopOrAgree hregistry fun f hget => ?_
      refine StopOrAgree.seqE (Expr.evalArgs_stopOrAgree hd hcall hregistry inside es) ?_
      intro values
      exact apply_stopOrAgree (hcall name f hget values) name
  | group e =>
      rw [Expr.evalAt_group hlt, Expr.evalAt_group hlt']
      refine enter_stopOrAgree hd fun inside => ?_
      exact Expr.evalAt_stopOrAgree hd hcall hregistry inside e

theorem Operands.evalAt_stopOrAgree (hd : d ≤ d') (hcall : CallsEndTogether Same registry call)
    (hregistry : ∀ s s', Same s s' → s.vm.registry = registry ∧ s'.vm.registry = registry)
    (depth : Depth) (left : Value) (os : Operands) :
    StopOrAgree Same Same EvalError.IsDepthLimit
      (Operands.evalAt (Session.surroundings call) d env depth left os).run
      (Operands.evalAt (Session.surroundings call) d' env depth left os).run := by
  cases os with
  | one op e =>
      refine StopOrAgree.seqE (Expr.evalAt_stopOrAgree hd hcall hregistry depth e) fun right => ?_
      exact .ofExcept _
  | more op e os =>
      refine StopOrAgree.seqE (Expr.evalAt_stopOrAgree hd hcall hregistry depth e) fun right => ?_
      refine StopOrAgree.seqE (.ofExcept _) fun v => ?_
      exact Operands.evalAt_stopOrAgree hd hcall hregistry depth v os

theorem Expr.evalArgs_stopOrAgree (hd : d ≤ d') (hcall : CallsEndTogether Same registry call)
    (hregistry : ∀ s s', Same s s' → s.vm.registry = registry ∧ s'.vm.registry = registry)
    (depth : Depth) (es : List Expr) :
    StopOrAgree Same Same EvalError.IsDepthLimit
      (Expr.evalArgs (Session.surroundings call) d env depth es).run
      (Expr.evalArgs (Session.surroundings call) d' env depth es).run := by
  cases es with
  | nil => exact .same _
  | cons e es =>
      refine StopOrAgree.seqE (Expr.evalAt_stopOrAgree hd hcall hregistry depth e) fun v => ?_
      refine StopOrAgree.seqE (Expr.evalArgs_stopOrAgree hd hcall hregistry depth es) fun vs => ?_
      exact .same _

end

end

/-! ## Evaluators that differ in the limit -/

/-- The evaluator with another limit on depth. -/
def Vm.withMaxDepth (vm : Vm β) (maxDepth : Nat) : Vm β :=
  { vm with config := { vm.config with maxDepth } }

@[simp] theorem Vm.registry_withMaxDepth (vm : Vm β) (maxDepth : Nat) :
    (vm.withMaxDepth maxDepth).registry = vm.registry := rfl

@[simp] theorem Vm.cache_withMaxDepth (vm : Vm β) (maxDepth : Nat) :
    (vm.withMaxDepth maxDepth).cache = vm.cache := rfl

@[simp] theorem Vm.maxDepth_withMaxDepth (vm : Vm β) (maxDepth : Nat) :
    (vm.withMaxDepth maxDepth).config.maxDepth = maxDepth := rfl

@[simp] theorem Vm.optimize_withMaxDepth (vm : Vm β) (maxDepth : Nat) :
    (vm.withMaxDepth maxDepth).config.optimize = vm.config.optimize := rfl

/-- The first evaluator has the registry and the settings of `vm`, and the second one differs from
    it in the limit alone; the hosts are in the same state. -/
structure Session.Counterparts (vm : Vm β) (d' : Nat) (s s' : Session σ β) : Prop where
  registry : s.vm.registry = vm.registry
  config : s.vm.config = vm.config
  other : s'.vm = s.vm.withMaxDepth d'
  host : s.host = s'.host

theorem Session.Beside.counterparts {vm : Vm β} {d' : Nat} {s s' : Session σ β}
    (h : Session.Beside vm (vm.withMaxDepth d') s s') : Session.Counterparts vm d' s s' := by
  obtain ⟨rfl, hright, hhost⟩ := h
  exact ⟨rfl, rfl, hright, hhost⟩

namespace Host

variable {host : Host σ β} {registry : Registry β} {d d' fuel : Nat} {vm vm' : Vm β}

/-- A silent function does not see which evaluator calls it. -/
theorem Silent.endTogether {f : Function β} (h : host.Silent f) (args : List Value) :
    EndTogether (Session.Beside vm vm') (Session.Beside vm vm') (host.call (fuel + 1) f args)
      (host.call (fuel + 1) f args) := by
  rintro s s' ⟨hleft, hright, hhost⟩
  obtain ⟨r, state, hresult⟩ := h.result_call args s.host
  obtain ⟨journal, hs⟩ := hresult fuel s rfl
  obtain ⟨journal', hs'⟩ := hresult fuel s' hhost.symm
  rw [after, after, hs, hs']
  exact ⟨r, rfl, rfl, hleft, hright, rfl⟩

/-! ### Trees -/

theorem fold_stopOrAgree (hd : d ≤ d') (hsilent : ∀ f ∈ registry.functions, host.Silent f)
    (e : Expr) :
    StopOrAgree (Session.Beside vm vm') (Session.Beside vm vm') FoldError.IsLimit
      (e.fold (host.call (fuel + 1)) registry d) (e.fold (host.call (fuel + 1)) registry d') :=
  Expr.foldAt_stopOrAgree hd
    (fun _ f hget => (hsilent f (Registry.mem_of_get? hget)).endTogether) 0 e

theorem evalTree_stopOrAgree (hd : vm.config.maxDepth ≤ vm'.config.maxDepth)
    (hsilent : ∀ f ∈ vm.registry.functions, host.Silent f) (hregistry : vm'.registry = vm.registry)
    (e : Expr) (env : Env) :
    StopOrAgree (Session.Beside vm vm') (Session.Beside vm vm') EvalError.IsDepthLimit
      (Session.evalTree (host.call (fuel + 1)) e env)
      (Session.evalTree (host.call (fuel + 1)) e env) := by
  have hfound : ∀ s s' : Session σ β, Session.Beside vm vm' s s' →
      s.vm.registry = vm.registry ∧ s'.vm.registry = vm.registry := by
    rintro s s' ⟨rfl, rfl, -⟩
    exact ⟨rfl, hregistry⟩
  rw [Session.evalTree]
  refine StopOrAgree.look (fun _ _ h => h.host) ?_
  rintro s s' ⟨rfl, rfl, -⟩
  exact Expr.evalAt_stopOrAgree hd
    (fun _ f hget => (hsilent f (Registry.mem_of_get? hget)).endTogether) hfound .root e

/-! ### Sources -/

theorem record_endTogether (event : Event β) :
    EndTogether (Session.Beside (σ := σ) vm vm') (Session.Beside vm vm') (Session.record event)
      (Session.record event) := by
  rintro s s' ⟨hleft, hright, hhost⟩
  rw [after, after, result_record, result_record]
  exact ⟨(), rfl, rfl, hleft, hright, hhost⟩

/-- Both evaluators keep the same entry. -/
theorem store_stopOrAgree (source : String) (tree : Expr) (against : Option (Registry β)) :
    StopOrAgree (Session.Beside vm (vm.withMaxDepth d')) (Session.Counterparts vm d')
      Error.IsLimit (do return .ok (← Session.store source tree against) : Run σ β _)
      (do return .ok (← Session.store source tree against)) := by
  have hstore : EndTogether (Session.Beside (σ := σ) vm (vm.withMaxDepth d'))
      (Session.Counterparts vm d') (Session.store source tree against)
      (Session.store source tree against) := by
    rintro s s' ⟨rfl, hright, hhost⟩
    rw [after, after, Session.result_store, Session.result_store, hright]
    exact ⟨(s.vm.store source tree).1, rfl, rfl, rfl, rfl, rfl, hhost⟩
  exact hstore.bind fun entry => .same (.ok entry)

section
variable (hd : vm.config.maxDepth ≤ d') (hsilent : ∀ f ∈ vm.registry.functions, host.Silent f)
include hd hsilent

/-- Silent functions leave the registry as it was, so a tree is folded once. -/
theorem foldAndStore_stopOrAgree (source : String) (tree : Expr) (rounds : Nat) :
    StopOrAgree (Session.Beside vm (vm.withMaxDepth d')) (Session.Counterparts vm d')
      Error.IsLimit (Session.foldAndStore (host.call (fuel + 1)) source tree (rounds + 1))
      (Session.foldAndStore (host.call (fuel + 1)) source tree (rounds + 1)) := by
  rw [Session.foldAndStore]
  refine StopOrAgree.look (fun _ _ h => h.host) ?_
  rintro s s' ⟨rfl, hright, -⟩
  rw [hright]
  refine StopOrAgree.bind (fold_stopOrAgree hd hsilent tree) ?_ fun _ _ r _ _ => ?_
  · intro error hlimit
    have hstop : Error.IsLimit (.eval (.fold error)) := by
      cases error with
      | call name why => exact hlimit
      | depthLimitExceeded limit => exact trivial
    exact ⟨.eval (.fold error), hstop, rfl⟩
  · cases r with
    | error error => exact (StopOrAgree.same _).mono fun _ _ => Session.Beside.counterparts
    | ok folded =>
        refine StopOrAgree.look (fun _ _ h => h.host) ?_
        rintro t t' ⟨hleft, hright', -⟩
        have hsame : t.vm.generation = s.vm.generation := by rw [hleft]
        have hsame' : t'.vm.generation = (s.vm.withMaxDepth d').generation := by rw [hright']
        rw [if_pos hsame, if_pos hsame', hleft, hright']
        exact store_stopOrAgree source folded (some s.vm.registry)

theorem compile_stopOrAgree (source : String) (rounds : Nat) :
    StopOrAgree (Session.Beside vm (vm.withMaxDepth d')) (Session.Counterparts vm d')
      Error.IsLimit (Session.compile (host.call (fuel + 1)) (rounds + 1) source)
      (Session.compile (host.call (fuel + 1)) (rounds + 1) source) := by
  rw [Session.compile]
  refine StopOrAgree.look (fun _ _ h => h.host) ?_
  rintro s s' ⟨rfl, hright, -⟩
  rw [hright]
  dsimp only
  rw [Vm.cache_withMaxDepth, Vm.maxDepth_withMaxDepth, Vm.optimize_withMaxDepth]
  cases s.vm.cache.find? source with
  | some entry =>
      refine (record_endTogether _).bind fun _ => ?_
      exact (StopOrAgree.same _).mono fun _ _ => Session.Beside.counterparts
  | none =>
      dsimp only
      rcases parse_guarded hd source with ⟨error, hlimit, herror⟩ | hsame
      · have hstop : Error.IsLimit (.parse error) := hlimit
        rw [herror]
        exact .stops hstop _
      · rw [hsame]
        cases parse source s.vm.config.maxDepth with
        | error error => exact (StopOrAgree.same _).mono fun _ _ => Session.Beside.counterparts
        | ok tree =>
            dsimp only
            by_cases hoptimize : s.vm.config.optimize = true
            · rw [if_pos hoptimize]
              exact foldAndStore_stopOrAgree hd hsilent source tree rounds
            · rw [if_neg hoptimize]
              exact store_stopOrAgree source tree none

/-- **In evaluating a source the limit is a guard and nothing else.** -/
theorem eval_stopOrAgree (source : String) (env : Env) (rounds : Nat) :
    StopOrAgree (Session.Beside vm (vm.withMaxDepth d')) (Session.Counterparts vm d')
      Error.IsLimit (Session.eval (host.call (fuel + 1)) (rounds + 1) source env)
      (Session.eval (host.call (fuel + 1)) (rounds + 1) source env) := by
  rw [Session.eval]
  refine StopOrAgree.bind (compile_stopOrAgree hd hsilent source rounds) ?_ fun _ _ r _ _ => ?_
  · intro error hlimit
    exact ⟨error, hlimit, rfl⟩
  cases r with
  | error error => exact .same _
  | ok entry =>
      have htree : StopOrAgree (Session.Counterparts vm d') (Session.Counterparts vm d')
          EvalError.IsDepthLimit (Session.evalTree (host.call (fuel + 1)) entry.tree env)
          (Session.evalTree (host.call (fuel + 1)) entry.tree env) := by
        rintro s s' ⟨hregistry, hconfig, hother, hhost⟩
        have hs : StopOrAgree (Session.Beside s.vm (s.vm.withMaxDepth d'))
            (Session.Beside s.vm (s.vm.withMaxDepth d')) EvalError.IsDepthLimit
            (Session.evalTree (host.call (fuel + 1)) entry.tree env)
            (Session.evalTree (host.call (fuel + 1)) entry.tree env) := by
          refine evalTree_stopOrAgree ?_ ?_ ?_ entry.tree env
          · simpa [hconfig] using hd
          · simpa [hregistry] using hsilent
          · rfl
        refine hs.mono ?_ s s' ⟨rfl, hother, hhost⟩
        rintro t t' ⟨hleft, hright, hhost'⟩
        exact ⟨hleft ▸ hregistry, hleft ▸ hconfig, hleft ▸ hright, hhost'⟩
      refine StopOrAgree.bind htree ?_ fun _ _ r _ _ => ?_
      · intro error hlimit
        exact ⟨.eval error, hlimit, rfl⟩
      · cases r with
        | error error => exact .same _
        | ok v => exact .same _

end

/-! ### Both ends -/

theorem fold_guarded (hd : d ≤ d') (hsilent : ∀ f ∈ registry.functions, host.Silent f) (e : Expr)
    {s s' : Session σ β} (hhost : s.host = s'.host) :
    ∃ r r', ((e.fold (host.call (fuel + 1)) registry d).result s).1 = some r ∧
      ((e.fold (host.call (fuel + 1)) registry d').result s').1 = some r' ∧
      Guarded FoldError.IsLimit r r' := by
  have hboth : StopOrAgree (Session.Beside s.vm s'.vm) (Session.Beside s.vm s'.vm)
      FoldError.IsLimit (e.fold (host.call (fuel + 1)) registry d)
      (e.fold (host.call (fuel + 1)) registry d') := fold_stopOrAgree hd hsilent e
  have hself : StopOrAgree (Session.Beside s'.vm s'.vm) (Session.Beside s'.vm s'.vm)
      FoldError.IsLimit (e.fold (host.call (fuel + 1)) registry d')
      (e.fold (host.call (fuel + 1)) registry d') := fold_stopOrAgree (Nat.le_refl d') hsilent e
  exact hboth.guarded hself ⟨rfl, rfl, hhost⟩ ⟨rfl, rfl, rfl⟩

theorem evalTree_guarded {s s' : Session σ β} (hhost : s.host = s'.host)
    (hd : s.vm.config.maxDepth ≤ s'.vm.config.maxDepth)
    (hsilent : ∀ f ∈ s.vm.registry.functions, host.Silent f)
    (hregistry : s'.vm.registry = s.vm.registry) (e : Expr) (env : Env) :
    ∃ r r', ((Session.evalTree (host.call (fuel + 1)) e env).result s).1 = some r ∧
      ((Session.evalTree (host.call (fuel + 1)) e env).result s').1 = some r' ∧
      Guarded EvalError.IsDepthLimit r r' := by
  have hboth : StopOrAgree (Session.Beside s.vm s'.vm) (Session.Beside s.vm s'.vm)
      EvalError.IsDepthLimit (Session.evalTree (host.call (fuel + 1)) e env)
      (Session.evalTree (host.call (fuel + 1)) e env) :=
    evalTree_stopOrAgree hd hsilent hregistry e env
  have hself : StopOrAgree (Session.Beside s'.vm s'.vm) (Session.Beside s'.vm s'.vm)
      EvalError.IsDepthLimit (Session.evalTree (host.call (fuel + 1)) e env)
      (Session.evalTree (host.call (fuel + 1)) e env) :=
    evalTree_stopOrAgree (Nat.le_refl _) (hregistry ▸ hsilent) rfl e env
  exact hboth.guarded hself ⟨rfl, rfl, hhost⟩ ⟨rfl, rfl, rfl⟩

theorem eval_guarded {s s' : Session σ β} (hhost : s.host = s'.host)
    (hd : s.vm.config.maxDepth ≤ d') (hsilent : ∀ f ∈ s.vm.registry.functions, host.Silent f)
    (hvm : s'.vm = s.vm.withMaxDepth d') (source : String) (env : Env) (rounds : Nat) :
    ∃ r r', ((Session.eval (host.call (fuel + 1)) (rounds + 1) source env).result s).1 = some r ∧
      ((Session.eval (host.call (fuel + 1)) (rounds + 1) source env).result s').1 = some r' ∧
      Guarded Error.IsLimit r r' := by
  have hboth : StopOrAgree (Session.Beside s.vm (s.vm.withMaxDepth d'))
      (Session.Counterparts s.vm d') Error.IsLimit
      (Session.eval (host.call (fuel + 1)) (rounds + 1) source env)
      (Session.eval (host.call (fuel + 1)) (rounds + 1) source env) :=
    eval_stopOrAgree hd hsilent source env rounds
  -- an evaluator is its own counterpart under its own limit
  have hown : s'.vm = s'.vm.withMaxDepth s'.vm.config.maxDepth := rfl
  have hself : StopOrAgree (Session.Beside s'.vm (s'.vm.withMaxDepth s'.vm.config.maxDepth))
      (Session.Counterparts s'.vm s'.vm.config.maxDepth) Error.IsLimit
      (Session.eval (host.call (fuel + 1)) (rounds + 1) source env)
      (Session.eval (host.call (fuel + 1)) (rounds + 1) source env) := by
    refine eval_stopOrAgree (Nat.le_refl _) ?_ source env rounds
    rw [hvm]
    exact hsilent
  exact hboth.guarded hself ⟨rfl, hvm, hhost⟩ ⟨rfl, hown, rfl⟩

/-- **The limit on depth is a guard and nothing else.** Let no function of the registry call back.
    What parsing tokens or a source, folding a tree, and evaluating a tree or a source come to under
    a limit, errors of limits aside, they come to under every larger limit: the same tree, the same
    value or the same error. Two evaluators compared have the same functions; where a source is
    evaluated they differ in the limit alone, as two fresh ones do. Fuel for one call is enough for
    every stage to end. -/
theorem limit_is_guard (host : Host σ β) (registry : Registry β)
    (hsilent : ∀ f ∈ registry.functions, host.Silent f) (hd : d ≤ d') (hfuel : 0 < fuel) :
    (∀ tokens, Guarded SyntaxError.IsLimit (parseTokens tokens d) (parseTokens tokens d')) ∧
    (∀ source, Guarded ParseError.IsLimit (parse source d) (parse source d')) ∧
    (∀ (e : Expr) (s s' : Session σ β), s.host = s'.host → ∃ r r',
      ((e.fold (host.call fuel) registry d).result s).1 = some r ∧
      ((e.fold (host.call fuel) registry d').result s').1 = some r' ∧
      Guarded FoldError.IsLimit r r') ∧
    (∀ (e : Expr) (env : Env) (s s' : Session σ β), s.host = s'.host →
      s.vm.registry = registry → s'.vm.registry = registry →
      s.vm.config.maxDepth = d → s'.vm.config.maxDepth = d' → ∃ r r',
        ((host.perform fuel (.evalTree e env)).result s).1 = some r ∧
        ((host.perform fuel (.evalTree e env)).result s').1 = some r' ∧
        Guarded EvalError.IsDepthLimit r r') ∧
    ∀ (source : String) (env : Env) (s s' : Session σ β), s.host = s'.host →
      s.vm.registry = registry → s.vm.config.maxDepth = d → s'.vm = s.vm.withMaxDepth d' →
        ∃ r r', ((host.perform fuel (.eval source env)).result s).1 = some r ∧
          ((host.perform fuel (.eval source env)).result s').1 = some r' ∧
          Guarded Error.IsLimit r r' := by
  obtain ⟨fuel, rfl⟩ : ∃ n, fuel = n + 1 := ⟨fuel - 1, by omega⟩
  refine ⟨parseTokens_guarded hd, parse_guarded hd, ?_, ?_, ?_⟩
  · intro e s s' hhost
    exact fold_guarded hd hsilent e hhost
  · rintro e env s s' hhost rfl hregistry rfl rfl
    exact evalTree_guarded hhost hd hsilent hregistry e env
  · rintro source env s s' hhost rfl rfl hvm
    exact eval_guarded hhost hd hsilent hvm source env fuel

/-! ## A function that returns something else every time -/

theorem silent_tick : counter.Silent tick := fun _ _ _ _ => rfl

theorem silent_builtinsAndTick : ∀ f ∈ builtinsAndTick.functions, counter.Silent f := by
  intro f hf
  rcases List.mem_cons.1 hf with rfl | hbuiltin
  · exact silent_tick
  · exact silent_of_mem_builtins hbuiltin

/-- `(tick())`, with one group inside another. -/
def groupedTick : Expr := .group (.call "tick" [])

/-- Where one group may be open, `tick()` has the value that it has where two may be open, and
    `(tick())` has none. -/
theorem limit_is_guard_tick :
    (∀ f ∈ builtinsAndTick.functions, counter.Silent f) ∧
      ∀ s s' : Session Nat Unit, s.vm = .new builtinsAndTick ⟨1, true⟩ →
        s'.vm = .new builtinsAndTick ⟨2, true⟩ → s.host = s'.host →
          ((counter.perform 1 (.evalTree (.call "tick" []) .empty)).result s').1 =
            some (.ok (.integer (Int64.ofNat s.host))) ∧
          ((counter.perform 1 (.evalTree groupedTick .empty)).result s).1 =
            some (.error (.depthLimitExceeded 1)) ∧
          ∃ r r', ((counter.perform 1 (.eval "(tick())" .empty)).result s).1 = some r ∧
            ((counter.perform 1 (.eval "(tick())" .empty)).result s').1 = some r' ∧
            Guarded Error.IsLimit r r' := by
  refine ⟨silent_builtinsAndTick, fun s s' hs hs' hhost => ?_⟩
  obtain ⟨_, n, journal⟩ := s
  obtain ⟨_, n', journal'⟩ := s'
  obtain rfl : _ = Vm.new builtinsAndTick ⟨1, true⟩ := hs
  obtain rfl : _ = Vm.new builtinsAndTick ⟨2, true⟩ := hs'
  obtain rfl : n = n' := hhost
  have hd : 1 ≤ 2 := by decide
  have hfuel : 0 < 1 := by decide
  obtain ⟨-, -, -, htree, hsource⟩ := limit_is_guard counter builtinsAndTick
    silent_builtinsAndTick hd hfuel
  obtain ⟨r, r', hr, hr', hguarded⟩ := htree (.call "tick" []) .empty
    ⟨.new builtinsAndTick ⟨1, true⟩, n, journal⟩ ⟨.new builtinsAndTick ⟨2, true⟩, n, journal'⟩
    rfl rfl rfl rfl rfl
  obtain rfl : Except.ok (.integer (Int64.ofNat n)) = r := Option.some.inj hr
  refine ⟨?_, rfl, hsource "(tick())" .empty _ _ rfl rfl rfl rfl⟩
  rcases hguarded with ⟨error, -, herror⟩ | rfl
  · cases herror
  · exact hr'

end Host

end FormulaLang
