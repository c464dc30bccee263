import FormulaLang.Proofs.Folding.Meaning
import FormulaLang.Proofs.Session.Past
import FormulaLang.Proofs.Session.Purity

/-!
# `Folding.Preservation` — folding against one registry, evaluating with another

A tree is folded against a registry whose functions are pure. Later it is evaluated in sessions
whose registry has these functions and perhaps others, which need not be pure: they may keep a
state, evaluate and compile, and register and remove functions, as long as they leave those that
folding relied on. Such functions cannot tell whether a pure one has run, so the folded tree and
its original go on in step.

- **`fold_preserves_evaluation`**: the folded tree has the result of its original, value or error,
  and if folding fails the original has no value.
- **`fold_changes_value_beside_drop`**: not so where a function takes away one that folding relied
  on.
- **`fold_changes_value_beside_marks`**: nor where a function can tell whether one that folding
  relied on has run.
-/

namespace FormulaLang
open Run

variable {σ β : Type}

/-! ## Sessions that look the same -/

/-- The functions of the first registry are in the second, under the same names. -/
def Registry.Within (r0 r1 : Registry β) : Prop :=
  ∀ name f, r0.get? name = some f → r1.get? name = some f

/-- One more function leaves the others where they are. -/
theorem Registry.within_of_cons {r0 r1 : Registry β} {f : Function β}
    (hfunctions : r1.functions = f :: r0.functions) (hnew : r0.get? f.name = none) :
    r0.Within r1 := by
  intro name g hget
  have hname : f.name ≠ name := by
    rintro rfl
    rw [hnew] at hget
    cases hget
  rw [get?, hfunctions, List.find?_cons_of_neg]
  · exact hget
  · simpa using hname

/-- The function is in a registry that is allowed. -/
def Function.RegisteredIn (Allowed : Registry β → Prop) (f : Function β) : Prop :=
  ∃ registry, Allowed registry ∧ f ∈ registry.functions

/-- The sessions have a registry that is allowed, and differ only in the journal and where host
    states are not told apart. -/
structure Session.SameFor (Alike : σ → σ → Prop) (Allowed : Registry β → Prop)
    (s s' : Session σ β) : Prop where
  vm : s.vm = s'.vm
  host : Alike s.host s'.host
  allowed : Allowed s.vm.registry

namespace Host

variable {host : Host σ β} {Alike : σ → σ → Prop} {Allowed : Registry β → Prop} {fuel : Nat}
variable {f : Function β} {args : List Value} {r : Except FunctionError Value}
variable {registry r0 r1 : Registry β}

/-- What is known of calls in a registry of functions that compute. -/
def seen (host : Host σ β) (Alike : σ → σ → Prop) (fuel : Nat) (registry : Registry β) : Calls :=
  fun name values r => ∃ f, registry.get? name = some f ∧ f.arity.accepts values.length = true ∧
    host.Gives Alike fuel f values r

theorem seen_mono (hwithin : r0.Within r1) :
    host.seen Alike fuel r0 ≤ host.seen Alike fuel r1 := by
  rintro name values r ⟨f, hget, haccepts, hgives⟩
  exact ⟨f, hwithin name f hget, haccepts, hgives⟩

theorem Gives.agree (halike : Equivalence Alike) (h : host.Gives Alike fuel f args r) :
    Agree (Session.SameFor Alike Allowed) (host.call fuel f args) (pure r) := by
  intro s s' hsame
  obtain ⟨s'', hrun, hvm, hhost⟩ := h s
  rw [run_eq_some_iff] at hrun
  rw [after, hrun]
  refine ⟨rfl, fun _ _ => ⟨hvm.trans hsame.vm, ?_, hvm ▸ hsame.allowed⟩⟩
  exact halike.trans (halike.symm hhost) hsame.host

/-- A function that computes does the same in sessions that look the same. -/
theorem Gives.agree_refl (halike : Equivalence Alike) (h : host.Gives Alike fuel f args r) :
    Agree (Session.SameFor Alike Allowed) (host.call fuel f args) (host.call fuel f args) := by
  intro s s' hsame
  obtain ⟨s₁, hrun, hvm, hhost⟩ := h s
  obtain ⟨s₁', hrun', hvm', hhost'⟩ := h s'
  rw [run_eq_some_iff] at hrun hrun'
  rw [after, after, hrun, hrun']
  refine ⟨rfl, fun _ _ => ⟨?_, ?_, hvm ▸ hsame.allowed⟩⟩
  · rw [hvm, hvm', hsame.vm]
  · exact halike.trans (halike.symm hhost) (halike.trans hsame.host hhost')

/-- Any function does the same in sessions that differ only in the journal. -/
theorem StaysIn.agree (h : host.StaysIn Allowed f) :
    Agree (Session.SameFor Eq Allowed) (host.call fuel f args) (host.call fuel f args) := by
  intro s s' hsame
  -- the evaluator and the host are the same, and nothing else has an effect on a call
  obtain ⟨hresult, hvm, hhost⟩ := (host.ignoresPast_call fuel f args).same hsame.vm hsame.host
  refine ⟨hresult, fun r hr => ⟨hvm, hhost, h fuel args s r _ hsame.allowed ?_⟩⟩
  rw [run_eq_some_iff]
  exact Prod.ext hr rfl

/-- Calls in a registry within all those allowed return as seen, and all others do the same in both
    sessions. -/
theorem faithful (halike : Equivalence Alike)
    (hwithin : ∀ registry, Allowed registry → r0.Within registry)
    (hcalled : ∀ f, f.RegisteredIn Allowed → ∀ args,
      Agree (Session.SameFor Alike Allowed) (host.call fuel f args) (host.call fuel f args)) :
    Faithful (Session.SameFor Alike Allowed) (host.call fuel) (Function.RegisteredIn Allowed)
      (host.seen Alike fuel r0) where
  registry s s' h := by rw [h.vm]
  found s s' h name f hget := ⟨s.vm.registry, h.allowed, Registry.mem_of_get? hget⟩
  called f values hf := hcalled f hf values
  seen := by
    rintro name values r ⟨f, hget, haccepts, hgives⟩
    exact ⟨f, fun s _ h => hwithin _ h.allowed name f hget, haccepts, hgives.agree halike⟩

/-- Folding against functions that compute has an outcome. -/
theorem fold_outcome
    (hgives : ∀ name f, registry.get? name = some f → ∀ args, ∃ r, host.Gives Alike fuel f args r)
    (maxDepth : Nat) (e : Expr) (s : Session σ β) :
    ∃ outcome s', (e.fold (host.call fuel) registry maxDepth).run s = some (outcome, s') ∧
      s'.vm = s.vm ∧ FoldOutcome maxDepth (e.Folded (host.seen Alike fuel registry))
        (e.Fails (host.seen Alike fuel registry)) e.height outcome := by
  refine (totalLogic (· = s.vm)).sat_fold (fun _ => host.seen Alike fuel registry)
    (fun _ _ _ => le_rfl) ?_ () maxDepth e s rfl
  intro _ name f values hget _ haccepts s' hs'
  obtain ⟨r, hr⟩ := hgives name f hget values
  obtain ⟨s'', hrun, hvm, -⟩ := hr s'
  exact ⟨r, s'', hrun, hvm.trans hs', f, hget, haccepts, hr⟩

/-! ## Evaluating folded trees -/

/-- Evaluating a tree in a session is evaluating it where the limits are those of the session. -/
theorem result_evalTree (tree : Expr) (env : Env) (s : Session σ β) :
    (host.perform fuel (.evalTree tree env)).result s =
      (Expr.evalAt (Session.surroundings (host.call fuel)) s.vm.config.maxDepth env .root
        tree).run.result s :=
  result_get_bind _ s

/-- Functions that return let evaluation return, if they keep what is known of the evaluator. -/
theorem evalTree_outcome (Inv : Vm β → Prop) (known : Function β → Prop)
    (hknown : ∀ vm, Inv vm → ∀ f ∈ vm.registry.functions, known f)
    (hcall : ∀ f, known f → ∀ args (s : Session σ β), Inv s.vm →
      ∃ r s', (host.call fuel f args).run s = some (r, s') ∧ Inv s'.vm)
    (tree : Expr) (env : Env) {s : Session σ β} (hs : Inv s.vm) :
    ∃ r s', (host.perform fuel (.evalTree tree env)).run s = some (r, s') ∧ Inv s'.vm := by
  have h : (totalLogic Inv).Sat
      (tree.eval (Session.surroundings (host.call fuel)) s.vm.config.maxDepth env) ()
      fun _ _ => True := by
    refine (totalLogic Inv).sat_eval known ?_ ?_ () _ env tree
    · intro _ name s hs
      exact ⟨s.vm.registry.get? name, s, rfl, hs,
        fun f hf => hknown s.vm hs f (Registry.mem_of_get? hf)⟩
    · intro _ f args hf s hs
      obtain ⟨r, s', hrun, hs'⟩ := hcall f hf args s hs
      exact ⟨r, s', hrun, hs', trivial⟩
  obtain ⟨r, s', hrun, hs', -⟩ := h s hs
  rw [run_eq_some_iff] at hrun
  exact ⟨r, s', run_eq_some_iff.2 ((result_evalTree tree env s).trans hrun), hs'⟩

/-- Folding and evaluating at one amount of fuel, if what is not told apart is settled. -/
theorem fold_preserves (halike : Equivalence Alike) {maxDepth : Nat} {e : Expr}
    (hnesting : e.nesting ≤ maxDepth) (hheight : e.height ≤ maxTreeDepth maxDepth)
    (hwithin : ∀ registry, Allowed registry → r0.Within registry)
    (hgives : ∀ name f, r0.get? name = some f → ∀ args, ∃ r, host.Gives Alike fuel f args r)
    (hcalled : ∀ f, f.RegisteredIn Allowed → ∀ args,
      Agree (Session.SameFor Alike Allowed) (host.call fuel f args) (host.call fuel f args))
    (s₀ : Session σ β) :
    ∃ outcome s₀', (e.fold (host.call fuel) r0 maxDepth).run s₀ = some (outcome, s₀') ∧
      match outcome with
      | .ok t => ∀ env s, Allowed s.vm.registry → s.vm.config.maxDepth = maxDepth →
          ((host.perform fuel (.evalTree t env)).result s).1 =
            ((host.perform fuel (.evalTree e env)).result s).1
      | .error error => (∃ name why, error = .call name why) ∧
          ∀ env s, Allowed s.vm.registry → s.vm.config.maxDepth = maxDepth →
            ∀ v, ((host.perform fuel (.evalTree e env)).result s).1 ≠ some (.ok v) := by
  have hfaithful := host.faithful halike hwithin hcalled
  have hfits := Depth.Fits.root hnesting hheight
  obtain ⟨outcome, s₀', hrun, -, houtcome⟩ := fold_outcome hgives maxDepth e s₀
  refine ⟨outcome, s₀', hrun, ?_⟩
  cases houtcome with
  | folded h =>
      intro env s hs hdepth
      rw [result_evalTree, result_evalTree, hdepth]
      exact ((h.agree hfaithful hfits) s s ⟨rfl, halike.refl _, hs⟩).1.symm
  | failed h =>
      refine ⟨⟨_, _, rfl⟩, fun env s hs hdepth v => ?_⟩
      rw [result_evalTree, hdepth]
      exact h.no_value hfaithful hfits s s v ⟨rfl, halike.refl _, hs⟩
  -- folding makes no test that a tree within the limits fails
  | tooTall h => exact absurd h (Nat.not_lt.2 hheight)

/-! ## Enough fuel for folding and evaluating -/

theorem Computes.exists_gives (h : host.Computes Alike f) :
    ∃ enough, ∀ fuel ≥ enough, ∀ args, ∃ r, host.Gives Alike fuel f args r := by
  obtain ⟨result, enough, hgives⟩ := h
  exact ⟨enough, fun fuel hfuel args => ⟨result args, hgives fuel hfuel args⟩⟩

/-- From some amount of fuel on, pure functions compute and the others cannot tell. -/
theorem exists_enough_of_pure (hpure : ∀ f ∈ r0.functions, host.Pure f)
    (hothers : ∀ f, f.RegisteredIn Allowed →
      (f ∈ r1.functions ∧ host.Pure f) ∨ host.StaysIn Allowed f) :
    ∃ enough, ∀ fuel ≥ enough,
      (∀ name f, r0.get? name = some f → ∀ args, ∃ r, host.Gives Eq fuel f args r) ∧
      ∀ f, f.RegisteredIn Allowed → ∀ args,
        Agree (Session.SameFor Eq Allowed) (host.call fuel f args) (host.call fuel f args) := by
  obtain ⟨n, hn⟩ := exists_enough fun f hf => Computes.exists_gives (hpure f hf)
  -- a pure function may change the registry and change it back, so fuel has to last for that
  have hcomputes : ∀ f ∈ r1.functions, ∃ enough, ∀ fuel ≥ enough,
      host.Pure f → ∀ args, ∃ r, host.Gives Eq fuel f args r := by
    intro f _
    by_cases hf : host.Pure f
    · obtain ⟨enough, hgives⟩ := Computes.exists_gives hf
      exact ⟨enough, fun fuel hfuel _ => hgives fuel hfuel⟩
    · exact ⟨0, fun _ _ h => absurd h hf⟩
  obtain ⟨k, hk⟩ := exists_enough hcomputes
  refine ⟨max n k, fun fuel hfuel => ⟨fun name f hget => ?_, fun f hf args => ?_⟩⟩
  · exact hn fuel (by omega) f (Registry.mem_of_get? hget)
  · rcases hothers f hf with ⟨hmem, hf⟩ | hf
    · obtain ⟨r, hr⟩ := hk fuel (by omega) f hmem hf args
      exact hr.agree_refl eq_equivalence
    · exact hf.agree

/-- From some amount of fuel on, functions of their arguments compute. -/
theorem exists_enough_of_functional (hwithin : r0.Within r1)
    (hfunctional : ∀ f ∈ r1.functions, host.Functional f) :
    ∃ enough, ∀ fuel ≥ enough,
      (∀ name f, r0.get? name = some f → ∀ args, ∃ r, host.Gives AnyState fuel f args r) ∧
      ∀ f, f.RegisteredIn (· = r1) → ∀ args,
        Agree (Session.SameFor AnyState (· = r1)) (host.call fuel f args)
          (host.call fuel f args) := by
  obtain ⟨n, hn⟩ := exists_enough fun f hf => Computes.exists_gives (hfunctional f hf)
  refine ⟨n, fun fuel hfuel => ⟨fun name f hget => ?_, ?_⟩⟩
  · exact hn fuel hfuel f (Registry.mem_of_get? (hwithin name f hget))
  · rintro f ⟨_, rfl, hf⟩ args
    obtain ⟨r, hr⟩ := hn fuel hfuel f hf args
    exact hr.agree_refl anyState_equivalence

/-- **Folding preserves meaning.** Let a tree keep within the limits, and let it be folded against
    the pure functions of `r0`. The folded tree then evaluates to what the tree evaluates to,
    value or error, wherever the functions of `r0` are registered, with others or not. If folding
    fails, then over a call, and the tree has no value there. The others may be any functions, as
    long as what they register and remove leads only to registries that are allowed, and these
    have the functions of `r0`, too; if the functions of `r0` have effects on the host, all have
    to be functions of their arguments. Evaluation ends if the functions do. -/
theorem fold_preserves_evaluation (host : Host σ β) (Allowed : Registry β → Prop)
    {maxDepth : Nat} {e : Expr}
    (hnesting : e.nesting ≤ maxDepth) (hdepth : e.depth ≤ maxTreeDepth maxDepth)
    (hallowed : Allowed r1) (hwithin : ∀ registry, Allowed registry → r0.Within registry)
    (hpure : ((∀ f ∈ r0.functions, host.Pure f) ∧
        ∀ f, f.RegisteredIn Allowed → (f ∈ r1.functions ∧ host.Pure f) ∨ host.StaysIn Allowed f) ∨
      ∀ f ∈ r1.functions, host.Functional f) :
    ∃ enough, ∀ fuel ≥ enough,
      (∀ s₀ : Session σ β, ∃ outcome s₀',
        (e.fold (host.call fuel) r0 maxDepth).run s₀ = some (outcome, s₀') ∧
        match outcome with
        | .ok t => ∀ env s, s.vm.registry = r1 → s.vm.config.maxDepth = maxDepth →
            ((host.perform fuel (.evalTree t env)).result s).1 =
              ((host.perform fuel (.evalTree e env)).result s).1
        | .error error => (∃ name why, error = .call name why) ∧
            ∀ env s, s.vm.registry = r1 → s.vm.config.maxDepth = maxDepth →
              ∀ v, ((host.perform fuel (.evalTree e env)).result s).1 ≠ some (.ok v)) ∧
      ((∀ f, f.RegisteredIn Allowed → host.Returns fuel f) → ∀ env s, s.vm.registry = r1 →
        ∃ r, ((host.perform fuel (.evalTree e env)).result s).1 = some r) := by
  rw [Expr.depth_eq_height] at hdepth
  -- the registries that evaluation comes to, and the host states that the functions tell apart
  obtain ⟨Alike, Reached, halike, hreached, hr1, n, hn⟩ :
      ∃ (Alike : σ → σ → Prop) (Reached : Registry β → Prop), Equivalence Alike ∧
        (∀ registry, Reached registry → Allowed registry) ∧ Reached r1 ∧
        ∃ enough, ∀ fuel ≥ enough,
          (∀ name f, r0.get? name = some f → ∀ args, ∃ r, host.Gives Alike fuel f args r) ∧
          ∀ f, f.RegisteredIn Reached → ∀ args,
            Agree (Session.SameFor Alike Reached) (host.call fuel f args)
              (host.call fuel f args) := by
    rcases hpure with ⟨hpure, hothers⟩ | hfunctional
    · exact ⟨Eq, Allowed, eq_equivalence, fun _ h => h, hallowed,
        exists_enough_of_pure hpure hothers⟩
    · exact ⟨AnyState, (· = r1), anyState_equivalence, fun _ h => h ▸ hallowed, rfl,
        exists_enough_of_functional (hwithin r1 hallowed) hfunctional⟩
  refine ⟨n, fun fuel hfuel => ?_⟩
  obtain ⟨hgives, hcalled⟩ := hn fuel hfuel
  refine ⟨fun s₀ => ?_, fun hreturns env s hs => ?_⟩
  · obtain ⟨outcome, s₀', hrun, h⟩ := fold_preserves halike hnesting hdepth
      (fun registry h => hwithin registry (hreached registry h)) hgives hcalled s₀
    refine ⟨outcome, s₀', hrun, ?_⟩
    cases outcome with
    | ok t => exact fun env s hs => h env s (hs ▸ hr1)
    | error error => exact ⟨h.1, fun env s hs => h.2 env s (hs ▸ hr1)⟩
  · have hcall : ∀ f, f.RegisteredIn Reached → ∀ args (s : Session σ β), Reached s.vm.registry →
        ∃ r s', (host.call fuel f args).run s = some (r, s') ∧ Reached s'.vm.registry := by
      rintro f ⟨registry, hregistry, hf⟩ args s hs
      obtain ⟨r, hr⟩ := hreturns f ⟨registry, hreached registry hregistry, hf⟩ args s
      refine ⟨r, (host.call fuel f args).after s, run_eq_some_iff.2 (Prod.ext hr rfl), ?_⟩
      exact ((hcalled f ⟨registry, hregistry, hf⟩ args s s ⟨rfl, halike.refl _, hs⟩).2 r hr).allowed
    obtain ⟨r, s', hrun, -⟩ := evalTree_outcome (fun vm => Reached vm.registry)
      (Function.RegisteredIn Reached) (fun vm h f hf => ⟨vm.registry, h, hf⟩) hcall e env
      (s := s) (hs ▸ hr1)
    exact ⟨r, congrArg Prod.fst (run_eq_some_iff.1 hrun)⟩

/-! ## The builtins beside a function that counts -/

/-- A host whose state is a number, and whose only code returns the number and makes it one
    larger. -/
def counter : Host Nat Unit :=
  ⟨fun _ _ => .read fun n => .write (n + 1) (.done (.ok (.integer (Int64.ofNat n))))⟩

/-- The function with that code. -/
def tick : Function Unit := ⟨"tick", false, .nullary (.host ())⟩

/-- The builtin functions and `tick`. -/
def builtinsAndTick : Registry Unit where
  functions := tick :: Registry.builtins.functions
  nodup := by simp [Registry.builtins, Builtin.name, tick]

theorem staysIn_tick {Allowed : Registry Unit → Prop} : counter.StaysIn Allowed tick := by
  refine staysIn_of_runBody fun answer body args s hbody => ?_
  obtain rfl := Callable.body_of_select hbody
  rfl

/-- `abs(3)` folded against the builtins, and evaluated where the counter is registered, too. -/
theorem fold_preserves_evaluation_beside_tick :
    ∃ enough, ∀ fuel ≥ enough, ∀ s₀ : Session Nat Unit, ∃ outcome s₀',
      ((Expr.call "abs" [.number 3]).fold (counter.call fuel) Registry.builtins 1).run s₀ =
        some (outcome, s₀') ∧
      match outcome with
      | .ok t => ∀ env s, s.vm.registry = builtinsAndTick → s.vm.config.maxDepth = 1 →
          ((counter.perform fuel (.evalTree t env)).result s).1 =
            ((counter.perform fuel (.evalTree (.call "abs" [.number 3]) env)).result s).1
      | .error error => (∃ name why, error = .call name why) ∧
          ∀ env s, s.vm.registry = builtinsAndTick → s.vm.config.maxDepth = 1 → ∀ v,
            ((counter.perform fuel (.evalTree (.call "abs" [.number 3]) env)).result s).1 ≠
              some (.ok v) := by
  have hothers : ∀ f : Function Unit, f.RegisteredIn (· = builtinsAndTick) →
      (f ∈ builtinsAndTick.functions ∧ counter.Pure f) ∨
        counter.StaysIn (· = builtinsAndTick) f := by
    rintro f ⟨_, rfl, hf⟩
    rcases List.mem_cons.1 hf with rfl | hbuiltin
    · exact .inr staysIn_tick
    · exact .inl ⟨hf, pure_of_mem_builtins hbuiltin⟩
  have hnesting : (Expr.call "abs" [.number 3]).nesting ≤ 1 := by decide
  have hdepth : (Expr.call "abs" [.number 3]).depth ≤ maxTreeDepth 1 := by decide
  have hwithin : ∀ registry, registry = builtinsAndTick → Registry.builtins.Within registry := by
    rintro _ rfl
    exact Registry.within_of_cons rfl rfl
  obtain ⟨enough, h⟩ := fold_preserves_evaluation counter (· = builtinsAndTick) hnesting hdepth rfl
    hwithin (.inl ⟨fun f hf => pure_of_mem_builtins hf, hothers⟩)
  exact ⟨enough, fun fuel hfuel => (h fuel hfuel).1⟩

/-! ## The builtins beside a function that removes one -/

/-- A host whose only code removes `abs` and returns zero. -/
def dropping : Host Unit Unit :=
  ⟨fun _ _ => .request (.remove "abs") fun _ => .done (.ok (.integer 0))⟩

/-- The function with that code. -/
def drop : Function Unit := ⟨"drop", false, .nullary (.host ())⟩

/-- The builtin functions and `drop`. -/
def builtinsAndDrop : Registry Unit where
  functions := drop :: Registry.builtins.functions
  nodup := by simp [Registry.builtins, Builtin.name, drop]

/-- `drop() + abs(3)`. -/
def dropPlusAbs : Expr := .binary (.call "drop" []) .additive (.one .add (.call "abs" [.number 3]))

/-- `drop() + 3`. -/
def dropPlusThree : Expr := .binary (.call "drop" []) .additive (.one .add (.number 3))

/-- A session with these functions. -/
def dropSession : Session Unit Unit := ⟨.new builtinsAndDrop ⟨1, true⟩, (), []⟩

/-- Against the builtins, `drop() + abs(3)` folds to `drop() + 3`. Where `drop` is registered,
    too, it takes away the function that folding relied on, so the tree fails and its folded tree
    does not. -/
theorem fold_changes_value_beside_drop :
    (∀ f ∈ Registry.builtins.functions, dropping.Pure f) ∧
      Registry.builtins.Within builtinsAndDrop ∧
      dropPlusAbs.nesting ≤ 1 ∧ dropPlusAbs.depth ≤ maxTreeDepth 1 ∧
      ((dropPlusAbs.fold (dropping.call 2) Registry.builtins 1).result dropSession).1 =
        some (.ok dropPlusThree) ∧
      ((dropping.perform 2 (.evalTree dropPlusThree .empty)).result dropSession).1 =
        some (.ok (.integer 3)) ∧
      ((dropping.perform 2 (.evalTree dropPlusAbs .empty)).result dropSession).1 =
        some (.error (.unknownFunction "abs")) := by
  have hpure : ∀ f ∈ Registry.builtins.functions, dropping.Pure f :=
    fun f hf => pure_of_mem_builtins hf
  have hwithin : Registry.builtins.Within builtinsAndDrop := Registry.within_of_cons rfl rfl
  have hfold : ((dropPlusAbs.fold (dropping.call 2) Registry.builtins 1).result dropSession).1 =
      some (.ok dropPlusThree) := rfl
  exact ⟨hpure, hwithin, by decide, by decide, hfold, rfl, rfl⟩

/-! ## A function that counts beside one that reads the count -/

/-- A host whose state is a number. One of its codes makes the number one larger and returns zero,
    the other returns the number. -/
def marking : Host Nat Bool :=
  ⟨fun marks _ => .read fun n =>
    if marks then .write (n + 1) (.done (.ok (.integer 0)))
    else .done (.ok (.integer (Int64.ofNat n)))⟩

/-- The function that counts. -/
def mark : Function Bool := ⟨"mark", true, .nullary (.host true)⟩

/-- The function that returns the count. -/
def marks : Function Bool := ⟨"marks", false, .nullary (.host false)⟩

/-- The registry with `mark` alone. -/
def onlyMark : Registry Bool where
  functions := [mark]
  nodup := by simp

/-- The registry with both functions. -/
def markAndMarks : Registry Bool where
  functions := [marks, mark]
  nodup := by simp [mark, marks]

/-- `mark() + marks()`. -/
def markPlusMarks : Expr := .binary (.call "mark" []) .additive (.one .add (.call "marks" []))

/-- `0 + marks()`. -/
def zeroPlusMarks : Expr := .binary (.number 0) .additive (.one .add (.call "marks" []))

/-- A session with both functions. -/
def markSession : Session Nat Bool := ⟨.new markAndMarks ⟨1, true⟩, 0, []⟩

theorem functional_mark : marking.Functional mark := by
  refine computes_of_runBody (fun _ => trivial) (fun _ => .ok (.integer 0)) ?_
  intro answer body args s hbody
  obtain rfl := Callable.body_of_select hbody
  exact ⟨{ s with host := s.host + 1 }, rfl, rfl, trivial⟩

theorem staysIn_markAndMarks {Allowed : Registry Bool → Prop} :
    ∀ f ∈ markAndMarks.functions, marking.StaysIn Allowed f := by
  intro f hf
  refine staysIn_of_runBody fun answer body args s hbody => ?_
  obtain rfl := Callable.body_of_select hbody
  rcases List.mem_cons.1 hf with rfl | hf
  · rfl
  · obtain rfl := List.mem_singleton.1 hf
    rfl

/-- It is not enough that functions leave the registry alone, if those of `r0` have an effect on the
    host. `mark` is a function of its arguments and folds `mark() + marks()` to `0 + marks()`. The
    call that is gone is one that `marks` would have counted. -/
theorem fold_changes_value_beside_marks :
    (∀ f ∈ onlyMark.functions, marking.Functional f) ∧
      (∀ f ∈ markAndMarks.functions, marking.StaysIn (· = markAndMarks) f) ∧
      onlyMark.Within markAndMarks ∧
      markPlusMarks.nesting ≤ 1 ∧ markPlusMarks.depth ≤ maxTreeDepth 1 ∧
      ((markPlusMarks.fold (marking.call 2) onlyMark 1).result markSession).1 =
        some (.ok zeroPlusMarks) ∧
      ((marking.perform 2 (.evalTree zeroPlusMarks .empty)).result markSession).1 =
        some (.ok (.integer 0)) ∧
      ((marking.perform 2 (.evalTree markPlusMarks .empty)).result markSession).1 =
        some (.ok (.integer 1)) := by
  have hfunctional : ∀ f ∈ onlyMark.functions, marking.Functional f := by
    intro f hf
    obtain rfl := List.mem_singleton.1 hf
    exact functional_mark
  have hwithin : onlyMark.Within markAndMarks := Registry.within_of_cons rfl rfl
  exact ⟨hfunctional, staysIn_markAndMarks, hwithin, by decide, by decide, rfl, rfl, rfl⟩

end Host

end FormulaLang
