import FormulaLang.Proofs.Folding.Preservation
import FormulaLang.Proofs.Grammar.Size
import FormulaLang.Proofs.Vm.Changes

/-!
# `Session.Transparency` — caching and folding do not show

Over a whole history of requests, with functions that only compute, the cache holds folded trees
of what its sources spell, folded from calls of functions that still are registered (`Vm.Sound`).
A registration adds functions and takes none away, and a removal clears the cache, so no entry
outlives a function that it rests on. Every request then has an outcome and keeps the evaluator
sound, and after the history a source evaluates to what its parsed tree evaluates to.

- **`eval_transparent`**: so it does after every history, with errors only in folding to be told
  apart.
-/

namespace FormulaLang
open Run

variable {σ β : Type}

/-! ## Sound evaluators -/

/-- The functions compute, and every cached tree is a folded tree of what its source spells. -/
structure Vm.Sound (host : Host σ β) (fuel : Nat) (config : Config) (vm : Vm β) : Prop where
  settings : vm.config = config
  gives : ∀ f ∈ vm.registry.functions, ∀ args, ∃ r, host.Gives Host.AnyState fuel f args r
  cached : ∀ source entry, vm.cache.find? source = some entry → ∃ e,
    parse source config.maxDepth = .ok e ∧
      e.Folded (host.seen Host.AnyState fuel vm.registry) entry.tree

namespace Vm.Sound

variable {host : Host σ β} {fuel : Nat} {config : Config} {vm vm' : Vm β}

theorem new (registry : Registry β)
    (hgives : ∀ f ∈ registry.functions, ∀ args, ∃ r, host.Gives Host.AnyState fuel f args r) :
    (Vm.new registry config).Sound host fuel config :=
  ⟨rfl, hgives, fun _ _ h => by cases h⟩

theorem clear (h : vm.Sound host fuel config) : vm.clear.Sound host fuel config :=
  ⟨h.settings, h.gives, fun _ _ h => by cases h⟩

/-- A registration keeps what was folded: the functions are still there. -/
theorem register (h : vm.Sound host fuel config) {f : Function β}
    (hf : ∀ args, ∃ r, host.Gives Host.AnyState fuel f args r) (hvm : vm.register f = .ok vm') :
    vm'.Sound host fuel config := by
  obtain ⟨registry, hregister, rfl⟩ := Vm.register_eq_ok hvm
  refine ⟨h.settings, ?_, fun source entry hentry => ?_⟩
  · rw [(Registry.register_eq_ok hregister).2]
    exact List.forall_mem_cons.2 ⟨hf, h.gives⟩
  · obtain ⟨e, hparse, hfolded⟩ := h.cached source entry hentry
    refine ⟨e, hparse, hfolded.mono (Host.seen_mono fun name g => ?_)⟩
    exact Registry.get?_of_register hregister

/-- A removal takes all trees with it. -/
theorem remove (h : vm.Sound host fuel config) (name : String) :
    (vm.remove name).Sound host fuel config := by
  rw [Vm.remove]
  split
  · refine ⟨h.settings, fun f hf => h.gives f ?_, fun _ _ h => by cases h⟩
    exact (List.mem_filter.1 hf).1
  · exact h

/-- A folded tree may be kept. -/
theorem store (h : vm.Sound host fuel config) {source : String} {e tree : Expr}
    (hparse : parse source config.maxDepth = .ok e)
    (hfolded : e.Folded (host.seen Host.AnyState fuel vm.registry) tree)
    (hnew : vm.cache.find? source = none) : (vm.store source tree).2.Sound host fuel config := by
  refine ⟨h.settings, h.gives, fun other entry hentry => ?_⟩
  change (vm.cache.store source tree).2.find? other = some entry at hentry
  rw [Cache.find?_store, Cache.store_of_find?_eq_none tree hnew] at hentry
  by_cases hother : other = source
  · rw [if_pos hother] at hentry
    obtain rfl := Option.some.inj hentry
    exact ⟨e, hother ▸ hparse, hfolded⟩
  · rw [if_neg hother] at hentry
    exact h.cached other entry hentry

end Vm.Sound

/-! ## Compiling -/

namespace Host

variable {host : Host σ β} {fuel : Nat} {config : Config} {source : String}

/-- What compiling comes to in a sound evaluator, by what the source spells. -/
inductive Compiled (host : Host σ β) (fuel : Nat) (vm : Vm β) (source : String) :
    Except ParseError Expr → Except Error Entry → Prop where
  | unparsed (error : ParseError) :
      Compiled host fuel vm source (.error error) (.error (.parse error))
  | kept {e : Expr} {entry : Entry}
      (h : e.Folded (host.seen AnyState fuel vm.registry) entry.tree) :
      Compiled host fuel vm source (.ok e) (.ok entry)
  | failed {e : Expr} {name : String} {why : FunctionError} (hoptimize : vm.config.optimize = true)
      (hnew : vm.cache.find? source = none)
      (h : e.Fails (host.seen AnyState fuel vm.registry) name why) :
      Compiled host fuel vm source (.ok e) (.error (.eval (.fold (.call name why))))
  | tooTall {e : Expr} (h : maxTreeDepth vm.config.maxDepth < e.height) :
      Compiled host fuel vm source (.ok e)
        (.error (.eval (.fold (.depthLimitExceeded vm.config.maxDepth))))

/-- Functions that compute leave the generation alone, so a tree is folded only once. -/
theorem foldAndStore_outcome {e : Expr} (rounds : Nat) {s : Session σ β}
    (hsound : s.vm.Sound host fuel config) (hparse : parse source config.maxDepth = .ok e)
    (hnew : s.vm.cache.find? source = none) (hoptimize : s.vm.config.optimize = true) :
    ∃ r s', (Session.foldAndStore (host.call fuel) source e (rounds + 1)).run s = some (r, s') ∧
      s'.vm.Sound host fuel config ∧ s'.vm.registry = s.vm.registry ∧
      Compiled host fuel s.vm source (.ok e) r := by
  obtain ⟨outcome, s₁, hrun, hvm, houtcome⟩ := fold_outcome
    (fun name f hget => hsound.gives f (Registry.mem_of_get? hget)) s.vm.config.maxDepth e s
  rw [run_eq_some_iff] at hrun
  have hsound₁ : s₁.vm.Sound host fuel config := hvm ▸ hsound
  have hregistry₁ : s₁.vm.registry = s.vm.registry := by rw [hvm]
  simp only [run_eq_some_iff, Session.foldAndStore, result_get_bind]
  rw [result_bind, after, hrun]
  cases houtcome with
  | @folded t h =>
      -- nothing has changed the registry, so the first folded tree is kept
      have hgeneration : s₁.vm.generation = s.vm.generation := by rw [hvm]
      have hnew₁ : s₁.vm.cache.find? source = none := by rw [hvm, hnew]
      simp only [result_get_bind, if_pos hgeneration]
      rw [result_bind, after, Session.result_store]
      refine ⟨_, _, rfl, ?_, hregistry₁, .kept ?_⟩
      · exact hsound₁.store hparse (hregistry₁ ▸ h) hnew₁
      · rw [Vm.tree_store t hnew₁]
        exact h
  | failed h => exact ⟨_, s₁, rfl, hsound₁, hregistry₁, .failed hoptimize hnew h⟩
  | tooTall h => exact ⟨_, s₁, rfl, hsound₁, hregistry₁, .tooTall h⟩

/-- **Compiling in a sound evaluator.** -/
theorem compile_outcome (source : String) (rounds : Nat) {s : Session σ β}
    (hsound : s.vm.Sound host fuel config) :
    ∃ r s', (Session.compile (host.call fuel) (rounds + 1) source).run s = some (r, s') ∧
      s'.vm.Sound host fuel config ∧ s'.vm.registry = s.vm.registry ∧
      Compiled host fuel s.vm source (parse source config.maxDepth) r := by
  obtain rfl := hsound.settings
  cases hentry : s.vm.cache.find? source with
  | some entry =>
      obtain ⟨e, hparse, hfolded⟩ := hsound.cached source entry hentry
      rw [hparse]
      simp only [run_eq_some_iff, Session.compile, result_get_bind, hentry]
      exact ⟨_, _, rfl, hsound, rfl, .kept hfolded⟩
  | none =>
      cases hparse : parse source s.vm.config.maxDepth with
      | error error =>
          simp only [run_eq_some_iff, Session.compile, result_get_bind, hentry, hparse]
          exact ⟨_, _, rfl, hsound, rfl, .unparsed error⟩
      | ok e =>
          by_cases hoptimize : s.vm.config.optimize = true
          · obtain ⟨r, s', hrun, h⟩ :=
              foldAndStore_outcome rounds hsound hparse hentry hoptimize
            refine ⟨r, s', ?_, h⟩
            rw [run_eq_some_iff] at hrun ⊢
            simp only [Session.compile, result_get_bind, hentry, hparse, if_pos hoptimize, hrun]
          · simp only [run_eq_some_iff, Session.compile, result_get_bind, hentry, hparse,
              if_neg hoptimize]
            rw [result_bind, after, Session.result_store]
            refine ⟨_, _, rfl, hsound.store hparse (.refl e) hentry, rfl, .kept ?_⟩
            rw [Vm.tree_store e hentry]
            exact .refl e

/-! ## Requests and histories -/

/-- Evaluating a tree leaves a sound evaluator as it is. -/
theorem evalTree_sound (tree : Expr) (env : Env) {s : Session σ β}
    (hsound : s.vm.Sound host fuel config) :
    ∃ r s', (host.perform fuel (.evalTree tree env)).run s = some (r, s') ∧ s'.vm = s.vm := by
  refine evalTree_outcome (· = s.vm) (· ∈ s.vm.registry.functions) ?_ ?_ tree env rfl
  · rintro vm rfl f hf
    exact hf
  intro f hf args s' hs'
  obtain ⟨r, hr⟩ := hsound.gives f hf args
  obtain ⟨s'', hrun, hvm, -⟩ := hr s'
  exact ⟨r, s'', hrun, hvm.trans hs'⟩

/-- Evaluating a source is compiling it and, if that succeeds, evaluating its tree. -/
theorem eval_outcome (source : String) (env : Env) {s : Session σ β}
    (hsound : s.vm.Sound host (fuel + 1) config) :
    ∃ c s', Compiled host (fuel + 1) s.vm source (parse source config.maxDepth) c ∧
      s'.vm.Sound host (fuel + 1) config ∧ s'.vm.registry = s.vm.registry ∧
      ∃ outcome s'', (host.perform (fuel + 1) (.eval source env)).run s = some (outcome, s'') ∧
        s''.vm = s'.vm ∧
        match c with
        | .error error => outcome = .error error
        | .ok entry => ∃ r, (host.perform (fuel + 1) (.evalTree entry.tree env)).run s' =
            some (r, s'') ∧ outcome = r.mapError .eval := by
  obtain ⟨c, s', hrun, hsound', hregistry, hcompiled⟩ := compile_outcome source fuel hsound
  refine ⟨c, s', hcompiled, hsound', hregistry, ?_⟩
  rw [run_eq_some_iff] at hrun
  cases c with
  | error error =>
      refine ⟨.error error, s', run_eq_some_iff.2 ?_, rfl, rfl⟩
      show (Session.eval _ _ _ _).result s = _
      rw [Session.eval, result_bind, after, hrun]
      rfl
  | ok entry =>
      obtain ⟨r, s'', hrun', hvm⟩ := evalTree_sound entry.tree env hsound'
      have htree : (Session.evalTree (host.call (fuel + 1)) entry.tree env).result s' =
          (some r, s'') := run_eq_some_iff.1 hrun'
      refine ⟨r.mapError .eval, s'', run_eq_some_iff.2 ?_, hvm, r, hrun', rfl⟩
      show (Session.eval _ _ _ _).result s = _
      rw [Session.eval, result_bind, after, hrun]
      dsimp only
      rw [result_bind, after, htree]
      cases r with
      | error error => rfl
      | ok v => rfl

/-- **Every request has an outcome and keeps the evaluator sound,** if a function that it registers
    computes. -/
theorem perform_sound (request : Request β)
    (hregister : ∀ f, request = .register f → ∀ args, ∃ r, host.Gives AnyState (fuel + 1) f args r)
    {s : Session σ β} (hsound : s.vm.Sound host (fuel + 1) config) :
    ∃ reply s', (host.perform (fuel + 1) request).run s = some (reply, s') ∧
      s'.vm.Sound host (fuel + 1) config := by
  cases request with
  | eval source env =>
      obtain ⟨c, s', -, hsound', -, outcome, s'', hrun, hvm, -⟩ := eval_outcome source env hsound
      exact ⟨outcome, s'', hrun, hvm ▸ hsound'⟩
  | compile source =>
      obtain ⟨r, s', hrun, hsound', -⟩ := compile_outcome source fuel hsound
      exact ⟨r, s', hrun, hsound'⟩
  | evalTree tree env =>
      obtain ⟨r, s', hrun, hvm⟩ := evalTree_sound tree env hsound
      exact ⟨r, s', hrun, hvm ▸ hsound⟩
  | register f =>
      cases hvm : s.vm.register f with
      | error error =>
          refine ⟨.error error, s, run_eq_some_iff.2 ?_, hsound⟩
          exact Session.result_register_of_error hvm
      | ok vm =>
          refine ⟨.ok (), { s with vm, journal := ⟨.registered f, vm⟩ :: s.journal },
            run_eq_some_iff.2 ?_, hsound.register (hregister f rfl) hvm⟩
          exact Session.result_register_of_ok hvm
  | remove name =>
      by_cases hcontains : s.vm.registry.contains name = true
      · refine ⟨true, { s with vm := s.vm.remove name,
                               journal := ⟨.removed name, s.vm.remove name⟩ :: s.journal },
          run_eq_some_iff.2 ?_, hsound.remove name⟩
        exact Session.result_remove_of_contains hcontains
      · refine ⟨false, s, run_eq_some_iff.2 ?_, hsound⟩
        exact Session.result_remove_of_not_contains hcontains
  | clear => exact ⟨(), _, rfl, hsound.clear⟩
  | has name => exact ⟨_, s, rfl, hsound⟩
  | size => exact ⟨_, s, rfl, hsound⟩

end Host

/-- The function that a request registers. -/
def Request.registered? : Request β → Option (Function β)
  | .register f => some f
  | _ => none

theorem Request.mem_filterMap_registered? {history : List (Request β)} {f : Function β} :
    f ∈ history.filterMap Request.registered? ↔ Request.register f ∈ history := by
  rw [List.mem_filterMap]
  constructor
  · rintro ⟨request, hmem, h⟩
    cases request <;> cases h
    exact hmem
  · intro h
    exact ⟨_, h, rfl⟩

namespace Host

variable {host : Host σ β} {fuel : Nat} {config : Config} {source : String}

/-- Answers requests one after the other, whatever the answers are. -/
def performAll (host : Host σ β) (fuel : Nat) : List (Request β) → Run σ β Unit
  | [] => pure ()
  | request :: requests => do
    let _ ← host.perform fuel request
    host.performAll fuel requests

/-- So does every history of requests. -/
theorem performAll_sound (history : List (Request β))
    (hregister : ∀ f, Request.register f ∈ history → ∀ args, ∃ r,
      host.Gives AnyState (fuel + 1) f args r)
    {s : Session σ β} (hsound : s.vm.Sound host (fuel + 1) config) :
    ∃ s', (host.performAll (fuel + 1) history).run s = some ((), s') ∧
      s'.vm.Sound host (fuel + 1) config := by
  induction history generalizing s with
  | nil => exact ⟨s, rfl, hsound⟩
  | cons request requests ih =>
      obtain ⟨reply, s', hrun, hsound'⟩ := perform_sound request
        (fun f h => hregister f (h ▸ List.mem_cons_self)) hsound
      obtain ⟨s'', hrun', hsound''⟩ :=
        ih (fun f h => hregister f (List.mem_cons_of_mem _ h)) hsound'
      refine ⟨s'', ?_, hsound''⟩
      rw [run_eq_some_iff] at hrun hrun' ⊢
      rw [performAll, result_bind, after, hrun]
      exact hrun'

/-! ## Transparency -/

/-- Functions that compute return the same wherever they are registered. -/
theorem faithful_of_gives {registry : Registry β}
    (hgives : ∀ f ∈ registry.functions, ∀ args, ∃ r, host.Gives AnyState fuel f args r) :
    Faithful (fun s s' : Session σ β => s.vm.registry = registry ∧ s'.vm.registry = registry)
      (host.call fuel) (· ∈ registry.functions) (host.seen AnyState fuel registry) where
  registry _ _ h := h.1.trans h.2.symm
  found s s' h name f hget := h.1 ▸ Registry.mem_of_get? hget
  called := by
    rintro f args hf s s' ⟨hs, hs'⟩
    obtain ⟨r, hr⟩ := hgives f hf args
    obtain ⟨s₁, hrun, hvm, -⟩ := hr s
    obtain ⟨s₁', hrun', hvm', -⟩ := hr s'
    rw [run_eq_some_iff] at hrun hrun'
    rw [after, after, hrun, hrun']
    exact ⟨rfl, fun _ _ => ⟨hvm ▸ hs, hvm' ▸ hs'⟩⟩
  seen := by
    rintro name values r ⟨f, hget, haccepts, hgives⟩
    refine ⟨f, fun s _ h => h.1 ▸ hget, haccepts, ?_⟩
    rintro s s' ⟨hs, hs'⟩
    obtain ⟨s₁, hrun, hvm, -⟩ := hgives s
    rw [run_eq_some_iff] at hrun
    rw [after, hrun]
    exact ⟨rfl, fun _ _ => ⟨hvm ▸ hs, hs'⟩⟩

/-- **In a sound evaluator a source evaluates like its tree.** Only if the tree has to be folded
    first, and fails, may another error be found. -/
theorem eval_of_sound {s : Session σ β} (hsound : s.vm.Sound host (fuel + 1) config)
    (hsource : source.length < maxSourceLength) (env : Env) :
    ∃ outcome, ((host.perform (fuel + 1) (.eval source env)).result s).1 = some outcome ∧
      match parse source config.maxDepth with
      | .error error => outcome = .error (.parse error)
      | .ok e => ∃ r, ((host.perform (fuel + 1) (.evalTree e env)).result s).1 = some r ∧
          (outcome = r.mapError .eval ∨
            (config.optimize = true ∧ s.vm.cache.find? source = none ∧
              (∃ name why, outcome = .error (.eval (.fold (.call name why)))) ∧
              ∃ error, r = .error error)) := by
  obtain ⟨c, s', hcompiled, hsound', hregistry, outcome, s'', hrun, -, hcases⟩ :=
    eval_outcome source env hsound
  refine ⟨outcome, congrArg Prod.fst (run_eq_some_iff.1 hrun), ?_⟩
  have hfaithful := faithful_of_gives hsound.gives
  cases hparse : parse source config.maxDepth with
  | error error =>
      rw [hparse] at hcompiled
      cases hcompiled
      exact hcases
  | ok e =>
      rw [hparse] at hcompiled
      obtain ⟨hnesting, hheight⟩ := parse_fits hsource hparse
      have hfits := Depth.Fits.root hnesting hheight
      obtain ⟨r, s₁, hrun₁, -⟩ := evalTree_sound e env hsound
      have hr := congrArg Prod.fst (run_eq_some_iff.1 hrun₁)
      refine ⟨r, hr, ?_⟩
      rw [result_evalTree, hsound.settings] at hr
      cases hcompiled with
      | @kept _ entry h =>
          -- the sessions before and after compiling differ, but not in the registry
          left
          obtain ⟨r', hrun', rfl⟩ := hcases
          have hr' := congrArg Prod.fst (run_eq_some_iff.1 hrun')
          rw [result_evalTree, hsound'.settings] at hr'
          have hagree : some r = some r' :=
            hr.symm.trans ((h.agree hfaithful hfits s s' ⟨rfl, hregistry⟩).1.trans hr')
          rw [Option.some.inj hagree]
      | failed hoptimize hnew h =>
          right
          refine ⟨hsound.settings ▸ hoptimize, hnew, ⟨_, _, hcases⟩, ?_⟩
          cases r with
          | error error => exact ⟨error, rfl⟩
          | ok v => exact absurd hr (h.no_value hfaithful hfits s s v ⟨rfl, rfl⟩)
      | tooTall h =>
          rw [hsound.settings] at h
          exact absurd h (Nat.not_lt.2 hheight)

/-- **Caching and folding are transparent.** Start from any evaluator without cached trees, and
    let all functions be functions of their arguments: those registered at the start and those
    that the history registers. Then, with enough fuel, every history runs to its end. After it,
    every source that fits in memory evaluates to what its parsed tree evaluates to, or fails to
    parse; the one difference is that a failing tree may fail in folding, if folding is set and
    the source is not cached. -/
theorem eval_transparent (host : Host σ β) (registry : Registry β) (config : Config)
    (history : List (Request β)) (hregistry : ∀ f ∈ registry.functions, host.Functional f)
    (hhistory : ∀ f, Request.register f ∈ history → host.Functional f) :
    ∃ enough, ∀ fuel ≥ enough, ∀ s₀ : Session σ β, s₀.vm = .new registry config →
      ∃ s, (host.performAll fuel history).run s₀ = some ((), s) ∧
        ∀ source env, source.length < maxSourceLength →
          ∃ outcome, ((host.perform fuel (.eval source env)).result s).1 = some outcome ∧
            match parse source config.maxDepth with
            | .error error => outcome = .error (.parse error)
            | .ok e => ∃ r, ((host.perform fuel (.evalTree e env)).result s).1 = some r ∧
                (outcome = r.mapError .eval ∨
                  (config.optimize = true ∧ s.vm.cache.find? source = none ∧
                    (∃ name why, outcome = .error (.eval (.fold (.call name why)))) ∧
                    ∃ error, r = .error error)) := by
  have hinitial : ∀ f ∈ registry.functions, ∃ enough, ∀ fuel ≥ enough, ∀ args, ∃ r,
      host.Gives AnyState fuel f args r := fun f hf => Computes.exists_gives (hregistry f hf)
  have hlater : ∀ f ∈ history.filterMap Request.registered?, ∃ enough, ∀ fuel ≥ enough, ∀ args,
      ∃ r, host.Gives AnyState fuel f args r :=
    fun f hf => Computes.exists_gives (hhistory f (Request.mem_filterMap_registered?.1 hf))
  -- finitely many functions take part in the history, so one amount of fuel is enough for all
  obtain ⟨n, hn⟩ := exists_enough hinitial
  obtain ⟨k, hk⟩ := exists_enough hlater
  refine ⟨max (max n k) 1, fun fuel hfuel s₀ hs₀ => ?_⟩
  obtain ⟨fuel, rfl⟩ : ∃ m, fuel = m + 1 := ⟨fuel - 1, by omega⟩
  have hsound : s₀.vm.Sound host (fuel + 1) config := by
    rw [hs₀]
    exact .new registry (hn (fuel + 1) (by omega))
  obtain ⟨s, hrun, hsound'⟩ := performAll_sound history
    (fun f hf => hk (fuel + 1) (by omega) f (Request.mem_filterMap_registered?.2 hf)) hsound
  exact ⟨s, hrun, fun source env hsource => eval_of_sound hsound' hsource env⟩

/-! ## A history with a function that keeps notes -/

/-- A host whose only code counts its calls and returns seven. -/
def tally : Host Nat Unit :=
  ⟨fun _ _ => .read fun n => .write (n + 1) (.done (.ok (.integer 7)))⟩

/-- The function with that code. -/
def seven : Function Unit := ⟨"seven", true, .nullary (.host ())⟩

theorem functional_seven : tally.Functional seven := by
  refine computes_of_runBody (fun _ => trivial) (fun _ => .ok (.integer 7)) ?_
  intro answer body args s hbody
  obtain rfl := Callable.body_of_select hbody
  exact ⟨{ s with host := s.host + 1 }, rfl, rfl, trivial⟩

/-- Folding with `seven`, removing it and registering it again does not show either. -/
theorem eval_transparent_seven :
    ∃ enough, ∀ fuel ≥ enough, ∀ s₀ : Session Nat Unit, s₀.vm = .new Registry.builtins .standard →
      ∃ s, (tally.performAll fuel [.register seven, .compile "abs(seven())", .remove "seven",
          .eval "seven()" .empty, .register seven, .clear]).run s₀ = some ((), s) ∧
        ∀ source env, source.length < maxSourceLength →
          ∃ outcome, ((tally.perform fuel (.eval source env)).result s).1 = some outcome := by
  have hhistory : ∀ f, Request.register f ∈ [.register seven, .compile "abs(seven())",
      .remove "seven", .eval "seven()" .empty, .register seven, .clear] → tally.Functional f := by
    intro f hf
    obtain rfl : f = seven := by simpa using hf
    exact functional_seven
  obtain ⟨enough, h⟩ := eval_transparent tally Registry.builtins .standard _
    (fun f hf => (pure_of_mem_builtins hf).functional) hhistory
  refine ⟨enough, fun fuel hfuel s₀ hs₀ => ?_⟩
  obtain ⟨s, hrun, hs⟩ := h fuel hfuel s₀ hs₀
  refine ⟨s, hrun, fun source env hsource => ?_⟩
  obtain ⟨outcome, houtcome, -⟩ := hs source env hsource
  exact ⟨outcome, houtcome⟩

end Host

end FormulaLang
