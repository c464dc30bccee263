import FormulaLang.Proofs.Folding.Folded
import FormulaLang.Proofs.Session.Run

/-!
# `Session.Purity` — functions that only compute

What a function of the host does is known from running it: `Host.Computes` says that, given enough
fuel, it returns what its arguments determine and leaves the evaluator as it was, and that it
leaves the host in a state not told apart from the one before. How much is told apart is left
open. A function that may do with the host as it likes is `Functional`; a `Pure` one leaves no
trace anywhere.

Registries are finite, so some amount of fuel is enough for all functions of one
(`exists_enough`).

- **`computes_of_runBody`**, **`pure_of_runBody`**: what the body does decides.
-/

namespace FormulaLang

variable {σ β : Type}

/-- The body of a callable, whatever its shape. -/
def Callable.body : Callable β → Body β
  | .nullary body | .unary body | .binary body | .ternary body | .variadic body => body

theorem Callable.body_of_select {callable : Callable β} {args : List Value} {body : Body β}
    (h : callable.select args = some body) : callable.body = body := by
  unfold Callable.select at h
  split at h <;> simp_all [Callable.body]

/-! ## Purity -/

namespace Host

/-- With this much fuel, the call returns the result from every session, and leaves the evaluator
    as it was and the host in a state that is not told apart from the one before. -/
def Gives (host : Host σ β) (Alike : σ → σ → Prop) (fuel : Nat) (f : Function β) (args : List Value)
    (r : Except FunctionError Value) : Prop :=
  ∀ s, ∃ s', (host.call fuel f args).run s = some (r, s') ∧ s'.vm = s.vm ∧ Alike s.host s'.host

/-- What the function returns depends on its arguments alone; it leaves the evaluator as it was,
    and the state of the host as far as that is told apart. -/
def Computes (host : Host σ β) (Alike : σ → σ → Prop) (f : Function β) : Prop :=
  ∃ (result : List Value → Except FunctionError Value) (enough : Nat),
    ∀ fuel ≥ enough, ∀ args, host.Gives Alike fuel f args (result args)

/-- No two states of the host are told apart. -/
def AnyState (_ _ : σ) : Prop := True

theorem anyState_equivalence : Equivalence (AnyState : σ → σ → Prop) :=
  ⟨fun _ => trivial, fun _ => trivial, fun _ _ => trivial⟩

/-- A function of its arguments without any effect on the evaluator. -/
def Functional (host : Host σ β) (f : Function β) : Prop := host.Computes AnyState f

/-- A function of its arguments without any effect, on the evaluator or on the host. -/
def Pure (host : Host σ β) (f : Function β) : Prop := host.Computes Eq f

/-- Whatever else the function does, it leaves a registry that is allowed if it found one. -/
def StaysIn (host : Host σ β) (Allowed : Registry β → Prop) (f : Function β) : Prop :=
  ∀ fuel args s r s', Allowed s.vm.registry → (host.call fuel f args).run s = some (r, s') →
    Allowed s'.vm.registry

/-- With this much fuel the function returns, whatever it is called with and wherever. -/
def Returns (host : Host σ β) (fuel : Nat) (f : Function β) : Prop :=
  ∀ args s, ∃ r, ((host.call fuel f args).result s).1 = some r

variable {host : Host σ β} {f : Function β}

theorem Computes.mono {Alike Alike' : σ → σ → Prop} (halike : ∀ a b, Alike a b → Alike' a b)
    (h : host.Computes Alike f) : host.Computes Alike' f := by
  obtain ⟨result, enough, hgives⟩ := h
  refine ⟨result, enough, fun fuel hfuel args s => ?_⟩
  obtain ⟨s', hrun, hvm, hhost⟩ := hgives fuel hfuel args s
  exact ⟨s', hrun, hvm, halike _ _ hhost⟩

theorem Pure.functional (h : host.Pure f) : host.Functional f :=
  Computes.mono (fun _ _ _ => trivial) h

/-- A call gives what the body of the function comes to. -/
theorem gives_of_runBody {Alike : σ → σ → Prop} {args : List Value} {body : Body β}
    {r : Except FunctionError Value} {fuel : Nat} (hbody : f.callable.select args = some body)
    (h : ∀ answer s, ∃ s', (host.runBody answer body args).result s = (some r, s') ∧
      s'.vm = s.vm ∧ Alike s.host s'.host) : host.Gives Alike (fuel + 1) f args r := by
  intro s
  obtain ⟨s', hresult, hvm, hhost⟩ := h
    (fun r => Session.perform (fun f args => host.call fuel f args) fuel r)
    ⟨s.vm, s.host, ⟨.called f args, s.vm⟩ :: s.journal⟩
  refine ⟨{ s' with journal := ⟨.returned f args r, s'.vm⟩ :: s'.journal }, ?_, hvm, hhost⟩
  rw [call, invoke]
  simp only [Run.run_eq_some_iff, hbody, Run.result_bind, Run.result_record, Run.after, hresult]
  rfl

/-- A call with arguments that the function does not take fails and does nothing. -/
theorem gives_countError {Alike : σ → σ → Prop} (halike : ∀ a, Alike a a) {args : List Value}
    (fuel : Nat) (h : f.callable.select args = none) :
    host.Gives Alike (fuel + 1) f args (.error (f.arity.countError f.name args.length)) := by
  intro s
  refine ⟨s, ?_, rfl, halike _⟩
  rw [call, invoke]
  simp only [h]
  rfl

/-- A function computes if its body does. -/
theorem computes_of_runBody {Alike : σ → σ → Prop} (halike : ∀ a, Alike a a)
    (result : List Value → Except FunctionError Value)
    (h : ∀ answer body args s, f.callable.select args = some body →
      ∃ s', (host.runBody answer body args).result s = (some (result args), s') ∧ s'.vm = s.vm ∧
        Alike s.host s'.host) : host.Computes Alike f := by
  refine ⟨fun args => (f.callable.select args).elim (.error (f.arity.countError f.name args.length))
    fun _ => result args, 1, fun fuel hfuel args => ?_⟩
  -- one call deep is enough, since the body asks nothing that needs more
  obtain ⟨fuel, rfl⟩ : ∃ n, fuel = n + 1 := ⟨fuel - 1, by omega⟩
  dsimp only
  cases hbody : f.callable.select args with
  | none => exact gives_countError halike fuel hbody
  | some body => exact gives_of_runBody hbody fun answer s => h answer body args s hbody

/-- **A function is pure if its body only returns,** that is, if it is a builtin or code of the
    host that asks nothing and leaves the state of the host alone. -/
theorem pure_of_runBody {result : List Value → Except FunctionError Value}
    (h : ∀ answer body args, f.callable.select args = some body →
      host.runBody answer body args = pure (result args)) : host.Pure f := by
  refine computes_of_runBody (fun _ => rfl) result fun answer body args s hbody => ?_
  refine ⟨s, ?_, rfl, rfl⟩
  rw [h answer body args hbody]
  rfl

/-- A function stays in what is allowed if its body leaves the registry alone. -/
theorem staysIn_of_runBody {Allowed : Registry β → Prop}
    (h : ∀ answer body args s, f.callable.select args = some body →
      ((host.runBody answer body args).after s).vm.registry = s.vm.registry) :
    host.StaysIn Allowed f := by
  intro fuel args s r s' hs hrun
  have hregistry : s'.vm.registry = s.vm.registry := by
    rw [Run.run_eq_some_iff] at hrun
    obtain rfl : ((host.call fuel f args).result s).2 = s' := congrArg Prod.snd hrun
    cases fuel with
    | zero => rfl
    | succ fuel =>
        rw [call, invoke]
        cases hbody : f.callable.select args with
        | none => rfl
        | some body =>
            simp only [Run.result_bind, Run.after, Run.result_record]
            rw [← h _ body args ⟨s.vm, s.host, ⟨.called f args, s.vm⟩ :: s.journal⟩ hbody,
              Run.after]
            cases (host.runBody _ body args).result _ with
            | mk r s' =>
                cases r with
                | none => rfl
                | some r => rfl
  rw [hregistry]
  exact hs

/-- Builtin functions are pure, whatever the host. -/
theorem pure_of_mem_builtins (hf : f ∈ Registry.builtins.functions) : host.Pure f := by
  obtain ⟨builtin, -, rfl⟩ := List.mem_map.1 hf
  have hresult : ∀ answer body args, (builtin.callable : Callable β).select args = some body →
      host.runBody answer body args = pure (builtin.result args) := by
    intro answer body args hbody
    obtain rfl : body = .builtin builtin := by
      rw [← Callable.body_of_select hbody]
      cases builtin <;> rfl
    rfl
  exact pure_of_runBody hresult

end Host

/-! ## Enough fuel -/

/-- What holds of each of finitely many functions from some amount of fuel on holds of all of them
    from some amount on. -/
theorem exists_enough {fs : List (Function β)} {P : Nat → Function β → Prop}
    (h : ∀ f ∈ fs, ∃ enough, ∀ fuel ≥ enough, P fuel f) :
    ∃ enough, ∀ fuel ≥ enough, ∀ f ∈ fs, P fuel f := by
  induction fs with
  | nil => exact ⟨0, by simp⟩
  | cons f fs ih =>
      obtain ⟨hf, hfs⟩ := List.forall_mem_cons.1 h
      obtain ⟨n, hn⟩ := hf
      obtain ⟨k, hk⟩ := ih hfs
      refine ⟨max n k, fun fuel hfuel => List.forall_mem_cons.2 ⟨hn fuel ?_, hk fuel ?_⟩⟩
      · omega
      · omega

theorem Registry.mem_of_get? {registry : Registry β} {name : String} {f : Function β}
    (h : registry.get? name = some f) : f ∈ registry.functions :=
  List.mem_of_find?_eq_some h

/-! ## Total correctness -/

/-- Having an outcome, as a way to reason about programs that keep an invariant of the evaluator. -/
def Run.totalLogic (Inv : Vm β → Prop) : ProgramLogic (Run σ β) where
  World := Unit
  Later _ _ := True
  Sat x _ Q := ∀ s, Inv s.vm → ∃ a s', x.run s = some (a, s') ∧ Inv s'.vm ∧ Q a ()
  sat_pure {α a _ Q} h s hs := ⟨a, s, rfl, hs, h⟩
  sat_bind {α γ x f _ Q R} hx hf s hs := by
    obtain ⟨a, s', hrun, hs', ha⟩ := hx s hs
    obtain ⟨c, s'', hrun', hs'', hc⟩ := hf a () trivial ha s' hs'
    refine ⟨c, s'', ?_, hs'', hc⟩
    rw [Run.run_eq_some_iff] at hrun hrun' ⊢
    rw [Run.result_bind, Run.after, hrun]
    exact hrun'

end FormulaLang
