import FormulaLang.Proofs.Session.Purity

/-!
# `Session.Silence` — functions that do not call back

Code of the host that never turns to the evaluator is on its own: what it returns, and the state it
leaves the host in, follow from its arguments and the state it finds (`Script.alone`). It may keep
a state, and return something else every time. But it can neither see nor change an evaluator, so
a call of such a function (`Host.Silent`) does the same whichever evaluator runs it, ends with fuel
for one call, and leaves the evaluator as it was.

- **`Silent.result_call`**: what a call comes to.
- **`Silent.result_call_of_select`**: and what is written of it.
-/

namespace FormulaLang
open Run

variable {σ β : Type}

/-- What a script returns from a state of the host, and the state it leaves, if it gets there
    without turning to the evaluator. -/
def Script.alone : Script σ β → σ → Option (Except FunctionError Value × σ)
  | .done result, state => some (result, state)
  | .read next, state => (next state).alone state
  | .write state next, _ => next.alone state
  | .request _ _, _ => none

/-- Whoever might answer, a script on its own asks nothing and leaves the evaluator alone. -/
theorem Script.result_run_of_alone {answer : (r : Request β) → Run σ β r.Reply}
    {script : Script σ β} {s : Session σ β} {r : Except FunctionError Value} {state : σ}
    (h : script.alone s.host = some (r, state)) :
    (script.run answer).result s = (some r, { s with host := state }) := by
  induction script generalizing s with
  | done result =>
      cases h
      rfl
  | read next ih =>
      rw [Script.run, result_get_bind]
      exact ih s.host h
  | write state' next ih =>
      have hnext : next.alone state' = some (r, state) := h
      show (next.run answer).result { s with host := state' } = _
      exact ih hnext
  | request request next => cases h

namespace Host

variable {host : Host σ β} {f : Function β}

/-- The function is a builtin, or code of the host that never turns to the evaluator, whatever its
    arguments are and the state it finds. -/
def Silent (host : Host σ β) (f : Function β) : Prop :=
  ∀ code, f.callable.body = .host code →
    ∀ args state, ((host.behave code args).alone state).isSome = true

theorem silent_of_mem_builtins (hf : f ∈ Registry.builtins.functions) : host.Silent f := by
  intro code hcode
  obtain ⟨builtin, -, rfl⟩ := List.mem_map.1 hf
  cases builtin <;> cases hcode

/-- A silent body does the same in every session whose host is in the given state. -/
theorem Silent.result_runBody (h : host.Silent f) {args : List Value} {body : Body β}
    (hbody : f.callable.select args = some body) (state : σ) :
    ∃ r state', ∀ answer (s : Session σ β), s.host = state →
      (host.runBody answer body args).result s = (some r, { s with host := state' }) := by
  cases body with
  | builtin builtin =>
      refine ⟨builtin.result args, state, ?_⟩
      rintro answer s rfl
      rfl
  | host code =>
      have hcode := Callable.body_of_select hbody
      obtain ⟨⟨r, state'⟩, halone⟩ := Option.isSome_iff_exists.1 (h code hcode args state)
      refine ⟨r, state', ?_⟩
      rintro answer s rfl
      exact Script.result_run_of_alone halone

/-- A call with arguments that the function takes leaves two lines, and nothing else but a state of
    the host. -/
theorem Silent.result_call_of_select (h : host.Silent f) {args : List Value} {body : Body β}
    (hbody : f.callable.select args = some body) (state : σ) :
    ∃ r state', ∀ fuel (s : Session σ β), s.host = state →
      (host.call (fuel + 1) f args).result s = (some r, ⟨s.vm, state',
        ⟨.returned f args r, s.vm⟩ :: ⟨.called f args, s.vm⟩ :: s.journal⟩) := by
  obtain ⟨r, state', hresult⟩ := h.result_runBody hbody state
  refine ⟨r, state', ?_⟩
  rintro fuel s rfl
  have hrun := hresult
    (fun r => Session.perform (fun f args => host.call fuel f args) fuel r)
    ⟨s.vm, s.host, ⟨.called f args, s.vm⟩ :: s.journal⟩ rfl
  rw [call, invoke]
  simp only [hbody, result_bind, result_record, after, hrun]
  rfl

/-- **A call of a silent function comes to what its arguments and the state of the host determine,
    and leaves the evaluator as it was.** -/
theorem Silent.result_call (h : host.Silent f) (args : List Value) (state : σ) :
    ∃ r state', ∀ fuel (s : Session σ β), s.host = state →
      ∃ journal, (host.call (fuel + 1) f args).result s = (some r, ⟨s.vm, state', journal⟩) := by
  cases hbody : f.callable.select args with
  | none =>
      refine ⟨.error (f.arity.countError f.name args.length), state, ?_⟩
      rintro fuel s rfl
      refine ⟨s.journal, ?_⟩
      rw [call, invoke]
      simp only [hbody]
      rfl
  | some body =>
      obtain ⟨r, state', hresult⟩ := h.result_call_of_select hbody state
      exact ⟨r, state', fun fuel s hs => ⟨_, hresult fuel s hs⟩⟩

theorem Silent.returns (h : host.Silent f) (fuel : Nat) : host.Returns (fuel + 1) f := by
  intro args s
  obtain ⟨r, state', hresult⟩ := h.result_call args s.host
  obtain ⟨journal, hresult⟩ := hresult fuel s rfl
  exact ⟨r, congrArg Prod.fst hresult⟩

/-- A silent function changes no registry. -/
theorem Silent.staysIn (h : host.Silent f) (Allowed : Registry β → Prop) :
    host.StaysIn Allowed f := by
  intro fuel args s r s' hs hrun
  rw [run_eq_some_iff] at hrun
  cases fuel with
  | zero => cases congrArg Prod.fst hrun
  | succ fuel =>
      obtain ⟨r', state', hresult⟩ := h.result_call args s.host
      obtain ⟨journal, hresult⟩ := hresult fuel s rfl
      rw [hresult] at hrun
      cases hrun
      exact hs

end Host

end FormulaLang
