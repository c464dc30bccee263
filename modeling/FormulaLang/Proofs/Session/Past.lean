import FormulaLang.Proofs.Folding.Folded
import FormulaLang.Proofs.Session.Run

/-!
# `Session.Past` — a session never asks what has happened

The journal before a step stays where it is, what happens in the step is added to it, and nothing
in the step depends on what it says: the step `IgnoresPast`. This holds of the primitive steps and
passes through sequences, so it holds of everything an evaluator does, at every amount of fuel.

- **`ignoresPast_call`**, **`ignoresPast_perform`**: calls of functions and requests ignore the
  past.
-/

namespace FormulaLang

variable {σ β : Type}

/-- The session if more had happened before. -/
def Session.on (s : Session σ β) (past : List (Line β)) : Session σ β :=
  { s with journal := s.journal ++ past }

namespace Run

variable {α γ : Type}

/-- What happened before a step stays in the journal and has no effect on the step. -/
def IgnoresPast (x : Run σ β α) : Prop :=
  ∀ s past, x.result (s.on past) = ((x.result s).1, (x.after s).on past)

/-! ## Primitive steps and sequences -/

theorem ignoresPast_pure (a : α) : (pure a : Run σ β α).IgnoresPast := fun _ _ => rfl

theorem ignoresPast_exhausted : (Session.exhausted : Run σ β α).IgnoresPast := fun _ _ => rfl

theorem ignoresPast_update (vm : Vm β) (event : Event β) :
    (Session.update vm event : Run σ β Unit).IgnoresPast := fun _ _ => rfl

theorem ignoresPast_record (event : Event β) :
    (Session.record event : Run σ β Unit).IgnoresPast := fun _ _ => rfl

/-- What follows a step has to ignore the past only for results that the step can have. -/
theorem ignoresPast_bind {x : Run σ β α} {f : α → Run σ β γ} (hx : x.IgnoresPast)
    (hf : ∀ s a, (x.result s).1 = some a → (f a).IgnoresPast) : (x >>= f).IgnoresPast := by
  intro s past
  rw [after, result_bind, result_bind, after, hx s past]
  cases h : (x.result s).1 with
  | none => rfl
  | some a => exact hf s a h (x.after s) past

theorem ignoresPast_seq {x : Run σ β α} {f : α → Run σ β γ} (hx : x.IgnoresPast)
    (hf : ∀ a, (f a).IgnoresPast) : (x >>= f).IgnoresPast :=
  ignoresPast_bind hx fun _ a _ => hf a

/-- A look at the session is blind to the past if it is for the evaluator or the host. -/
theorem ignoresPast_look {k : Session σ β → Run σ β γ} (hk : ∀ s past, k (s.on past) = k s)
    (h : ∀ s, (k s).IgnoresPast) : (get >>= k).IgnoresPast := by
  intro s past
  rw [after, result_get_bind, result_get_bind, hk]
  exact h s s past

/-- Sessions that differ only in what has happened go on in the same way. -/
theorem IgnoresPast.same {x : Run σ β α} (h : x.IgnoresPast) {s s' : Session σ β}
    (hvm : s.vm = s'.vm) (hhost : s.host = s'.host) :
    (x.result s).1 = (x.result s').1 ∧ (x.after s).vm = (x.after s').vm ∧
      (x.after s).host = (x.after s').host := by
  obtain ⟨vm, state, journal⟩ := s
  obtain ⟨vm', state', journal'⟩ := s'
  obtain rfl : vm = vm' := hvm
  obtain rfl : state = state' := hhost
  -- both are one session without a journal, with another past
  have hs := h ⟨vm, state, []⟩ journal
  have hs' := h ⟨vm, state, []⟩ journal'
  simp only [Session.on, List.nil_append] at hs hs'
  rw [after, after, hs, hs']
  exact ⟨rfl, rfl, rfl⟩

/-- What was in the journal before stays there. -/
theorem IgnoresPast.journal {x : Run σ β α} (h : x.IgnoresPast) (s : Session σ β) :
    ∃ later, (x.after s).journal = later ++ s.journal := by
  have hs := h ⟨s.vm, s.host, []⟩ s.journal
  rw [Session.on, List.nil_append] at hs
  refine ⟨(x.after ⟨s.vm, s.host, []⟩).journal, ?_⟩
  rw [after, hs]
  rfl

/-- Ignoring the past, as a way to reason about evaluation and folding. -/
def pastLogic : ProgramLogic (Run σ β) where
  World := Unit
  Later _ _ := True
  Sat x _ Q := x.IgnoresPast ∧ ∀ s a, (x.result s).1 = some a → Q a ()
  sat_pure {α a _ Q} h := by
    refine ⟨ignoresPast_pure a, fun s a' hresult => ?_⟩
    cases hresult
    exact h
  sat_bind {α γ x f _ Q R} hx hf := by
    refine ⟨ignoresPast_bind hx.1 fun s a h => (hf a () trivial (hx.2 s a h)).1, ?_⟩
    intro s c hresult
    obtain ⟨a, h, hresult⟩ := result_bind_eq_some_iff.1 hresult
    exact (hf a () trivial (hx.2 s a h)).2 (x.after s) c hresult

theorem pastLogic_sat {x : Run σ β α} :
    pastLogic.Sat x () (fun _ _ => True) ↔ x.IgnoresPast := by
  simp [pastLogic]

end Run

/-! ## The evaluator -/

namespace Session
open Run

theorem ignoresPast_register (f : Function β) : (register f : Run σ β _).IgnoresPast := by
  refine ignoresPast_look (fun _ _ => rfl) fun s => ?_
  cases s.vm.register f with
  | error error => exact ignoresPast_pure _
  | ok vm => exact ignoresPast_seq (ignoresPast_update vm _) fun _ => ignoresPast_pure _

theorem ignoresPast_remove (name : String) : (remove name : Run σ β _).IgnoresPast := by
  refine ignoresPast_look (fun _ _ => rfl) fun s => ?_
  dsimp only
  split
  · exact ignoresPast_seq (ignoresPast_update _ _) fun _ => ignoresPast_pure _
  · exact ignoresPast_pure _

theorem ignoresPast_clear : (clear : Run σ β _).IgnoresPast :=
  ignoresPast_look (fun _ _ => rfl) fun _ => ignoresPast_update _ _

theorem ignoresPast_store (source : String) (tree : Expr) (against : Option (Registry β)) :
    (store source tree against : Run σ β _).IgnoresPast :=
  ignoresPast_look (fun _ _ => rfl) fun _ =>
    ignoresPast_seq (ignoresPast_update _ _) fun _ => ignoresPast_pure _

section
variable {call : Caller (Run σ β) β} (hcall : ∀ f args, (call f args).IgnoresPast)
include hcall

theorem ignoresPast_fold (registry : Registry β) (maxDepth : Nat) (e : Expr) :
    (e.fold call registry maxDepth).IgnoresPast := by
  refine (pastLogic.sat_fold (fun _ _ _ _ => True) (fun _ _ _ => le_rfl) ?_ () maxDepth e).1
  exact fun _ name f values _ _ _ => pastLogic_sat.2 (hcall f values)

theorem ignoresPast_foldAndStore (source : String) (tree : Expr) (rounds : Nat) :
    (foldAndStore call source tree rounds).IgnoresPast := by
  induction rounds with
  | zero => exact ignoresPast_exhausted
  | succ rounds ih =>
      refine ignoresPast_look (fun _ _ => rfl) fun before => ?_
      refine ignoresPast_seq (ignoresPast_fold hcall _ _ tree) fun r => ?_
      cases r with
      | error error => exact ignoresPast_pure _
      | ok folded =>
          refine ignoresPast_look (fun _ _ => rfl) fun s => ?_
          split
          · exact ignoresPast_seq (ignoresPast_store source folded _) fun _ => ignoresPast_pure _
          · exact ih

theorem ignoresPast_compile (rounds : Nat) (source : String) :
    (compile call rounds source).IgnoresPast := by
  refine ignoresPast_look (fun _ _ => rfl) fun s => ?_
  dsimp only
  cases s.vm.cache.find? source with
  | some entry => exact ignoresPast_seq (ignoresPast_record _) fun _ => ignoresPast_pure _
  | none =>
      cases parse source s.vm.config.maxDepth with
      | error error => exact ignoresPast_pure _
      | ok tree =>
          dsimp only
          split
          · exact ignoresPast_foldAndStore hcall source tree rounds
          · exact ignoresPast_seq (ignoresPast_store source tree _) fun _ => ignoresPast_pure _

theorem ignoresPast_evalTree (tree : Expr) (env : Env) :
    (evalTree call tree env).IgnoresPast := by
  refine ignoresPast_look (fun _ _ => rfl) fun s => ?_
  have hfind : ∀ name, ((surroundings call).find name).IgnoresPast := fun name =>
    ignoresPast_look (fun _ _ => rfl) fun _ => ignoresPast_pure _
  refine pastLogic_sat.1 (pastLogic.sat_eval (fun _ => True) ?_ ?_ () _ env tree)
  · exact fun _ name => ⟨hfind name, fun _ _ _ _ _ => trivial⟩
  · exact fun _ f values _ => pastLogic_sat.2 (hcall f values)

theorem ignoresPast_eval (rounds : Nat) (source : String) (env : Env) :
    (eval call rounds source env).IgnoresPast := by
  refine ignoresPast_seq (ignoresPast_compile hcall rounds source) fun r => ?_
  cases r with
  | error error => exact ignoresPast_pure _
  | ok entry =>
      refine ignoresPast_seq (ignoresPast_evalTree hcall entry.tree env) fun r => ?_
      cases r with
      | error error => exact ignoresPast_pure _
      | ok v => exact ignoresPast_pure _

/-- A request ignores the past if the functions it may run do. -/
theorem ignoresPast_perform (rounds : Nat) (r : Request β) :
    (perform call rounds r).IgnoresPast := by
  cases r with
  | eval source env => exact ignoresPast_eval hcall rounds source env
  | compile source => exact ignoresPast_compile hcall rounds source
  | evalTree tree env => exact ignoresPast_evalTree hcall tree env
  | register f => exact ignoresPast_register f
  | remove name => exact ignoresPast_remove name
  | clear => exact ignoresPast_clear
  | has name => exact ignoresPast_look (fun _ _ => rfl) fun _ => ignoresPast_pure _
  | size => exact ignoresPast_look (fun _ _ => rfl) fun _ => ignoresPast_pure _

end

end Session

/-! ## Host code -/

open Run

theorem Script.ignoresPast_run {answer : (r : Request β) → Run σ β r.Reply}
    (hanswer : ∀ r, (answer r).IgnoresPast) (script : Script σ β) :
    (script.run answer).IgnoresPast := by
  induction script with
  | done result => exact ignoresPast_pure _
  | read next ih => exact ignoresPast_look (fun _ _ => rfl) fun s => ih s.host
  | write state next ih => exact ignoresPast_seq (fun _ _ => rfl) fun _ => ih
  | request r next ih => exact ignoresPast_seq (hanswer r) fun reply => ih reply

namespace Host

theorem ignoresPast_runBody (host : Host σ β) {answer : (r : Request β) → Run σ β r.Reply}
    (hanswer : ∀ r, (answer r).IgnoresPast) (body : Body β) (args : List Value) :
    (host.runBody answer body args).IgnoresPast := by
  cases body with
  | builtin builtin => exact ignoresPast_pure _
  | host code => exact Script.ignoresPast_run hanswer _

theorem ignoresPast_invoke (host : Host σ β) {answer : (r : Request β) → Run σ β r.Reply}
    (hanswer : ∀ r, (answer r).IgnoresPast) (f : Function β) (args : List Value) :
    (host.invoke answer f args).IgnoresPast := by
  unfold invoke
  cases f.callable.select args with
  | none => exact ignoresPast_pure _
  | some body =>
      refine ignoresPast_seq (ignoresPast_record _) fun _ => ?_
      refine ignoresPast_seq (host.ignoresPast_runBody hanswer body args) fun result => ?_
      exact ignoresPast_seq (ignoresPast_record _) fun _ => ignoresPast_pure _

/-- **Calls ignore the past,** whatever the function does. -/
theorem ignoresPast_call (host : Host σ β) (fuel : Nat) (f : Function β) (args : List Value) :
    (host.call fuel f args).IgnoresPast := by
  -- the requests of a function are answered with one call less
  induction fuel generalizing f args with
  | zero => exact ignoresPast_exhausted
  | succ fuel ih =>
      exact host.ignoresPast_invoke (Session.ignoresPast_perform ih fuel) f args

/-- **Requests ignore the past,** whatever the functions do that they run. -/
theorem ignoresPast_perform (host : Host σ β) (fuel : Nat) (r : Request β) :
    (host.perform fuel r).IgnoresPast :=
  Session.ignoresPast_perform (host.ignoresPast_call fuel) fuel r

end Host

end FormulaLang
