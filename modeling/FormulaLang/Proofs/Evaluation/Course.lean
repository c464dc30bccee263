import FormulaLang.Proofs.Evaluation.Steps
import FormulaLang.Proofs.Folding.Preservation

/-!
# `Evaluation.Course` — evaluation makes its steps in order

A `Course` tells what an evaluation did from one session to another: the calls it made, one after
the other, each of the function found for it and with the values that its arguments were evaluated
to, and how far it got through its steps. This holds whatever the functions do, also if they turn to
the evaluator or change its registry. All that evaluation relies on is that registries stay among
those that are allowed.

- **`evalAt_follows`**: evaluating a tree follows the steps of the tree.
-/

namespace FormulaLang
open Run

variable {σ β : Type}

/-- A call that was made: which call of the tree, the function that ran, the values it was given,
    and what it returned. -/
structure Invocation (β : Type) where
  node : CallNode
  f : Function β
  values : List Value
  result : Except FunctionError Value

/-- Runs from a definite session, as a way to reason about programs: what holds of every end. -/
def Run.runLogic : ProgramLogic (Run σ β) where
  World := Session σ β
  Later _ _ := True
  Sat x s Q := ∀ a s', x.run s = some (a, s') → Q a s'
  sat_pure {α a s Q} h a' s' hrun := by
    rw [run_eq_some_iff] at hrun
    cases hrun
    exact h
  sat_bind {α γ x f s Q R} hx hf c s' hrun := by
    rw [run_eq_some_iff] at hrun
    obtain ⟨a, ha, -⟩ := result_bind_eq_some_iff.1 (congrArg Prod.fst hrun)
    rw [result_bind, ha] at hrun
    have hfirst : x.run s = some (a, x.after s) := run_eq_some_iff.2 (Prod.ext ha rfl)
    exact hf a (x.after s) trivial (hx a _ hfirst) c s' (run_eq_some_iff.2 hrun)

section
variable (call : Caller (Run σ β) β)

/-- The calls are made one after the other, from the first session to the last. -/
inductive Makes : Session σ β → List (Invocation β) → Session σ β → Prop where
  | nil (s : Session σ β) : Makes s [] s
  | cons {s t s' : Session σ β} {c : Invocation β} {calls : List (Invocation β)}
      (run : (call c.f c.values).run s = some (c.result, t)) (rest : Makes t calls s') :
      Makes s (c :: calls) s'

variable (Allowed : Registry β → Prop) (maxDepth : Nat) (env : Env)

/-- How the call came about that was made after the calls `before` from the session `s` on. After
    some of them, its function was found in an allowed registry and takes as many arguments. From
    there its arguments were evaluated to its values, by all their calls and no other ones, and then
    it was made. -/
def Invocation.Explained (c : Invocation β) (s : Session σ β) (before : List (Invocation β)) :
    Prop :=
  ∃ earlier during t t' inside, before = earlier ++ during ∧ Makes call s earlier t ∧
    Makes call t during t' ∧ during.map Invocation.node = Expr.argsCalls c.node.args ∧
    Allowed t.vm.registry ∧
    t.vm.registry.resolve c.node.name c.node.args.length = .ok c.f ∧
    (Expr.evalArgs (Session.surroundings call) maxDepth env inside c.node.args).run.run t =
      some (.ok c.values, t')

/-- What an evaluation did between two sessions. -/
structure Course {α : Type} (steps : List Step) (r : Except EvalError α) (s : Session σ β)
    (calls : List (Invocation β)) (s' : Session σ β) : Prop where
  makes : Makes call s calls s'
  explained : ∀ before c after, calls = before ++ c :: after →
    c.Explained call Allowed maxDepth env s before
  ended : Ended Allowed maxDepth steps (calls.map Invocation.node) r
  allowed : Allowed s'.vm.registry

/-- A function of an allowed registry leaves an allowed registry if it found one. -/
def KeepsAllowed : Prop :=
  ∀ registry name f, Allowed registry → registry.get? name = some f →
    ∀ values s r s', Allowed s.vm.registry → (call f values).run s = some (r, s') →
      Allowed s'.vm.registry

/-- From an allowed registry, the program takes a course through the steps, if it ends. -/
def Follows {α : Type} (steps : List Step) (x : ExceptT EvalError (Run σ β) α) : Prop :=
  ∀ s : Session σ β, Allowed s.vm.registry → runLogic.Sat x.run s fun r s' =>
    ∃ calls, Course call Allowed maxDepth env steps r s calls s'

end

section
variable {call : Caller (Run σ β) β} {Allowed : Registry β → Prop} {maxDepth : Nat} {env : Env}
variable {α γ : Type} {s t s' : Session σ β} {steps later : List Step}
variable {calls calls' : List (Invocation β)}

theorem Makes.append (h : Makes call s calls t) (h' : Makes call t calls' s') :
    Makes call s (calls ++ calls') s' := by
  induction h with
  | nil => exact h'
  | cons run _ ih => exact .cons run (ih h')

/-- Calls that were made before do not matter for how a call came about. -/
theorem Invocation.Explained.after {c : Invocation β} {before : List (Invocation β)}
    (h : c.Explained call Allowed maxDepth env t before) (hmakes : Makes call s calls t) :
    c.Explained call Allowed maxDepth env s (calls ++ before) := by
  obtain ⟨earlier, during, u, u', inside, rfl, hearlier, hrest⟩ := h
  exact ⟨calls ++ earlier, during, u, u', inside, (List.append_assoc ..).symm,
    hmakes.append hearlier, hrest⟩

/-! ## Courses -/

namespace Course

/-- Steps that run no function. -/
theorem still {r : Except EvalError α} (hs : Allowed s.vm.registry)
    (h : Ended Allowed maxDepth steps [] r) :
    Course call Allowed maxDepth env steps r s [] s where
  makes := .nil s
  explained := by simp
  ended := h
  allowed := hs

theorem append {a : α} {r : Except EvalError γ}
    (h : Course call Allowed maxDepth env steps (.ok a) s calls t)
    (h' : Course call Allowed maxDepth env later r t calls' s') :
    Course call Allowed maxDepth env (steps ++ later) r s (calls ++ calls') s' where
  makes := h.makes.append h'.makes
  explained := by
    refine forall_split_append h.explained fun before c after heq => ?_
    exact (h'.explained before c after heq).after h.makes
  ended := by
    rw [List.map_append]
    exact h.ended.append h'.ended
  allowed := h'.allowed

/-- An error ends the course, whatever steps there would be. -/
theorem append_error {error : EvalError}
    (h : Course call Allowed maxDepth env steps (.error error : Except _ α) s calls s') :
    Course call Allowed maxDepth env (steps ++ later) (.error error : Except _ γ) s calls s' where
  makes := h.makes
  explained := h.explained
  ended := h.ended.append_error
  allowed := h.allowed

end Course

/-! ## Programs that follow steps -/

theorem follows_pure (a : α) :
    Follows call Allowed maxDepth env [] (pure a : ExceptT EvalError (Run σ β) α) :=
  fun _ hs => runLogic.sat_ok ⟨[], .still hs (.nil a)⟩

theorem Follows.seq {x : ExceptT EvalError (Run σ β) α} {f : α → ExceptT EvalError (Run σ β) γ}
    (hx : Follows call Allowed maxDepth env steps x)
    (hf : ∀ a, Follows call Allowed maxDepth env later (f a)) :
    Follows call Allowed maxDepth env (steps ++ later) (x >>= f) := by
  intro s hs
  refine runLogic.sat_seq (hx s hs) ?_ ?_
  · rintro error s' ⟨calls, hcourse⟩
    exact ⟨calls, hcourse.append_error⟩
  · rintro a t - ⟨calls, hcourse⟩
    refine runLogic.sat_mono (hf a t hcourse.allowed) ?_
    rintro r s' ⟨calls', hcourse'⟩
    exact ⟨calls ++ calls', hcourse.append hcourse'⟩

/-- A step that passes, and runs no function. -/
theorem Follows.pass {step : Step} {x : ExceptT EvalError (Run σ β) α} (hcall : step.call? = none)
    (hpasses : step.Passes Allowed maxDepth)
    (hx : Follows call Allowed maxDepth env steps x) :
    Follows call Allowed maxDepth env (step :: steps) x := by
  intro s hs
  have hended : Ended Allowed maxDepth [step] [] (.ok () : Except _ Unit) := by
    have hpass := Ended.pass hpasses ()
    rwa [Step.calls_singleton hcall] at hpass
  have hstill : Course call Allowed maxDepth env [step] (.ok () : Except _ Unit) s [] s :=
    .still hs hended
  refine runLogic.sat_mono (hx s hs) ?_
  rintro r s' ⟨calls, hcourse⟩
  exact ⟨calls, hstill.append hcourse⟩

/-- A step that fails, and runs no function. -/
theorem follows_throw {step : Step} {error : EvalError} (hcall : step.call? = none)
    (hfails : step.Fails Allowed maxDepth error) (steps : List Step) :
    Follows call Allowed maxDepth env (step :: steps)
      (throw error : ExceptT EvalError (Run σ β) α) := by
  intro s hs
  have hended : Ended Allowed maxDepth (step :: steps) [] (.error error : Except _ α) := by
    have hfail := Ended.fail (α := α) hfails steps
    rwa [Step.calls_singleton hcall] at hfail
  exact runLogic.sat_throw ⟨[], .still hs hended⟩

/-- An operation on values. -/
theorem follows_liftExcept {step : Step} {x : Except EvalError α} (hcall : step.call? = none)
    (hpasses : step.Passes Allowed maxDepth)
    (hfails : ∀ error, x = .error error → step.Fails Allowed maxDepth error) :
    Follows call Allowed maxDepth env [step] (liftExcept x) := by
  cases x with
  | ok a => exact (follows_pure a).pass hcall hpasses
  | error error => exact follows_throw hcall (hfails error rfl) []

/-- The test of the limit on levels. -/
theorem Follows.level {above : Nat} {x : ExceptT EvalError (Run σ β) α}
    (hx : Follows call Allowed maxDepth env steps x) :
    Follows call Allowed maxDepth env (.level above :: steps)
      (if maxTreeDepth maxDepth ≤ above then throw (.depthLimitExceeded maxDepth) else x) := by
  by_cases h : maxTreeDepth maxDepth ≤ above
  · rw [if_pos h]
    exact follows_throw rfl (.level h) steps
  · rw [if_neg h]
    exact hx.pass rfl (.level (Nat.lt_of_not_le h))

/-- The test of the limit on groups. -/
theorem Follows.enter (depth : Depth) {f : Depth → ExceptT EvalError (Run σ β) α}
    (hf : Follows call Allowed maxDepth env steps (f depth.inside)) :
    Follows call Allowed maxDepth env (.enter depth.groups :: steps)
      (liftExcept (depth.enter maxDepth) >>= f) := by
  by_cases h : maxDepth ≤ depth.groups
  · rw [Depth.enter, if_pos h]
    exact follows_throw rfl (.enter h) steps
  · rw [Depth.enter, if_neg h, Expr.liftExcept_ok_bind]
    exact hf.pass rfl (.enter (Nat.lt_of_not_le h))

/-! ## Calls -/

/-- The call of a function that was found, after its arguments. -/
theorem Course.of_call {node : CallNode} {f : Function β} {values : List Value} {inside : Depth}
    {result : Except FunctionError Value} (hs : Allowed s.vm.registry)
    (hresolve : s.vm.registry.resolve node.name node.args.length = .ok f)
    (hvalues : (Expr.evalArgs (Session.surroundings call) maxDepth env inside node.args).run.run s =
      some (.ok values, t))
    (hargs : Course call Allowed maxDepth env (Expr.argsSteps inside node.args) (.ok values) s calls
      t)
    (hrun : (call f values).run t = some (result, s')) (hs' : Allowed s'.vm.registry) :
    Course call Allowed maxDepth env
      (.resolve node :: (Expr.argsSteps inside node.args ++ [.call node]))
      (result.mapError (EvalError.call node.name)) s (calls ++ [⟨node, f, values, result⟩]) s' := by
  have hmade : calls.map Invocation.node = Expr.argsCalls node.args := by
    cases hargs.ended with
    | through hcalls _ => rw [hcalls, Expr.calls_argsSteps]
  have hfound : Ended Allowed maxDepth [.resolve node] [] (.ok f) :=
    .pass (.resolve hs hresolve) f
  have hlast : Ended Allowed maxDepth [.call node] [node]
      (result.mapError (EvalError.call node.name)) := by
    cases result with
    | ok v => exact .pass .call v
    | error why => exact .fail .call []
  constructor
  case makes => exact hargs.makes.append (.cons hrun (.nil s'))
  case explained =>
    refine forall_split_snoc hargs.explained ?_
    exact ⟨[], calls, s, t, inside, rfl, .nil s, hargs.makes, hmade, hs, hresolve, hvalues⟩
  case ended =>
    rw [List.map_append]
    exact hfound.append (hargs.ended.append hlast)
  case allowed => exact hs'

/-- Looking up the function, evaluating the arguments, and running the function. -/
theorem follows_call (hkept : KeepsAllowed call Allowed) (node : CallNode) {inside : Depth}
    (hargs : Follows call Allowed maxDepth env (Expr.argsSteps inside node.args)
      (Expr.evalArgs (Session.surroundings call) maxDepth env inside node.args)) :
    Follows call Allowed maxDepth env
      (.resolve node :: (Expr.argsSteps inside node.args ++ [.call node])) (do
        let f ← (Session.surroundings call).resolve node.name node.args.length
        let values ← Expr.evalArgs (Session.surroundings call) maxDepth env inside node.args
        (Session.surroundings call).apply node.name f values) := by
  intro s hs
  have hresolve : runLogic.Sat
      ((Session.surroundings call).resolve node.name node.args.length).run s fun r t =>
        r = s.vm.registry.resolve node.name node.args.length ∧ t = s := by
    intro r t hrun
    rw [run_eq_some_iff, Session.result_resolve] at hrun
    cases hrun
    exact ⟨rfl, rfl⟩
  refine runLogic.sat_seq hresolve ?_ ?_
  · rintro error t ⟨herror, rfl⟩
    exact ⟨[], .still hs (.fail (.resolve hs herror.symm) _)⟩
  rintro f t - ⟨hfound, rfl⟩
  -- the session in which the arguments end is needed for the call, with how it came about
  have hvalues : runLogic.Sat
      (Expr.evalArgs (Session.surroundings call) maxDepth env inside node.args).run t fun r t' =>
        (Expr.evalArgs (Session.surroundings call) maxDepth env inside node.args).run.run t =
            some (r, t') ∧
          ∃ calls,
            Course call Allowed maxDepth env (Expr.argsSteps inside node.args) r t calls t' :=
    fun r t' hrun => ⟨hrun, hargs t hs r t' hrun⟩
  refine runLogic.sat_seq hvalues ?_ ?_
  · rintro error t' ⟨-, calls, hcourse⟩
    have hfound : Course call Allowed maxDepth env [.resolve node] (.ok f : Except _ _) t [] t :=
      .still hs (.pass (.resolve hs hfound.symm) f)
    exact ⟨calls, hfound.append hcourse.append_error⟩
  rintro values t' - ⟨hvalues, calls, hcourse⟩
  have hget := (Registry.resolve_eq_ok_iff.1 hfound.symm).1
  have hcall : runLogic.Sat (call f values) t' fun result s' =>
      (call f values).run t' = some (result, s') :=
    fun _ _ hrun => hrun
  refine runLogic.sat_lift hcall fun result s' _ hrun => ?_
  have hs' := hkept _ node.name f hs hget values t' result s' hcourse.allowed hrun
  have hwhole := Course.of_call hs hfound.symm hvalues hcourse hrun hs'
  cases result with
  | ok v => exact runLogic.sat_ok ⟨_, hwhole⟩
  | error why => exact runLogic.sat_throw ⟨_, hwhole⟩

/-! ## Trees -/

mutual

/-- **Evaluating a tree follows the steps of the tree.** -/
theorem evalAt_follows (hkept : KeepsAllowed call Allowed) (depth : Depth) (e : Expr) :
    Follows call Allowed maxDepth env (e.steps depth)
      (Expr.evalAt (Session.surroundings call) maxDepth env depth e) := by
  cases e with
  | empty | number | string | «variable» =>
      rw [Expr.evalAt]
      exact (follows_pure _).level
  | unary sign e =>
      rw [Expr.evalAt]
      refine Follows.level ((evalAt_follows hkept depth.down e).seq fun v => ?_)
      exact follows_liftExcept rfl .sign fun error herror => .sign herror
  | binary left p os =>
      rw [Expr.evalAt]
      refine Follows.level ((evalAt_follows hkept depth.down left).seq fun v => ?_)
      exact evalOperands_follows hkept depth.down v os
  | call name es =>
      rw [Expr.evalAt]
      refine Follows.level (Follows.enter depth.down ?_)
      exact follows_call hkept ⟨name, es⟩ (evalArgs_follows hkept depth.down.inside es)
  | group e =>
      rw [Expr.evalAt]
      refine Follows.level (Follows.enter depth.down ?_)
      exact evalAt_follows hkept depth.down.inside e

theorem evalOperands_follows (hkept : KeepsAllowed call Allowed) (depth : Depth) (left : Value)
    (os : Operands) :
    Follows call Allowed maxDepth env (os.steps depth)
      (Operands.evalAt (Session.surroundings call) maxDepth env depth left os) := by
  cases os with
  | one op e =>
      rw [Operands.evalAt]
      refine (evalAt_follows hkept depth e).seq fun right => ?_
      exact follows_liftExcept rfl .operator fun error herror => .operator herror
  | more op e os =>
      rw [Operands.evalAt]
      refine (evalAt_follows hkept depth e).seq fun right => ?_
      have hop : Follows call Allowed maxDepth env [.operator op]
          (liftExcept (op.eval left right)) :=
        follows_liftExcept rfl .operator fun error herror => .operator herror
      exact hop.seq fun v => evalOperands_follows hkept depth v os

theorem evalArgs_follows (hkept : KeepsAllowed call Allowed) (depth : Depth) (es : List Expr) :
    Follows call Allowed maxDepth env (Expr.argsSteps depth es)
      (Expr.evalArgs (Session.surroundings call) maxDepth env depth es) := by
  cases es with
  | nil =>
      rw [Expr.evalArgs]
      exact follows_pure []
  | cons e es =>
      rw [Expr.evalArgs]
      refine (evalAt_follows hkept depth e).seq fun v => ?_
      have hrest := (evalArgs_follows hkept depth es).seq fun vs => follows_pure (v :: vs)
      rwa [List.append_nil] at hrest

end

end

/-- **Whatever the functions do, evaluating a tree takes a course through its steps,** if it
    ends. -/
theorem Host.evalTree_course {host : Host σ β} {fuel : Nat} {Allowed : Registry β → Prop}
    (hstays : ∀ registry, Allowed registry → ∀ f ∈ registry.functions, host.StaysIn Allowed f)
    {e : Expr} {env : Env} {s s' : Session σ β} {r : Except EvalError Value}
    (hs : Allowed s.vm.registry)
    (hrun : (host.perform fuel (.evalTree e env)).run s = some (r, s')) :
    ∃ calls, Course (host.call fuel) Allowed s.vm.config.maxDepth env (e.steps .root) r s calls
      s' := by
  have hevaluated : (Expr.evalAt (Session.surroundings (host.call fuel)) s.vm.config.maxDepth env
      .root e).run.run s = some (r, s') :=
    run_eq_some_iff.2 ((result_evalTree e env s).symm.trans (run_eq_some_iff.1 hrun))
  refine evalAt_follows ?_ .root e s hs r s' hevaluated
  intro registry name f hregistry hget values t result t'
  exact hstays registry hregistry f (Registry.mem_of_get? hget) fuel values t result t'

end FormulaLang
