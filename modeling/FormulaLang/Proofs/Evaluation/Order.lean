import FormulaLang.Proofs.Evaluation.Course
import FormulaLang.Proofs.Session.Guard

/-!
# `Evaluation.Order` — calls are made strictly and in post-order

Functions that do not call back leave the evaluator alone, so the calls that an evaluation makes are
all that the journal tells of it. They are the calls of the tree in post-order, as far as evaluation
gets: to the end, or up to the step that fails.

- **`evalTree_in_post_order`**: which calls an evaluation makes, with which values, and in which
  order.
-/

namespace FormulaLang
open Run

variable {σ β : Type}

/-- One list taken apart at two of its elements: one of them is the earlier, or they are one. -/
theorem append_cons_cases {α : Type} {before after passed rest : List α} {x y : α}
    (h : before ++ x :: after = passed ++ y :: rest) :
    (∃ more, before = passed ++ y :: more) ∨ (before = passed ∧ x = y) ∨
      ∃ more, passed = before ++ x :: more := by
  rcases List.append_eq_append_iff.1 h with ⟨more, rfl, hmore⟩ | ⟨more, rfl, hmore⟩
  · cases more with
    | nil => exact .inr (.inl ⟨(List.append_nil before).symm, (List.cons.inj hmore).1⟩)
    | cons first more =>
        obtain rfl := (List.cons.inj hmore).1
        exact .inr (.inr ⟨more, rfl⟩)
  · cases more with
    | nil => exact .inr (.inl ⟨List.append_nil passed, (List.cons.inj hmore).1.symm⟩)
    | cons first more =>
        obtain rfl := (List.cons.inj hmore).1
        exact .inl ⟨more, rfl⟩

namespace Ended

variable {α : Type} {Allowed : Registry β → Prop} {maxDepth : Nat} {steps : List Step}
variable {made : List CallNode}

/-- The calls made are the first ones in the steps. -/
theorem calls_prefix {r : Except EvalError α} (h : Ended Allowed maxDepth steps made r) :
    made <+: Step.calls steps := by
  cases h with
  | through calls _ => exact ⟨[], by rw [calls, List.append_nil]⟩
  | @stopped passed rest step _ split calls _ _ =>
      refine ⟨Step.calls rest, ?_⟩
      rw [split, calls, ← Step.calls_append, List.append_assoc, List.singleton_append]

theorem calls_eq {a : α} (h : Ended Allowed maxDepth steps made (.ok a)) :
    made = Step.calls steps := by
  cases h with
  | through calls _ => exact calls

/-- A step that cannot pass is the last one to be made. -/
theorem stopped_before {r : Except EvalError α} {before after : List Step} {step : Step}
    (h : Ended Allowed maxDepth (before ++ step :: after) made r) (hcall : step.call? = none)
    (hstep : ¬ step.Passes Allowed maxDepth) :
    (∃ error, r = .error error) ∧ made <+: Step.calls before := by
  cases h with
  | through _ passes => exact absurd (passes step (by simp)) hstep
  | @stopped passed rest last error split calls passes fails =>
      refine ⟨⟨error, rfl⟩, ?_⟩
      rcases append_cons_cases split with ⟨more, rfl⟩ | ⟨rfl, rfl⟩ | ⟨more, rfl⟩
      · refine ⟨Step.calls more, ?_⟩
        rw [calls, ← Step.calls_append, List.append_assoc, List.singleton_append]
      · refine ⟨[], ?_⟩
        rw [calls, Step.calls_append, Step.calls_singleton hcall, List.append_nil, List.append_nil]
      · exact absurd (passes step (by simp)) hstep

end Ended

/-! ## Calls of silent functions -/

/-- What is written of calls that leave the evaluator as it is, the latest first. -/
def Invocation.lines (vm : Vm β) (calls : List (Invocation β)) : List (Line β) :=
  calls.reverse.flatMap fun c =>
    [⟨.returned c.f c.values c.result, vm⟩, ⟨.called c.f c.values, vm⟩]

theorem Invocation.lines_cons (vm : Vm β) (c : Invocation β) (calls : List (Invocation β)) :
    lines vm (c :: calls) = lines vm calls ++
      [⟨.returned c.f c.values c.result, vm⟩, ⟨.called c.f c.values, vm⟩] := by
  simp [lines]

/-- Arguments have as many values as there are. -/
theorem Expr.sat_length_evalArgs {call : Caller (Run σ β) β} {maxDepth : Nat} {env : Env}
    {depth : Depth} (es : List Expr) (s : Session σ β) :
    runLogic.Sat (Expr.evalArgs (Session.surroundings call) maxDepth env depth es).run s
      fun r _ => ∀ values, r = .ok values → values.length = es.length := by
  induction es generalizing s with
  | nil =>
      refine runLogic.sat_ok ?_
      rintro values ⟨⟩
      rfl
  | cons e es ih =>
      rw [Expr.evalArgs]
      refine runLogic.sat_seq (fun _ _ _ => trivial : runLogic.Sat _ s fun _ _ => True) ?_ ?_
      · rintro error s' - values ⟨⟩
      intro v s' _ _
      refine runLogic.sat_seq (ih s') ?_ ?_
      · rintro error s'' - values ⟨⟩
      intro vs s'' _ hvs
      refine runLogic.sat_ok ?_
      rintro values ⟨⟩
      rw [List.length_cons, List.length_cons, hvs vs rfl]

/-- The function of a call that was made is one of an allowed registry, and takes as many values as
    it was given. -/
theorem Invocation.Explained.accepts {call : Caller (Run σ β) β} {Allowed : Registry β → Prop}
    {maxDepth : Nat} {env : Env} {s : Session σ β} {c : Invocation β} {before : List (Invocation β)}
    (h : c.Explained call Allowed maxDepth env s before) :
    ∃ registry, Allowed registry ∧ c.f ∈ registry.functions ∧
      c.f.arity.accepts c.values.length = true := by
  obtain ⟨_, _, t, t', inside, -, -, -, -, ht, hresolve, hvalues⟩ := h
  obtain ⟨hget, haccepts⟩ := Registry.resolve_eq_ok_iff.1 hresolve
  have hlength := Expr.sat_length_evalArgs c.node.args t _ t' hvalues c.values rfl
  rw [hlength]
  exact ⟨t.vm.registry, ht, Registry.mem_of_get? hget, haccepts⟩

namespace Host

variable {host : Host σ β} {fuel : Nat}

/-- A silent function that takes the arguments leaves two lines. -/
theorem Silent.run_call {f : Function β} (h : host.Silent f) {args : List Value}
    (haccepts : f.arity.accepts args.length = true) {s s' : Session σ β}
    {r : Except FunctionError Value} (hrun : (host.call (fuel + 1) f args).run s = some (r, s')) :
    s'.vm = s.vm ∧
      s'.journal = ⟨.returned f args r, s.vm⟩ :: ⟨.called f args, s.vm⟩ :: s.journal := by
  obtain ⟨body, hbody⟩ := Option.isSome_iff_exists.1
    ((f.callable.select_isSome args).trans haccepts)
  obtain ⟨r', state', hresult⟩ := h.result_call_of_select hbody s.host
  rw [run_eq_some_iff, hresult fuel s rfl] at hrun
  cases hrun
  exact ⟨rfl, rfl⟩

/-- The calls of silent functions leave their lines in the journal and the evaluator as it was. -/
theorem makes_silent {s s' : Session σ β} {calls : List (Invocation β)}
    (h : Makes (host.call (fuel + 1)) s calls s')
    (hsilent : ∀ c ∈ calls, host.Silent c.f ∧ c.f.arity.accepts c.values.length = true) :
    s'.vm = s.vm ∧ s'.journal = Invocation.lines s.vm calls ++ s.journal := by
  induction h with
  | nil s => exact ⟨rfl, rfl⟩
  | cons run _ ih =>
      obtain ⟨⟨hfirst, haccepts⟩, hlater⟩ := List.forall_mem_cons.1 hsilent
      obtain ⟨hvm, hjournal⟩ := hfirst.run_call haccepts run
      obtain ⟨hvm', hjournal'⟩ := ih hlater
      refine ⟨hvm'.trans hvm, ?_⟩
      rw [hjournal', hvm, hjournal, Invocation.lines_cons, List.append_assoc]
      rfl

/-- Where no function calls back, evaluation ends and leaves the evaluator as it was. -/
theorem evalTree_of_silent {s : Session σ β}
    (hsilent : ∀ f ∈ s.vm.registry.functions, host.Silent f) (e : Expr) (env : Env) :
    ∃ r s', (host.perform (fuel + 1) (.evalTree e env)).run s = some (r, s') ∧ s'.vm = s.vm := by
  refine evalTree_outcome (· = s.vm) (· ∈ s.vm.registry.functions) ?_ ?_ e env rfl
  · rintro vm rfl f hf
    exact hf
  intro f hf args t ht
  obtain ⟨r, state', hresult⟩ := (hsilent f hf).result_call args t.host
  obtain ⟨journal, hresult⟩ := hresult fuel t rfl
  exact ⟨r, _, run_eq_some_iff.2 hresult, ht⟩

/-- **Evaluation is strict, in post-order, and makes each call at most once.** Let no function of
    the registry call back. Then evaluating a tree ends, leaves the evaluator as it was, and adds to
    the journal the lines of the calls it makes. These are, in order, the first calls of the tree in
    post-order, each with the values of its arguments, and all of them if there is a result. If
    there is an error, a step has failed with it, and none is made after it. Where a function is
    missing or does not take as many arguments, nothing is called from the arguments on. -/
theorem evalTree_in_post_order (host : Host σ β) {fuel : Nat} (hfuel : 0 < fuel)
    (s : Session σ β) (hsilent : ∀ f ∈ s.vm.registry.functions, host.Silent f) (e : Expr)
    (env : Env) :
    ∃ r calls s', (host.perform fuel (.evalTree e env)).run s = some (r, s') ∧
      s'.vm = s.vm ∧ s'.journal = Invocation.lines s.vm calls ++ s.journal ∧
      calls.map Invocation.node <+: e.calls ∧
      (∀ v, r = .ok v → calls.map Invocation.node = e.calls) ∧
      (∀ before c after, calls = before ++ c :: after → c.Explained (host.call fuel)
        (· = s.vm.registry) s.vm.config.maxDepth env s before) ∧
      Ended (· = s.vm.registry) s.vm.config.maxDepth (e.steps .root)
        (calls.map Invocation.node) r ∧
      ∀ before node after missing, e.steps .root = before ++ .call node :: after →
        s.vm.registry.resolve node.name node.args.length = .error missing →
          ∃ earlier inside, before = earlier ++ .resolve node :: Expr.argsSteps inside node.args ∧
            (∃ error, r = .error error) ∧ calls.map Invocation.node <+: Step.calls earlier := by
  obtain ⟨fuel, rfl⟩ : ∃ n, fuel = n + 1 := ⟨fuel - 1, by omega⟩
  obtain ⟨r, s', hrun, hvm⟩ := evalTree_of_silent hsilent e env
  have hstays : ∀ registry, registry = s.vm.registry → ∀ f ∈ registry.functions,
      host.StaysIn (· = s.vm.registry) f := by
    rintro registry rfl f hf
    exact (hsilent f hf).staysIn _
  obtain ⟨calls, hcourse⟩ := evalTree_course hstays rfl hrun
  have hknown : ∀ c ∈ calls, host.Silent c.f ∧ c.f.arity.accepts c.values.length = true := by
    intro c hc
    obtain ⟨before, after, heq⟩ := List.append_of_mem hc
    obtain ⟨_, rfl, hmem, haccepts⟩ := (hcourse.explained before c after heq).accepts
    exact ⟨hsilent c.f hmem, haccepts⟩
  obtain ⟨-, hjournal⟩ := makes_silent hcourse.makes hknown
  refine ⟨r, calls, s', hrun, hvm, hjournal, ?_, ?_, hcourse.explained, hcourse.ended, ?_⟩
  · have hprefix := hcourse.ended.calls_prefix
    rwa [Expr.calls_steps] at hprefix
  · rintro v rfl
    have hall := hcourse.ended.calls_eq
    rwa [Expr.calls_steps] at hall
  · intro before node after missing hsteps hmissing
    obtain ⟨earlier, inside, rfl⟩ := Expr.steps_eq_append_call hsteps
    have hended := hcourse.ended
    rw [hsteps, List.append_assoc, List.cons_append] at hended
    refine ⟨earlier, inside, rfl, hended.stopped_before rfl fun hpasses => ?_⟩
    cases hpasses with
    | resolve allowed found =>
        have hregistry : _ = s.vm.registry := allowed
        rw [hregistry, hmissing] at found
        cases found

/-! ## Calls that can be told apart -/

/-- `tick()`. -/
def callOfTick : Expr := .call "tick" []

/-- `max(tick(), tick())` runs both ticks and then `max`. An argument of a function that does not
    exist does not run. -/
theorem evalTree_in_post_order_tick :
    0 < 1 ∧ (∀ f ∈ builtinsAndTick.functions, counter.Silent f) ∧
      ∀ journal, let s : Session Nat Unit := ⟨.new builtinsAndTick ⟨2, true⟩, 0, journal⟩
        (∃ calls s', (counter.perform 1 (.evalTree (.call "max" [callOfTick, callOfTick])
            .empty)).run s = some (.ok (.integer 1), s') ∧
          s'.journal = Invocation.lines s.vm calls ++ journal ∧ calls.map Invocation.node =
            [⟨"tick", []⟩, ⟨"tick", []⟩, ⟨"max", [callOfTick, callOfTick]⟩]) ∧
        ∃ error s', (counter.perform 1 (.evalTree (.call "none" [callOfTick]) .empty)).run s =
          some (.error error, s') ∧ s'.journal = journal := by
  have hfuel : 0 < 1 := by decide
  refine ⟨hfuel, silent_builtinsAndTick, fun journal => ?_⟩
  intro s
  constructor
  · obtain ⟨r, calls, s', hrun, -, hjournal, -, hall, -⟩ := evalTree_in_post_order counter hfuel s
      silent_builtinsAndTick (.call "max" [callOfTick, callOfTick]) .empty
    obtain rfl : Except.ok (.integer 1) = r :=
      Option.some.inj (congrArg (Option.map Prod.fst) hrun)
    exact ⟨calls, s', hrun, hjournal, hall _ rfl⟩
  · obtain ⟨r, calls, s', hrun, -, hjournal, -, -, -, -, hmissing⟩ := evalTree_in_post_order counter
      hfuel s silent_builtinsAndTick (.call "none" [callOfTick]) .empty
    obtain ⟨earlier, inside, hsteps, ⟨error, rfl⟩, hcalls⟩ := hmissing
      [.level 0, .enter 0, .resolve ⟨"none", [callOfTick]⟩, .level 1, .enter 1,
        .resolve ⟨"tick", []⟩, .call ⟨"tick", []⟩] ⟨"none", [callOfTick]⟩ [] _ rfl rfl
    -- before the function is looked up there are only the tests of the limits
    obtain rfl : [Step.level 0, Step.enter 0] = earlier := List.append_inj_left' hsteps rfl
    obtain rfl : calls = [] := List.map_eq_nil_iff.1 (List.prefix_nil.1 hcalls)
    exact ⟨error, s', hrun, hjournal⟩

end Host

end FormulaLang
