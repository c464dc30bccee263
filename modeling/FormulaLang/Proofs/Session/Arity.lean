import FormulaLang.Proofs.Expr.Arity
import FormulaLang.Proofs.Folding.Preservation
import FormulaLang.Proofs.Session.Past

/-!
# `Session.Arity` — the number of arguments is tested three times

Folding, evaluation and the call itself each test whether a function takes as many arguments as there
are. All three tests come to the same, so the last of them never fails in a session: whatever a call
with another number of arguments would do instead of failing (`Host.callOr`), no request and no
folding is any different, and nothing that functions ask of the evaluator meanwhile either.

- **`arity_tests_agree`**: what each of the three does where the number does not fit, and that a call
  fails in this way exactly there and nowhere in a session.
-/

namespace FormulaLang

/-- Only a fixed number of arguments can be missed. -/
theorem Arity.exists_fixed_of_not_accepts {arity : Arity} {count : Nat}
    (h : arity.accepts count = false) : ∃ expected, arity = .fixed expected ∧ expected ≠ count := by
  cases arity with
  | variadic => cases h
  | fixed expected => exact ⟨expected, rfl, by simpa [accepts] using h⟩

variable {σ β : Type}

/-! ## The evaluator -/

namespace Session
open Run

section
variable {call call' : Caller (Run σ β) β} (hcall : AgreeAccepted call call')
include hcall

theorem fold_accepted (registry : Registry β) (maxDepth : Nat) (e : Expr) :
    e.fold call registry maxDepth = e.fold call' registry maxDepth := by
  rw [Expr.fold, Expr.fold, Expr.foldAt_accepted hcall]

theorem evalTree_accepted (tree : Expr) (env : Env) :
    evalTree call tree env = evalTree call' tree env := by
  refine bind_congr fun s => ?_
  have hworld : AgreeAccepted (surroundings call).call call' := hcall
  rw [Expr.eval, Expr.evalAt_accepted hworld]
  rfl

theorem foldAndStore_accepted (source : String) (tree : Expr) (rounds : Nat) :
    foldAndStore call source tree rounds = foldAndStore call' source tree rounds := by
  induction rounds with
  | zero => rfl
  | succ rounds ih =>
      rw [foldAndStore, foldAndStore, ih]
      refine bind_congr fun before => ?_
      dsimp only
      rw [fold_accepted hcall]

theorem compile_accepted (rounds : Nat) (source : String) :
    compile call rounds source = compile call' rounds source := by
  rw [compile, compile]
  refine bind_congr fun s => ?_
  dsimp only
  cases s.vm.cache.find? source with
  | some entry => rfl
  | none =>
      dsimp only
      cases parse source s.vm.config.maxDepth with
      | error error => rfl
      | ok tree =>
          dsimp only
          rw [foldAndStore_accepted hcall]

theorem eval_accepted (rounds : Nat) (source : String) (env : Env) :
    eval call rounds source env = eval call' rounds source env := by
  rw [eval, eval, compile_accepted hcall]
  refine bind_congr fun r => ?_
  cases r with
  | error error => rfl
  | ok entry =>
      dsimp only
      rw [evalTree_accepted hcall]

/-- A request is answered in the same way if functions are called in the same way with as many
    arguments as they take. -/
theorem perform_accepted (rounds : Nat) (r : Request β) :
    perform call rounds r = perform call' rounds r := by
  cases r with
  | eval source env => exact eval_accepted hcall rounds source env
  | compile source => exact compile_accepted hcall rounds source
  | evalTree tree env => exact evalTree_accepted hcall tree env
  | register | remove | clear | has | size => rfl

end

/-- **Where the number of arguments does not fit, evaluation stops at the call,** if no limit stops
    it there, before any argument is evaluated. -/
theorem result_evalAt_of_not_accepts (call : Caller (Run σ β) β) {s : Session σ β} {name : String}
    {f : Function β} {es : List Expr} {maxDepth : Nat} {depth : Depth} (env : Env)
    (hget : s.vm.registry.get? name = some f) (haccepts : f.arity.accepts es.length = false)
    (hlevels : depth.levels < maxTreeDepth maxDepth) (hgroups : depth.groups < maxDepth) :
    ∃ expected, f.arity = .fixed expected ∧
      (Expr.evalAt (surroundings call) maxDepth env depth (.call name es)).run.result s =
        (some (.error (.arityMismatch name expected es.length)), s) := by
  obtain ⟨expected, harity, hcount⟩ := Arity.exists_fixed_of_not_accepts haccepts
  refine ⟨expected, harity, ?_⟩
  have henter : depth.down.enter maxDepth = .ok { depth.down with groups := depth.groups + 1 } :=
    if_neg (Nat.not_le.2 hgroups)
  have hresolve : ((surroundings call).resolve name es.length).run.result s =
      (some (.error (.arityMismatch name expected es.length)), s) := by
    rw [result_resolve, Registry.resolve, hget]
    dsimp only
    rw [harity]
    dsimp only
    rw [if_neg hcount]
  rw [Expr.evalAt_call hlevels, henter, Expr.liftExcept_ok_bind]
  exact result_bind_of_error hresolve _

end Session

/-! ## Calls -/

namespace Host
open Run

variable {host : Host σ β} {fuel : Nat} {f : Function β} {args : List Value}

/-- Calls a function like `call`, but does something else with arguments that are not as many as it
    takes. What functions ask of the evaluator is answered with such calls, too. -/
def callOr (host : Host σ β) (otherwise : Caller (Run σ β) β) : Nat → Caller (Run σ β) β
  | 0, _, _ => Session.exhausted
  | fuel + 1, f, args =>
    if f.arity.accepts args.length then
      host.invoke
        (fun r => Session.perform (fun f args => host.callOr otherwise fuel f args) fuel r) f args
    else otherwise f args

/-- With as many arguments as a function takes, there is no other call. -/
theorem callOr_accepted (host : Host σ β) (otherwise : Caller (Run σ β) β) (fuel : Nat) :
    AgreeAccepted (host.callOr otherwise fuel) (host.call fuel) := by
  induction fuel with
  | zero =>
      intro f args haccepts
      rfl
  | succ fuel ih =>
      intro f args haccepts
      -- what the function asks meanwhile is answered in the same way, with less fuel
      have hanswer : (fun r => Session.perform (host.callOr otherwise fuel) fuel r) =
          fun r => Session.perform (host.call fuel) fuel r :=
        funext (Session.perform_accepted ih fuel)
      rw [callOr, if_pos haccepts, call]
      exact congrArg (fun answer => host.invoke answer f args) hanswer

theorem result_call_of_not_accepts (h : f.arity.accepts args.length = false) (s : Session σ β) :
    ∃ expected, f.arity = .fixed expected ∧ (host.call (fuel + 1) f args).result s =
      (some (.error (.incorrectArgumentCount f.name expected args.length)), s) := by
  obtain ⟨expected, harity, -⟩ := Arity.exists_fixed_of_not_accepts h
  have hselect : f.callable.select args = none :=
    Option.not_isSome_iff_eq_none.1 (by rw [Callable.select_isSome]; exact Bool.eq_false_iff.1 h)
  refine ⟨expected, harity, ?_⟩
  rw [call, invoke, hselect, harity]
  rfl

/-- A call with as many arguments as the function takes begins with a line of its own. -/
theorem journal_call_of_accepts (host : Host σ β) (fuel : Nat)
    (h : f.arity.accepts args.length = true) (s : Session σ β) : ∃ later,
      ((host.call (fuel + 1) f args).after s).journal =
        later ++ ⟨.called f args, s.vm⟩ :: s.journal := by
  obtain ⟨body, hselect⟩ : ∃ body, f.callable.select args = some body := by
    rw [← Option.isSome_iff_exists, Callable.select_isSome]
    exact h
  have hrest := ignoresPast_seq
    (host.ignoresPast_runBody (Session.ignoresPast_perform (host.ignoresPast_call fuel) fuel)
      body args)
    fun result => ignoresPast_seq (ignoresPast_record (.returned f args result)) fun _ =>
      ignoresPast_pure result
  obtain ⟨later, hlater⟩ := hrest.journal ⟨s.vm, s.host, ⟨.called f args, s.vm⟩ :: s.journal⟩
  refine ⟨later, ?_⟩
  rw [← hlater, call, invoke, hselect]
  rfl

/-- **A call fails before it begins exactly where the number of arguments does not fit.** Any other
    call leaves a line in the journal. -/
theorem not_accepts_iff_result_call (s : Session σ β) :
    f.arity.accepts args.length = false ↔ ∃ expected, f.arity = .fixed expected ∧
      (host.call (fuel + 1) f args).result s =
        (some (.error (.incorrectArgumentCount f.name expected args.length)), s) := by
  refine ⟨fun h => result_call_of_not_accepts h s, ?_⟩
  rintro ⟨expected, -, hresult⟩
  -- a call that fits lengthens the journal, so it cannot leave the session as it was
  refine Bool.eq_false_iff.2 fun haccepts => ?_
  obtain ⟨later, hlater⟩ := journal_call_of_accepts host fuel haccepts s
  have hafter : (host.call (fuel + 1) f args).after s = s := congrArg Prod.snd hresult
  rw [hafter] at hlater
  have hlength := congrArg List.length hlater
  rw [List.length_append, List.length_cons] at hlength
  omega

/-- **The three tests agree.** A call fails with the number of arguments, before the function does
    anything, exactly where the function does not take as many. No request and no folding ever makes
    such a call: they are the same whatever it would do instead. Evaluation reports the number where
    it finds the function, before any argument is evaluated, if no limit stops it there. Folding
    keeps the call with its arguments folded. -/
theorem arity_tests_agree (host : Host σ β) (fuel : Nat) :
    (∀ f args s, f.arity.accepts args.length = false ↔ ∃ expected, f.arity = .fixed expected ∧
      (host.call (fuel + 1) f args).result s =
        (some (.error (.incorrectArgumentCount f.name expected args.length)), s)) ∧
    (∀ f args s, f.arity.accepts args.length = true →
      ∃ later, ((host.call (fuel + 1) f args).after s).journal =
        later ++ ⟨.called f args, s.vm⟩ :: s.journal) ∧
    (∀ otherwise r,
      Session.perform (host.callOr otherwise fuel) fuel r = host.perform fuel r) ∧
    (∀ otherwise registry maxDepth e,
      Expr.fold (host.callOr otherwise fuel) registry maxDepth e =
        e.fold (host.call fuel) registry maxDepth) ∧
    (∀ s name f es env maxDepth depth, s.vm.registry.get? name = some f →
      f.arity.accepts es.length = false →
      depth.levels < maxTreeDepth maxDepth → depth.groups < maxDepth →
      ∃ expected, f.arity = .fixed expected ∧
        (Expr.evalAt (Session.surroundings (host.call fuel)) maxDepth env depth
            (.call name es)).run.result s =
          (some (.error (.arityMismatch name expected es.length)), s)) ∧
    ∀ registry name f es maxDepth level, registry.get? name = some f →
      f.arity.accepts es.length = false → level < maxTreeDepth maxDepth →
      Expr.foldAt (host.call fuel) registry maxDepth level (.call name es) = (do
        let ts ← Expr.foldArgs (host.call fuel) registry maxDepth (level + 1) es
        return .call name ts) := by
  refine ⟨fun f args s => not_accepts_iff_result_call s,
    fun f args s haccepts => journal_call_of_accepts host fuel haccepts s,
    fun otherwise r => Session.perform_accepted (host.callOr_accepted otherwise fuel) fuel r,
    fun otherwise registry maxDepth e =>
      Session.fold_accepted (host.callOr_accepted otherwise fuel) registry maxDepth e,
    fun s name f es env maxDepth depth hget haccepts hlevels hgroups =>
      Session.result_evalAt_of_not_accepts (host.call fuel) env hget haccepts hlevels hgroups,
    fun registry name f es maxDepth level hget haccepts hlevel =>
      Expr.foldAt_call_of_not_accepts hget haccepts hlevel⟩

/-- `tick(abs(3))`, with an argument too many. -/
def tickOfAbs : Expr := .call "tick" [.call "abs" [.number 3]]

/-- Called with a number, `tick` counts nothing. Evaluating `tick(abs(3))` reports the number of
    arguments, and folding it leaves `tick(3)`; neither comes to a call that never ends. -/
theorem arity_tests_agree_on_tick :
    tick.arity.accepts [Value.integer 3].length = false ∧
    tick.arity.accepts ([] : List Value).length = true ∧
    builtinsAndTick.get? "tick" = some tick ∧ 0 < maxTreeDepth 1 ∧
    ∀ journal, let s : Session Nat Unit := ⟨.new builtinsAndTick ⟨1, true⟩, 0, journal⟩
      (∃ expected, tick.arity = .fixed expected ∧
        (counter.call 1 tick [.integer 3]).result s =
          (some (.error (.incorrectArgumentCount "tick" expected 1)), s)) ∧
      (∃ later, ((counter.call 1 tick []).after s).journal =
        later ++ ⟨.called tick [], s.vm⟩ :: s.journal) ∧
      (∃ expected, tick.arity = .fixed expected ∧
        (Expr.evalAt (Session.surroundings (counter.call 0)) 1 .empty ⟨0, 0⟩ tickOfAbs).run.result s
          = (some (.error (.arityMismatch "tick" expected 1)), s)) ∧
      Session.perform (counter.callOr (fun _ _ => Session.exhausted) 1) 1
          (.evalTree tickOfAbs .empty) = counter.perform 1 (.evalTree tickOfAbs .empty) ∧
      ((tickOfAbs.fold (counter.callOr (fun _ _ => Session.exhausted) 1) builtinsAndTick 1).result
        s).1 = some (.ok (.call "tick" [.number 3])) ∧
      Expr.foldAt (counter.call 1) builtinsAndTick 1 0 tickOfAbs = (do
        let ts ← Expr.foldArgs (counter.call 1) builtinsAndTick 1 1 [.call "abs" [.number 3]]
        return .call "tick" ts) := by
  have hget : builtinsAndTick.get? "tick" = some tick := by decide
  have hmany : tick.arity.accepts [Value.integer 3].length = false := rfl
  have hlevels : 0 < maxTreeDepth 1 := by decide
  obtain ⟨hcount, hbegin, -, -, heval, -⟩ := arity_tests_agree counter 0
  obtain ⟨-, -, hperform, hfold, -, hkeep⟩ := arity_tests_agree counter 1
  refine ⟨hmany, rfl, hget, hlevels, fun journal => ?_⟩
  intro s
  refine ⟨(hcount tick [.integer 3] s).1 hmany, hbegin tick [] s rfl,
    heval s "tick" tick [.call "abs" [.number 3]] .empty 1 ⟨0, 0⟩ hget rfl hlevels Nat.one_pos,
    hperform _ (.evalTree tickOfAbs .empty), ?_,
    hkeep builtinsAndTick "tick" tick [.call "abs" [.number 3]] 1 0 hget rfl hlevels⟩
  rw [hfold (fun _ _ => Session.exhausted) builtinsAndTick 1 tickOfAbs]
  rfl

end Host

end FormulaLang
