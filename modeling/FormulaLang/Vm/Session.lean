import FormulaLang.Expr.Evaluation
import FormulaLang.Vm.Host

/-!
# `Vm.Session` — an evaluator at work

A session is an evaluator, the state of the host, and the journal of what has happened, the latest
first. Everything the evaluator does is a step of a session, because any function it runs may change
all three.

Compiling a source takes its tree from the cache or parses it; with folding on, constant calls are
folded against the registry as it was when folding began. If folding has changed the registry, the
result may rest on functions that are gone, so it is dropped and the tree folded again. Only then is
a tree kept.

Functions may call back without end and folding may never settle, so a run is bounded by its `fuel`:
no more than that many calls run inside one another, and no tree is folded more often. A run that
needs more has no outcome, but what has happened up to then still stands in the journal.

## Contents
- `Run`, the steps of a session, and the steps that no function takes part in.
- `compile`, `eval`, `evalTree` over any way `call` of running functions, and `perform`, which
  answers any `Request` with them.
- `Host.call`, which runs a function of the host, and `Host.perform`, which answers a request.
-/

namespace FormulaLang

/-- A line of the journal: what has happened, and the evaluator as it was right after. -/
structure Line (β : Type) where
  event : Event β
  vm : Vm β

/-- An evaluator, the state of its host, and what has happened, the latest first. The evaluator
changes at no other times, so the journal tells what it was at any moment. -/
structure Session (σ β : Type) where
  vm : Vm β
  host : σ
  journal : List (Line β)

/-- A step of a session. One that runs out of fuel has no result and stops where it is. -/
def Run (σ β α : Type) := OptionT (StateM (Session σ β)) α

variable {σ β : Type}

namespace Run

instance : Monad (Run σ β) := inferInstanceAs (Monad (OptionT (StateM (Session σ β))))

instance : MonadStateOf (Session σ β) (Run σ β) :=
  inferInstanceAs (MonadStateOf (Session σ β) (OptionT (StateM (Session σ β))))

variable {α : Type}

/-- The result of a step, unless it runs out of fuel, and the session as it leaves it. -/
def result (x : Run σ β α) (s : Session σ β) : Option α × Session σ β := x s

/-- The session as a step leaves it, out of fuel or not. -/
def after (x : Run σ β α) (s : Session σ β) : Session σ β := (x.result s).2

/-- The outcome of a step: its result and the session after it. -/
def run (x : Run σ β α) (s : Session σ β) : Option (α × Session σ β) :=
  (x.result s).1.map fun a => (a, x.after s)

end Run

namespace Session

/-! ## Steps without functions -/

/-- The step that has run out of fuel. -/
def exhausted {α : Type} : Run σ β α := OptionT.fail

/-- Puts the evaluator into the given state and notes what has happened. -/
def update (vm : Vm β) (event : Event β) : Run σ β Unit :=
  modify fun s => { s with vm, journal := ⟨event, vm⟩ :: s.journal }

/-- Notes what has happened while the evaluator stayed as it was. -/
def record (event : Event β) : Run σ β Unit := do update (← get).vm event

/-- Registers a function, unless its name is taken. -/
def register (f : Function β) : Run σ β (Except FunctionError Unit) := do
  match (← get).vm.register f with
  | .error error => return .error error
  | .ok vm =>
    update vm (.registered f)
    return .ok ()

/-- Removes the function of the given name; whether there was one. -/
def remove (name : String) : Run σ β Bool := do
  let vm := (← get).vm
  if vm.registry.contains name then
    update (vm.remove name) (.removed name)
    return true
  else return false

/-- Clears the cache. -/
def clear : Run σ β Unit := do update (← get).vm.clear .cleared

/-- Keeps a tree for a source, unless there is one; the entry of the source. -/
def store (source : String) (tree : Expr) (against : Option (Registry β)) : Run σ β Entry := do
  let (entry, vm) := (← get).vm.store source tree
  update vm (.compiled source entry.tree against)
  return entry

/-! ## Compiling and evaluating -/

/-- Folds a tree until the registry stays as it was while folding, at most `rounds` times, and keeps
the result. -/
def foldAndStore (call : Caller (Run σ β) β) (source : String) (tree : Expr) :
    Nat → Run σ β (Except Error Entry)
  | 0 => exhausted
  | rounds + 1 => do
    let before := (← get).vm
    match ← tree.fold call before.registry before.config.maxDepth with
    | .error error => return .error (.eval (.fold error))
    | .ok folded =>
      if (← get).vm.generation = before.generation then
        return .ok (← store source folded (some before.registry))
      else foldAndStore call source tree rounds

/-- The compiled tree of a source: from the cache, or else parsed, folded if that is set, and
kept. -/
def compile (call : Caller (Run σ β) β) (rounds : Nat) (source : String) :
    Run σ β (Except Error Entry) := do
  let vm := (← get).vm
  match vm.cache.find? source with
  | some entry =>
    record (.compiled source entry.tree none)
    return .ok entry
  | none =>
    match parse source vm.config.maxDepth with
    | .error error => return .error (.parse error)
    | .ok tree =>
      if vm.config.optimize then foldAndStore call source tree rounds
      else return .ok (← store source tree none)

/-- Evaluation finds functions in the registry as it is at that moment. -/
def surroundings (call : Caller (Run σ β) β) : Surroundings (Run σ β) β where
  find name := do return (← get).vm.registry.get? name
  call := call

/-- The value of a tree. -/
def evalTree (call : Caller (Run σ β) β) (tree : Expr) (env : Env) :
    Run σ β (Except EvalError Value) := do
  tree.eval (surroundings call) (← get).vm.config.maxDepth env

/-- The value of a source. -/
def eval (call : Caller (Run σ β) β) (rounds : Nat) (source : String) (env : Env) :
    Run σ β (Except Error Value) := do
  match ← compile call rounds source with
  | .error error => return .error error
  | .ok entry =>
    match ← evalTree call entry.tree env with
    | .error error => return .error (.eval error)
    | .ok v => return .ok v

/-- Answers a request. -/
def perform (call : Caller (Run σ β) β) (rounds : Nat) : (r : Request β) → Run σ β r.Reply
  | .eval source env => eval call rounds source env
  | .compile source => compile call rounds source
  | .evalTree tree env => evalTree call tree env
  | .register f => register f
  | .remove name => remove name
  | .clear => clear
  | .has name => do return (← get).vm.registry.contains name
  | .size => do return (← get).vm.cache.size

end Session

/-! ## Functions of the host -/

/-- Runs a script; `answer` answers its requests. -/
def Script.run (answer : (r : Request β) → Run σ β r.Reply) :
    Script σ β → Run σ β (Except FunctionError Value)
  | .done result => pure result
  | .read next => do (next (← get).host).run answer
  | .write state next => do
    modify fun s => { s with host := state }
    next.run answer
  | .request r next => do (next (← answer r)).run answer

namespace Host

/-- Runs the body of a function; `answer` answers what host code asks. -/
def runBody (host : Host σ β) (answer : (r : Request β) → Run σ β r.Reply) :
    Body β → List Value → Run σ β (Except FunctionError Value)
  | .builtin builtin, args => pure (builtin.result args)
  | .host code, args => (host.behave code args).run answer

/-- Calls a function, if the arguments are as many as it takes. -/
def invoke (host : Host σ β) (answer : (r : Request β) → Run σ β r.Reply) (f : Function β)
    (args : List Value) : Run σ β (Except FunctionError Value) := do
  match f.callable.select args with
  | none => return .error (f.arity.countError f.name args.length)
  | some body =>
    Session.record (.called f args)
    let result ← host.runBody answer body args
    Session.record (.returned f args result)
    return result

/-- Calls a function that may call back, `fuel` calls deep. -/
def call (host : Host σ β) : Nat → Caller (Run σ β) β
  | 0, _, _ => Session.exhausted
  | fuel + 1, f, args =>
    host.invoke (fun r => Session.perform (fun f args => host.call fuel f args) fuel r) f args

/-- Answers a request from outside. -/
def perform (host : Host σ β) (fuel : Nat) (r : Request β) : Run σ β r.Reply :=
  Session.perform (host.call fuel) fuel r

/-- Calls the function of the given name in a registry. -/
def callIn (host : Host σ β) (fuel : Nat) (registry : Registry β) (name : String)
    (args : List Value) : Run σ β (Except FunctionError Value) :=
  match registry.get? name with
  | none => return .error (.doesNotExist name)
  | some f => host.call fuel f args

end Host

end FormulaLang
