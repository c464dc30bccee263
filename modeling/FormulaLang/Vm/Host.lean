import FormulaLang.Env
import FormulaLang.Error
import FormulaLang.Vm.Basic

/-!
# `Vm.Host` — what the host's functions may do

Code of the host computes, keeps a state of its own, and may turn to the evaluator that is running
it: to evaluate, to compile, to change the registry or to clear the cache, even while a tree is
being folded. A run of such code is a `Script`; what it asks of the evaluator is a `Request`, and
the type of the answer depends on the request.
-/

namespace FormulaLang

/-- What can be asked of an evaluator. -/
inductive Request (β : Type) where
  /-- The value of a source. -/
  | eval (source : String) (env : Env)
  /-- The compiled tree of a source. -/
  | compile (source : String)
  /-- The value of a tree. -/
  | evalTree (tree : Expr) (env : Env)
  | register (f : Function β)
  | remove (name : String)
  | clear
  /-- Whether a function is registered. -/
  | has (name : String)
  /-- The number of cached sources. -/
  | size

/-- The type of the answer to a request. -/
def Request.Reply {β : Type} : Request β → Type
  | .eval _ _ => Except Error Value
  | .compile _ => Except Error Entry
  | .evalTree _ _ => Except EvalError Value
  | .register _ => Except FunctionError Unit
  | .remove _ => Bool
  | .clear => Unit
  | .has _ => Bool
  | .size => Nat

/-- A run of host code with states of type `σ`. -/
inductive Script (σ β : Type) where
  /-- The code returns. -/
  | done (result : Except FunctionError Value)
  /-- The code looks at the state of the host. -/
  | read (next : σ → Script σ β)
  /-- The code replaces the state of the host. -/
  | write (state : σ) (next : Script σ β)
  /-- The code turns to the evaluator and goes on with the answer. -/
  | request (request : Request β) (next : request.Reply → Script σ β)

/-- A host: what each of its codes does with arguments. -/
structure Host (σ β : Type) where
  behave : β → List Value → Script σ β

/-- What happens in a session. -/
inductive Event (β : Type) where
  /-- The body of a function begins to run. -/
  | called (f : Function β) (args : List Value)
  /-- The body of a function has run. -/
  | returned (f : Function β) (args : List Value) (result : Except FunctionError Value)
  | registered (f : Function β)
  /-- A function was removed, and the cache cleared with it. -/
  | removed (name : String)
  | cleared
  /-- A source was compiled, or found compiled. If a tree was folded for it, `against` is the
  registry that the tree was folded against. -/
  | compiled (source : String) (tree : Expr) (against : Option (Registry β))

end FormulaLang
