import FormulaLang.Value.Arithmetic

/-!
# `Function.Basic` — functions that expressions call

A function has a name, a number of arguments and a body: a builtin, or code of the host, of which
the language knows nothing but a value of some type `β` that stands for it. Only calls of functions
that are eligible for folding are computed ahead of evaluation.

- **`Callable.select_isSome`**: a callable takes an argument list exactly when its arity accepts the
  length of the list.
-/

namespace FormulaLang

/-- A failure in the host's own words: what it says, and what it says about its causes, the nearest
first. -/
structure Failure where
  message : String
  causes : List String
deriving DecidableEq, Repr

/-- Why a call fails. -/
inductive FunctionError where
  | incorrectArgumentCount (name : String) (expected found : Nat)
  | incorrectArgumentType (name : String) (index : Nat) (found : Kind) (expected : String)
  | doesNotExist (name : String)
  | alreadyRegistered (name : String)
  | overflow (name : String)
  /-- An argument could not be converted, or an operation on it failed. -/
  | value (error : ValueError)
  /-- The function itself failed. -/
  | failed (failure : Failure)
deriving DecidableEq, Repr

/-- The text of a failed call. -/
def FunctionError.message : FunctionError → String
  | .incorrectArgumentCount name expected found =>
    s!"function {name} takes {expected} argument(s), got {found}"
  | .incorrectArgumentType name index found expected =>
    s!"incorrect argument type for {name}, argument at index {index} is type {found.name}, " ++
      s!"expected {expected}"
  | .doesNotExist name => s!"function {name} does not exist"
  | .alreadyRegistered name => s!"already registered a function named {name}"
  | .overflow name => s!"function {name} overflowed a 64-bit integer"
  | .value error => error.message
  | .failed failure => failure.message

/-- The texts of what made a call fail, the nearest first. -/
def FunctionError.causes : FunctionError → List String
  | .failed failure => failure.causes
  | _ => []

/-! ## Arity -/

/-- How many arguments a function takes. -/
inductive Arity where
  | fixed (count : Nat)
  | variadic
deriving DecidableEq, Repr

namespace Arity

/-- Whether a call may have `count` arguments. -/
def accepts : Arity → Nat → Bool
  | .fixed expected, count => expected == count
  | .variadic, _ => true

/-- The error that the function `name` is called with `found` arguments, too few or too many. -/
def countError (arity : Arity) (name : String) (found : Nat) : FunctionError :=
  match arity with
  | .fixed expected => .incorrectArgumentCount name expected found
  | .variadic => .incorrectArgumentCount name found found

/-- The arity as messages show it. -/
def display : Arity → String
  | .fixed count => toString count
  | .variadic => "any number of"

/-- The arity in diagnostics. -/
def inspect : Arity → String
  | .fixed count => s!"Fixed({count})"
  | .variadic => "Variadic"

end Arity

/-! ## Bodies -/

/-- The functions that the language brings along. -/
inductive Builtin where
  | add
  | mul
  | abs
  | min
  | max
  | len
deriving DecidableEq, Repr

/-- What a function does: a builtin, or code of the host. -/
inductive Body (β : Type) where
  | builtin (builtin : Builtin)
  | host (code : β)
deriving DecidableEq, Repr

/-- A body with the shape of the argument lists that it takes. -/
inductive Callable (β : Type) where
  | nullary (body : Body β)
  | unary (body : Body β)
  | binary (body : Body β)
  | ternary (body : Body β)
  | variadic (body : Body β)
deriving DecidableEq, Repr

namespace Callable

variable {β : Type}

/-- How many arguments a callable takes. -/
def arity : Callable β → Arity
  | .nullary _ => .fixed 0
  | .unary _ => .fixed 1
  | .binary _ => .fixed 2
  | .ternary _ => .fixed 3
  | .variadic _ => .variadic

/-- The body, for an argument list of the callable's shape. -/
def select : Callable β → List Value → Option (Body β)
  | .nullary body, [] => some body
  | .unary body, [_] => some body
  | .binary body, [_, _] => some body
  | .ternary body, [_, _, _] => some body
  | .variadic body, _ => some body
  | _, _ => none

/-- **A callable takes exactly the argument lists that its arity accepts.** -/
theorem select_isSome (callable : Callable β) (args : List Value) :
    (callable.select args).isSome = callable.arity.accepts args.length := by
  -- lists of four arguments and more are all alike
  cases callable <;> rcases args with _ | ⟨_, _ | ⟨_, _ | ⟨_, _ | ⟨_, _⟩⟩⟩⟩ <;> rfl

end Callable

/-! ## Functions -/

/-- A named function. One that is eligible for folding is called ahead of evaluation when its
arguments are literals. -/
structure Function (β : Type) where
  name : String
  foldEligible : Bool
  callable : Callable β
deriving DecidableEq, Repr

namespace Function

variable {β : Type}

/-- How many arguments a function takes. -/
def arity (f : Function β) : Arity := f.callable.arity

/-- A function in diagnostics. -/
def inspect (f : Function β) : String :=
  "Function \x7b name: " ++ Text.quoted f.name ++ ", arity: " ++ f.arity.inspect ++
    ", fold_eligible: " ++ toString f.foldEligible ++ ", .. \x7d"

end Function

end FormulaLang
