import FormulaLang.Function.Basic

/-!
# `Function.Builtin` — what the builtin functions compute

Sums and products go through their arguments from the left and stop at the first one that is no
integer or takes the result out of range, whichever comes first.
-/

namespace FormulaLang

namespace Builtin

/-- The name of a builtin. -/
def name : Builtin → String
  | .add => "add"
  | .mul => "mul"
  | .abs => "abs"
  | .min => "min"
  | .max => "max"
  | .len => "len"

/-- The integer that the argument at `index` of the function `name` has to be. -/
def integerArgument (name : String) (index : Nat) : Value → Except FunctionError Int64
  | .integer n => .ok n
  | v => .error (.incorrectArgumentType name index v.kind "integer")

/-- Combines arguments, the first one at `index`, from the left with what came before them. -/
def combine (name : String) (op : Int64 → Int64 → Option Int64) :
    Nat → Int64 → List Value → Except FunctionError Value
  | _, acc, [] => .ok (.integer acc)
  | index, acc, v :: vs => do
    let n ← integerArgument name index v
    match op acc n with
    | some acc => combine name op (index + 1) acc vs
    | none => .error (.overflow name)

/-- The sum of any number of integers. -/
def sum (args : List Value) : Except FunctionError Value := combine "add" Integer.add? 0 0 args

/-- The product of any number of integers. -/
def product (args : List Value) : Except FunctionError Value := combine "mul" Integer.mul? 0 1 args

/-- The distance of an integer from zero. -/
def distance (v : Value) : Except FunctionError Value := do
  match Integer.abs? (← integerArgument "abs" 0 v) with
  | some n => .ok (.integer n)
  | none => .error (.overflow "abs")

/-- The smaller of two integers. -/
def smaller (v w : Value) : Except FunctionError Value := do
  let m ← integerArgument "min" 0 v
  let n ← integerArgument "min" 1 w
  .ok (.integer (if n < m then n else m))

/-- The larger of two integers. -/
def larger (v w : Value) : Except FunctionError Value := do
  let m ← integerArgument "max" 0 v
  let n ← integerArgument "max" 1 w
  .ok (.integer (if m < n then n else m))

/-- The number of characters of a text. -/
def length : Value → Except FunctionError Value
  | .string text =>
    match Integer.checked? text.length with
    | some n => .ok (.integer n)
    | none => .error (.overflow "len")
  | v => .error (.incorrectArgumentType "len" 0 v.kind "string")

/-- The callable shape of a builtin. -/
def callable {β : Type} (builtin : Builtin) : Callable β :=
  match builtin with
  | .add | .mul => .variadic (.builtin builtin)
  | .abs | .len => .unary (.builtin builtin)
  | .min | .max => .binary (.builtin builtin)

/-- How many arguments a builtin takes. -/
def arity (builtin : Builtin) : Arity := (builtin.callable : Callable Empty).arity

/-- What a builtin returns. -/
def result (builtin : Builtin) (args : List Value) : Except FunctionError Value :=
  match builtin, args with
  | .add, args => sum args
  | .mul, args => product args
  | .abs, [v] => distance v
  | .min, [v, w] => smaller v w
  | .max, [v, w] => larger v w
  | .len, [v] => length v
  | builtin, args => .error (builtin.arity.countError builtin.name args.length)

end Builtin

end FormulaLang
