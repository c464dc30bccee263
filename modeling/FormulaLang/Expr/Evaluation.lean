import FormulaLang.Env
import FormulaLang.Expr.Folding

/-!
# `Expr.Evaluation` — the value of a tree

A tree is evaluated strictly from left to right, and the first error ends it. A call finds its
function, and its arguments have to be as many as the function takes, before any argument is
evaluated. Two limits hold: on the groups that are open, as in parsing, and on the levels of the
tree; every tree that a source spells keeps within both.
-/

namespace FormulaLang

/-- Where evaluation is: how many groups are open, and how many levels of the tree are above. -/
structure Depth where
  groups : Nat
  levels : Nat
deriving DecidableEq, Repr

namespace Depth

/-- At the root of a tree. -/
def root : Depth := ⟨0, 0⟩

/-- One level further down. -/
def down (depth : Depth) : Depth := { depth with levels := depth.levels + 1 }

/-- Inside one more group, if one more may be open. -/
def enter (depth : Depth) (maxDepth : Nat) : Except EvalError Depth :=
  if maxDepth ≤ depth.groups then .error (.depthLimitExceeded maxDepth)
  else .ok { depth with groups := depth.groups + 1 }

end Depth

/-- What an operator makes of two values. -/
def Operator.apply : Operator → Value → Value → Except ValueError Value
  | .add, a, b => a.add b
  | .sub, a, b => a.sub b
  | .mul, a, b => a.mul b
  | .div, a, b => a.div b
  | .mod, a, b => a.rem b

/-- What a sign makes of a value. -/
def Sign.apply : Sign → Value → Except ValueError Value
  | .plus, v => v.pos
  | .minus, v => v.neg

/-- What an operator makes of two values; an error names the operator. -/
def Operator.eval (op : Operator) (left right : Value) : Except EvalError Value :=
  (op.apply left right).mapError (EvalError.ofValueError op.symbol)

/-- What a sign makes of a value; an error names the sign. -/
def Sign.eval (sign : Sign) (v : Value) : Except EvalError Value :=
  (sign.apply v).mapError (EvalError.ofValueError sign.symbol)

/-- What evaluation asks of its surroundings: to find functions and to run them. -/
structure Surroundings (m : Type → Type) (β : Type) where
  find : String → m (Option (Function β))
  call : Caller m β

variable {m : Type → Type} [Monad m] {β : Type}

/-- The function of the given name, if a call of it may have `found` arguments. -/
def Surroundings.resolve (world : Surroundings m β) (name : String) (found : Nat) :
    ExceptT EvalError m (Function β) := do
  match ← world.find name with
  | none => throw (.unknownFunction name)
  | some f =>
    match f.arity with
    | .fixed expected =>
      if expected = found then pure f else throw (.arityMismatch name expected found)
    | .variadic => pure f

/-- The value that a function returns. -/
def Surroundings.apply (world : Surroundings m β) (name : String) (f : Function β)
    (values : List Value) : ExceptT EvalError m Value := do
  match ← world.call f values with
  | .ok v => pure v
  | .error error => throw (.call name error)

mutual

/-- Evaluates an expression at the given depth. One that lies below the last level is refused. -/
def Expr.evalAt (world : Surroundings m β) (maxDepth : Nat) (env : Env) (depth : Depth) (e : Expr) :
    ExceptT EvalError m Value :=
  if maxTreeDepth maxDepth ≤ depth.levels then throw (.depthLimitExceeded maxDepth)
  else
    match e with
    | .empty => pure .null
    | .number n => pure (.integer n)
    | .string text => pure (.string text)
    | .variable name => pure (env.get name)
    | .unary sign operand => do
      let v ← Expr.evalAt world maxDepth env depth.down operand
      liftExcept (sign.eval v)
    | .binary left _ operands => do
      let v ← Expr.evalAt world maxDepth env depth.down left
      Operands.evalAt world maxDepth env depth.down v operands
    | .call name args => do
      let depth ← liftExcept (depth.down.enter maxDepth)
      let f ← world.resolve name args.length
      let values ← Expr.evalArgs world maxDepth env depth args
      world.apply name f values
    | .group inner => do
      let depth ← liftExcept (depth.down.enter maxDepth)
      Expr.evalAt world maxDepth env depth inner

/-- Applies the steps of a run in order, starting from the value of what is before them. -/
def Operands.evalAt (world : Surroundings m β) (maxDepth : Nat) (env : Env) (depth : Depth)
    (left : Value) : Operands → ExceptT EvalError m Value
  | .one op e => do
    let right ← Expr.evalAt world maxDepth env depth e
    liftExcept (op.eval left right)
  | .more op e rest => do
    let right ← Expr.evalAt world maxDepth env depth e
    let left ← liftExcept (op.eval left right)
    Operands.evalAt world maxDepth env depth left rest

/-- Evaluates arguments in order. -/
def Expr.evalArgs (world : Surroundings m β) (maxDepth : Nat) (env : Env) (depth : Depth) :
    List Expr → ExceptT EvalError m (List Value)
  | [] => pure []
  | e :: es => do
    let v ← Expr.evalAt world maxDepth env depth e
    return v :: (← Expr.evalArgs world maxDepth env depth es)

end

/-- The value of a tree. -/
def Expr.eval (world : Surroundings m β) (maxDepth : Nat) (env : Env) (e : Expr) :
    m (Except EvalError Value) :=
  (Expr.evalAt world maxDepth env .root e).run

end FormulaLang
