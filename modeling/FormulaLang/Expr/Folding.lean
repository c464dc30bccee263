import FormulaLang.Error
import FormulaLang.Function.Registry

/-!
# `Expr.Folding` — computing constant calls ahead of evaluation

Parts are folded before the whole, so a call becomes constant as soon as its arguments have become
literals. A call is computed if its function is registered, eligible and takes that many arguments,
and all of them are literals; an integer or a text that it returns replaces it. Everything else
stays as it is, and a call that fails makes folding fail.

Functions are run in some monad `m`, by a `Caller`, so that the same definition serves functions
that only compute and functions with effects.
-/

namespace FormulaLang

/-- How functions are run: a function and its arguments to what it returns. -/
abbrev Caller (m : Type → Type) (β : Type) :=
  Function β → List Value → m (Except FunctionError Value)

/-- The value of a literal. -/
def Expr.literal? : Expr → Option Value
  | .number n => some (.integer n)
  | .string text => some (.string text)
  | _ => none

/-- The literal of a value, if it has one. -/
def Value.toLiteral? : Value → Option Expr
  | .integer n => some (.number n)
  | .string text => some (.string text)
  | _ => none

@[simp] theorem Expr.isSome_literal? (e : Expr) : e.literal?.isSome = e.isLiteral := by
  cases e <;> rfl

variable {m : Type → Type} [Monad m] {β : Type}

/-- Folds a call whose arguments are folded already. -/
def foldCall (call : Caller m β) (registry : Registry β) (name : String) (args : List Expr) :
    ExceptT FoldError m Expr :=
  match registry.get? name with
  | none => pure (.call name args)
  | some f =>
    if f.foldEligible && f.arity.accepts args.length then
      match args.mapM Expr.literal? with
      | none => pure (.call name args)
      | some values => do
        match ← call f values with
        | .error error => throw (.call name error)
        | .ok v => pure (v.toLiteral?.getD (.call name args))
    else pure (.call name args)

mutual

/-- Folds an expression that has `level` expressions above it. -/
def Expr.foldAt (call : Caller m β) (registry : Registry β) (maxDepth level : Nat) (e : Expr) :
    ExceptT FoldError m Expr :=
  if maxTreeDepth maxDepth ≤ level then throw (.depthLimitExceeded maxDepth)
  else
    match e with
    | .empty => pure .empty
    | .number n => pure (.number n)
    | .string text => pure (.string text)
    | .variable name => pure (.variable name)
    | .unary sign operand => do
      return .unary sign (← Expr.foldAt call registry maxDepth (level + 1) operand)
    | .binary left priority operands => do
      let left ← Expr.foldAt call registry maxDepth (level + 1) left
      return .binary left priority (← Operands.foldAt call registry maxDepth (level + 1) operands)
    | .call name args => do
      let args ← Expr.foldArgs call registry maxDepth (level + 1) args
      foldCall call registry name args
    | .group inner => do
      return .group (← Expr.foldAt call registry maxDepth (level + 1) inner)

/-- Folds the operands of a run in order. -/
def Operands.foldAt (call : Caller m β) (registry : Registry β) (maxDepth level : Nat) :
    Operands → ExceptT FoldError m Operands
  | .one op e => do return .one op (← Expr.foldAt call registry maxDepth level e)
  | .more op e rest => do
    let e ← Expr.foldAt call registry maxDepth level e
    return .more op e (← Operands.foldAt call registry maxDepth level rest)

/-- Folds arguments in order. -/
def Expr.foldArgs (call : Caller m β) (registry : Registry β) (maxDepth level : Nat) :
    List Expr → ExceptT FoldError m (List Expr)
  | [] => pure []
  | e :: es => do
    let e ← Expr.foldAt call registry maxDepth level e
    return e :: (← Expr.foldArgs call registry maxDepth level es)

end

/-- Folds the constant calls of a tree. A tree with more levels than any source can spell under
`maxDepth` is refused. -/
def Expr.fold (call : Caller m β) (registry : Registry β) (maxDepth : Nat) (e : Expr) :
    m (Except FoldError Expr) :=
  (Expr.foldAt call registry maxDepth 0 e).run

end FormulaLang
