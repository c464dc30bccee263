import FormulaLang.Expr.Basic

/-!
# `Expr.Walk` — visiting a tree from its root

A walk visits every expression before its parts, the root at depth 1. The operator of a step is
visited right before its operand, a sign before its operand and the name of a function before its
arguments, each at the depth of what it stands before. The visitor carries a state along and decides
at every expression whether its parts are visited too.

## Contents
- `walk`, and from it `Expr.depth`, `Expr.variables` and `Expr.functionNames`.
-/

namespace FormulaLang

/-- What a visitor is shown. -/
inductive Node where
  | expr (e : Expr)
  | operator (op : Operator)
  | sign (sign : Sign)
  | functionName (name : String)
deriving DecidableEq

/-- Whether a walk goes on to the parts of the expression just visited. -/
inductive Control where
  | descend
  | skip
deriving DecidableEq, Repr

/-- A visitor with a state of type `α`: from a depth, a node and the state to a decision and the
next state. Its decision counts at expressions only. -/
abbrev Visitor (α : Type) := Nat → Node → α → Control × α

variable {α : Type}

mutual

/-- Visits an expression at the given depth, then its parts unless the visitor skips them. -/
def Visitor.expr (visit : Visitor α) (depth : Nat) (e : Expr) (a : α) : α :=
  match visit depth (.expr e) a with
  | (.skip, a) => a
  | (.descend, a) =>
    match e with
    | .empty | .number _ | .string _ | .variable _ => a
    | .unary sign operand =>
      Visitor.expr visit (depth + 1) operand (visit (depth + 1) (.sign sign) a).2
    | .binary left _ operands =>
      Visitor.operands visit (depth + 1) operands (Visitor.expr visit (depth + 1) left a)
    | .call name args =>
      Visitor.args visit (depth + 1) args (visit (depth + 1) (.functionName name) a).2
    | .group inner => Visitor.expr visit (depth + 1) inner a

/-- Visits the steps of a run, each operator right before its operand. -/
def Visitor.operands (visit : Visitor α) (depth : Nat) : Operands → α → α
  | .one op e, a => Visitor.expr visit depth e (visit depth (.operator op) a).2
  | .more op e rest, a =>
    Visitor.operands visit depth rest (Visitor.expr visit depth e (visit depth (.operator op) a).2)

/-- Visits arguments in order. -/
def Visitor.args (visit : Visitor α) (depth : Nat) : List Expr → α → α
  | [], a => a
  | e :: es, a => Visitor.args visit depth es (Visitor.expr visit depth e a)

end

/-- Visits a tree, its root at depth 1, and returns the last state. -/
def walk (visit : Visitor α) (e : Expr) (a : α) : α := Visitor.expr visit 1 e a

/-- The number of levels of a tree, the root one of them. -/
def Expr.depth (e : Expr) : Nat :=
  walk (fun depth node deepest =>
    match node with
    | .expr _ => (.descend, max deepest depth)
    | _ => (.descend, deepest)) e 0

/-- Adds a name to a list in order of code points, unless it is there. -/
def insertName (name : String) : List String → List String
  | [] => [name]
  | n :: names =>
    if name < n then name :: n :: names
    else if name = n then n :: names
    else n :: insertName name names

/-- The variables of a tree, in order of code points. -/
def Expr.variables (e : Expr) : List String :=
  walk (fun _ node names =>
    match node with
    | .expr (.variable name) => (.descend, insertName name names)
    | _ => (.descend, names)) e []

/-- The functions that a tree calls, in order of code points. -/
def Expr.functionNames (e : Expr) : List String :=
  walk (fun _ node names =>
    match node with
    | .functionName name => (.descend, insertName name names)
    | _ => (.descend, names)) e []

end FormulaLang
