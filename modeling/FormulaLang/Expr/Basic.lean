import FormulaLang.Expr.Operator

/-!
# `Expr.Basic` — expression trees

A run such as `a + b - c` is one node: its first operand and every operator with the operand after
it. A parenthesized expression keeps a node of its own.
-/

namespace FormulaLang

mutual

/-- An expression. -/
inductive Expr where
  /-- What a blank source means. -/
  | empty
  | number (n : Int64)
  /-- A text without its quotes, backslashes kept as written. -/
  | string (text : String)
  /-- A variable of the environment. -/
  | variable (name : String)
  | unary (sign : Sign) (operand : Expr)
  /-- A run of operators of one level, applied from the left. -/
  | binary (left : Expr) (priority : Priority) (operands : Operands)
  | call (name : String) (args : List Expr)
  /-- An expression in parentheses. -/
  | group (inner : Expr)

/-- The rest of a run: at least one operator, each with the operand after it. -/
inductive Operands where
  | one (op : Operator) (operand : Expr)
  | more (op : Operator) (operand : Expr) (rest : Operands)

end

instance : Inhabited Expr := ⟨.empty⟩

namespace Operands

/-- The operators and operands of a run, in order. -/
def toList : Operands → List (Operator × Expr)
  | .one op e => [(op, e)]
  | .more op e rest => (op, e) :: rest.toList

/-- The run with the given first step and further ones. -/
def ofList (op : Operator) (e : Expr) : List (Operator × Expr) → Operands
  | [] => .one op e
  | (op', e') :: rest => .more op e (ofList op' e' rest)

/-- The number of operators in a run. -/
def length (operands : Operands) : Nat := operands.toList.length

@[simp] theorem toList_ofList (op : Operator) (e : Expr) (rest : List (Operator × Expr)) :
    (ofList op e rest).toList = (op, e) :: rest := by
  induction rest generalizing op e with
  | nil => rfl
  | cons step rest ih => simp [ofList, toList, ih]

end Operands

namespace Expr

/-- The expression `left` followed by a run; without operators it is `left` itself. -/
def run (left : Expr) (priority : Priority) : List (Operator × Expr) → Expr
  | [] => left
  | (op, e) :: rest => .binary left priority (.ofList op e rest)

/-- Whether the expression is a number or a text. -/
def isLiteral : Expr → Bool
  | .number _ | .string _ => true
  | _ => false

end Expr

/-! ## Equality -/

mutual

/-- Whether two expressions are the same tree. -/
def Expr.same : Expr → Expr → Bool
  | .empty, .empty => true
  | .number m, .number n => m == n
  | .string s, .string t => s == t
  | .variable x, .variable y => x == y
  | .unary s e, .unary t f => s == t && Expr.same e f
  | .binary e p r, .binary f q t => p == q && Expr.same e f && Operands.same r t
  | .call x es, .call y fs => x == y && Expr.sameArgs es fs
  | .group e, .group f => Expr.same e f
  | _, _ => false

/-- Whether two runs are the same. -/
def Operands.same : Operands → Operands → Bool
  | .one p e, .one q f => p == q && Expr.same e f
  | .more p e r, .more q f t => p == q && Expr.same e f && Operands.same r t
  | _, _ => false

/-- Whether two argument lists are the same. -/
def Expr.sameArgs : List Expr → List Expr → Bool
  | [], [] => true
  | e :: es, f :: fs => Expr.same e f && Expr.sameArgs es fs
  | _, _ => false

end

mutual

theorem Expr.same_iff (e f : Expr) : Expr.same e f = true ↔ e = f := by
  cases e <;> cases f <;>
    simp [Expr.same, Expr.same_iff, Operands.same_iff, Expr.sameArgs_iff, and_assoc, and_left_comm]

theorem Operands.same_iff (r t : Operands) : Operands.same r t = true ↔ r = t := by
  cases r <;> cases t <;> simp [Operands.same, Expr.same_iff, Operands.same_iff, and_assoc]

theorem Expr.sameArgs_iff (es fs : List Expr) : Expr.sameArgs es fs = true ↔ es = fs := by
  cases es <;> cases fs <;> simp [Expr.sameArgs, Expr.same_iff, Expr.sameArgs_iff]

end

instance : DecidableEq Expr := fun e f => decidable_of_iff _ (Expr.same_iff e f)

instance : DecidableEq Operands := fun r t => decidable_of_iff _ (Operands.same_iff r t)

end FormulaLang
