/-!
# `Expr.Operator` — operators, signs and how tightly they bind
-/

namespace FormulaLang

/-- How tightly an operator binds. Every level groups from the left. -/
inductive Priority where
  /-- `+` and `-`. -/
  | additive
  /-- `*`, `/` and `%`. -/
  | multiplicative
deriving DecidableEq, Repr

/-- An operator between two operands. -/
inductive Operator where
  | add
  | sub
  | mul
  | div
  | mod
deriving DecidableEq, Repr

/-- An operator in front of its operand. -/
inductive Sign where
  | plus
  | minus
deriving DecidableEq, Repr

namespace Operator

/-- The symbol of an operator. -/
def symbol : Operator → String
  | .add => "+"
  | .sub => "-"
  | .mul => "*"
  | .div => "/"
  | .mod => "%"

/-- The operator that a symbol stands for. -/
def ofSymbol? : String → Option Operator
  | "+" => some .add
  | "-" => some .sub
  | "*" => some .mul
  | "/" => some .div
  | "%" => some .mod
  | _ => none

/-- The level at which an operator binds. -/
def priority : Operator → Priority
  | .add | .sub => .additive
  | .mul | .div | .mod => .multiplicative

@[simp] theorem ofSymbol?_symbol (op : Operator) : ofSymbol? op.symbol = some op := by
  cases op <;> rfl

end Operator

namespace Priority

/-- The level at which an expression begins. -/
def lowest : Priority := .additive

/-- The next tighter level. -/
def next : Priority → Option Priority
  | .additive => some .multiplicative
  | .multiplicative => none

/-- Whether no level binds more tightly. -/
def isHighest (priority : Priority) : Bool := priority.next.isNone

/-- Whether an operator binds at this level. -/
def accepts (priority : Priority) (op : Operator) : Bool := op.priority == priority

/-- The name of a level. -/
def name : Priority → String
  | .additive => "additive"
  | .multiplicative => "multiplicative"

end Priority

namespace Sign

/-- The symbol of a sign. -/
def symbol : Sign → String
  | .plus => "+"
  | .minus => "-"

/-- The sign that a symbol stands for. -/
def ofSymbol? : String → Option Sign
  | "+" => some .plus
  | "-" => some .minus
  | _ => none

@[simp] theorem ofSymbol?_symbol (sign : Sign) : ofSymbol? sign.symbol = some sign := by
  cases sign <;> rfl

end Sign

end FormulaLang
