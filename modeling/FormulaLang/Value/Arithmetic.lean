import FormulaLang.Value.Basic

/-!
# `Value.Arithmetic` — operations on values and conversions from them

Arithmetic is on integers; a missing value counts as zero and every other value is refused. A result
out of range is an error, never a wrapped number.
-/

namespace FormulaLang

/-- Values that an operation does not take. `op` is the name of the operation. -/
inductive TypeError where
  | invalidOperation (op : String) (left right : Kind)
  | invalidUnary (op : String) (operand : Kind)
deriving DecidableEq, Repr

/-- Why an operation on values or a conversion fails. -/
inductive ValueError where
  | type (error : TypeError)
  | invalidConversion (source : Kind) (target : String)
  | outOfRange (value : Int64) (target : String)
  | divisionByZero (op : String)
  | overflow (op : String)
deriving DecidableEq, Repr

/-- The text of a type error. -/
def TypeError.message : TypeError → String
  | .invalidOperation op left right =>
    s!"operation '{op}' is not supported for {left.name} and {right.name}"
  | .invalidUnary op operand => s!"operation '{op}' is not supported for {operand.name}"

/-- The text of a value error. -/
def ValueError.message : ValueError → String
  | .type error => error.message
  | .invalidConversion source target => s!"cannot convert {source.name} to {target}"
  | .outOfRange value target => s!"{Numeral.write value} does not fit in {target}"
  | .divisionByZero op => s!"operation '{op}' divides by zero"
  | .overflow op => s!"operation '{op}' overflows a 64-bit integer"

namespace Value

/-! ## Conversions -/

/-- The integer that a value is. -/
def asInt64 : Value → Except ValueError Int64
  | .integer n => .ok n
  | v => .error (.invalidConversion v.kind "i64")

/-- The integer that a value is, if it fits in 32 bits. -/
def asInt32 : Value → Except ValueError Int32
  | .integer n =>
    if n = n.toInt32.toInt64 then .ok n.toInt32 else .error (.outOfRange n "i32")
  | v => .error (.invalidConversion v.kind "i32")

/-- The text of a value: a text itself, an integer in decimal. -/
def asString : Value → Except ValueError String
  | .string text => .ok text
  | .integer n => .ok (Numeral.write n)
  | v => .error (.invalidConversion v.kind "string")

/-- The number that a value stands for as an operand of `op`. -/
def toOperand (op : String) : Value → Except ValueError Int64
  | .integer n => .ok n
  | .null => .ok 0
  | v => .error (.type (.invalidUnary op v.kind))

/-- Both operands of `op`; if either is refused, the error names both kinds. -/
def operands (op : String) (left right : Value) : Except ValueError (Int64 × Int64) :=
  match left.toOperand op, right.toOperand op with
  | .ok a, .ok b => .ok (a, b)
  | _, _ => .error (.type (.invalidOperation op left.kind right.kind))

/-! ## Operations -/

/-- A result that had to be in range. -/
def ofChecked (op : String) : Option Int64 → Except ValueError Value
  | some n => .ok (.integer n)
  | none => .error (.overflow op)

/-- The sum of two values. -/
def add (left right : Value) : Except ValueError Value := do
  let (a, b) ← operands "add" left right
  ofChecked "add" (Integer.add? a b)

/-- The difference of two values. -/
def sub (left right : Value) : Except ValueError Value := do
  let (a, b) ← operands "sub" left right
  ofChecked "sub" (Integer.sub? a b)

/-- The product of two values. -/
def mul (left right : Value) : Except ValueError Value := do
  let (a, b) ← operands "mul" left right
  ofChecked "mul" (Integer.mul? a b)

/-- The quotient of two values, rounded toward zero. -/
def div (left right : Value) : Except ValueError Value := do
  let (a, b) ← operands "div" left right
  if b = 0 then .error (.divisionByZero "div") else ofChecked "div" (Integer.div? a b)

/-- The remainder of a division, with the sign of the dividend. -/
def rem (left right : Value) : Except ValueError Value := do
  let (a, b) ← operands "mod" left right
  if b = 0 then .error (.divisionByZero "mod") else ofChecked "mod" (Integer.rem? a b)

/-- The opposite of a value. -/
def neg (v : Value) : Except ValueError Value := do
  ofChecked "neg" (Integer.neg? (← v.toOperand "neg"))

/-- A value as the number that it stands for. -/
def pos (v : Value) : Except ValueError Value := do
  return .integer (← v.toOperand "pos")

end Value

end FormulaLang
