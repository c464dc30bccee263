import FormulaLang.Numeral
import FormulaLang.Text.Quoted

/-!
# `Value.Basic` — what an expression evaluates to

A value is nothing, a 64-bit integer, a text, or a handle on something that belongs to the host. The
language never looks behind a handle: it passes handles on and compares them by identity.
-/

namespace FormulaLang

/-- A handle on a value of the host. `id` says which one it is and `typeName` what the host calls
its type; copies of a handle share both. -/
structure Handle where
  id : Nat
  typeName : String
deriving DecidableEq, Repr

/-- What an expression evaluates to. -/
inductive Value where
  /-- No value: what a blank expression and an unbound variable evaluate to. -/
  | null
  | integer (n : Int64)
  | string (text : String)
  | host (handle : Handle)
deriving DecidableEq, Repr, Inhabited

/-- The four kinds of value, as messages name them. -/
inductive Kind where
  | null
  | integer
  | string
  | host
deriving DecidableEq, Repr

/-- The name of a kind of value. -/
def Kind.name : Kind → String
  | .null => "null"
  | .integer => "integer"
  | .string => "string"
  | .host => "host"

namespace Value

/-- The kind of a value. -/
def kind : Value → Kind
  | .null => .null
  | .integer _ => .integer
  | .string _ => .string
  | .host _ => .host

/-- Whether there is no value. -/
def isNull : Value → Bool
  | .null => true
  | _ => false

/-- The handle of a host value. -/
def handle? : Value → Option Handle
  | .host handle => some handle
  | _ => none

/-- The text of a value as a result: a text stands for itself, and a host value shows the name of
its type between angle brackets. -/
def display : Value → String
  | .null => "null"
  | .integer n => Numeral.write n
  | .string text => text
  | .host handle => "<" ++ handle.typeName ++ ">"

/-- The text of a value in diagnostics, which tells the number `5` from the text `5`. -/
def inspect : Value → String
  | .null => "Null"
  | .integer n => "Integer(" ++ Numeral.write n ++ ")"
  | .string text => "String(" ++ Text.quoted text ++ ")"
  | .host handle => "Host(HostValue(" ++ Text.quoted handle.typeName ++ "))"

end Value

/-! ## Native values -/

/-- Types whose elements are values of the language. -/
class ToValue (α : Type) where
  toValue : α → Value

export ToValue (toValue)

instance : ToValue Int8 := ⟨fun n => .integer n.toInt64⟩
instance : ToValue Int16 := ⟨fun n => .integer n.toInt64⟩
instance : ToValue Int32 := ⟨fun n => .integer n.toInt64⟩
instance : ToValue Int64 := ⟨.integer⟩
instance : ToValue UInt8 := ⟨fun n => .integer (Int64.ofNat n.toNat)⟩
instance : ToValue UInt16 := ⟨fun n => .integer (Int64.ofNat n.toNat)⟩
instance : ToValue UInt32 := ⟨fun n => .integer (Int64.ofNat n.toNat)⟩
instance : ToValue String := ⟨.string⟩
instance : ToValue Handle := ⟨.host⟩

/-- Nothing where there is no element. -/
instance {α : Type} [ToValue α] : ToValue (Option α) := ⟨fun a? => (a?.map toValue).getD .null⟩

end FormulaLang
