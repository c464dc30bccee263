import FormulaLang.Integer

/-!
# `Numeral` — integers in decimal

A numeral is an optional sign and at least one ASCII digit. Leading zeros are allowed, blanks and
separators are not, and the value has to fit in 64 bits.
-/

namespace FormulaLang.Numeral

/-- The value of a digit. -/
def digit (c : Char) : Nat := c.toNat - '0'.toNat

/-- The value of a run of digits, the first one the most significant. -/
def value (digits : List Char) : Nat := digits.foldl (fun n c => 10 * n + digit c) 0

/-- The number that a run of digits spells; an empty run spells none. -/
def natural? (text : List Char) : Option Nat :=
  if text ≠ [] ∧ text.all Char.isDigit then some (value text) else none

/-- The number that a run of digits after an optional sign spells. -/
def integer? : List Char → Option Int
  | '-' :: digits => (natural? digits).map fun n => -(n : Int)
  | '+' :: digits => (natural? digits).map fun n => (n : Int)
  | digits => (natural? digits).map fun n => (n : Int)

/-- The 64-bit integer that the text spells. -/
def read? (text : String) : Option Int64 := (integer? text.toList).bind Integer.checked?

/-- A 64-bit integer in decimal. -/
def write (n : Int64) : String := toString n.toInt

end FormulaLang.Numeral
