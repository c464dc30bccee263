import FormulaLang.Limits
import FormulaLang.Numeral

/-!
# `Json.Magnitude` — which numbers are too large to be read

A number that is no integer is read as a binary floating-point number of 53 significant bits, and
refused if it is beyond the largest one. Its digits are taken as one integer, the significand, as
long as a word holds it, and a power of ten; the product of the two, each rounded to 53 bits, is
compared with the bound from which on rounding leaves the finite numbers.
-/

namespace FormulaLang.Json.Magnitude

/-- Takes digits into a significand until a word does not hold it any more. Returns the significand
and how many digits are left. -/
def absorb : Nat → List Char → Nat × Nat
  | significand, [] => (significand, 0)
  | significand, d :: ds =>
    let next := 10 * significand + Numeral.digit d
    if next ≤ wordMax then absorb next ds else (significand, ds.length + 1)

/-- The multiple of a power of two with at most 53 significant bits that is nearest to `n`; of two,
the one with the even significand. -/
def roundTo53 (n : Nat) : Nat :=
  let unit := Nat.pow 2 (n.log2 + 1 - 53)
  let low := n % unit
  let high := n / unit
  if 2 * low > unit ∨ (2 * low = unit ∧ high % 2 = 1) then (high + 1) * unit
  else high * unit

/-- From this number on the nearest floating-point number is infinite. -/
def bound : Nat := Nat.pow 2 1024 - Nat.pow 2 970

/-- Whether `significand * 10 ^ exponent` is too large to be read. -/
def isTooLarge (significand : Nat) (exponent : Int) : Bool :=
  if significand = 0 ∨ exponent < 0 then false
  else decide (308 < exponent) ||
    decide (bound ≤ roundTo53 significand * roundTo53 (Nat.pow 10 exponent.toNat))

end FormulaLang.Json.Magnitude
