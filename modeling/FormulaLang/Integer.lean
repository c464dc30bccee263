/-!
# `Integer` — 64-bit integers whose operations refuse to wrap

The numbers of the language are the integers of `[-2^63, 2^63)`. Every operation is the exact one on
`Int`, followed by `checked?`, which keeps the result if it is in range and has no answer otherwise.

- **`checked?_eq_some_iff`**: `checked?` answers with the machine integer of exactly that value.
-/

namespace FormulaLang.Integer

/-- The integers a 64-bit word holds. -/
def InRange (i : Int) : Prop := Int64.minValue.toInt ≤ i ∧ i ≤ Int64.maxValue.toInt

instance (i : Int) : Decidable (InRange i) := inferInstanceAs (Decidable (_ ∧ _))

theorem inRange_toInt (n : Int64) : InRange n.toInt := ⟨n.minValue_le_toInt, n.toInt_le⟩

/-- The machine integer of value `i`, if there is one. -/
def checked? (i : Int) : Option Int64 :=
  if InRange i then some (Int64.ofInt i) else none

/-- **`checked?` is exact:** it answers with the one machine integer of that value. -/
theorem checked?_eq_some_iff {i : Int} {n : Int64} : checked? i = some n ↔ n.toInt = i := by
  unfold checked?
  split
  · rename_i h
    constructor
    · intro hn
      rw [← Option.some.inj hn]
      exact Int64.toInt_ofInt_of_le h.1 (Int.lt_add_one_of_le h.2)
    · rintro rfl
      rw [Int64.ofInt_toInt]
  · rename_i h
    constructor
    · intro hn
      simp at hn
    · rintro rfl
      exact absurd (inRange_toInt n) h

/-- `checked?` has no answer exactly out of range. -/
theorem checked?_eq_none_iff {i : Int} : checked? i = none ↔ ¬ InRange i := by
  simp [checked?]

@[simp] theorem checked?_toInt (n : Int64) : checked? n.toInt = some n :=
  checked?_eq_some_iff.2 rfl

/-! ## Operations -/

/-- The sum, if it is in range. -/
def add? (a b : Int64) : Option Int64 := checked? (a.toInt + b.toInt)

/-- The difference, if it is in range. -/
def sub? (a b : Int64) : Option Int64 := checked? (a.toInt - b.toInt)

/-- The product, if it is in range. -/
def mul? (a b : Int64) : Option Int64 := checked? (a.toInt * b.toInt)

/-- The quotient rounded toward zero, if it is in range. Asked for a divisor other than zero. -/
def div? (a b : Int64) : Option Int64 := checked? (a.toInt.tdiv b.toInt)

/-- The remainder that goes with `div?`, with the sign of the dividend. It is defined where the
quotient is, so the least integer has no remainder by `-1`. -/
def rem? (a b : Int64) : Option Int64 :=
  if InRange (a.toInt.tdiv b.toInt) then checked? (a.toInt.tmod b.toInt) else none

/-- The opposite, if it is in range. -/
def neg? (a : Int64) : Option Int64 := checked? (-a.toInt)

/-- The distance from zero, if it is in range. -/
def abs? (a : Int64) : Option Int64 := checked? a.toInt.natAbs

end FormulaLang.Integer
