import FormulaLang.Expr.Evaluation

/-!
# `Evaluation.Exact` — arithmetic without bounds

What operators and signs mean is said on integers without bounds first: a missing value counts as
zero, division rounds toward zero and a remainder has the sign of its dividend. An application
fails, tested in this order, over an operand that is no number, over a division by zero, and over
an exact result that 64 bits do not hold. The remainder of the least integer by `-1` fails, too: it
is zero, but the division that it goes with overflows.

- **`Operator.map_exact_eval`**, **`Sign.map_exact_eval`**: evaluation computes exactly that.
- **`Operator.div_mul_add_mod`**: quotient and remainder give back the dividend.
-/

namespace FormulaLang

/-! ## Values without bounds -/

/-- A value whose integers have no bounds. -/
inductive Exact where
  | null
  | integer (i : Int)
  | string (text : String)
  | host (handle : Handle)
deriving DecidableEq, Repr

namespace Exact

/-- The kind of a value. -/
def kind : Exact → Kind
  | .null => .null
  | .integer _ => .integer
  | .string _ => .string
  | .host _ => .host

/-- The number that a value stands for as an operand, if it stands for one. -/
def number? : Exact → Option Int
  | .null => some 0
  | .integer i => some i
  | .string _ | .host _ => none

end Exact

/-- A value as one without bounds. -/
def Value.exact : Value → Exact
  | .null => .null
  | .integer n => .integer n.toInt
  | .string text => .string text
  | .host handle => .host handle

@[simp] theorem Value.kind_exact (v : Value) : v.exact.kind = v.kind := by
  cases v <;> rfl

/-- No value is lost. -/
theorem Value.exact_inj {v w : Value} : v.exact = w.exact ↔ v = w := by
  constructor
  · intro h
    cases v <;> cases w <;> simp only [exact, reduceCtorEq, Exact.integer.injEq,
      Exact.string.injEq, Exact.host.injEq, Int64.toInt_inj] at h ⊢
    · rw [h]
    · rw [h]
    · rw [h]
  · rintro rfl
    rfl

/-! ## Operators and signs -/

namespace Operator

/-- The operation that an operator stands for, as type errors name it. -/
def operation : Operator → String
  | .add => "add"
  | .sub => "sub"
  | .mul => "mul"
  | .div => "div"
  | .mod => "mod"

/-- What an operator makes of two integers. -/
def integer : Operator → Int → Int → Int
  | .add, i, j => i + j
  | .sub, i, j => i - j
  | .mul, i, j => i * j
  | .div, i, j => i.tdiv j
  | .mod, i, j => i.tmod j

/-- Whether an operator needs a second operand other than zero. -/
def divides : Operator → Bool
  | .div | .mod => true
  | .add | .sub | .mul => false

/-- Whether 64 bits hold what an operator makes of two integers. -/
def Holds (op : Operator) (i j : Int) : Prop :=
  Integer.InRange (op.integer i j) ∧ ¬(op = .mod ∧ i = Int64.minValue.toInt ∧ j = -1)

instance (op : Operator) (i j : Int) : Decidable (op.Holds i j) :=
  inferInstanceAs (Decidable (_ ∧ _))

/-- What an operator makes of two values without bounds. -/
def exact (op : Operator) (left right : Exact) : Except EvalError Exact :=
  match left.number?, right.number? with
  | some i, some j =>
    if op.divides ∧ j = 0 then .error (.divisionByZero op.symbol)
    else if op.Holds i j then .ok (.integer (op.integer i j))
    else .error (.overflow op.symbol)
  | _, _ => .error (.type op.symbol (.invalidOperation op.operation left.kind right.kind))

end Operator

namespace Sign

/-- The operation that a sign stands for, as type errors name it. -/
def operation : Sign → String
  | .plus => "pos"
  | .minus => "neg"

/-- What a sign makes of an integer. -/
def integer : Sign → Int → Int
  | .plus, i => i
  | .minus, i => -i

/-- What a sign makes of a value without bounds. -/
def exact (sign : Sign) (v : Exact) : Except EvalError Exact :=
  match v.number? with
  | some i =>
    if Integer.InRange (sign.integer i) then .ok (.integer (sign.integer i))
    else .error (.overflow sign.symbol)
  | none => .error (.type sign.symbol (.invalidUnary sign.operation v.kind))

end Sign

/-! ## Ranges -/

namespace Integer

theorem inRange_iff {i : Int} :
    InRange i ↔ -9223372036854775808 ≤ i ∧ i ≤ 9223372036854775807 := Iff.rfl

/-- A machine integer is at the value of each of its operations that has one. -/
theorem checked?_of_inRange {i : Int} (h : InRange i) : checked? i = some (Int64.ofInt i) :=
  if_pos h

theorem toInt_ofInt {i : Int} (h : InRange i) : (Int64.ofInt i).toInt = i :=
  checked?_eq_some_iff.1 (checked?_of_inRange h)

/-- A quotient is in range unless it is that of the least integer by `-1`. -/
theorem inRange_tdiv_iff {i j : Int} (hi : InRange i) (hj : j ≠ 0) :
    InRange (i.tdiv j) ↔ ¬(i = Int64.minValue.toInt ∧ j = -1) := by
  have hmin : Int64.minValue.toInt = -9223372036854775808 := rfl
  have hquotient : (i.tdiv j).natAbs = i.natAbs / j.natAbs := Int.natAbs_tdiv i j
  rw [inRange_iff] at hi ⊢
  rw [hmin]
  rcases Nat.lt_or_ge 1 j.natAbs with hlarge | hsmall
  · -- the quotient is at most half as large as the dividend
    have hhalf : i.natAbs / j.natAbs ≤ i.natAbs / 2 := Nat.div_le_div_left hlarge (by omega)
    omega
  · obtain rfl | rfl : j = 1 ∨ j = -1 := by omega
    · rw [Int.tdiv_one]
      omega
    · rw [Int.tdiv_neg, Int.tdiv_one]
      omega

/-- A remainder is smaller than the divisor, so it is in range. -/
theorem inRange_tmod {i j : Int} (hj : InRange j) (hzero : j ≠ 0) : InRange (i.tmod j) := by
  have hremainder : (i.tmod j).natAbs = i.natAbs % j.natAbs := Int.natAbs_tmod i j
  have hlt : i.natAbs % j.natAbs < j.natAbs := Nat.mod_lt _ (by omega)
  rw [inRange_iff] at hj ⊢
  omega

end Integer

/-! ## Operands -/

namespace Value

variable {v w : Value} {i j : Int}

/-- The operand that a number stands for. -/
theorem toOperand_of_number (h : v.exact.number? = some i) (op : String) :
    ∃ n : Int64, v.toOperand op = .ok n ∧ n.toInt = i := by
  cases v with
  | null =>
      obtain rfl : 0 = i := Option.some.inj h
      exact ⟨0, rfl, rfl⟩
  | integer n => exact ⟨n, rfl, Option.some.inj h⟩
  | string text => cases h
  | host handle => cases h

theorem toOperand_of_no_number (h : v.exact.number? = none) (op : String) :
    v.toOperand op = .error (.type (.invalidUnary op v.kind)) := by
  cases v with
  | null => cases h
  | integer n => cases h
  | string text => rfl
  | host handle => rfl

theorem operands_of_numbers (hv : v.exact.number? = some i) (hw : w.exact.number? = some j)
    (op : String) : ∃ m n : Int64, operands op v w = .ok (m, n) ∧ m.toInt = i ∧ n.toInt = j := by
  obtain ⟨m, hm, hi⟩ := toOperand_of_number hv op
  obtain ⟨n, hn, hj⟩ := toOperand_of_number hw op
  refine ⟨m, n, ?_, hi, hj⟩
  rw [operands, hm, hn]

/-- One operand that is no number is enough to refuse both. -/
theorem operands_of_no_number (h : v.exact.number? = none ∨ w.exact.number? = none)
    (op : String) : operands op v w = .error (.type (.invalidOperation op v.kind w.kind)) := by
  rcases h with h | h
  · rw [operands, toOperand_of_no_number h]
  · rw [operands, toOperand_of_no_number h]
    cases v.toOperand op <;> rfl

end Value

/-! ## Evaluation is exact -/

namespace Operator

variable {a b : Value}

/-- The checked operation behind an operator. -/
def checked? : Operator → Int64 → Int64 → Option Int64
  | .add => Integer.add?
  | .sub => Integer.sub?
  | .mul => Integer.mul?
  | .div => Integer.div?
  | .mod => Integer.rem?

/-- Every operator reads its operands, tests the divisor if it divides, and checks the result. -/
theorem apply_eq (op : Operator) (a b : Value) :
    op.apply a b = (do
      let (m, n) ← Value.operands op.operation a b
      if op.divides ∧ n = 0 then .error (.divisionByZero op.operation)
      else Value.ofChecked op.operation (op.checked? m n)) := by
  cases op <;> simp [apply, Value.add, Value.sub, Value.mul, Value.div, Value.rem, operation,
    divides, checked?]

theorem holds_iff {op : Operator} (hop : op ≠ .mod) (i j : Int) :
    op.Holds i j ↔ Integer.InRange (op.integer i j) := by
  simp [Holds, hop]

/-- A remainder is held where the quotient that it goes with is. -/
theorem holds_mod_iff {i j : Int} (hi : Integer.InRange i) (hj : Integer.InRange j)
    (hzero : j ≠ 0) : Operator.mod.Holds i j ↔ Integer.InRange (i.tdiv j) := by
  have hremainder : Integer.InRange (Operator.mod.integer i j) := Integer.inRange_tmod hj hzero
  rw [Integer.inRange_tdiv_iff hi hzero]
  simp [Holds, hremainder]

/-- A checked operation has the exact result if 64 bits hold it. -/
theorem checked?_eq (op : Operator) {m n : Int64} (hzero : op.divides = true → n ≠ 0) :
    op.checked? m n =
      if op.Holds m.toInt n.toInt then some (Int64.ofInt (op.integer m.toInt n.toInt))
      else none := by
  by_cases hop : op = .mod
  · subst hop
    have hn : n.toInt ≠ 0 := by
      intro h
      exact hzero rfl (Int64.toInt_inj.1 h)
    have hm := Integer.inRange_toInt m
    have hmod := holds_mod_iff hm (Integer.inRange_toInt n) hn
    show Integer.rem? m n = _
    rw [Integer.rem?, Integer.checked?_of_inRange
      (Integer.inRange_tmod (Integer.inRange_toInt n) hn)]
    simp only [hmod]
    rfl
  · simp only [holds_iff hop]
    cases op with
    | mod => exact absurd rfl hop
    | add | sub | mul | div => rfl

/-- **An operator computes exactly** what it makes of values without bounds. -/
theorem map_exact_eval (op : Operator) (a b : Value) :
    (op.eval a b).map Value.exact = op.exact a.exact b.exact := by
  rw [eval, apply_eq, exact]
  cases hi : a.exact.number? with
  | none =>
      rw [Value.operands_of_no_number (.inl hi)]
      simp only [Value.kind_exact]
      rfl
  | some i =>
      cases hj : b.exact.number? with
      | none =>
          rw [Value.operands_of_no_number (.inr hj)]
          simp only [Value.kind_exact]
          rfl
      | some j =>
          obtain ⟨m, n, hoperands, rfl, rfl⟩ := Value.operands_of_numbers hi hj op.operation
          rw [hoperands]
          have hzero : n.toInt = 0 ↔ n = 0 := Int64.toInt_inj (y := 0)
          dsimp only
          by_cases hdivides : op.divides = true ∧ n = 0
          · rw [if_pos (by rwa [hzero])]
            show (Except.mapError _ (if _ then _ else _)).map _ = _
            rw [if_pos hdivides]
            rfl
          · rw [if_neg (by rwa [hzero])]
            show (Except.mapError _ (if _ then _ else _)).map _ = _
            rw [if_neg hdivides, checked?_eq op fun h hn => hdivides ⟨h, hn⟩]
            by_cases hholds : op.Holds m.toInt n.toInt
            · rw [if_pos hholds, if_pos hholds]
              show Except.ok (Exact.integer (Int64.ofInt _).toInt) = _
              rw [Integer.toInt_ofInt hholds.1]
            · rw [if_neg hholds, if_neg hholds]
              rfl

/-- Where an operator has a result, both operands are numbers and the result is the exact one. -/
theorem of_exact_eq_ok {op : Operator} {a b v : Exact} (h : op.exact a b = .ok v) :
    ∃ i j, a.number? = some i ∧ b.number? = some j ∧ v = .integer (op.integer i j) := by
  rw [exact] at h
  cases hi : a.number? with
  | none => simp [hi] at h
  | some i =>
      cases hj : b.number? with
      | none => simp [hi, hj] at h
      | some j =>
          simp only [hi, hj] at h
          split at h
          · cases h
          · split at h
            · cases h
              exact ⟨i, j, rfl, rfl, rfl⟩
            · cases h

/-- **Quotient and remainder give back the dividend,** where both are defined. -/
theorem div_mul_add_mod {a b q r : Exact} (hq : Operator.div.exact a b = .ok q)
    (hr : Operator.mod.exact a b = .ok r) :
    ∃ i j k l, a.number? = some i ∧ b.number? = some j ∧ q = .integer k ∧ r = .integer l ∧
      k * j + l = i := by
  obtain ⟨i, j, hi, hj, hquotient⟩ := of_exact_eq_ok hq
  obtain ⟨i', j', hi', hj', hremainder⟩ := of_exact_eq_ok hr
  obtain rfl : i = i' := Option.some.inj (hi.symm.trans hi')
  obtain rfl : j = j' := Option.some.inj (hj.symm.trans hj')
  have hdividend : i.tdiv j * j + i.tmod j = i := Int.tdiv_mul_add_tmod i j
  exact ⟨i, j, _, _, hi, hj, hquotient, hremainder, hdividend⟩

end Operator

namespace Sign

/-- The checked operation behind a sign. -/
def checked? : Sign → Int64 → Option Int64
  | .plus => some
  | .minus => Integer.neg?

theorem apply_eq (sign : Sign) (v : Value) :
    sign.apply v = (do
      let n ← v.toOperand sign.operation
      Value.ofChecked sign.operation (sign.checked? n)) := by
  cases sign with
  | plus =>
      rw [apply, Value.pos]
      cases v <;> rfl
  | minus => rfl

theorem checked?_eq (sign : Sign) (n : Int64) :
    sign.checked? n =
      if Integer.InRange (sign.integer n.toInt) then some (Int64.ofInt (sign.integer n.toInt))
      else none := by
  cases sign with
  | plus =>
      show some n = _
      rw [integer, if_pos (Integer.inRange_toInt n), Int64.ofInt_toInt]
  | minus => rfl

/-- **A sign computes exactly** what it makes of a value without bounds. -/
theorem map_exact_eval (sign : Sign) (v : Value) :
    (sign.eval v).map Value.exact = sign.exact v.exact := by
  rw [eval, apply_eq, exact]
  cases hi : v.exact.number? with
  | none =>
      rw [Value.toOperand_of_no_number hi]
      simp only [Value.kind_exact]
      rfl
  | some i =>
      obtain ⟨n, hoperand, rfl⟩ := Value.toOperand_of_number hi sign.operation
      rw [hoperand]
      show (Except.mapError _ (Value.ofChecked _ (sign.checked? n))).map _ = _
      rw [checked?_eq]
      by_cases hrange : Integer.InRange (sign.integer n.toInt)
      · simp only [if_pos hrange]
        show Except.ok (Exact.integer (Int64.ofInt _).toInt) = _
        rw [Integer.toInt_ofInt hrange]
      · simp only [if_neg hrange]
        rfl

end Sign

end FormulaLang
