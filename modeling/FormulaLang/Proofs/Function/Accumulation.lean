import FormulaLang.Function.Builtin
import FormulaLang.Proofs.Evaluation.Exact

/-!
# `Function.Accumulation` — sums and products of any number of integers

Two builtins go through any number of arguments from the left and carry an operator along. What they
come to is said on integers without bounds: the exact value of the arguments so far. The loop ends at
the first argument that is no integer, or with which the exact value leaves the range. It does not
matter then that later arguments would bring the value back, or are no integers either.

- **`result_of_no_stop`**: if no argument ends it, the result is the exact value of all of them.
- **`result_of_first_stop`**: otherwise the first one that does says what the error is.
-/

namespace FormulaLang

/-- What is made of any number of integers. -/
inductive Accumulation where
  | sum
  | product
deriving DecidableEq, Repr

namespace Accumulation

/-- The builtin function that does it. -/
def builtin : Accumulation → Builtin
  | .sum => .add
  | .product => .mul

/-- The operator between the integers. -/
def operator : Accumulation → Operator
  | .sum => .add
  | .product => .mul

/-- What no integers make. -/
def start : Accumulation → Int64
  | .sum => 0
  | .product => 1

/-- What integers without bounds make. -/
def exact (a : Accumulation) (ns : List Int) : Int := ns.foldl a.operator.integer a.start.toInt

/-- The integers among arguments. -/
def integers (args : List Value) : List Int :=
  args.filterMap fun
    | .integer n => some n.toInt
    | _ => none

/-- The argument at index `i` ends the loop if it comes to it: it is no integer, or with it the exact
    value leaves the range. -/
def StopsAt (a : Accumulation) (args : List Value) (i : Nat) : Prop :=
  ∃ v, args[i]? = some v ∧
    (v.kind ≠ .integer ∨ ¬ Integer.InRange (a.exact (integers (args.take (i + 1)))))

instance (a : Accumulation) (args : List Value) (i : Nat) : Decidable (a.StopsAt args i) :=
  match h : args[i]? with
  | none => isFalse fun ⟨_, hv, _⟩ => Option.some_ne_none _ (hv.symm.trans h)
  | some v => decidable_of_iff
      (v.kind ≠ .integer ∨ ¬ Integer.InRange (a.exact (integers (args.take (i + 1)))))
      ⟨fun hstop => ⟨v, h, hstop⟩, fun ⟨_, hv, hstop⟩ => Option.some.inj (h.symm.trans hv) ▸ hstop⟩

/-- The error that the argument at an index ends the loop with: the type of the argument is wrong, or
    else the value has left the range. -/
def fault (a : Accumulation) (i : Nat) (v : Value) : FunctionError :=
  if v.kind = .integer then .overflow a.builtin.name
  else .incorrectArgumentType a.builtin.name i v.kind "integer"

variable {a : Accumulation} {args : List Value} {i : Nat}

/-! ## One argument -/

/-- The builtin starts its loop before the first argument. -/
theorem result_eq (a : Accumulation) (args : List Value) :
    a.builtin.result args =
      Builtin.combine a.builtin.name a.operator.checked? 0 a.start args := by
  cases a <;> rfl

/-- The operator is checked for the range and for nothing else. -/
theorem checked?_eq (a : Accumulation) (m n : Int64) :
    a.operator.checked? m n = Integer.checked? (a.operator.integer m.toInt n.toInt) := by
  cases a <;> rfl

theorem exists_integer_of_kind {v : Value} (h : v.kind = .integer) : ∃ n, v = .integer n := by
  cases v with
  | integer n => exact ⟨n, rfl⟩
  | null | string | host => cases h

/-- One more integer is one more step. -/
theorem exact_take_succ {n : Int64} (h : args[i]? = some (.integer n)) :
    a.exact (integers (args.take (i + 1))) =
      a.operator.integer (a.exact (integers (args.take i))) n.toInt := by
  have htake : args.take (i + 1) = args.take i ++ [.integer n] := by
    rw [List.take_add_one, h]
    rfl
  rw [htake, integers, List.filterMap_append, exact, List.foldl_append]
  rfl

/-- There is nothing to stop at behind the last argument. -/
theorem not_stopsAt_of_forall_lt (h : ∀ i < args.length, ¬ a.StopsAt args i) (i : Nat) :
    ¬ a.StopsAt args i := by
  intro hstop
  obtain ⟨v, hv, -⟩ := id hstop
  exact h i (List.getElem?_eq_some_iff.1 hv).1 hstop

theorem drop_eq_cons_of_getElem? {v : Value} (h : args[i]? = some v) :
    args.drop i = v :: args.drop (i + 1) := by
  obtain ⟨hi, rfl⟩ := List.getElem?_eq_some_iff.1 h
  exact List.drop_eq_getElem_cons hi

/-! ## The loop -/

/-- On an integer, the loop goes on with what the operator comes to, if it stays in the range. -/
theorem combine_integer (name : String) (op : Int64 → Int64 → Option Int64) (i : Nat) (m n : Int64)
    (values : List Value) :
    Builtin.combine name op i m (.integer n :: values) =
      (op m n).elim (.error (.overflow name))
        fun acc => Builtin.combine name op (i + 1) acc values := by
  rw [Builtin.combine, Builtin.integerArgument]
  dsimp only [bind, Except.bind]
  cases op m n with
  | none => rfl
  | some acc => rfl

/-- **The invariant of the loop.** After arguments that do not end it, the loop is at their exact
    value. -/
theorem result_eq_combine (hi : i ≤ args.length) (h : ∀ j < i, ¬ a.StopsAt args j) :
    ∃ n : Int64, n.toInt = a.exact (integers (args.take i)) ∧
      a.builtin.result args =
        Builtin.combine a.builtin.name a.operator.checked? i n (args.drop i) := by
  induction i with
  | zero => exact ⟨a.start, rfl, a.result_eq args⟩
  | succ i ih =>
      obtain ⟨m, hm, hresult⟩ := ih (by omega) fun j hj => h j (by omega)
      have hget : args[i]? = some args[i] := List.getElem?_eq_getElem hi
      have hgoesOn := h i (Nat.lt_succ_self i)
      have hkind : args[i].kind = .integer :=
        Decidable.of_not_not fun hkind => hgoesOn ⟨_, hget, .inl hkind⟩
      obtain ⟨n, hn⟩ := exists_integer_of_kind hkind
      rw [hn] at hget
      have hrange : Integer.InRange (a.exact (integers (args.take (i + 1)))) :=
        Decidable.of_not_not fun hrange => hgoesOn ⟨_, hget, .inr hrange⟩
      refine ⟨Int64.ofInt (a.exact (integers (args.take (i + 1)))), Integer.toInt_ofInt hrange, ?_⟩
      rw [exact_take_succ hget, ← hm] at hrange
      have hchecked := (a.checked?_eq m n).trans (Integer.checked?_of_inRange hrange)
      rw [hresult, drop_eq_cons_of_getElem? hget, exact_take_succ hget, ← hm, combine_integer,
        hchecked, Option.elim_some]

/-- **If no argument ends the loop, the result is exact.** -/
theorem result_of_no_stop (h : ∀ i, ¬ a.StopsAt args i) :
    (a.builtin.result args).map Value.exact = .ok (.integer (a.exact (integers args))) := by
  obtain ⟨n, hn, hresult⟩ := result_eq_combine (Nat.le_refl args.length) fun j _ => h j
  rw [List.take_length] at hn
  rw [hresult, List.drop_length, ← hn]
  rfl

/-- **The first argument that ends the loop says what the error is.** -/
theorem result_of_first_stop {v : Value} (hv : args[i]? = some v) (hstop : a.StopsAt args i)
    (hfirst : ∀ j < i, ¬ a.StopsAt args j) :
    a.builtin.result args = .error (a.fault i v) := by
  have hi := (List.getElem?_eq_some_iff.1 hv).1
  obtain ⟨m, hm, hresult⟩ := result_eq_combine (Nat.le_of_lt hi) hfirst
  rw [hresult, drop_eq_cons_of_getElem? hv]
  by_cases hkind : v.kind = .integer
  · obtain ⟨n, rfl⟩ := exists_integer_of_kind hkind
    have hrange : ¬ Integer.InRange (a.operator.integer m.toInt n.toInt) := by
      obtain ⟨v, hv', hother | hrange⟩ := hstop
      · obtain rfl := Option.some.inj (hv.symm.trans hv')
        exact absurd hkind hother
      · rwa [exact_take_succ hv, ← hm] at hrange
    have hchecked := (a.checked?_eq m n).trans (Integer.checked?_eq_none_iff.2 hrange)
    rw [combine_integer, hchecked, Option.elim_none, fault, if_pos hkind]
  · rw [fault, if_neg hkind]
    cases v with
    | integer n => exact absurd rfl hkind
    | null | string | host => rfl

end Accumulation

end FormulaLang
