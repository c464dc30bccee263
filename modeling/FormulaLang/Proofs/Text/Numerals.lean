import FormulaLang.Numeral

/-!
# `Text.Numerals` — digits read and written

A run of digits without a sign spells a number that is not negative, and the number a word holds is
read back from the digits it is written with. So reading gives every number from zero on, and no
other, where the text is digits only.

- **`read?_write`**: what is written of a number from zero on is read as that number.
-/

namespace FormulaLang.Numeral

/-- Without a sign in front, the digits are all there is to read. -/
theorem integer?_of_digits {cs : List Char} (hne : cs ≠ []) (h : ∀ c ∈ cs, c.isDigit = true) :
    integer? cs = some (value cs : Int) := by
  have hnatural : natural? cs = some (value cs) := by
    rw [natural?, if_pos ⟨hne, List.all_eq_true.2 h⟩]
  unfold integer?
  split
  · exact absurd (h '-' List.mem_cons_self) (by decide)
  · exact absurd (h '+' List.mem_cons_self) (by decide)
  · rw [hnatural]
    rfl

theorem read?_of_digits {text : String} (hne : text.toList ≠ [])
    (h : ∀ c ∈ text.toList, c.isDigit = true) :
    read? text = Integer.checked? (value text.toList) := by
  rw [read?, integer?_of_digits hne h]
  rfl

/-- Digits spell no negative number. -/
theorem nonneg_of_read?_digits {text : String} {n : Int64} (hne : text.toList ≠ [])
    (h : ∀ c ∈ text.toList, c.isDigit = true) (hn : read? text = some n) : 0 ≤ n.toInt := by
  rw [read?_of_digits hne h, Integer.checked?_eq_some_iff] at hn
  omega

/-! ## Writing -/

theorem value_toDigits (n : Nat) : value (Nat.toDigits 10 n) = n := by
  have h := Nat.ofDigitChars_ten_toDigits (n := n)
  rwa [Nat.ofDigitChars_eq_foldl] at h

theorem toList_write {n : Int64} (hn : 0 ≤ n.toInt) :
    (write n).toList = Nat.toDigits 10 n.toInt.toNat := by
  obtain ⟨m, hm⟩ := Int.eq_ofNat_of_zero_le hn
  rw [write, hm]
  show (Nat.repr m).toList = Nat.toDigits 10 m
  rw [Nat.repr_eq_ofList_toDigits, String.toList_ofList]

/-- A number from zero on is written in digits. -/
theorem write_digits {n : Int64} (hn : 0 ≤ n.toInt) :
    (write n).toList ≠ [] ∧ ∀ c ∈ (write n).toList, c.isDigit = true := by
  rw [toList_write hn]
  exact ⟨Nat.toDigits_ne_nil, fun c => Nat.isDigit_of_mem_toDigits (by decide) (by decide)⟩

/-- **A number from zero on is read from what is written of it.** -/
theorem read?_write {n : Int64} (hn : 0 ≤ n.toInt) : read? (write n) = some n := by
  obtain ⟨hne, hdigits⟩ := write_digits hn
  rw [read?_of_digits hne hdigits, toList_write hn, value_toDigits,
    Integer.checked?_eq_some_iff]
  omega

end FormulaLang.Numeral
