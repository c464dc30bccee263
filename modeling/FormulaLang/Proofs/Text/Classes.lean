import FormulaLang.Text.CharClass

/-!
# `Text.Classes` — the character classes of the language do not meet

What begins a name is no digit, and white space is neither. All three classes are lists of ranges of
code points, so that it is enough to compare the ends of the ranges: a class stays clear of an
interval if each of its ranges ends before the interval or begins after it.

- **`isLetter_of_isDigit`**, **`isLetter_of_isBlank`**, **`isBlank_of_isDigit`**: a character of one
  class is not of the other.
-/

namespace FormulaLang.Text

/-- Ranges that stay clear of an interval contain none of its code points. -/
theorem Ranges.contains_eq_false {ranges : Ranges} {lo hi n : Nat}
    (hclear : ∀ r ∈ ranges, r.2 < lo ∨ hi < r.1) (hlo : lo ≤ n) (hhi : n ≤ hi) :
    ranges.contains n = false := by
  rw [Bool.eq_false_iff]
  intro hcontains
  obtain ⟨r, hr, hle, hge⟩ := Ranges.exists_of_contains hcontains
  have := hclear r hr
  omega

theorem alphabeticRanges_clear_of_digits :
    ∀ r ∈ alphabeticRanges, r.2 < '0'.toNat ∨ '9'.toNat < r.1 := by
  decide +kernel

theorem blankRanges_clear_of_digits :
    ∀ r ∈ blankRanges, r.2 < '0'.toNat ∨ '9'.toNat < r.1 := by
  decide +kernel

theorem alphabeticRanges_clear_of_blankRanges :
    ∀ b ∈ blankRanges, ∀ r ∈ alphabeticRanges, r.2 < b.1 ∨ b.2 < r.1 := by
  decide +kernel

theorem numericRanges_clear_of_blankRanges :
    ∀ b ∈ blankRanges, ∀ r ∈ numericRanges, r.2 < b.1 ∨ b.2 < r.1 := by
  decide +kernel

variable {c : Char}

/-- A character of a class that has no digits is none. -/
theorem isDigit_eq_false {p : Char → Bool} (hp : ∀ d : Char, d.isDigit = true → p d = false)
    (h : p c = true) : c.isDigit = false := by
  rw [Bool.eq_false_iff]
  intro hdigit
  rw [hp c hdigit] at h
  cases h

/-- A digit is no letter. -/
theorem isLetter_of_isDigit (h : c.isDigit = true) : isLetter c = false := by
  obtain ⟨hlo, hhi⟩ := Char.isDigit_iff_toNat.1 h
  exact Ranges.contains_eq_false alphabeticRanges_clear_of_digits hlo hhi

/-- A digit is no white space. -/
theorem isBlank_of_isDigit (h : c.isDigit = true) : isBlank c = false := by
  obtain ⟨hlo, hhi⟩ := Char.isDigit_iff_toNat.1 h
  exact Ranges.contains_eq_false blankRanges_clear_of_digits hlo hhi

/-- White space is no letter. -/
theorem isLetter_of_isBlank (h : isBlank c = true) : isLetter c = false := by
  obtain ⟨b, hb, hlo, hhi⟩ := Ranges.exists_of_contains h
  exact Ranges.contains_eq_false (alphabeticRanges_clear_of_blankRanges b hb) hlo hhi

/-- White space is no number. -/
theorem isNumeric_of_isBlank (h : isBlank c = true) : isNumeric c = false := by
  obtain ⟨b, hb, hlo, hhi⟩ := Ranges.exists_of_contains h
  exact Ranges.contains_eq_false (numericRanges_clear_of_blankRanges b hb) hlo hhi

/-- A name does not begin with a digit. -/
theorem isNameStart_of_isDigit (h : c.isDigit = true) : isNameStart c = false := by
  have hunderscore : c ≠ '_' := by
    rintro rfl
    exact absurd h (by decide)
  simp [isNameStart, isLetter_of_isDigit h, hunderscore]

/-- A name does not begin with white space. -/
theorem isNameStart_of_isBlank (h : isBlank c = true) : isNameStart c = false := by
  have hunderscore : c ≠ '_' := by
    rintro rfl
    exact absurd h (by decide)
  simp [isNameStart, isLetter_of_isBlank h, hunderscore]

/-- A name does not go on with white space. -/
theorem isNamePart_of_isBlank (h : isBlank c = true) : isNamePart c = false := by
  have hunderscore : c ≠ '_' := by
    rintro rfl
    exact absurd h (by decide)
  simp [isNamePart, isLetter_of_isBlank h, isNumeric_of_isBlank h, hunderscore]

end FormulaLang.Text
