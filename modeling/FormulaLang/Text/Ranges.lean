/-!
# `Text.Ranges` — sets of code points as ascending ranges

A character class is a list of closed ranges in ascending order. `contains` stops at the first range
that begins above the code point, so a small code point is settled by the first few ranges.
-/

namespace FormulaLang.Text

/-- Closed ranges of code points, the lower end first. -/
abbrev Ranges := List (Nat × Nat)

/-- Whether `n` lies in one of the ranges, given in ascending order. -/
def Ranges.contains : Ranges → Nat → Bool
  | [], _ => false
  | (lo, hi) :: rest, n => if n < lo then false else decide (n ≤ hi) || Ranges.contains rest n

@[simp] theorem Ranges.contains_nil (n : Nat) : Ranges.contains [] n = false := rfl

/-- A code point that is found lies in one of the ranges. -/
theorem Ranges.exists_of_contains {ranges : Ranges} {n : Nat} (h : ranges.contains n = true) :
    ∃ r ∈ ranges, r.1 ≤ n ∧ n ≤ r.2 := by
  induction ranges with
  | nil => simp at h
  | cons r rest ih =>
    obtain ⟨lo, hi⟩ := r
    simp only [Ranges.contains] at h
    split at h
    · simp at h
    · rcases Bool.or_eq_true_iff.1 h with hhi | hrest
      · exact ⟨(lo, hi), by simp, by simp; omega, by simpa using hhi⟩
      · obtain ⟨r, hr, hlo, hhi⟩ := ih hrest
        exact ⟨r, List.mem_cons_of_mem _ hr, hlo, hhi⟩

end FormulaLang.Text
