/-!
# `Limits` — how deep expressions may nest

The one limit a user sets is how many parentheses and calls may be open at once. The limit on the
levels of a tree follows from it: one open group adds at most a sum, a product, a sign and the group
itself, and so does the outermost expression.
-/

namespace FormulaLang

/-- The largest number a machine word holds. -/
def wordMax : Nat := UInt64.size - 1

/-- The limit on open groups that holds where none is given. -/
def defaultMaxDepth : Nat := 128

/-- Tree levels that one group can add. -/
def levelsPerGroup : Nat := 4

/-- Levels of the deepest tree with at most `maxDepth` open groups, counted in a machine word that
stays at its largest number instead of wrapping. -/
def maxTreeDepth (maxDepth : Nat) : Nat :=
  min (min (maxDepth + 1) wordMax * levelsPerGroup) wordMax

/-- Up to a quarter of the word's range the limit is the plain product. -/
theorem maxTreeDepth_eq {maxDepth : Nat} (h : levelsPerGroup * (maxDepth + 1) ≤ wordMax) :
    maxTreeDepth maxDepth = levelsPerGroup * (maxDepth + 1) := by
  simp only [maxTreeDepth, levelsPerGroup, wordMax, UInt64.size] at *
  omega

/-- A larger limit never gives fewer levels. -/
theorem maxTreeDepth_mono {d d' : Nat} (h : d ≤ d') : maxTreeDepth d ≤ maxTreeDepth d' := by
  simp only [maxTreeDepth, levelsPerGroup, wordMax, UInt64.size]
  omega

theorem maxTreeDepth_pos (maxDepth : Nat) : 0 < maxTreeDepth maxDepth := by
  simp only [maxTreeDepth, levelsPerGroup, wordMax, UInt64.size]
  omega

end FormulaLang
