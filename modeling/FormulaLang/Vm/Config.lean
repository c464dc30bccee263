import FormulaLang.Limits

/-!
# `Vm.Config` — what a user may set
-/

namespace FormulaLang

/-- The settings of an evaluator. -/
structure Config where
  /-- How many parentheses and calls may be open at once, in parsing and in evaluation. -/
  maxDepth : Nat
  /-- Whether constant calls are folded before a tree is kept. -/
  optimize : Bool
deriving DecidableEq, Repr

namespace Config

/-- The settings that hold where none are given. -/
def standard : Config := ⟨defaultMaxDepth, true⟩

instance : Inhabited Config := ⟨standard⟩

end Config

end FormulaLang
