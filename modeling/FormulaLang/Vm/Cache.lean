import FormulaLang.Expr.Basic

/-!
# `Vm.Cache` — compiled trees by source

The cache keeps one tree for a source and never replaces it: storing a second tree for a source
gives back the first. Every entry has a number of its own, also across clearings, which tells an
entry from an equal one stored at another time.

- **`find?_store`**: storing adds the source that is stored, if it is new, and nothing else.
-/

namespace FormulaLang

/-- A source with its compiled tree. -/
structure Entry where
  number : Nat
  source : String
  tree : Expr
deriving DecidableEq

/-- Entries, and the number that the next one gets. -/
structure Cache where
  entries : List Entry
  next : Nat
deriving DecidableEq

namespace Cache

/-- The cache that nothing was ever stored in. -/
def empty : Cache := ⟨[], 0⟩

/-- The entry of a source. -/
def find? (cache : Cache) (source : String) : Option Entry :=
  cache.entries.find? fun entry => entry.source == source

/-- The number of sources. -/
def size (cache : Cache) : Nat := cache.entries.length

/-- Keeps a tree for a source, unless there is one; the entry of the source. -/
def store (cache : Cache) (source : String) (tree : Expr) : Entry × Cache :=
  match cache.find? source with
  | some entry => (entry, cache)
  | none =>
    let entry := ⟨cache.next, source, tree⟩
    (entry, ⟨entry :: cache.entries, cache.next + 1⟩)

/-- Forgets all entries, but not their numbers. -/
def clear (cache : Cache) : Cache := { cache with entries := [] }

@[simp] theorem find?_clear (cache : Cache) (source : String) : cache.clear.find? source = none :=
  rfl

@[simp] theorem size_clear (cache : Cache) : cache.clear.size = 0 := rfl

theorem source_of_find? {cache : Cache} {source : String} {entry : Entry}
    (h : cache.find? source = some entry) : entry.source = source := by
  simpa using List.find?_some h

/-- **Storing adds at most the one source.** -/
theorem find?_store (cache : Cache) (source : String) (tree : Expr) (other : String) :
    (cache.store source tree).2.find? other =
      if other = source then some (cache.store source tree).1 else cache.find? other := by
  unfold store
  split
  · rename_i h
    split
    · rename_i heq
      rw [heq, h]
    · rfl
  · rename_i h
    by_cases heq : other = source
    · simp [find?, heq]
    · simp [find?, heq, beq_eq_false_iff_ne.2 (Ne.symm heq)]

end Cache

end FormulaLang
