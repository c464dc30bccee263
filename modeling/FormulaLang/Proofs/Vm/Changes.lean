import FormulaLang.Vm.Basic

/-!
# `Vm.Changes` — what the operations do to an evaluator

One inversion lemma for each operation that may leave the evaluator as it is. A registration that
succeeds adds its function and keeps all others; a tree that is stored for a new source is the one
that its entry has.
-/

namespace FormulaLang

variable {β : Type}

namespace Registry

variable {registry r : Registry β} {f : Function β}

/-- A function that could be registered had a free name. -/
theorem register_eq_ok (h : registry.register f = .ok r) :
    registry.get? f.name = none ∧ r.functions = f :: registry.functions := by
  unfold register at h
  split at h
  · cases h
  · rename_i hnone
    cases h
    exact ⟨hnone, rfl⟩

/-- Registering a function keeps all others. -/
theorem get?_of_register (h : registry.register f = .ok r) {name : String} {g : Function β}
    (hget : registry.get? name = some g) : r.get? name = some g := by
  rw [get?_register h, if_neg]
  · exact hget
  · rintro rfl
    rw [(register_eq_ok h).1] at hget
    cases hget

end Registry

namespace Cache

/-- A tree stored for a new source is kept as it is. -/
theorem store_of_find?_eq_none {cache : Cache} {source : String} (tree : Expr)
    (h : cache.find? source = none) :
    cache.store source tree = (⟨cache.next, source, tree⟩,
      ⟨⟨cache.next, source, tree⟩ :: cache.entries, cache.next + 1⟩) := by
  simp [store, h]

/-- For a source that has a tree, nothing is stored. -/
theorem store_of_find?_eq_some {cache : Cache} {source : String} {entry : Entry} (tree : Expr)
    (h : cache.find? source = some entry) : cache.store source tree = (entry, cache) := by
  simp [store, h]

end Cache

namespace Vm

variable {vm vm' : Vm β} {f : Function β}

/-- A registration that succeeds changes the registry and counts the change. -/
theorem register_eq_ok (h : vm.register f = .ok vm') :
    ∃ registry, vm.registry.register f = .ok registry ∧
      vm' = { vm with registry, generation := vm.generation + 1 } := by
  unfold register at h
  cases hregistry : vm.registry.register f with
  | error error => simp [hregistry] at h
  | ok registry =>
      rw [hregistry] at h
      exact ⟨registry, rfl, (Except.ok.inj h).symm⟩

/-- A registration fails exactly if the name is taken. -/
theorem register_eq_error_iff {error : FunctionError} : vm.register f = .error error ↔
    vm.registry.contains f.name = true ∧ error = .alreadyRegistered f.name := by
  rw [← Registry.register_eq_error_iff, register]
  cases vm.registry.register f with
  | error error' => simp
  | ok registry => simp

/-- The tree stored for a new source is the one its entry has. -/
theorem tree_store {source : String} (tree : Expr) (h : vm.cache.find? source = none) :
    (vm.store source tree).1.tree = tree := by
  show (vm.cache.store source tree).1.tree = tree
  rw [Cache.store_of_find?_eq_none tree h]

/-- A removal that finds its function changes the registry, counts the change and clears the
    cache. -/
theorem remove_of_contains {name : String} (h : vm.registry.contains name = true) :
    vm.remove name = { vm with
      registry := vm.registry.remove name
      generation := vm.generation + 1
      cache := vm.cache.clear } := by
  rw [remove, if_pos h]

end Vm

end FormulaLang
