import FormulaLang.Function.Registry
import FormulaLang.Vm.Cache
import FormulaLang.Vm.Config

/-!
# `Vm.Basic` — the state of an evaluator

An evaluator has settings, a registry of functions and a cache of compiled trees. A counter, the
generation, counts the changes of the registry, so that work that began with one registry can tell
whether it still is the current one. A cached tree may hold results of a function; removing the
function therefore clears the cache.
-/

namespace FormulaLang

/-- An evaluator. -/
structure Vm (β : Type) where
  config : Config
  registry : Registry β
  /-- How often the registry has changed, in a word that wraps. -/
  generation : UInt64
  cache : Cache

namespace Vm

variable {β : Type}

/-- An evaluator with the given functions and settings. -/
def new (registry : Registry β) (config : Config) : Vm β := ⟨config, registry, 0, .empty⟩

instance : Inhabited (Vm β) := ⟨new .empty .standard⟩

/-- Registers a function, unless its name is taken. -/
def register (vm : Vm β) (f : Function β) : Except FunctionError (Vm β) :=
  match vm.registry.register f with
  | .error error => .error error
  | .ok registry => .ok { vm with registry, generation := vm.generation + 1 }

/-- Removes the function of the given name, if there is one, and clears the cache if so. -/
def remove (vm : Vm β) (name : String) : Vm β :=
  if vm.registry.contains name then
    { vm with
      registry := vm.registry.remove name
      generation := vm.generation + 1
      cache := vm.cache.clear }
  else vm

/-- Clears the cache. -/
def clear (vm : Vm β) : Vm β := { vm with cache := vm.cache.clear }

/-- Keeps a tree for a source, unless there is one; the entry of the source. -/
def store (vm : Vm β) (source : String) (tree : Expr) : Entry × Vm β :=
  let (entry, cache) := vm.cache.store source tree
  (entry, { vm with cache })

end Vm

end FormulaLang
