import FormulaLang.Function.Builtin

/-!
# `Function.Registry` — functions by name

A registry holds at most one function of each name, and a name that is taken is never given again:
registering a function under it fails. Only a removal frees a name.

- **`get?_register`**, **`get?_remove`**: what each operation does, seen through `get?`.
-/

namespace FormulaLang

/-- Functions with distinct names. -/
structure Registry (β : Type) where
  functions : List (Function β)
  nodup : (functions.map Function.name).Nodup

namespace Registry

variable {β : Type}

@[ext] theorem ext {r r' : Registry β} (h : r.functions = r'.functions) : r = r' := by
  cases r
  cases r'
  simpa using h

/-- The registry without functions. -/
def empty : Registry β := ⟨[], by simp⟩

instance : Inhabited (Registry β) := ⟨empty⟩

/-- The function of the given name. -/
def get? (registry : Registry β) (name : String) : Option (Function β) :=
  registry.functions.find? fun f => f.name == name

/-- Whether a function of the given name is registered. -/
def contains (registry : Registry β) (name : String) : Bool := (registry.get? name).isSome

/-- The number of functions. -/
def size (registry : Registry β) : Nat := registry.functions.length

/-- Whether there are no functions. -/
def isEmpty (registry : Registry β) : Bool := registry.functions.isEmpty

/-- The names of the functions, in order of code points. -/
def names (registry : Registry β) : List String :=
  (registry.functions.map Function.name).mergeSort fun a b => decide (a ≤ b)

/-- The names of the functions in diagnostics, in braces. -/
def inspect (registry : Registry β) : String :=
  "\x7b" ++ ", ".intercalate (registry.functions.map fun f => Text.quoted f.name) ++ "\x7d"

theorem not_mem_names_of_get?_eq_none {registry : Registry β} {name : String}
    (h : registry.get? name = none) : name ∉ registry.functions.map Function.name := by
  intro hmem
  obtain ⟨f, hf, hname⟩ := List.mem_map.1 hmem
  exact List.find?_eq_none.1 h f hf (by simp [hname])

/-- Adds a function, unless its name is taken. -/
def register (registry : Registry β) (f : Function β) : Except FunctionError (Registry β) :=
  match h : registry.get? f.name with
  | some _ => .error (.alreadyRegistered f.name)
  | none => .ok ⟨f :: registry.functions,
      List.nodup_cons.2 ⟨not_mem_names_of_get?_eq_none h, registry.nodup⟩⟩

/-- Removes the function of the given name, if there is one. -/
def remove (registry : Registry β) (name : String) : Registry β :=
  ⟨registry.functions.filter fun f => f.name != name,
    (registry.nodup.sublist (List.Sublist.map _ List.filter_sublist))⟩

/-- The builtin functions, all of them eligible for folding. -/
def builtins : Registry β where
  functions := [Builtin.add, .mul, .abs, .min, .max, .len].map fun builtin =>
    ⟨builtin.name, true, builtin.callable⟩
  nodup := by simp [Builtin.name]

/-! ## The view through `get?` -/

@[simp] theorem get?_empty (name : String) : (empty : Registry β).get? name = none := rfl

/-- **Registration adds one name and leaves all others.** -/
theorem get?_register {registry r : Registry β} {f : Function β}
    (h : registry.register f = .ok r) (name : String) :
    r.get? name = if f.name = name then some f else registry.get? name := by
  unfold register at h
  split at h
  · simp at h
  · obtain rfl := Except.ok.inj h
    by_cases hname : f.name = name
    · simp [get?, hname]
    · simp [get?, beq_eq_false_iff_ne.2 hname, hname]

/-- Registration fails exactly when the name is taken. -/
theorem register_eq_error_iff {registry : Registry β} {f : Function β} {e : FunctionError} :
    registry.register f = .error e ↔
      registry.contains f.name = true ∧ e = .alreadyRegistered f.name := by
  unfold register contains
  split
  · rename_i h
    simp [h, eq_comm]
  · rename_i h
    simp [h]

/-- **Removal frees one name and leaves all others.** -/
theorem get?_remove (registry : Registry β) (removed name : String) :
    (registry.remove removed).get? name = if removed = name then none else registry.get? name := by
  simp only [get?, remove, List.find?_filter]
  split
  · rename_i h
    subst h
    simp
  · rename_i h
    congr 1
    funext f
    by_cases hf : f.name = name
    · subst hf
      simp [Ne.symm h]
    · simp [hf]

end Registry

end FormulaLang
