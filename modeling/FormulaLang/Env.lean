import FormulaLang.Value.Basic

/-!
# `Env` — values of variables

An environment binds names to values. A later binding of a name hides an earlier one, and a name
without a binding has no value, which is a value too.
-/

namespace FormulaLang

/-- Bindings of variables, the latest first. -/
structure Env where
  bindings : List (String × Value)
deriving DecidableEq, Repr

namespace Env

/-- The environment without bindings. -/
def empty : Env := ⟨[]⟩

instance : Inhabited Env := ⟨empty⟩

/-- Binds a name, hiding what it was bound to. -/
def bind (env : Env) (name : String) (v : Value) : Env := ⟨(name, v) :: env.bindings⟩

/-- Binds names in order, so that of equal names the last one counts. -/
def bindAll (env : Env) (bindings : List (String × Value)) : Env :=
  bindings.foldl (fun env (name, v) => env.bind name v) env

/-- The value of a variable. -/
def get (env : Env) (name : String) : Value := (env.bindings.lookup name).getD .null

@[simp] theorem get_empty (name : String) : empty.get name = .null := rfl

@[simp] theorem get_bind (env : Env) (name : String) (v : Value) (x : String) :
    (env.bind name v).get x = if x = name then v else env.get x := by
  by_cases h : x = name
  · simp [bind, get, h]
  · simp [bind, get, List.lookup_cons, beq_eq_false_iff_ne.2 h, h]

end Env

end FormulaLang
