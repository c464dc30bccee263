import FormulaLang.Expr.Walk

/-!
# `Expr.Visits` — what a walk shows

A walk that skips nothing shows its visitor the same nodes at the same depths, whatever the visitor
makes of them. So they can be listed in advance (`Expr.visits`), and such a walk goes through the
list (`Visitor.expr_eq_foldl`). What it collects depends on the list alone.

- **`Expr.mem_variables`**, **`Expr.mem_functionNames`**: the names that are collected are those
  that are shown.
-/

namespace FormulaLang

/-- A node that a visitor is shown, and its depth. -/
structure Visit where
  depth : Nat
  node : Node
deriving DecidableEq

mutual

/-- The visits to an expression at the given depth and to its parts. -/
def Expr.visits (depth : Nat) : Expr → List Visit
  | .empty => [⟨depth, .expr .empty⟩]
  | .number n => [⟨depth, .expr (.number n)⟩]
  | .string text => [⟨depth, .expr (.string text)⟩]
  | .variable name => [⟨depth, .expr (.variable name)⟩]
  | .unary sign e =>
    ⟨depth, .expr (.unary sign e)⟩ :: ⟨depth + 1, .sign sign⟩ :: e.visits (depth + 1)
  | .binary left p os =>
    ⟨depth, .expr (.binary left p os)⟩ :: (left.visits (depth + 1) ++ os.visits (depth + 1))
  | .call name es =>
    ⟨depth, .expr (.call name es)⟩ :: ⟨depth + 1, .functionName name⟩ ::
      Expr.argsVisits (depth + 1) es
  | .group e => ⟨depth, .expr (.group e)⟩ :: e.visits (depth + 1)

/-- The visits to the steps of a run. -/
def Operands.visits (depth : Nat) : Operands → List Visit
  | .one op e => ⟨depth, .operator op⟩ :: e.visits depth
  | .more op e os => ⟨depth, .operator op⟩ :: (e.visits depth ++ os.visits depth)

/-- The visits to arguments. -/
def Expr.argsVisits (depth : Nat) : List Expr → List Visit
  | [] => []
  | e :: es => e.visits depth ++ Expr.argsVisits depth es

end

/-! ## Walks that skip nothing -/

namespace Visitor

variable {α : Type} {visit : Visitor α}

/-- What a visitor makes of one visit. -/
def step (visit : Visitor α) (a : α) (v : Visit) : α := (visit v.depth v.node a).2

mutual

/-- **A walk that skips nothing goes through the visits.** -/
theorem expr_eq_foldl (hall : ∀ depth node a, (visit depth node a).1 = .descend) (depth : Nat)
    (e : Expr) (a : α) :
    Visitor.expr visit depth e a = (e.visits depth).foldl visit.step a := by
  have hvisit : visit depth (.expr e) a = (.descend, (visit depth (.expr e) a).2) :=
    Prod.ext (hall depth (.expr e) a) rfl
  rw [Visitor.expr.eq_def, hvisit]
  cases e with
  | empty | number | string | «variable» => rfl
  | unary sign e => exact expr_eq_foldl hall (depth + 1) e _
  | binary left p os =>
      rw [Expr.visits, List.foldl_cons, List.foldl_append, ← expr_eq_foldl hall (depth + 1) left,
        ← operands_eq_foldl hall (depth + 1) os]
      rfl
  | call name es => exact args_eq_foldl hall (depth + 1) es _
  | group e => exact expr_eq_foldl hall (depth + 1) e _

theorem operands_eq_foldl (hall : ∀ depth node a, (visit depth node a).1 = .descend) (depth : Nat)
    (os : Operands) (a : α) :
    Visitor.operands visit depth os a = (os.visits depth).foldl visit.step a := by
  cases os with
  | one op e => exact expr_eq_foldl hall depth e _
  | more op e os =>
      rw [Visitor.operands, Operands.visits, List.foldl_cons, List.foldl_append,
        ← expr_eq_foldl hall depth e, ← operands_eq_foldl hall depth os]
      rfl

theorem args_eq_foldl (hall : ∀ depth node a, (visit depth node a).1 = .descend) (depth : Nat)
    (es : List Expr) (a : α) :
    Visitor.args visit depth es a = (Expr.argsVisits depth es).foldl visit.step a := by
  cases es with
  | nil => rfl
  | cons e es =>
      rw [Visitor.args, Expr.argsVisits, List.foldl_append, ← expr_eq_foldl hall depth e,
        ← args_eq_foldl hall depth es]

end

end Visitor

/-! ## Names -/

namespace Node

/-- The name of a variable. -/
def variableName? : Node → Option String
  | .expr (.variable name) => some name
  | _ => none

/-- The name of a function that is called. -/
def functionName? : Node → Option String
  | .functionName name => some name
  | _ => none

end Node

/-- The names of the variables visited, one for each visit. -/
def Visit.variables (visits : List Visit) : List String :=
  visits.filterMap fun v => v.node.variableName?

/-- The names of the functions visited, one for each call. -/
def Visit.functionNames (visits : List Visit) : List String :=
  visits.filterMap fun v => v.node.functionName?

namespace Visit

theorem variables_cons (v : Visit) (vs : List Visit) :
    Visit.variables (v :: vs) = v.node.variableName?.toList ++ Visit.variables vs := by
  cases h : v.node.variableName? <;> simp [Visit.variables, h]

theorem functionNames_cons (v : Visit) (vs : List Visit) :
    Visit.functionNames (v :: vs) = v.node.functionName?.toList ++ Visit.functionNames vs := by
  cases h : v.node.functionName? <;> simp [Visit.functionNames, h]

theorem variables_append (vs vs' : List Visit) :
    Visit.variables (vs ++ vs') = Visit.variables vs ++ Visit.variables vs' :=
  List.filterMap_append

theorem functionNames_append (vs vs' : List Visit) :
    Visit.functionNames (vs ++ vs') = Visit.functionNames vs ++ Visit.functionNames vs' :=
  List.filterMap_append

end Visit

/-- Adds names to a list in order of code points. -/
def insertNames (found names : List String) : List String :=
  found.foldl (fun names name => insertName name names) names

theorem mem_insertName {x name : String} {names : List String} :
    x ∈ insertName name names ↔ x = name ∨ x ∈ names := by
  induction names with
  | nil => simp [insertName]
  | cons n names ih =>
      rw [insertName]
      split
      · exact List.mem_cons
      split
      · rename_i heq
        simp [heq]
      · rw [List.mem_cons, ih, List.mem_cons, or_left_comm]

theorem mem_insertNames {x : String} {found names : List String} :
    x ∈ insertNames found names ↔ x ∈ found ∨ x ∈ names := by
  induction found generalizing names with
  | nil => simp [insertNames]
  | cons name found ih =>
      show x ∈ insertNames found (insertName name names) ↔ _
      rw [ih, mem_insertName, List.mem_cons, or_left_comm, or_assoc]

/-- The visitor that collects the names that are picked from nodes. -/
def Visitor.collect (pick : Node → Option String) : Visitor (List String) := fun _ node names =>
  (.descend, insertNames (pick node).toList names)

/-- A walk collects the names of its visits. -/
theorem walk_collect (pick : Node → Option String) (e : Expr) (names : List String) :
    walk (Visitor.collect pick) e names =
      insertNames ((e.visits 1).filterMap fun v => pick v.node) names := by
  rw [walk, Visitor.expr_eq_foldl fun _ _ _ => rfl]
  generalize e.visits 1 = visits
  induction visits generalizing names with
  | nil => rfl
  | cons v visits ih =>
      rw [List.foldl_cons, ih, List.filterMap_cons]
      cases h : pick v.node with
      | none => simp [Visitor.step, Visitor.collect, h, insertNames]
      | some name => simp [Visitor.step, Visitor.collect, h, insertNames]

namespace Expr

theorem variables_eq (e : Expr) : e.variables = insertNames (Visit.variables (e.visits 1)) [] := by
  rw [Visit.variables, ← walk_collect, Expr.variables]
  congr
  funext depth node names
  cases node with
  | expr e => cases e <;> rfl
  | operator | sign | functionName => rfl

theorem functionNames_eq (e : Expr) :
    e.functionNames = insertNames (Visit.functionNames (e.visits 1)) [] := by
  rw [Visit.functionNames, ← walk_collect, Expr.functionNames]
  congr
  funext depth node names
  cases node <;> rfl

/-- **The variables of a tree are those that a walk shows.** -/
theorem mem_variables {e : Expr} {name : String} :
    name ∈ e.variables ↔ name ∈ Visit.variables (e.visits 1) := by
  rw [variables_eq, mem_insertNames, or_iff_left (List.not_mem_nil)]

/-- **The functions that a tree calls are those that a walk shows.** -/
theorem mem_functionNames {e : Expr} {name : String} :
    name ∈ e.functionNames ↔ name ∈ Visit.functionNames (e.visits 1) := by
  rw [functionNames_eq, mem_insertNames, or_iff_left (List.not_mem_nil)]

end Expr

end FormulaLang
