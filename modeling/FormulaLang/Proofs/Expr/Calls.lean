import FormulaLang.Expr.Basic

/-!
# `Expr.Calls` — the calls in a tree

The calls of a tree, each with its arguments, in the order in which their functions run: those in
the arguments of a call come before it, and everything else goes from left to right.
-/

namespace FormulaLang

/-- A call in a tree. -/
structure CallNode where
  name : String
  args : List Expr
deriving DecidableEq

mutual

/-- The calls in an expression. -/
def Expr.calls : Expr → List CallNode
  | .empty | .number _ | .string _ | .variable _ => []
  | .unary _ e => e.calls
  | .binary e _ os => e.calls ++ os.calls
  | .call name es => Expr.argsCalls es ++ [⟨name, es⟩]
  | .group e => e.calls

/-- The calls in the operands of a run. -/
def Operands.calls : Operands → List CallNode
  | .one _ e => e.calls
  | .more _ e os => e.calls ++ os.calls

/-- The calls in arguments. -/
def Expr.argsCalls : List Expr → List CallNode
  | [] => []
  | e :: es => e.calls ++ Expr.argsCalls es

end

variable {node : CallNode}

theorem Operands.mem_calls {os : Operands} {step : Operator × Expr} (hstep : step ∈ os.toList)
    (h : node ∈ step.2.calls) : node ∈ os.calls := by
  cases os with
  | one op e =>
      obtain rfl := List.mem_singleton.1 hstep
      exact h
  | more op e os =>
      rcases List.mem_cons.1 hstep with rfl | hlater
      · exact List.mem_append_left _ h
      · exact List.mem_append_right _ (Operands.mem_calls hlater h)

theorem Expr.mem_argsCalls {es : List Expr} {e : Expr} (he : e ∈ es) (h : node ∈ e.calls) :
    node ∈ Expr.argsCalls es := by
  induction es with
  | nil => cases he
  | cons first es ih =>
      rcases List.mem_cons.1 he with rfl | hlater
      · exact List.mem_append_left _ h
      · exact List.mem_append_right _ (ih hlater)

end FormulaLang
