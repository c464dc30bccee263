import FormulaLang.Proofs.Evaluation.Exact

/-!
# `Evaluation.Reference` — what an expression evaluates to, said by rules

The rules know nothing of levels, groups or sessions: a registry finds functions, and `returns`
says what they return. Operators and signs act on integers without bounds. Everything goes from the
left, and the first error is the result: the left operand of a run, then operand by operand, each
followed by its operator; a sign after its operand; and a call's function and number of arguments
before its arguments.

- **`Expr.Evaluates.unique`**: an expression evaluates to one result at most.
-/

namespace FormulaLang

variable {β : Type}

/-- A call with that many arguments finds its function, or it is an error. -/
inductive Registry.Resolves (registry : Registry β) (name : String) (found : Nat) :
    Except EvalError (Function β) → Prop where
  | unknown (get : registry.get? name = none) :
      Registry.Resolves registry name found (.error (.unknownFunction name))
  | mismatch {f : Function β} {expected : Nat} (get : registry.get? name = some f)
      (fixed : f.arity = .fixed expected) (differs : expected ≠ found) :
      Registry.Resolves registry name found (.error (.arityMismatch name expected found))
  | found {f : Function β} (get : registry.get? name = some f)
      (accepts : f.arity.accepts found = true) : Registry.Resolves registry name found (.ok f)

section
variable (registry : Registry β)
variable (returns : Function β → List Value → Except FunctionError Value → Prop) (env : Env)

mutual

/-- The expression evaluates to a value or an error. -/
inductive Expr.Evaluates : Expr → Except EvalError Exact → Prop where
  | empty : Expr.Evaluates .empty (.ok .null)
  | number (n : Int64) : Expr.Evaluates (.number n) (.ok (.integer n.toInt))
  | string (text : String) : Expr.Evaluates (.string text) (.ok (.string text))
  | variable (name : String) : Expr.Evaluates (.variable name) (.ok (env.get name).exact)
  | group {e : Expr} {r : Except EvalError Exact} (inner : Expr.Evaluates e r) :
      Expr.Evaluates (.group e) r
  | unaryError {sign : Sign} {e : Expr} {error : EvalError}
      (operand : Expr.Evaluates e (.error error)) : Expr.Evaluates (.unary sign e) (.error error)
  | unary {sign : Sign} {e : Expr} {v : Exact} (operand : Expr.Evaluates e (.ok v)) :
      Expr.Evaluates (.unary sign e) (sign.exact v)
  | leftError {e : Expr} {p : Priority} {os : Operands} {error : EvalError}
      (left : Expr.Evaluates e (.error error)) : Expr.Evaluates (.binary e p os) (.error error)
  | binary {e : Expr} {p : Priority} {os : Operands} {v : Exact} {r : Except EvalError Exact}
      (left : Expr.Evaluates e (.ok v)) (run : Operands.Evaluate v os r) :
      Expr.Evaluates (.binary e p os) r
  | unresolved {name : String} {es : List Expr} {error : EvalError}
      (resolves : registry.Resolves name es.length (.error error)) :
      Expr.Evaluates (.call name es) (.error error)
  | argumentError {name : String} {es : List Expr} {f : Function β} {error : EvalError}
      (resolves : registry.Resolves name es.length (.ok f))
      (args : Expr.ArgsEvaluate es (.error error)) : Expr.Evaluates (.call name es) (.error error)
  | call {name : String} {es : List Expr} {f : Function β} {values : List Value}
      {r : Except FunctionError Value} (resolves : registry.Resolves name es.length (.ok f))
      (args : Expr.ArgsEvaluate es (.ok values)) (returned : returns f values r) :
      Expr.Evaluates (.call name es) ((r.map Value.exact).mapError (.call name))

/-- The steps of a run, beginning with the value of what is before them, come to a value or an
    error. -/
inductive Operands.Evaluate : Exact → Operands → Except EvalError Exact → Prop where
  | oneError {left : Exact} {op : Operator} {e : Expr} {error : EvalError}
      (operand : Expr.Evaluates e (.error error)) :
      Operands.Evaluate left (.one op e) (.error error)
  | one {left right : Exact} {op : Operator} {e : Expr} (operand : Expr.Evaluates e (.ok right)) :
      Operands.Evaluate left (.one op e) (op.exact left right)
  | moreError {left : Exact} {op : Operator} {e : Expr} {rest : Operands} {error : EvalError}
      (operand : Expr.Evaluates e (.error error)) :
      Operands.Evaluate left (.more op e rest) (.error error)
  | stops {left right : Exact} {op : Operator} {e : Expr} {rest : Operands} {error : EvalError}
      (operand : Expr.Evaluates e (.ok right)) (fails : op.exact left right = .error error) :
      Operands.Evaluate left (.more op e rest) (.error error)
  | more {left right v : Exact} {op : Operator} {e : Expr} {rest : Operands}
      {r : Except EvalError Exact} (operand : Expr.Evaluates e (.ok right))
      (applied : op.exact left right = .ok v) (run : Operands.Evaluate v rest r) :
      Operands.Evaluate left (.more op e rest) r

/-- The arguments come to values that a function takes, or to the error of the first one that has
    no value. -/
inductive Expr.ArgsEvaluate : List Expr → Except EvalError (List Value) → Prop where
  | nil : Expr.ArgsEvaluate [] (.ok [])
  | firstError {e : Expr} {es : List Expr} {error : EvalError}
      (first : Expr.Evaluates e (.error error)) : Expr.ArgsEvaluate (e :: es) (.error error)
  | restError {e : Expr} {es : List Expr} {v : Value} {error : EvalError}
      (first : Expr.Evaluates e (.ok v.exact)) (rest : Expr.ArgsEvaluate es (.error error)) :
      Expr.ArgsEvaluate (e :: es) (.error error)
  | cons {e : Expr} {es : List Expr} {v : Value} {vs : List Value}
      (first : Expr.Evaluates e (.ok v.exact)) (rest : Expr.ArgsEvaluate es (.ok vs)) :
      Expr.ArgsEvaluate (e :: es) (.ok (v :: vs))

end

end

variable {registry : Registry β}

/-- The function of a call is registered under its name. -/
theorem Registry.Resolves.get?_eq_some {name : String} {found : Nat} {f : Function β}
    (h : registry.Resolves name found (.ok f)) : registry.get? name = some f := by
  cases h with
  | found get _ => exact get

/-! ## At most one result -/

theorem Registry.Resolves.unique {name : String} {found : Nat}
    {r r' : Except EvalError (Function β)} (h : registry.Resolves name found r)
    (h' : registry.Resolves name found r') : r = r' := by
  -- a fixed count that differs is one that the function does not accept
  have hrefused : ∀ {f : Function β} {expected : Nat}, f.arity = .fixed expected →
      expected ≠ found → f.arity.accepts found = true → False := by
    intro f expected hfixed hdiffers haccepts
    rw [hfixed] at haccepts
    exact hdiffers (by simpa [Arity.accepts] using haccepts)
  cases h with
  | unknown get =>
      cases h' with
      | unknown get' => rfl
      | mismatch get' _ _ => cases get.symm.trans get'
      | found get' _ => cases get.symm.trans get'
  | mismatch get fixed differs =>
      cases h' with
      | unknown get' => cases get.symm.trans get'
      | mismatch get' fixed' differs' =>
          cases get.symm.trans get'
          cases fixed.symm.trans fixed'
          rfl
      | found get' accepts =>
          cases get.symm.trans get'
          exact (hrefused fixed differs accepts).elim
  | found get accepts =>
      cases h' with
      | unknown get' => cases get.symm.trans get'
      | mismatch get' fixed differs =>
          cases get.symm.trans get'
          exact (hrefused fixed differs accepts).elim
      | found get' accepts' =>
          cases get.symm.trans get'
          rfl

section
variable {returns : Function β → List Value → Except FunctionError Value → Prop} {env : Env}

mutual

/-- **An expression evaluates to one result at most,** if a call returns one at most. -/
theorem Expr.Evaluates.unique
    (hreturns : ∀ f values r r', returns f values r → returns f values r' → r = r') {e : Expr}
    {r r' : Except EvalError Exact} (h : Expr.Evaluates registry returns env e r)
    (h' : Expr.Evaluates registry returns env e r') :
    r = r' := by
  cases e with
  | empty | number | string | «variable» =>
      cases h
      cases h'
      rfl
  | group e =>
      cases h with
      | group inner =>
          cases h' with
          | group inner' => exact Expr.Evaluates.unique hreturns inner inner'
  | unary sign e =>
      -- the operand has one result, which tells the two rules apart
      cases h with
      | unaryError operand =>
          cases h' with
          | unaryError operand' => cases Expr.Evaluates.unique hreturns operand operand'; rfl
          | unary operand' => cases Expr.Evaluates.unique hreturns operand operand'
      | unary operand =>
          cases h' with
          | unaryError operand' => cases Expr.Evaluates.unique hreturns operand operand'
          | unary operand' => cases Expr.Evaluates.unique hreturns operand operand'; rfl
  | binary e p os =>
      cases h with
      | leftError left =>
          cases h' with
          | leftError left' => cases Expr.Evaluates.unique hreturns left left'; rfl
          | binary left' run' => cases Expr.Evaluates.unique hreturns left left'
      | binary left run =>
          cases h' with
          | leftError left' => cases Expr.Evaluates.unique hreturns left left'
          | binary left' run' =>
              cases Expr.Evaluates.unique hreturns left left'
              exact Operands.Evaluate.unique hreturns run run'
  | call name es =>
      cases h with
      | unresolved resolves =>
          cases h' with
          | unresolved resolves' => cases resolves.unique resolves'; rfl
          | argumentError resolves' _ => cases resolves.unique resolves'
          | call resolves' _ _ => cases resolves.unique resolves'
      | argumentError resolves args =>
          cases h' with
          | unresolved resolves' => cases resolves.unique resolves'
          | argumentError resolves' args' => cases Expr.ArgsEvaluate.unique hreturns args args'; rfl
          | call resolves' args' _ => cases Expr.ArgsEvaluate.unique hreturns args args'
      | call resolves args returned =>
          cases h' with
          | unresolved resolves' => cases resolves.unique resolves'
          | argumentError resolves' args' => cases Expr.ArgsEvaluate.unique hreturns args args'
          | call resolves' args' returned' =>
              cases resolves.unique resolves'
              cases Expr.ArgsEvaluate.unique hreturns args args'
              rw [hreturns _ _ _ _ returned returned']

theorem Operands.Evaluate.unique
    (hreturns : ∀ f values r r', returns f values r → returns f values r' → r = r') {left : Exact}
    {os : Operands} {r r' : Except EvalError Exact}
    (h : Operands.Evaluate registry returns env left os r)
    (h' : Operands.Evaluate registry returns env left os r') : r = r' := by
  cases os with
  | one op e =>
      cases h with
      | oneError operand =>
          cases h' with
          | oneError operand' => cases Expr.Evaluates.unique hreturns operand operand'; rfl
          | one operand' => cases Expr.Evaluates.unique hreturns operand operand'
      | one operand =>
          cases h' with
          | oneError operand' => cases Expr.Evaluates.unique hreturns operand operand'
          | one operand' => cases Expr.Evaluates.unique hreturns operand operand'; rfl
  | more op e rest =>
      cases h with
      | moreError operand =>
          cases h' with
          | moreError operand' => cases Expr.Evaluates.unique hreturns operand operand'; rfl
          | stops operand' _ => cases Expr.Evaluates.unique hreturns operand operand'
          | more operand' _ _ => cases Expr.Evaluates.unique hreturns operand operand'
      | stops operand fails =>
          cases h' with
          | moreError operand' => cases Expr.Evaluates.unique hreturns operand operand'
          | stops operand' fails' =>
              cases Expr.Evaluates.unique hreturns operand operand'
              cases fails.symm.trans fails'
              rfl
          | more operand' applied' _ =>
              cases Expr.Evaluates.unique hreturns operand operand'
              cases fails.symm.trans applied'
      | more operand applied run =>
          cases h' with
          | moreError operand' => cases Expr.Evaluates.unique hreturns operand operand'
          | stops operand' fails' =>
              cases Expr.Evaluates.unique hreturns operand operand'
              cases applied.symm.trans fails'
          | more operand' applied' run' =>
              cases Expr.Evaluates.unique hreturns operand operand'
              cases applied.symm.trans applied'
              exact Operands.Evaluate.unique hreturns run run'

theorem Expr.ArgsEvaluate.unique
    (hreturns : ∀ f values r r', returns f values r → returns f values r' → r = r')
    {es : List Expr} {r r' : Except EvalError (List Value)}
    (h : Expr.ArgsEvaluate registry returns env es r)
    (h' : Expr.ArgsEvaluate registry returns env es r') : r = r' := by
  cases es with
  | nil =>
      cases h
      cases h'
      rfl
  | cons e es =>
      cases h with
      | firstError first =>
          cases h' with
          | firstError first' => cases Expr.Evaluates.unique hreturns first first'; rfl
          | restError first' _ => cases Expr.Evaluates.unique hreturns first first'
          | cons first' _ => cases Expr.Evaluates.unique hreturns first first'
      | restError first rest =>
          cases h' with
          | firstError first' => cases Expr.Evaluates.unique hreturns first first'
          | restError first' rest' => cases Expr.ArgsEvaluate.unique hreturns rest rest'; rfl
          | cons first' rest' => cases Expr.ArgsEvaluate.unique hreturns rest rest'
      | cons first rest =>
          cases h' with
          | firstError first' => cases Expr.Evaluates.unique hreturns first first'
          | restError first' rest' => cases Expr.ArgsEvaluate.unique hreturns rest rest'
          | cons first' rest' =>
              cases Expr.ArgsEvaluate.unique hreturns rest rest'
              have hfirst := Expr.Evaluates.unique hreturns first first'
              rw [Except.ok.injEq, Value.exact_inj] at hfirst
              rw [hfirst]

end

end

end FormulaLang
