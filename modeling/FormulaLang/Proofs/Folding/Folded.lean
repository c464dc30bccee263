import Mathlib.Order.Basic
import FormulaLang.Proofs.Expr.Logic
import FormulaLang.Proofs.Expr.Nesting

/-!
# `Folding.Folded` — what folding does to a tree

`Folded calls e t` says that `t` is `e` with some of its calls replaced by literals. A call may be
replaced if its arguments, folded already, are literals and `calls` has seen the function return
the literal for their values. Where `calls` has seen it fail, the call is one that `e` fails at
(`Fails`). Neither says which of the calls are replaced: that depends on the registry, and these
relations have to outlive it.

- **`sat_fold`**: folding in any monad gives a folded tree, or else the error of a call in the
  tree, or finds the tree too tall.
-/

namespace FormulaLang

/-- What calls have returned: the name of the function, the values of its arguments, the result. -/
abbrev Calls := String → List Value → Except FunctionError Value → Prop

/-! ## Trees with calls replaced -/

mutual

/-- The second tree is the first with calls replaced by what they returned. -/
inductive Expr.Folded (calls : Calls) : Expr → Expr → Prop where
  | empty : Expr.Folded calls .empty .empty
  | number (n : Int64) : Expr.Folded calls (.number n) (.number n)
  | string (text : String) : Expr.Folded calls (.string text) (.string text)
  | variable (name : String) : Expr.Folded calls (.variable name) (.variable name)
  | unary {sign : Sign} {e t : Expr} (operand : Expr.Folded calls e t) :
      Expr.Folded calls (.unary sign e) (.unary sign t)
  | binary {p : Priority} {e t : Expr} {os ts : Operands} (left : Expr.Folded calls e t)
      (operands : Operands.Folded calls os ts) : Expr.Folded calls (.binary e p os) (.binary t p ts)
  | group {e t : Expr} (inner : Expr.Folded calls e t) : Expr.Folded calls (.group e) (.group t)
  | call {name : String} {es ts : List Expr} (args : Expr.ArgsFolded calls es ts) :
      Expr.Folded calls (.call name es) (.call name ts)
  | literal {name : String} {es ts : List Expr} {values : List Value} {v : Value} {t : Expr}
      (args : Expr.ArgsFolded calls es ts) (constant : ts.mapM Expr.literal? = some values)
      (returned : calls name values (.ok v)) (literal : v.toLiteral? = some t) :
      Expr.Folded calls (.call name es) t

/-- The operands of the second run are those of the first with calls replaced. -/
inductive Operands.Folded (calls : Calls) : Operands → Operands → Prop where
  | one {op : Operator} {e t : Expr} (operand : Expr.Folded calls e t) :
      Operands.Folded calls (.one op e) (.one op t)
  | more {op : Operator} {e t : Expr} {os ts : Operands} (operand : Expr.Folded calls e t)
      (rest : Operands.Folded calls os ts) : Operands.Folded calls (.more op e os) (.more op t ts)

/-- The second arguments are the first with calls replaced. -/
inductive Expr.ArgsFolded (calls : Calls) : List Expr → List Expr → Prop where
  | nil : Expr.ArgsFolded calls [] []
  | cons {e t : Expr} {es ts : List Expr} (first : Expr.Folded calls e t)
      (rest : Expr.ArgsFolded calls es ts) : Expr.ArgsFolded calls (e :: es) (t :: ts)

end

/-- A call in the tree, its folded arguments literals, has failed. -/
inductive Expr.Fails (calls : Calls) : Expr → String → FunctionError → Prop where
  | unary {sign : Sign} {e : Expr} {name : String} {error : FunctionError}
      (operand : Expr.Fails calls e name error) : Expr.Fails calls (.unary sign e) name error
  | left {p : Priority} {e : Expr} {os : Operands} {name : String} {error : FunctionError}
      (left : Expr.Fails calls e name error) : Expr.Fails calls (.binary e p os) name error
  | operand {p : Priority} {e : Expr} {os : Operands} {step : Operator × Expr} {name : String}
      {error : FunctionError} (mem : step ∈ os.toList)
      (operand : Expr.Fails calls step.2 name error) :
      Expr.Fails calls (.binary e p os) name error
  | group {e : Expr} {name : String} {error : FunctionError}
      (inner : Expr.Fails calls e name error) :
      Expr.Fails calls (.group e) name error
  | argument {f : String} {es : List Expr} {e : Expr} {name : String} {error : FunctionError}
      (mem : e ∈ es) (argument : Expr.Fails calls e name error) :
      Expr.Fails calls (.call f es) name error
  | call {name : String} {es ts : List Expr} {values : List Value} {error : FunctionError}
      (args : Expr.ArgsFolded calls es ts) (constant : ts.mapM Expr.literal? = some values)
      (failed : calls name values (.error error)) : Expr.Fails calls (.call name es) name error

section
variable {calls calls' : Calls}

theorem Expr.ArgsFolded.length_eq {es ts : List Expr} (h : Expr.ArgsFolded calls es ts) :
    ts.length = es.length := by
  induction es generalizing ts with
  | nil =>
      cases h
      rfl
  | cons e es ih =>
      cases h with
      | cons first rest => simp [ih rest]

mutual

/-- A tree is the folded tree of itself if no call is replaced. -/
theorem Expr.Folded.refl (e : Expr) : Expr.Folded calls e e := by
  cases e with
  | empty => exact .empty
  | number n => exact .number n
  | string text => exact .string text
  | «variable» name => exact .variable name
  | unary sign e => exact .unary (Expr.Folded.refl e)
  | binary e p os => exact .binary (Expr.Folded.refl e) (Operands.Folded.refl os)
  | group e => exact .group (Expr.Folded.refl e)
  | call name es => exact .call (Expr.ArgsFolded.refl es)

theorem Operands.Folded.refl (os : Operands) : Operands.Folded calls os os := by
  cases os with
  | one op e => exact .one (Expr.Folded.refl e)
  | more op e os => exact .more (Expr.Folded.refl e) (Operands.Folded.refl os)

theorem Expr.ArgsFolded.refl (es : List Expr) : Expr.ArgsFolded calls es es := by
  cases es with
  | nil => exact .nil
  | cons e es => exact .cons (Expr.Folded.refl e) (Expr.ArgsFolded.refl es)

end

mutual

/-- Calls that have returned more replace no less. -/
theorem Expr.Folded.mono (hcalls : calls ≤ calls') {e t : Expr} (h : Expr.Folded calls e t) :
    Expr.Folded calls' e t := by
  cases e with
  | empty | number | string | «variable» =>
      cases h
      exact .refl _
  | unary sign e =>
      cases h with
      | unary operand => exact .unary (operand.mono hcalls)
  | binary e p os =>
      cases h with
      | binary left operands => exact .binary (left.mono hcalls) (operands.mono hcalls)
  | group e =>
      cases h with
      | group inner => exact .group (inner.mono hcalls)
  | call name es =>
      cases h with
      | call args => exact .call (args.mono hcalls)
      | literal args constant returned literal =>
          exact .literal (args.mono hcalls) constant (hcalls _ _ _ returned) literal

theorem Operands.Folded.mono (hcalls : calls ≤ calls') {os ts : Operands}
    (h : Operands.Folded calls os ts) : Operands.Folded calls' os ts := by
  cases os with
  | one op e =>
      cases h with
      | one operand => exact .one (operand.mono hcalls)
  | more op e os =>
      cases h with
      | more operand rest => exact .more (operand.mono hcalls) (rest.mono hcalls)

theorem Expr.ArgsFolded.mono (hcalls : calls ≤ calls') {es ts : List Expr}
    (h : Expr.ArgsFolded calls es ts) : Expr.ArgsFolded calls' es ts := by
  cases es with
  | nil =>
      cases h
      exact .nil
  | cons e es =>
      cases h with
      | cons first rest => exact .cons (first.mono hcalls) (rest.mono hcalls)

end

end

/-! ## Literal arguments -/

theorem literals_cons_eq_some_iff {e : Expr} {es : List Expr} {values : List Value} :
    (e :: es).mapM Expr.literal? = some values ↔
      ∃ v vs, e.literal? = some v ∧ es.mapM Expr.literal? = some vs ∧ values = v :: vs := by
  rw [List.mapM_cons]
  cases e.literal? <;> cases es.mapM Expr.literal? <;> simp [eq_comm]

/-- The literal of a value has that value. -/
theorem Value.literal?_of_toLiteral? {v : Value} {t : Expr} (h : v.toLiteral? = some t) :
    t.literal? = some v := by
  cases v <;> cases h <;> rfl

theorem length_literals {es : List Expr} {values : List Value}
    (h : es.mapM Expr.literal? = some values) : values.length = es.length := by
  induction es generalizing values with
  | nil =>
      cases h
      rfl
  | cons e es ih =>
      obtain ⟨v, vs, -, hvs, rfl⟩ := literals_cons_eq_some_iff.1 h
      simp [ih hvs]

/-! ## Constant calls -/

/-- The call is one that folding computes: of a registered and eligible function, with as many
    arguments as it takes, all of them literals. -/
structure ConstantCall {β : Type} (registry : Registry β) (name : String) (es : List Expr)
    (f : Function β) (values : List Value) : Prop where
  get : registry.get? name = some f
  eligible : f.foldEligible = true
  accepts : f.arity.accepts es.length = true
  literals : es.mapM Expr.literal? = some values

section
variable {β : Type} {m : Type → Type} [Monad m] {call : Caller m β} {registry : Registry β}
variable {name : String} {es : List Expr}

/-- A constant call becomes the literal that its function returns, if it returns one. -/
theorem foldCall_of_constant {f : Function β} {values : List Value}
    (h : ConstantCall registry name es f values) :
    foldCall call registry name es = (do
      match ← call f values with
      | .error error => throw (.call name error)
      | .ok v => pure (v.toLiteral?.getD (.call name es))) := by
  have hcond : (f.foldEligible && f.arity.accepts es.length) = true := by
    rw [h.eligible, h.accepts]
    rfl
  unfold foldCall
  split
  · rename_i hnone
    cases h.get.symm.trans hnone
  · rename_i f' hget
    obtain rfl : f = f' := Option.some.inj (h.get.symm.trans hget)
    rw [if_pos hcond]
    split
    · rename_i hnone
      cases h.literals.symm.trans hnone
    · rename_i values' hvalues
      obtain rfl : values = values' := Option.some.inj (h.literals.symm.trans hvalues)
      rfl

/-- Any other call stays. -/
theorem foldCall_of_not_constant (h : ∀ f values, ¬ ConstantCall registry name es f values) :
    foldCall call registry name es = pure (.call name es) := by
  unfold foldCall
  cases hget : registry.get? name with
  | none => rfl
  | some f =>
      by_cases hcond : (f.foldEligible && f.arity.accepts es.length) = true
      · simp only [hcond, if_true]
        cases hliterals : es.mapM Expr.literal? with
        | none => rfl
        | some values =>
            obtain ⟨heligible, haccepts⟩ := Bool.and_eq_true_iff.1 hcond
            exact absurd ⟨hget, heligible, haccepts, hliterals⟩ (h f values)
      · simp only [if_neg hcond]

end

/-! ## Folding -/

/-- What folding may come to: something folded, the error of a call that fails, or the limit on
    levels if there are as many as `levels` down to the last one. -/
inductive FoldOutcome {α : Type} (maxDepth : Nat) (folded : α → Prop)
    (fails : String → FunctionError → Prop) (levels : Nat) : Except FoldError α → Prop where
  | folded {a : α} (h : folded a) : FoldOutcome maxDepth folded fails levels (.ok a)
  | failed {name : String} {error : FunctionError} (h : fails name error) :
      FoldOutcome maxDepth folded fails levels (.error (.call name error))
  | tooTall (h : maxTreeDepth maxDepth < levels) :
      FoldOutcome maxDepth folded fails levels (.error (.depthLimitExceeded maxDepth))

/-- What ends the folding of a part ends that of the whole. -/
theorem FoldOutcome.error {α γ : Type} {maxDepth levels levels' : Nat} {folded : α → Prop}
    {folded' : γ → Prop} {fails fails' : String → FunctionError → Prop} {e : FoldError}
    (h : FoldOutcome maxDepth folded fails levels (.error e))
    (hfails : ∀ name error, fails name error → fails' name error) (hlevels : levels ≤ levels') :
    FoldOutcome maxDepth folded' fails' levels' (.error e) := by
  cases h with
  | failed h => exact .failed (hfails _ _ h)
  | tooTall h => exact .tooTall (Nat.lt_of_lt_of_le h hlevels)

namespace ProgramLogic

variable {m : Type → Type} [Monad m] (L : ProgramLogic m) {w : L.World} {β : Type}
variable {call : Caller m β} {registry : Registry β} {maxDepth : Nat} {calls : L.World → Calls}

/-- What has been seen of calls stays seen, and the calls that folding makes are seen. -/
structure Sees (call : Caller m β) (registry : Registry β) (calls : L.World → Calls) : Prop where
  later : ∀ w w', L.Later w w' → calls w ≤ calls w'
  call : ∀ w name f values, registry.get? name = some f → f.foldEligible = true →
    f.arity.accepts values.length = true →
    L.Sat (call f values) w fun r w' => calls w' name values r

/-- A call is folded by what its function returns. -/
theorem sat_foldCall [LawfulMonad m] (hsees : L.Sees call registry calls) {name : String}
    {es ts : List Expr} {levels : Nat} (args : Expr.ArgsFolded (calls w) es ts) :
    L.Sat (foldCall call registry name ts).run w fun r w' =>
      FoldOutcome maxDepth (Expr.Folded (calls w') (.call name es))
        (Expr.Fails (calls w') (.call name es)) levels r := by
  -- in every case but one the call stays, with its arguments folded
  have hsame : ∀ w', calls w ≤ calls w' →
      L.Sat (pure (.call name ts) : ExceptT FoldError m Expr).run w' fun r w' =>
        FoldOutcome maxDepth (Expr.Folded (calls w') (.call name es))
          (Expr.Fails (calls w') (.call name es)) levels r :=
    fun w' h => L.sat_ok (.folded (.call (args.mono h)))
  by_cases hconstant : ∃ f values, ConstantCall registry name ts f values
  · obtain ⟨f, values, hget, heligible, haccepts, hvalues⟩ := hconstant
    rw [foldCall_of_constant ⟨hget, heligible, haccepts, hvalues⟩]
    rw [← length_literals hvalues] at haccepts
    refine L.sat_lift (hsees.call w name f values hget heligible haccepts) ?_
    intro r w' hw hr
    -- what the arguments were folded by was seen before the call, and is seen after it
    have hargs := args.mono (hsees.later w w' hw)
    cases r with
    | error error => exact L.sat_throw (.failed (.call hargs hvalues hr))
    | ok v =>
        cases hliteral : v.toLiteral? with
        | none =>
            simp only [hliteral, Option.getD_none]
            exact hsame w' (hsees.later w w' hw)
        | some t =>
            simp only [hliteral, Option.getD_some]
            exact L.sat_ok (.folded (.literal hargs hvalues hr hliteral))
  · rw [foldCall_of_not_constant fun f values h => hconstant ⟨f, values, h⟩]
    exact hsame w le_rfl

mutual

/-- **Folding replaces calls by what they return, and only that.** If it fails, then over a call
    that fails or a tree with too many levels. -/
theorem sat_foldAt [LawfulMonad m] (hsees : L.Sees call registry calls) (w : L.World)
    (level : Nat) (e : Expr) :
    L.Sat (Expr.foldAt call registry maxDepth level e).run w fun r w' =>
      FoldOutcome maxDepth (e.Folded (calls w')) (e.Fails (calls w')) (level + e.height) r := by
  rw [Expr.foldAt.eq_def]
  split
  · rename_i htall
    -- the node itself is a level too many
    have := e.height_pos
    exact L.sat_throw (.tooTall (by omega))
  cases e with
  | empty => exact L.sat_ok (.folded .empty)
  | number n => exact L.sat_ok (.folded (.number n))
  | string text => exact L.sat_ok (.folded (.string text))
  | «variable» name => exact L.sat_ok (.folded (.variable name))
  | unary sign e =>
      refine L.sat_seq (sat_foldAt hsees w (level + 1) e) (fun error w h => ?_) ?_
      · exact h.error (fun _ _ => .unary) (by simp only [Expr.height]; omega)
      · rintro t w - ⟨h⟩
        exact L.sat_ok (.folded (.unary h))
  | binary e p os =>
      refine L.sat_seq (sat_foldAt hsees w (level + 1) e) (fun error w h => ?_) ?_
      · exact h.error (fun _ _ => .left) (by simp only [Expr.height]; omega)
      rintro t w - ⟨h⟩
      refine L.sat_seq (sat_foldOperands hsees w (level + 1) os) (fun error w hs => ?_) ?_
      · exact hs.error (fun _ _ ⟨_, hmem, hfails⟩ => .operand hmem hfails)
          (by simp only [Expr.height]; omega)
      · rintro ts w' hw ⟨hs⟩
        exact L.sat_ok (.folded (.binary (h.mono (hsees.later w w' hw)) hs))
  | call name es =>
      refine L.sat_seq (sat_foldArgs hsees w (level + 1) es) (fun error w h => ?_) ?_
      · exact h.error (fun _ _ ⟨_, hmem, hfails⟩ => .argument hmem hfails)
          (by simp only [Expr.height]; omega)
      · rintro ts w - ⟨h⟩
        exact L.sat_foldCall hsees h
  | group e =>
      refine L.sat_seq (sat_foldAt hsees w (level + 1) e) (fun error w h => ?_) ?_
      · exact h.error (fun _ _ => .group) (by simp only [Expr.height]; omega)
      · rintro t w - ⟨h⟩
        exact L.sat_ok (.folded (.group h))

theorem sat_foldOperands [LawfulMonad m] (hsees : L.Sees call registry calls) (w : L.World)
    (level : Nat) (os : Operands) :
    L.Sat (Operands.foldAt call registry maxDepth level os).run w fun r w' =>
      FoldOutcome maxDepth (os.Folded (calls w'))
        (fun name error => ∃ step ∈ os.toList, step.2.Fails (calls w') name error)
        (level + os.height) r := by
  cases os with
  | one op e =>
      refine L.sat_seq (sat_foldAt hsees w level e) (fun error w h => ?_) ?_
      · exact h.error (fun _ _ hfails => ⟨(op, e), by simp [Operands.toList], hfails⟩)
          (by simp only [Operands.height]; omega)
      · rintro t w - ⟨h⟩
        exact L.sat_ok (.folded (.one h))
  | more op e os =>
      refine L.sat_seq (sat_foldAt hsees w level e) (fun error w h => ?_) ?_
      · exact h.error (fun _ _ hfails => ⟨(op, e), by simp [Operands.toList], hfails⟩)
          (by simp only [Operands.height]; omega)
      rintro t w - ⟨h⟩
      refine L.sat_seq (sat_foldOperands hsees w level os) (fun error w hs => ?_) ?_
      · exact hs.error
          (fun _ _ ⟨step, hmem, hfails⟩ => ⟨step, List.mem_cons_of_mem _ hmem, hfails⟩)
          (by simp only [Operands.height]; omega)
      · rintro ts w' hw ⟨hs⟩
        exact L.sat_ok (.folded (.more (h.mono (hsees.later w w' hw)) hs))

theorem sat_foldArgs [LawfulMonad m] (hsees : L.Sees call registry calls) (w : L.World)
    (level : Nat) (es : List Expr) :
    L.Sat (Expr.foldArgs call registry maxDepth level es).run w fun r w' =>
      FoldOutcome maxDepth (Expr.ArgsFolded (calls w') es)
        (fun name error => ∃ e ∈ es, e.Fails (calls w') name error)
        (level + Expr.argsHeight es) r := by
  cases es with
  | nil => exact L.sat_ok (.folded .nil)
  | cons e es =>
      refine L.sat_seq (sat_foldAt hsees w level e) (fun error w h => ?_) ?_
      · exact h.error (fun _ _ hfails => ⟨e, by simp, hfails⟩)
          (by simp only [Expr.argsHeight]; omega)
      rintro t w - ⟨h⟩
      refine L.sat_seq (sat_foldArgs hsees w level es) (fun error w hs => ?_) ?_
      · exact hs.error (fun _ _ ⟨e', hmem, hfails⟩ => ⟨e', List.mem_cons_of_mem _ hmem, hfails⟩)
          (by simp only [Expr.argsHeight]; omega)
      · rintro ts w' hw ⟨hs⟩
        exact L.sat_ok (.folded (.cons (h.mono (hsees.later w w' hw)) hs))

end

/-- Folding a whole tree. -/
theorem sat_fold [LawfulMonad m] (calls : L.World → Calls)
    (hlater : ∀ w w', L.Later w w' → calls w ≤ calls w')
    (hcall : ∀ w name f values, registry.get? name = some f → f.foldEligible = true →
      f.arity.accepts values.length = true →
      L.Sat (call f values) w fun r w' => calls w' name values r)
    (w : L.World) (maxDepth : Nat) (e : Expr) :
    L.Sat (e.fold call registry maxDepth) w fun r w' =>
      FoldOutcome maxDepth (e.Folded (calls w')) (e.Fails (calls w')) e.height r := by
  have hlevels : e.height = 0 + e.height := (Nat.zero_add _).symm
  rw [hlevels]
  exact L.sat_foldAt ⟨hlater, hcall⟩ w 0 e

end ProgramLogic

end FormulaLang
