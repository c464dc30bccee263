import FormulaLang.Proofs.Expr.Fits
import FormulaLang.Proofs.Session.Agree

/-!
# `Folding.Meaning` — a folded tree evaluates like the tree it comes from

Evaluation may run any functions here, with any effects, on the registry too. All that is asked is
that the sessions compared look the same to the functions, and that a function seen by folding
stays registered, and returns the same again without leaving a trace (`Faithful`). Then a folded
tree and its original agree at every depth at which the original fits. Errors come in the same
order: where a call was replaced, the original passes all its tests, since the function is there
and takes the arguments, and where it was not, both trees make the same tests before they go on to
the arguments.

- **`Expr.Folded.agree`**: the original and its folded tree agree.
- **`Expr.Fails.no_value`**: a tree in which folding met a failing call has no value.
-/

namespace FormulaLang

variable {σ β : Type}

/-! ## Finding functions -/

/-- The function of the given name, if a call of it may have `found` arguments. -/
def Registry.resolve (registry : Registry β) (name : String) (found : Nat) :
    Except EvalError (Function β) :=
  match registry.get? name with
  | none => .error (.unknownFunction name)
  | some f =>
    match f.arity with
    | .fixed expected =>
      if expected = found then .ok f else .error (.arityMismatch name expected found)
    | .variadic => .ok f

theorem Registry.resolve_eq_ok_iff {registry : Registry β} {name : String} {found : Nat}
    {f : Function β} :
    registry.resolve name found = .ok f ↔
      registry.get? name = some f ∧ f.arity.accepts found = true := by
  unfold Registry.resolve
  cases registry.get? name with
  | none => simp
  | some f' =>
      cases harity : f'.arity with
      | variadic =>
          simp only [harity, Except.ok.injEq, Option.some.injEq]
          constructor
          · rintro rfl
            simp [harity, Arity.accepts]
          · exact And.left
      | fixed expected =>
          simp only [harity, Option.some.injEq]
          by_cases hcount : expected = found
          · simp only [hcount, if_true, Except.ok.injEq]
            constructor
            · rintro rfl
              simp [harity, Arity.accepts, hcount]
            · exact And.left
          · simp only [if_neg hcount, reduceCtorEq, false_iff, not_and]
            rintro rfl
            simp [harity, Arity.accepts, hcount]

/-- Evaluation in a session looks a function up and goes on where it is. -/
theorem Session.result_resolve (call : Caller (Run σ β) β) (name : String) (found : Nat)
    (s : Session σ β) :
    ((surroundings call).resolve name found).run.result s =
      (some (s.vm.registry.resolve name found), s) := by
  have h : ((surroundings call).resolve name found).run.result s =
      ((match s.vm.registry.get? name with
        | none => throw (.unknownFunction name)
        | some f =>
          match f.arity with
          | .fixed expected =>
            if expected = found then pure f else throw (.arityMismatch name expected found)
          | .variadic => pure f : ExceptT EvalError (Run σ β) (Function β)).run).result s := rfl
  rw [h, Registry.resolve]
  cases s.vm.registry.get? name with
  | none => rfl
  | some f =>
      cases harity : f.arity with
      | variadic =>
          simp only [harity]
          rfl
      | fixed expected =>
          by_cases hcount : expected = found
          · simp only [harity, if_pos hcount]
            rfl
          · simp only [harity, if_neg hcount]
            rfl

/-! ## Agreement -/

open Run

/-- Sessions that are the `Same` have the same functions, all `known`; running them keeps the
    sessions the same; and calls return as seen. -/
structure Faithful (Same : Session σ β → Session σ β → Prop) (call : Caller (Run σ β) β)
    (known : Function β → Prop) (calls : Calls) : Prop where
  registry : ∀ s s', Same s s' → s.vm.registry = s'.vm.registry
  found : ∀ s s', Same s s' → ∀ name f, s.vm.registry.get? name = some f → known f
  called : ∀ f values, known f → Agree Same (call f values) (call f values)
  seen : ∀ name values r, calls name values r → ∃ f,
    (∀ s s', Same s s' → s.vm.registry.get? name = some f) ∧
      f.arity.accepts values.length = true ∧ Agree Same (call f values) (pure r)

section
variable {Same : Session σ β → Session σ β → Prop} {call : Caller (Run σ β) β}
variable {known : Function β → Prop} {calls : Calls} {maxDepth : Nat} {env : Env} {depth : Depth}

namespace Faithful

variable (hfaithful : Faithful Same call known calls)
include hfaithful

theorem agree_resolve (name : String) (found : Nat) :
    Agree Same ((Session.surroundings call).resolve name found).run
      ((Session.surroundings call).resolve name found).run := by
  intro s s' h
  rw [after, after, Session.result_resolve, Session.result_resolve, hfaithful.registry s s' h]
  exact ⟨rfl, fun _ _ => h⟩

/-- Both sides find the same function. -/
theorem agree_resolve_bind {α : Type} {name : String} {found : Nat}
    {k k' : Function β → ExceptT EvalError (Run σ β) α}
    (hk : ∀ f, known f → Agree Same (k f).run (k' f).run) :
    Agree Same ((Session.surroundings call).resolve name found >>= k).run
      ((Session.surroundings call).resolve name found >>= k').run := by
  refine Agree.bindE (hfaithful.agree_resolve name found) fun s s' f h hresult => ?_
  rw [Session.result_resolve, Option.some.injEq, Registry.resolve_eq_ok_iff] at hresult
  exact hk f (hfaithful.found s s' h name f hresult.1)

theorem agree_apply (name : String) {f : Function β} (hf : known f) (values : List Value) :
    Agree Same ((Session.surroundings call).apply name f values).run
      ((Session.surroundings call).apply name f values).run := by
  refine Agree.lift (hfaithful.called f values hf) fun r => ?_
  cases r with
  | ok v => exact agree_pure _
  | error error => exact agree_pure _

/-- A call whose arguments have the values of a call seen goes the way of that call. -/
theorem agree_evalAt_call {name : String} {es : List Expr} {values : List Value}
    {r : Except FunctionError Value} (hr : calls name values r)
    (hfits : depth.Fits maxDepth (Expr.call name es).height (Expr.call name es).nesting)
    (hlength : values.length = es.length)
    (hargs : ∀ inside, depth.down.enter maxDepth = .ok inside →
      Agree Same (Expr.evalArgs (Session.surroundings call) maxDepth env inside es).run
        (pure (.ok values))) :
    Agree Same (Expr.evalAt (Session.surroundings call) maxDepth env depth (.call name es)).run
      (pure (r.mapError (EvalError.call name))) := by
  -- the tests that evaluation makes before the arguments all pass: limits, existence and count
  obtain ⟨f, hget, haccepts, hreturn⟩ := hfaithful.seen name values r hr
  obtain ⟨inside, henter, -⟩ := hfits.enter
  have hfound : Agree Same ((Session.surroundings call).resolve name es.length).run
      (pure (.ok f)) := by
    intro s s' h
    rw [after, Session.result_resolve,
      Registry.resolve_eq_ok_iff.2 ⟨hget s s' h, hlength ▸ haccepts⟩]
    exact ⟨rfl, fun _ _ => h⟩
  rw [Expr.evalAt_call (hfits.levels_lt (Expr.height_pos _)), henter, Expr.liftExcept_ok_bind]
  refine Agree.bind_leftE hfound ?_
  refine Agree.bind_leftE (hargs inside henter) ?_
  refine Agree.lift_left hreturn ?_
  cases r with
  | ok v => exact agree_pure _
  | error error => exact agree_pure _

end Faithful

/-! ## Folded trees -/

/-- Arguments that agree with literals have their values. -/
theorem Expr.ArgsFolded.agree_literals {es ts : List Expr} {values : List Value}
    (hfits : depth.Fits maxDepth (Expr.argsHeight es) (Expr.argsNesting es))
    (h : Expr.ArgsFolded calls es ts) (hvalues : ts.mapM Expr.literal? = some values)
    (hagree : Agree Same (Expr.evalArgs (Session.surroundings call) maxDepth env depth es).run
      (Expr.evalArgs (Session.surroundings call) maxDepth env depth ts).run) :
    Agree Same (Expr.evalArgs (Session.surroundings call) maxDepth env depth es).run
      (pure (.ok values)) := by
  have hlt : ts ≠ [] → depth.levels < maxTreeDepth maxDepth := by
    intro hts
    refine hfits.levels_lt (Expr.argsHeight_pos ?_)
    rintro rfl
    exact hts (List.length_eq_zero_iff.1 h.length_eq)
  rw [Expr.evalArgs_literals hlt hvalues] at hagree
  exact hagree

mutual

/-- **Folding does not change what a tree evaluates to.** -/
theorem Expr.Folded.agree (hfaithful : Faithful Same call known calls) {depth : Depth}
    {e t : Expr} (hfits : depth.Fits maxDepth e.height e.nesting)
    (h : Expr.Folded calls e t) :
    Agree Same (Expr.evalAt (Session.surroundings call) maxDepth env depth e).run
      (Expr.evalAt (Session.surroundings call) maxDepth env depth t).run := by
  have hlt := hfits.levels_lt e.height_pos
  cases e with
  | empty | number | string | «variable» =>
      cases h
      rw [Expr.evalAt.eq_def, if_neg (Nat.not_le.2 hlt)]
      exact agree_pure _
  | unary sign e =>
      cases h with
      | unary operand =>
          rw [Expr.evalAt_unary hlt, Expr.evalAt_unary hlt]
          exact (Expr.Folded.agree hfaithful hfits.down operand).seqE fun v => agree_liftExcept _
  | binary e p os =>
      simp only [Expr.height, Expr.nesting] at hfits
      cases h with
      | binary left operands =>
          rw [Expr.evalAt_binary hlt, Expr.evalAt_binary hlt]
          have hleft := hfits.down.mono (Nat.le_max_left _ _) (Nat.le_max_left _ _)
          have hright := hfits.down.mono (Nat.le_max_right _ _) (Nat.le_max_right _ _)
          exact (Expr.Folded.agree hfaithful hleft left).seqE fun v =>
            Operands.Folded.agree hfaithful v hright operands
  | group e =>
      cases h with
      | group inner =>
          obtain ⟨inside, henter, hinside⟩ := hfits.enter
          rw [Expr.evalAt_group hlt, Expr.evalAt_group hlt, henter, Expr.liftExcept_ok_bind,
            Expr.liftExcept_ok_bind]
          exact Expr.Folded.agree hfaithful hinside inner
  | call name es =>
      obtain ⟨inside, henter, hinside⟩ := hfits.enter
      cases h with
      | call args =>
          -- both calls have as many arguments, so an error in finding the function is the same
          rw [Expr.evalAt_call hlt, Expr.evalAt_call hlt, henter, args.length_eq,
            Expr.liftExcept_ok_bind, Expr.liftExcept_ok_bind]
          refine hfaithful.agree_resolve_bind fun f hf => ?_
          refine Agree.seqE (Expr.ArgsFolded.agree hfaithful hinside args) fun values => ?_
          exact hfaithful.agree_apply name hf values
      | @literal _ _ ts values v _ args constant returned literal =>
          -- one step on the right, and on the left a call that goes the way of the one seen
          rw [Expr.evalAt_literal hlt (Value.literal?_of_toLiteral? literal)]
          refine hfaithful.agree_evalAt_call returned hfits ?_ fun inside' henter' => ?_
          · rw [length_literals constant, args.length_eq]
          · obtain rfl : inside = inside' := Except.ok.inj (henter.symm.trans henter')
            exact args.agree_literals hinside constant
              (Expr.ArgsFolded.agree hfaithful hinside args)

theorem Operands.Folded.agree (hfaithful : Faithful Same call known calls) {depth : Depth}
    {os ts : Operands} (v : Value)
    (hfits : depth.Fits maxDepth os.height os.nesting) (h : Operands.Folded calls os ts) :
    Agree Same (Operands.evalAt (Session.surroundings call) maxDepth env depth v os).run
      (Operands.evalAt (Session.surroundings call) maxDepth env depth v ts).run := by
  cases os with
  | one op e =>
      cases h with
      | one operand =>
          exact (Expr.Folded.agree hfaithful hfits operand).seqE fun right => agree_liftExcept _
  | more op e os =>
      simp only [Operands.height, Operands.nesting] at hfits
      cases h with
      | more operand rest =>
          have hfirst := hfits.mono (Nat.le_max_left _ _) (Nat.le_max_left _ _)
          have hrest := hfits.mono (Nat.le_max_right _ _) (Nat.le_max_right _ _)
          refine Agree.seqE (Expr.Folded.agree hfaithful hfirst operand) fun right => ?_
          refine Agree.seqE (agree_liftExcept _) fun v => ?_
          exact Operands.Folded.agree hfaithful v hrest rest

theorem Expr.ArgsFolded.agree (hfaithful : Faithful Same call known calls) {depth : Depth}
    {es ts : List Expr}
    (hfits : depth.Fits maxDepth (Expr.argsHeight es) (Expr.argsNesting es))
    (h : Expr.ArgsFolded calls es ts) :
    Agree Same (Expr.evalArgs (Session.surroundings call) maxDepth env depth es).run
      (Expr.evalArgs (Session.surroundings call) maxDepth env depth ts).run := by
  cases es with
  | nil =>
      cases h
      exact agree_pure _
  | cons e es =>
      simp only [Expr.argsHeight, Expr.argsNesting] at hfits
      cases h with
      | cons first rest =>
          have hfirst := hfits.mono (Nat.le_max_left _ _) (Nat.le_max_left _ _)
          have hrest := hfits.mono (Nat.le_max_right _ _) (Nat.le_max_right _ _)
          refine Agree.seqE (Expr.Folded.agree hfaithful hfirst first) fun v => ?_
          exact (Expr.ArgsFolded.agree hfaithful hrest rest).seqE fun vs => agree_pure _

end

/-! ## Trees that fail -/

/-- From related sessions the program ends without a result of its own: with an error, or out of
    fuel. -/
def Run.NoValue {ε α : Type} (Same : Session σ β → Session σ β → Prop)
    (x : ExceptT ε (Run σ β) α) : Prop :=
  ∀ s s' a, Same s s' → (x.run.result s).1 ≠ some (.ok a)

namespace Run.NoValue

variable {ε α γ : Type} {x y : ExceptT ε (Run σ β) α} {f : α → ExceptT ε (Run σ β) γ}

theorem of_agree {e : ε} (h : Agree Same x.run (pure (.error e))) : NoValue Same x := by
  intro s s' a hsame hresult
  have herror := (h s s' hsame).1
  rw [hresult] at herror
  cases herror

/-- A sequence has no result if its first part has none. -/
theorem first (h : NoValue Same x) : NoValue Same (x >>= f) := by
  intro s s' a hsame hresult
  change ((x.run >>= _).result s).1 = _ at hresult
  obtain ⟨r, hx, hresult⟩ := result_bind_eq_some_iff.1 hresult
  cases r with
  | ok a' => exact h s s' a' hsame hx
  | error e => cases hresult

/-- A sequence has no result if its second part has none wherever it begins. -/
theorem second (hxy : Agree Same x.run y.run) (h : ∀ a, NoValue Same (f a)) :
    NoValue Same (x >>= f) := by
  intro s s' a hsame hresult
  change ((x.run >>= _).result s).1 = _ at hresult
  obtain ⟨r, hx, hresult⟩ := result_bind_eq_some_iff.1 hresult
  cases r with
  | ok a' => exact h a' _ _ a ((hxy s s' hsame).2 _ hx) hresult
  | error e => cases hresult

end Run.NoValue

theorem Operands.no_value (hfaithful : Faithful Same call known calls) {os : Operands}
    {step : Operator × Expr} (hfits : depth.Fits maxDepth os.height os.nesting)
    (hmem : step ∈ os.toList)
    (h : NoValue Same (Expr.evalAt (Session.surroundings call) maxDepth env depth step.2))
    (v : Value) :
    NoValue Same (Operands.evalAt (Session.surroundings call) maxDepth env depth v os) := by
  match os with
  | .one op e =>
      obtain rfl := List.mem_singleton.1 hmem
      exact h.first
  | .more op e os =>
      simp only [Operands.height, Operands.nesting] at hfits
      rw [Operands.evalAt]
      rcases List.mem_cons.1 hmem with rfl | hrest
      · exact h.first
      have hfirst := hfits.mono (Nat.le_max_left _ _) (Nat.le_max_left _ _)
      refine NoValue.second (Expr.Folded.agree hfaithful hfirst (.refl e)) fun right => ?_
      refine NoValue.second (agree_liftExcept _) fun v => ?_
      exact Operands.no_value hfaithful
        (hfits.mono (Nat.le_max_right _ _) (Nat.le_max_right _ _)) hrest h v

theorem Expr.no_value_args (hfaithful : Faithful Same call known calls) {es : List Expr} {e : Expr}
    (hfits : depth.Fits maxDepth (Expr.argsHeight es) (Expr.argsNesting es)) (hmem : e ∈ es)
    (h : NoValue Same (Expr.evalAt (Session.surroundings call) maxDepth env depth e)) :
    NoValue Same (Expr.evalArgs (Session.surroundings call) maxDepth env depth es) := by
  induction es with
  | nil => cases hmem
  | cons e' es ih =>
      simp only [Expr.argsHeight, Expr.argsNesting] at hfits
      rw [Expr.evalArgs]
      rcases List.mem_cons.1 hmem with rfl | hrest
      · exact h.first
      have hfirst := hfits.mono (Nat.le_max_left _ _) (Nat.le_max_left _ _)
      have hothers := hfits.mono (Nat.le_max_right _ _) (Nat.le_max_right _ _)
      exact NoValue.second (Expr.Folded.agree hfaithful hfirst (.refl e')) fun v =>
        (ih hothers hrest).first

/-- **A tree in which folding met a failing call has no value.** Evaluation may end with another
    error before it comes to the call. -/
theorem Expr.Fails.no_value (hfaithful : Faithful Same call known calls) {e : Expr} {name : String}
    {error : FunctionError} (hfits : depth.Fits maxDepth e.height e.nesting)
    (h : Expr.Fails calls e name error) :
    NoValue Same (Expr.evalAt (Session.surroundings call) maxDepth env depth e) := by
  induction h generalizing depth with
  | unary _ ih =>
      rw [Expr.evalAt_unary (hfits.levels_lt (Expr.height_pos _))]
      exact (ih hfits.down).first
  | left _ ih =>
      rw [Expr.evalAt_binary (hfits.levels_lt (Expr.height_pos _))]
      exact (ih (hfits.down.mono (Nat.le_max_left _ _) (Nat.le_max_left _ _))).first
  | @operand p e os step _ _ hmem _ ih =>
      rw [Expr.evalAt_binary (hfits.levels_lt (Expr.height_pos _))]
      have hleft := hfits.down.mono (Nat.le_max_left _ _) (Nat.le_max_left _ _)
      have hright : depth.down.Fits maxDepth os.height os.nesting :=
        hfits.down.mono (Nat.le_max_right _ _) (Nat.le_max_right _ _)
      have hstep : depth.down.Fits maxDepth step.2.height step.2.nesting :=
        hright.mono (os.height_le.1 (Nat.le_refl _) step hmem)
          (os.nesting_le.1 (Nat.le_refl _) step hmem)
      exact NoValue.second (Expr.Folded.agree hfaithful hleft (.refl e)) fun v =>
        Operands.no_value hfaithful hright hmem (ih hstep) v
  | group _ ih =>
      obtain ⟨inside, henter, hinside⟩ := hfits.enter
      rw [Expr.evalAt_group (hfits.levels_lt (Expr.height_pos _)), henter, Expr.liftExcept_ok_bind]
      exact ih hinside
  | @argument f es e _ _ hmem _ ih =>
      -- finding the function may fail first, and then there is no value either
      obtain ⟨inside, henter, hinside⟩ := hfits.enter
      have he : inside.Fits maxDepth e.height e.nesting :=
        hinside.mono (Expr.argsHeight_le.1 (Nat.le_refl _) e hmem)
          (Expr.argsNesting_le.1 (Nat.le_refl _) e hmem)
      rw [Expr.evalAt_call (hfits.levels_lt (Expr.height_pos _)), henter, Expr.liftExcept_ok_bind]
      refine NoValue.second (hfaithful.agree_resolve f es.length) fun f => ?_
      exact (Expr.no_value_args hfaithful hinside hmem (ih he)).first
  | @call name es ts values error args constant failed =>
      refine NoValue.of_agree (hfaithful.agree_evalAt_call failed hfits ?_ fun inside henter => ?_)
      · rw [length_literals constant, args.length_eq]
      · obtain ⟨inside', henter', hinside⟩ := hfits.enter
        obtain rfl : inside' = inside := Except.ok.inj (henter'.symm.trans henter)
        exact args.agree_literals hinside constant (Expr.ArgsFolded.agree hfaithful hinside args)

end

end FormulaLang
