import FormulaLang.Proofs.Evaluation.Exactness
import FormulaLang.Proofs.Expr.Calls
import FormulaLang.Proofs.Folding.Growth

/-!
# `Folding.NormalForm` — folding leaves nothing to fold

A call can be replaced if its arguments are literals and a literal is what it returns. A tree in
which no call can be replaced is `Normal`. Replacing calls until there are no more (`NormalForm`)
leads to one tree only, whichever way it is done: what the arguments of a call become does not
depend on the call, and where they have become literals, the call either has to be replaced or
cannot be.

Folding rewrites the arguments before the call and does so once. That is enough.

- **`Expr.foldedAt_normal`**: in what has been folded, no call can be replaced.
- **`fold_normal_form`**: folding comes to the normal form, or to the error of a call on the way to
  it, or finds the tree too tall.
-/

namespace FormulaLang

/-! ## Normal forms -/

section
variable {calls : Calls}

/-- The arguments of the call are literals, and it has returned a literal for them. -/
def CallNode.Replaceable (calls : Calls) (node : CallNode) : Prop :=
  ∃ values v t, node.args.mapM Expr.literal? = some values ∧ calls node.name values (.ok v) ∧
    v.toLiteral? = some t

/-- No call in the tree can be replaced. -/
def Expr.Normal (calls : Calls) (e : Expr) : Prop := ∀ node ∈ e.calls, ¬ node.Replaceable calls

/-- No call in the operands can be replaced. -/
def Operands.Normal (calls : Calls) (os : Operands) : Prop :=
  ∀ node ∈ os.calls, ¬ node.Replaceable calls

/-- No call in the arguments can be replaced. -/
def Expr.ArgsNormal (calls : Calls) (es : List Expr) : Prop :=
  ∀ node ∈ Expr.argsCalls es, ¬ node.Replaceable calls

/-- The second tree is the first with calls replaced, and with no call left to replace. -/
structure Expr.NormalForm (calls : Calls) (e t : Expr) : Prop where
  folded : e.Folded calls t
  normal : t.Normal calls

theorem Expr.normal_binary_iff {e : Expr} {p : Priority} {os : Operands} :
    (Expr.binary e p os).Normal calls ↔ e.Normal calls ∧ os.Normal calls :=
  List.forall_mem_append

theorem Expr.normal_call_iff {name : String} {es : List Expr} :
    (Expr.call name es).Normal calls ↔
      Expr.ArgsNormal calls es ∧ ¬ CallNode.Replaceable calls ⟨name, es⟩ := by
  show (∀ node ∈ Expr.argsCalls es ++ [⟨name, es⟩], ¬ node.Replaceable calls) ↔ _
  rw [List.forall_mem_append, List.forall_mem_singleton]
  rfl

theorem Operands.normal_more_iff {op : Operator} {e : Expr} {os : Operands} :
    (Operands.more op e os).Normal calls ↔ e.Normal calls ∧ os.Normal calls :=
  List.forall_mem_append

theorem Expr.argsNormal_cons_iff {e : Expr} {es : List Expr} :
    Expr.ArgsNormal calls (e :: es) ↔ e.Normal calls ∧ Expr.ArgsNormal calls es :=
  List.forall_mem_append

/-- A literal has no calls. -/
theorem Expr.normal_of_literal? {e : Expr} {v : Value} (h : e.literal? = some v) :
    e.Normal calls := by
  cases e with
  | number | string => exact List.forall_mem_nil _
  | _ => cases h

theorem Expr.argsNormal_of_literals {es : List Expr} {values : List Value}
    (h : es.mapM Expr.literal? = some values) : Expr.ArgsNormal calls es := by
  induction es generalizing values with
  | nil => exact List.forall_mem_nil _
  | cons e es ih =>
      obtain ⟨v, vs, hv, hvs, -⟩ := literals_cons_eq_some_iff.1 h
      exact Expr.argsNormal_cons_iff.2 ⟨Expr.normal_of_literal? hv, ih hvs⟩

/-! ## There is one -/

/-- A call that is kept and normal cannot be the one that another folding has replaced. -/
theorem Expr.call_ne_literal {name : String} {es : List Expr} {values : List Value} {v : Value}
    {t : Expr} (hnormal : (Expr.call name es).Normal calls)
    (hconstant : es.mapM Expr.literal? = some values) (hreturned : calls name values (.ok v)) :
    v.toLiteral? ≠ some t := by
  intro hliteral
  exact (Expr.normal_call_iff.1 hnormal).2 ⟨values, v, t, hconstant, hreturned, hliteral⟩

mutual

/-- Two ways of replacing calls until there are no more come to one tree. -/
theorem Expr.Folded.eq_of_normal
    (hunique : ∀ name values r r', calls name values r → calls name values r' → r = r')
    {e t t' : Expr} (h : e.Folded calls t) (hnormal : t.Normal calls) (h' : e.Folded calls t')
    (hnormal' : t'.Normal calls) : t = t' := by
  cases e with
  | empty | number | string | «variable» =>
      cases h
      cases h'
      rfl
  | unary sign e =>
      cases h with
      | unary operand =>
      cases h' with
      | unary operand' => rw [Expr.Folded.eq_of_normal hunique operand hnormal operand' hnormal']
  | binary e p os =>
      cases h with
      | binary left operands =>
      cases h' with
      | binary left' operands' =>
      obtain ⟨hleft, hoperands⟩ := Expr.normal_binary_iff.1 hnormal
      obtain ⟨hleft', hoperands'⟩ := Expr.normal_binary_iff.1 hnormal'
      rw [Expr.Folded.eq_of_normal hunique left hleft left' hleft',
        Operands.Folded.eq_of_normal hunique operands hoperands operands' hoperands']
  | group e =>
      cases h with
      | group inner =>
      cases h' with
      | group inner' => rw [Expr.Folded.eq_of_normal hunique inner hnormal inner' hnormal']
  | call name es =>
      cases h with
      | call args =>
          have hargs := (Expr.normal_call_iff.1 hnormal).1
          cases h' with
          | call args' =>
              have hargs' := (Expr.normal_call_iff.1 hnormal').1
              rw [Expr.ArgsFolded.eq_of_normal hunique args hargs args' hargs']
          | literal args' constant returned literal =>
              have hargs' : Expr.ArgsNormal calls _ := Expr.argsNormal_of_literals constant
              obtain rfl := Expr.ArgsFolded.eq_of_normal hunique args hargs args' hargs'
              exact absurd literal (Expr.call_ne_literal hnormal constant returned)
      | literal args constant returned literal =>
          have hargs : Expr.ArgsNormal calls _ := Expr.argsNormal_of_literals constant
          cases h' with
          | call args' =>
              have hargs' := (Expr.normal_call_iff.1 hnormal').1
              obtain rfl := Expr.ArgsFolded.eq_of_normal hunique args hargs args' hargs'
              exact absurd literal (Expr.call_ne_literal hnormal' constant returned)
          | literal args' constant' returned' literal' =>
              have hargs' : Expr.ArgsNormal calls _ := Expr.argsNormal_of_literals constant'
              obtain rfl := Expr.ArgsFolded.eq_of_normal hunique args hargs args' hargs'
              obtain rfl := Option.some.inj (constant.symm.trans constant')
              obtain rfl := Except.ok.inj (hunique _ _ _ _ returned returned')
              exact Option.some.inj (literal.symm.trans literal')
termination_by structural e

theorem Operands.Folded.eq_of_normal
    (hunique : ∀ name values r r', calls name values r → calls name values r' → r = r')
    {os ts ts' : Operands} (h : os.Folded calls ts) (hnormal : ts.Normal calls)
    (h' : os.Folded calls ts') (hnormal' : ts'.Normal calls) :
    ts = ts' := by
  cases os with
  | one op e =>
      cases h with
      | one operand =>
      cases h' with
      | one operand' => rw [Expr.Folded.eq_of_normal hunique operand hnormal operand' hnormal']
  | more op e os =>
      cases h with
      | more operand rest =>
      cases h' with
      | more operand' rest' =>
      obtain ⟨hfirst, hrest⟩ := Operands.normal_more_iff.1 hnormal
      obtain ⟨hfirst', hrest'⟩ := Operands.normal_more_iff.1 hnormal'
      rw [Expr.Folded.eq_of_normal hunique operand hfirst operand' hfirst',
        Operands.Folded.eq_of_normal hunique rest hrest rest' hrest']
termination_by structural os

theorem Expr.ArgsFolded.eq_of_normal
    (hunique : ∀ name values r r', calls name values r → calls name values r' → r = r')
    {es ts ts' : List Expr} (h : Expr.ArgsFolded calls es ts) (hnormal : Expr.ArgsNormal calls ts)
    (h' : Expr.ArgsFolded calls es ts') (hnormal' : Expr.ArgsNormal calls ts') : ts = ts' := by
  cases es with
  | nil =>
      cases h
      cases h'
      rfl
  | cons e es =>
      cases h with
      | cons first rest =>
      cases h' with
      | cons first' rest' =>
      obtain ⟨hfirst, hrest⟩ := Expr.argsNormal_cons_iff.1 hnormal
      obtain ⟨hfirst', hrest'⟩ := Expr.argsNormal_cons_iff.1 hnormal'
      rw [Expr.Folded.eq_of_normal hunique first hfirst first' hfirst',
        Expr.ArgsFolded.eq_of_normal hunique rest hrest rest' hrest']
termination_by structural es

end

/-- **A tree has one normal form,** if calls return one result. -/
theorem Expr.NormalForm.unique
    (hunique : ∀ name values r r', calls name values r → calls name values r' → r = r')
    {e t t' : Expr} (h : e.NormalForm calls t) (h' : e.NormalForm calls t') : t = t' :=
  Expr.Folded.eq_of_normal hunique h.folded h.normal h'.folded h'.normal

/-! ## Calls that fail -/

/-- What fails on the way to the normal form is a call of the tree, with literals for its folded
    arguments. -/
theorem Expr.Fails.exists_call {e : Expr} {name : String} {error : FunctionError}
    (h : e.Fails calls name error) :
    ∃ es ts values, ⟨name, es⟩ ∈ e.calls ∧ Expr.ArgsFolded calls es ts ∧
      ts.mapM Expr.literal? = some values ∧ calls name values (.error error) := by
  induction h with
  | unary _ ih => exact ih
  | left _ ih =>
      obtain ⟨es, ts, values, hmem, h⟩ := ih
      exact ⟨es, ts, values, List.mem_append_left _ hmem, h⟩
  | operand mem _ ih =>
      obtain ⟨es, ts, values, hmem, h⟩ := ih
      exact ⟨es, ts, values, List.mem_append_right _ (Operands.mem_calls mem hmem), h⟩
  | group _ ih => exact ih
  | argument mem _ ih =>
      obtain ⟨es, ts, values, hmem, h⟩ := ih
      exact ⟨es, ts, values, List.mem_append_left _ (Expr.mem_argsCalls mem hmem), h⟩
  | call args constant failed =>
      exact ⟨_, _, _, List.mem_append_right _ List.mem_cons_self, args, constant, failed⟩

end

/-! ## Folding -/

section
variable {β : Type} {returns : Results β} {registry : Registry β} {maxDepth : Nat} {calls : Calls}

/-- What calls of literals return is what constant functions of the registry determine. -/
def Calls.OfConstants (calls : Calls) (returns : Results β) (registry : Registry β) : Prop :=
  ∀ name es values r, es.mapM Expr.literal? = some values → calls name values r →
    ∃ f, ConstantCall registry name es f values ∧ returns f values = r

/-- A call that has been folded is not left for another time. -/
theorem foldedCall_normal (hcalls : calls.OfConstants returns registry) {name : String}
    {ts : List Expr} {t : Expr} (h : foldedCall returns registry name ts = .ok t)
    (hargs : Expr.ArgsNormal calls ts) :
    t.Normal calls := by
  rcases foldedCall_eq_ok h with rfl | ⟨f, values, v, hconstant, hreturned, hliteral⟩
  · refine Expr.normal_call_iff.2 ⟨hargs, ?_⟩
    rintro ⟨values, v, t, hvalues, hreturned, hliteral⟩
    obtain ⟨f, hconstant, hreturns⟩ := hcalls name ts values (.ok v) hvalues hreturned
    -- the call would have become the literal, which is no call
    rw [foldedCall_of_constant hconstant, hreturns] at h
    simp only [hliteral, Option.getD_some, Except.ok.injEq] at h
    rw [h] at hliteral
    cases Value.literal?_of_toLiteral? hliteral
  · exact Expr.normal_of_literal? (Value.literal?_of_toLiteral? hliteral)

mutual

/-- **Nothing is left to fold.** -/
theorem Expr.foldedAt_normal (hcalls : calls.OfConstants returns registry) {level : Nat}
    {e t : Expr} (h : e.foldedAt returns registry maxDepth level = .ok t) : t.Normal calls := by
  have hlt := Expr.level_lt_of_foldedAt h
  cases e with
  | empty =>
      rw [Expr.foldedAt_empty hlt] at h
      cases h
      exact List.forall_mem_nil _
  | number n =>
      rw [Expr.foldedAt_literal hlt rfl] at h
      cases h
      exact List.forall_mem_nil _
  | string text =>
      rw [Expr.foldedAt_literal hlt rfl] at h
      cases h
      exact List.forall_mem_nil _
  | «variable» name =>
      rw [Expr.foldedAt_variable hlt] at h
      cases h
      exact List.forall_mem_nil _
  | unary sign e =>
      rw [Expr.foldedAt_unary hlt] at h
      obtain ⟨t, ht, h⟩ := Except.bind_eq_ok.1 h
      cases h
      have hnormal : t.Normal calls := Expr.foldedAt_normal hcalls ht
      exact hnormal
  | binary e p os =>
      rw [Expr.foldedAt_binary hlt] at h
      obtain ⟨t, ht, h⟩ := Except.bind_eq_ok.1 h
      obtain ⟨ts, hts, h⟩ := Except.bind_eq_ok.1 h
      cases h
      have hleft : t.Normal calls := Expr.foldedAt_normal hcalls ht
      exact Expr.normal_binary_iff.2 ⟨hleft, Operands.foldedAt_normal hcalls hts⟩
  | group e =>
      rw [Expr.foldedAt_group hlt] at h
      obtain ⟨t, ht, h⟩ := Except.bind_eq_ok.1 h
      cases h
      have hnormal : t.Normal calls := Expr.foldedAt_normal hcalls ht
      exact hnormal
  | call name es =>
      rw [Expr.foldedAt_call hlt] at h
      obtain ⟨ts, hts, h⟩ := Except.bind_eq_ok.1 h
      exact foldedCall_normal hcalls h (Expr.foldedArgs_normal hcalls hts)

theorem Operands.foldedAt_normal (hcalls : calls.OfConstants returns registry) {level : Nat}
    {os ts : Operands} (h : os.foldedAt returns registry maxDepth level = .ok ts) :
    ts.Normal calls := by
  cases os with
  | one op e =>
      rw [Operands.foldedAt_one] at h
      obtain ⟨t, ht, h⟩ := Except.bind_eq_ok.1 h
      cases h
      have hnormal : t.Normal calls := Expr.foldedAt_normal hcalls ht
      exact hnormal
  | more op e os =>
      rw [Operands.foldedAt_more] at h
      obtain ⟨t, ht, h⟩ := Except.bind_eq_ok.1 h
      obtain ⟨ts, hts, h⟩ := Except.bind_eq_ok.1 h
      cases h
      have hfirst : t.Normal calls := Expr.foldedAt_normal hcalls ht
      exact Operands.normal_more_iff.2 ⟨hfirst, Operands.foldedAt_normal hcalls hts⟩

theorem Expr.foldedArgs_normal (hcalls : calls.OfConstants returns registry) {level : Nat}
    {es ts : List Expr} (h : Expr.foldedArgs returns registry maxDepth level es = .ok ts) :
    Expr.ArgsNormal calls ts := by
  cases es with
  | nil =>
      rw [Expr.foldedArgs_nil] at h
      cases h
      exact List.forall_mem_nil _
  | cons e es =>
      rw [Expr.foldedArgs_cons] at h
      obtain ⟨t, ht, h⟩ := Except.bind_eq_ok.1 h
      obtain ⟨ts, hts, h⟩ := Except.bind_eq_ok.1 h
      cases h
      have hfirst : t.Normal calls := Expr.foldedAt_normal hcalls ht
      exact Expr.argsNormal_cons_iff.2 ⟨hfirst, Expr.foldedArgs_normal hcalls hts⟩

end

end

/-! ## Folding in a session -/

namespace Host
open Run

variable {σ β : Type} {host : Host σ β} {registry : Registry β}

/-- What calls return that folding computes: those of a registered and eligible function, with as
    many arguments as it takes. -/
def Foldable (host : Host σ β) (registry : Registry β) : Calls := fun name values r =>
  ∃ f, registry.get? name = some f ∧ f.foldEligible = true ∧
    f.arity.accepts values.length = true ∧ host.Yields f values r

theorem Foldable.unique (s : Session σ β) {name : String} {values : List Value}
    {r r' : Except FunctionError Value} (h : host.Foldable registry name values r)
    (h' : host.Foldable registry name values r') : r = r' := by
  obtain ⟨f, hget, -, -, hyields⟩ := h
  obtain ⟨f', hget', -, -, hyields'⟩ := h'
  obtain rfl := Option.some.inj (hget.symm.trans hget')
  exact hyields.unique s hyields'

/-- A call that folding computes is constant if its arguments are literals. -/
theorem Foldable.constantCall {name : String} {es : List Expr} {values : List Value}
    {r : Except FunctionError Value} (h : host.Foldable registry name values r)
    (hvalues : es.mapM Expr.literal? = some values) :
    ∃ f, ConstantCall registry name es f values ∧ host.Yields f values r := by
  obtain ⟨f, hget, heligible, haccepts, hyields⟩ := h
  rw [length_literals hvalues] at haccepts
  exact ⟨f, ⟨hget, heligible, haccepts, hvalues⟩, hyields⟩

/-- Folding replaces foldable calls, or is stopped by one that fails, or by the limit. -/
theorem fold_outcome_foldable {returns : Results β} {fuel : Nat}
    (hgives : ∀ name f, registry.get? name = some f → ∀ args,
      host.Gives AnyState fuel f args (returns f args))
    (hyields : ∀ name f args, registry.get? name = some f → host.Yields f args (returns f args))
    (maxDepth : Nat) (e : Expr) (s : Session σ β) :
    ∃ r, ((e.fold (host.call fuel) registry maxDepth).result s).1 = some r ∧
      FoldOutcome maxDepth (e.Folded (host.Foldable registry)) (e.Fails (host.Foldable registry))
        e.height r := by
  have hcall : ∀ w name f values, registry.get? name = some f → f.foldEligible = true →
      f.arity.accepts values.length = true →
      (totalLogic fun _ => True).Sat (host.call fuel f values) w
        fun r _ => host.Foldable registry name values r := by
    intro _ name f values hget heligible haccepts s _
    obtain ⟨s', hrun, -⟩ := hgives name f hget values s
    exact ⟨returns f values, s', hrun, trivial, f, hget, heligible, haccepts,
      hyields name f values hget⟩
  have hsat := (totalLogic fun _ => True).sat_fold (fun _ => host.Foldable registry)
    (fun _ _ _ => le_rfl) hcall () maxDepth e
  obtain ⟨r, s', hrun, -, houtcome⟩ := hsat s trivial
  rw [run_eq_some_iff] at hrun
  exact ⟨r, congrArg Prod.fst hrun, houtcome⟩

/-- **Folding computes the normal form and touches nothing else.** Let the functions of the registry
    only compute. Then folding a tree ends. If it comes to a tree, then this is the one normal form:
    the original with calls replaced by the literals that their functions return, and with no call
    left that could be. If it reports the error of a function, then a call of this function in the
    tree, with literals for folded arguments, has returned it. Otherwise the tree is too tall. -/
theorem fold_normal_form (host : Host σ β) (registry : Registry β)
    (hfunctional : ∀ f ∈ registry.functions, host.Functional f) :
    ∃ enough, ∀ fuel ≥ enough, ∀ (maxDepth : Nat) (e : Expr) (s : Session σ β), ∃ r,
      ((e.fold (host.call fuel) registry maxDepth).result s).1 = some r ∧
        FoldOutcome maxDepth (fun t => ∀ t', e.NormalForm (host.Foldable registry) t' ↔ t' = t)
          (fun name error => ∃ es ts values, ⟨name, es⟩ ∈ e.calls ∧
            Expr.ArgsFolded (host.Foldable registry) es ts ∧
            ts.mapM Expr.literal? = some values ∧
            host.Foldable registry name values (.error error))
          e.depth r := by
  obtain ⟨returns, enough, hreturns⟩ := exists_results hfunctional
  refine ⟨enough, fun fuel hfuel maxDepth e s => ?_⟩
  have hgives := hreturns fuel hfuel
  have hyields : ∀ name f values, registry.get? name = some f →
      host.Yields f values (returns f values) := by
    intro name f values hget
    exact ⟨enough, fun fuel hfuel => hreturns fuel hfuel name f hget values⟩
  have hcalls : Calls.OfConstants (host.Foldable registry) returns registry := by
    intro name es values r hvalues hfoldable
    obtain ⟨f, hconstant, hyield⟩ := hfoldable.constantCall hvalues
    exact ⟨f, hconstant, (hyields name f values hconstant.get).unique s hyield⟩
  obtain ⟨r, hresult, houtcome⟩ := fold_outcome_foldable hgives hyields maxDepth e s
  refine ⟨r, hresult, ?_⟩
  rw [Expr.depth_eq_height]
  cases houtcome with
  | folded hfolded =>
      rename_i t
      have hcomputed : e.foldedAt returns registry maxDepth 0 = .ok t :=
        Option.some.inj ((result_fold_eq hgives maxDepth e s).symm.trans hresult)
      have hform : e.NormalForm (host.Foldable registry) t :=
        ⟨hfolded, Expr.foldedAt_normal hcalls hcomputed⟩
      have hunique : ∀ name values r r', host.Foldable registry name values r →
          host.Foldable registry name values r' → r = r' :=
        fun _ _ _ _ => Foldable.unique s
      refine .folded fun t' => ⟨fun hform' => hform'.unique hunique hform, ?_⟩
      rintro rfl
      exact hform
  | failed hfails => exact .failed hfails.exists_call
  | tooTall htall => exact .tooTall htall

/-- `max(abs(3), seven())` has the normal form `7`, against the builtins and `seven`. -/
theorem fold_normal_form_seven :
    (∀ f ∈ builtinsAndSeven.functions, tally.Functional f) ∧
      ∀ s : Session Nat Unit, ∃ enough, ∀ fuel ≥ enough,
        ((maxOfAbsAndSeven.fold (tally.call fuel) builtinsAndSeven 2).result s).1 =
            some (.ok (.number 7)) ∧
          maxOfAbsAndSeven.NormalForm (tally.Foldable builtinsAndSeven) (.number 7) := by
  obtain ⟨enough, h⟩ := fold_normal_form tally builtinsAndSeven functional_builtinsAndSeven
  refine ⟨functional_builtinsAndSeven, fun s => ⟨enough + 1, fun fuel hfuel => ?_⟩⟩
  -- one call deep is enough to run the functions
  obtain ⟨fuel, rfl⟩ : ∃ n, fuel = n + 1 := ⟨fuel - 1, by omega⟩
  obtain ⟨r, hresult, houtcome⟩ := h (fuel + 1) (by omega) 2 maxOfAbsAndSeven s
  have hseven : ((maxOfAbsAndSeven.fold (tally.call (fuel + 1)) builtinsAndSeven 2).result s).1 =
      some (.ok (.number 7)) := rfl
  obtain rfl := Option.some.inj (hresult.symm.trans hseven)
  cases houtcome with
  | folded hform => exact ⟨hseven, (hform _).2 rfl⟩

end Host

end FormulaLang
