import FormulaLang.Proofs.Expr.Visits
import FormulaLang.Proofs.Folding.Growth
import FormulaLang.Proofs.Folding.Measures

/-!
# `Folding.Names` — folding keeps what can be seen of a tree

A host may look at a tree before it is evaluated: at its variables, at the functions it calls, at
its size. Folding replaces a call only when all of its arguments have become literals, so nothing
that goes with it is a variable, and the functions that go are those that have been called. This
is what a walk shows of the two trees, part by part.

- **`Expr.Folded.namesKept`**: what a walk shows of a folded tree, against the original.
- **`fold_keeps_names`**: the same for folding in a session, with the sizes of the two trees.
-/

namespace FormulaLang

variable {gone : String → Prop}

/-- The second visits show the same variables as the first, and the same functions without some that
    are `gone`. -/
structure Visit.NamesKept (gone : String → Prop) (before after : List Visit) : Prop where
  variables_eq : Visit.variables after = Visit.variables before
  functions_subset : ∀ name ∈ Visit.functionNames after, name ∈ Visit.functionNames before
  lost : ∀ name ∈ Visit.functionNames before, name ∈ Visit.functionNames after ∨ gone name

namespace Visit.NamesKept

variable {before before' after after' : List Visit}

theorem refl (visits : List Visit) : NamesKept gone visits visits :=
  ⟨rfl, fun _ h => h, fun _ h => .inl h⟩

theorem append (h : NamesKept gone before after) (h' : NamesKept gone before' after') :
    NamesKept gone (before ++ before') (after ++ after') where
  variables_eq := by
    rw [variables_append, variables_append, h.variables_eq, h'.variables_eq]
  functions_subset name hname := by
    rw [functionNames_append, List.mem_append] at hname ⊢
    exact hname.imp (h.functions_subset name) (h'.functions_subset name)
  lost name hname := by
    rw [functionNames_append, List.mem_append] at hname ⊢
    rcases hname with hname | hname
    · exact (h.lost name hname).imp_left .inl
    · exact (h'.lost name hname).imp_left .inr

/-- The nodes may differ as long as they have the same names. -/
theorem cons {v w : Visit} (hvariable : w.node.variableName? = v.node.variableName?)
    (hfunction : w.node.functionName? = v.node.functionName?) (h : NamesKept gone before after) :
    NamesKept gone (v :: before) (w :: after) := by
  have hfirst : NamesKept gone [v] [w] := by
    constructor
    · rw [variables_cons, variables_cons, hvariable]
    · rw [functionNames_cons, functionNames_cons, hfunction]
      exact fun _ hname => hname
    · rw [functionNames_cons, functionNames_cons, hfunction]
      exact fun _ hname => .inl hname
  exact hfirst.append h

end Visit.NamesKept

/-! ## Literals -/

/-- A literal shows no names. -/
theorem Expr.visits_of_literal? {e : Expr} {v : Value} (h : e.literal? = some v) (depth : Nat) :
    Visit.variables (e.visits depth) = [] ∧ Visit.functionNames (e.visits depth) = [] := by
  cases e <;> cases h <;> exact ⟨rfl, rfl⟩

theorem Expr.argsVisits_of_literals {es : List Expr} {values : List Value}
    (h : es.mapM Expr.literal? = some values) (depth : Nat) :
    Visit.variables (Expr.argsVisits depth es) = [] ∧
      Visit.functionNames (Expr.argsVisits depth es) = [] := by
  induction es generalizing values with
  | nil => exact ⟨rfl, rfl⟩
  | cons e es ih =>
      obtain ⟨v, vs, hv, hvs, rfl⟩ := literals_cons_eq_some_iff.1 h
      obtain ⟨hvariables, hfunctions⟩ := Expr.visits_of_literal? hv depth
      obtain ⟨hvariables', hfunctions'⟩ := ih hvs
      rw [Expr.argsVisits, Visit.variables_append, Visit.functionNames_append, hvariables,
        hvariables', hfunctions, hfunctions']
      exact ⟨rfl, rfl⟩

/-- A literal in the place of a call whose folded arguments are literals. -/
theorem Visit.NamesKept.literal {name : String} {es ts : List Expr} {values : List Value}
    {v : Value} {t : Expr} {depth : Nat} (hname : gone name)
    (hargs : Visit.NamesKept gone (Expr.argsVisits (depth + 1) es) (Expr.argsVisits (depth + 1) ts))
    (hvalues : ts.mapM Expr.literal? = some values) (hliteral : v.toLiteral? = some t) :
    Visit.NamesKept gone ((Expr.call name es).visits depth) (t.visits depth) := by
  obtain ⟨hvariables, hfunctions⟩ := Expr.argsVisits_of_literals hvalues (depth + 1)
  obtain ⟨hvariables', hfunctions'⟩ :=
    Expr.visits_of_literal? (Value.literal?_of_toLiteral? hliteral) depth
  have hbefore : Visit.functionNames ((Expr.call name es).visits depth) =
      name :: Visit.functionNames (Expr.argsVisits (depth + 1) es) := rfl
  constructor
  · -- the arguments had no variables, since they have none now
    exact hvariables'.trans (hvariables.symm.trans hargs.variables_eq)
  · rw [hfunctions']
    exact fun _ hmem => absurd hmem List.not_mem_nil
  · intro other hother
    rw [hbefore, List.mem_cons] at hother
    rcases hother with rfl | hother
    · exact .inr hname
    · -- no function is left among the arguments either
      have hlost := hargs.lost other hother
      rw [hfunctions, or_iff_right List.not_mem_nil] at hlost
      exact .inr hlost

/-! ## Folded trees -/

mutual

/-- **A folded tree shows the same variables, and the same functions without some that have been
    called.** -/
theorem Expr.Folded.namesKept {e t : Expr} (h : Expr.Folded (fun name _ _ => gone name) e t)
    (depth : Nat) : Visit.NamesKept gone (e.visits depth) (t.visits depth) := by
  cases e with
  | empty | number | string | «variable» =>
      cases h
      exact .refl _
  | unary sign e =>
      cases h with
      | unary operand => exact .cons rfl rfl (.cons rfl rfl (operand.namesKept (depth + 1)))
  | binary e p os =>
      cases h with
      | binary left operands =>
          exact .cons rfl rfl
            ((left.namesKept (depth + 1)).append (operands.namesKept (depth + 1)))
  | group e =>
      cases h with
      | group inner => exact .cons rfl rfl (inner.namesKept (depth + 1))
  | call name es =>
      cases h with
      | call args => exact .cons rfl rfl (.cons rfl rfl (args.namesKept (depth + 1)))
      | literal args constant returned literal =>
          exact .literal returned (args.namesKept (depth + 1)) constant literal

theorem Operands.Folded.namesKept {os ts : Operands}
    (h : Operands.Folded (fun name _ _ => gone name) os ts) (depth : Nat) :
    Visit.NamesKept gone (os.visits depth) (ts.visits depth) := by
  cases os with
  | one op e =>
      cases h with
      | one operand => exact .cons rfl rfl (operand.namesKept depth)
  | more op e os =>
      cases h with
      | more operand rest =>
          exact .cons rfl rfl ((operand.namesKept depth).append (rest.namesKept depth))

theorem Expr.ArgsFolded.namesKept {es ts : List Expr}
    (h : Expr.ArgsFolded (fun name _ _ => gone name) es ts) (depth : Nat) :
    Visit.NamesKept gone (Expr.argsVisits depth es) (Expr.argsVisits depth ts) := by
  cases es with
  | nil =>
      cases h
      exact .refl _
  | cons e es =>
      cases h with
      | cons first rest => exact (first.namesKept depth).append (rest.namesKept depth)

end

/-- Folding changes nothing in the variables of a tree, whatever the calls return. -/
theorem Expr.Folded.variables_eq {calls : Calls} {e t : Expr} (h : Expr.Folded calls e t) :
    t.variables = e.variables := by
  have hcalls : calls ≤ fun _ _ _ => True := fun _ _ _ _ => trivial
  rw [Expr.variables_eq, Expr.variables_eq, ((h.mono hcalls).namesKept 1).variables_eq]

/-! ## Folding in a session -/

namespace Host
open Run

variable {σ β : Type}

/-- Whatever the functions do, a tree is folded by calls of eligible ones. -/
theorem folded_of_fold {host : Host σ β} {fuel : Nat} {registry : Registry β} {maxDepth : Nat}
    {e t : Expr} {s : Session σ β}
    (h : ((e.fold (host.call fuel) registry maxDepth).result s).1 = some (.ok t)) :
    e.Folded (fun name _ _ => ∃ f, registry.get? name = some f ∧ f.foldEligible = true) t := by
  have hcall : ∀ f args, (host.call fuel f args).IgnoresPast := host.ignoresPast_call fuel
  have hsat : pastLogic.Sat (e.fold (host.call fuel) registry maxDepth) () _ :=
    pastLogic.sat_fold
      (fun _ name _ _ => ∃ f, registry.get? name = some f ∧ f.foldEligible = true)
      (fun _ _ _ => le_rfl)
      (fun _ name f values hget heligible _ =>
        ⟨hcall f values, fun _ _ _ => ⟨f, hget, heligible⟩⟩) () maxDepth e
  cases hsat.2 s _ h with
  | folded hfolded => exact hfolded

/-- **Folding keeps what hosts can inspect.** Whatever the functions of the registry do, and in any
    session: a tree that folds to another one has the variables of that, calls at least the
    functions that it calls, any others being registered and eligible, has at least as many levels,
    and its groups are nested at least as deep. -/
theorem fold_keeps_names (host : Host σ β) (fuel : Nat) (registry : Registry β) (maxDepth : Nat)
    {e t : Expr} {s : Session σ β}
    (h : ((e.fold (host.call fuel) registry maxDepth).result s).1 = some (.ok t)) :
    t.variables = e.variables ∧
      (∀ name ∈ t.functionNames, name ∈ e.functionNames) ∧
      (∀ name ∈ e.functionNames, name ∉ t.functionNames →
        ∃ f, registry.get? name = some f ∧ f.foldEligible = true) ∧
      t.depth ≤ e.depth ∧ t.nesting ≤ e.nesting := by
  have hfolded := folded_of_fold h
  have hkept := hfolded.namesKept 1
  obtain ⟨hheight, hnesting⟩ := hfolded.measures_le
  refine ⟨hfolded.variables_eq, fun name hname => ?_, fun name hname hlost => ?_, ?_, hnesting⟩
  · rw [Expr.mem_functionNames] at hname ⊢
    exact hkept.functions_subset name hname
  · rw [Expr.mem_functionNames] at hname hlost
    exact (hkept.lost name hname).resolve_left hlost
  · rw [Expr.depth_eq_height, Expr.depth_eq_height]
    exact hheight

/-- `max(seven(), x)`. -/
def maxOfSevenAndX : Expr := .call "max" [.call "seven" [], .variable "x"]

/-- The tree folds to `max(7, x)`, which still has the variable and no longer calls `seven`. -/
theorem fold_keeps_names_seven :
    maxOfSevenAndX.functionNames = ["max", "seven"] ∧ ∀ s : Session Nat Unit,
      ((maxOfSevenAndX.fold (tally.call 1) builtinsAndSeven 1).result s).1 =
        some (.ok (.call "max" [.number 7, .variable "x"])) ∧
      "x" ∈ (Expr.call "max" [.number 7, .variable "x"]).variables ∧
      ∃ f, builtinsAndSeven.get? "seven" = some f ∧ f.foldEligible = true := by
  have hnames : maxOfSevenAndX.functionNames = ["max", "seven"] := by decide
  refine ⟨hnames, fun s => ?_⟩
  have hfold : ((maxOfSevenAndX.fold (tally.call 1) builtinsAndSeven 1).result s).1 =
      some (.ok (.call "max" [.number 7, .variable "x"])) := rfl
  obtain ⟨hvariables, -, hlost, -⟩ := fold_keeps_names tally 1 builtinsAndSeven 1 hfold
  refine ⟨hfold, ?_, hlost "seven" (by rw [hnames]; decide) (by decide)⟩
  rw [hvariables]
  decide

end Host

end FormulaLang
