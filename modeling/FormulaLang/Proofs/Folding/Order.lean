import FormulaLang.Proofs.Evaluation.DepthLimits
import FormulaLang.Proofs.Evaluation.Order
import FormulaLang.Proofs.Folding.Course

/-!
# `Folding.Order` — folding invokes the foldable calls, once each and in order

Whether a call is foldable may depend on what functions have returned before, if they keep a state:
with an integer or a text the call around it may be computed, with anything else it may not. So the
invocations of a folding cannot be listed in advance. But the calls it comes to can, and at each of
them it is settled by what the arguments have become whether it is invoked. Functions that do not
call back leave the evaluator alone, so these invocations are all that the journal tells.

- **`fold_in_post_order`**: which calls a folding invokes, with which values, and in which order.
-/

namespace FormulaLang
open Run

variable {σ β : Type} {call : Caller (Run σ β) β} {registry : Registry β} {maxDepth : Nat}

namespace ReachedCall

/-- A call in whose place a literal stands was computed, and the literal is what it returned. -/
theorem Becomes.returned_literal {c : ReachedCall β} {t : Expr} (h : c.Becomes t)
    (ht : t.isLiteral = true) :
    ∃ i v, c.invocation = some i ∧ i.result = .ok v ∧ v.toLiteral? = some t := by
  cases h with
  | left => cases ht
  | @computed i v invoked returned =>
      cases hliteral : v.toLiteral? with
      | none =>
          rw [hliteral, Option.getD_none] at ht
          cases ht
      | some t => exact ⟨i, v, invoked, returned, hliteral⟩

/-- What was invoked is some of what was reached, in the same order. -/
theorem nodes_invocations_sublist {reached : List (ReachedCall β)}
    (h : ∀ c ∈ reached, ∀ i, c.invocation = some i → i.node = c.node) :
    ((invocations reached).map Invocation.node).Sublist (reached.map ReachedCall.node) := by
  induction reached with
  | nil => exact .slnil
  | cons c reached ih =>
      obtain ⟨hc, hreached⟩ := List.forall_mem_cons.1 h
      cases hinvocation : c.invocation with
      | none =>
          rw [invocations, List.filterMap_cons_none hinvocation]
          exact .cons _ (ih hreached)
      | some i =>
          rw [invocations, List.filterMap_cons_some hinvocation, List.map_cons, List.map_cons,
            hc i hinvocation]
          exact .cons_cons _ (ih hreached)

/-- The function of a call that was computed is one of the registry, and takes as many values as it
    was given. -/
theorem Explained.accepts {c : ReachedCall β} {s : Session σ β} {before : List (ReachedCall β)}
    (h : c.Explained call registry maxDepth s before) {i : Invocation β}
    (hi : c.invocation = some i) :
    i.node = c.node ∧ i.f ∈ registry.functions ∧ i.f.arity.accepts i.values.length = true := by
  obtain ⟨_, _, _, _, _, -, -, -, -, -, -, hcomputed⟩ := h
  obtain ⟨hnode, hconstant⟩ := hcomputed i hi
  refine ⟨hnode, Registry.mem_of_get? hconstant.get, ?_⟩
  rw [length_literals hconstant.literals]
  exact hconstant.accepts

end ReachedCall

namespace Host

/-- **Folding invokes exactly the foldable calls, once each and in post-order.** Let no function of
    the registry call back, and let the tree be within the limit on levels. Then folding it ends,
    leaves the evaluator as it was, and adds to the journal the lines of what it invokes, which are
    some of the calls of the tree, in post-order. The calls it comes to are the first ones. Of these
    it invokes those that are constant once their arguments have been folded, with the values that
    the arguments have become, and no others. It stops at the first one that fails, with the error
    of that; if none fails, it comes to all calls, and the tree it returns is rewritten by them,
    with a literal only in the place of a call that was invoked and returned it. -/
theorem fold_in_post_order (host : Host σ β) {fuel : Nat} (hfuel : 0 < fuel)
    (registry : Registry β) (hsilent : ∀ f ∈ registry.functions, host.Silent f) {maxDepth : Nat}
    {e : Expr} (hdepth : e.depth ≤ maxTreeDepth maxDepth) (s : Session σ β) :
    ∃ r reached s', (e.fold (host.call fuel) registry maxDepth).run s = some (r, s') ∧
      s'.vm = s.vm ∧
      s'.journal = Invocation.lines s.vm (ReachedCall.invocations reached) ++ s.journal ∧
      ((ReachedCall.invocations reached).map Invocation.node).Sublist e.calls ∧
      reached.map ReachedCall.node <+: e.calls ∧
      (∀ before c after, reached = before ++ c :: after →
        c.Explained (host.call fuel) registry maxDepth s before) ∧
      FoldEnded e.calls e.Rewritten reached r ∧
      ∀ c ∈ reached, ∀ t, c.Becomes t → t.isLiteral = true →
        ∃ i v, c.invocation = some i ∧ i.result = .ok v ∧ v.toLiteral? = some t := by
  obtain ⟨fuel, rfl⟩ : ∃ n, fuel = n + 1 := ⟨fuel - 1, by omega⟩
  obtain ⟨r, hr⟩ := fold_ends (fun f hf => (hsilent f hf).returns fuel) maxDepth e s
  have hrun : (e.fold (host.call (fuel + 1)) registry maxDepth).run s = some (r, _) :=
    run_eq_some_iff.2 (Prod.ext hr rfl)
  have hlevels : 0 + e.height ≤ maxTreeDepth maxDepth := by
    rwa [Nat.zero_add, ← Expr.depth_eq_height]
  have hfollows : FoldFollows (host.call (fuel + 1)) registry maxDepth e.calls e.Rewritten
      (Expr.foldAt (host.call (fuel + 1)) registry maxDepth 0 e) :=
    foldAt_follows 0 e hlevels
  obtain ⟨reached, hcourse⟩ := hfollows s r _ hrun
  have haccepts : ∀ c ∈ reached, ∀ i, c.invocation = some i →
      i.node = c.node ∧ i.f ∈ registry.functions ∧ i.f.arity.accepts i.values.length = true := by
    intro c hc i hi
    obtain ⟨before, after, heq⟩ := List.append_of_mem hc
    exact (hcourse.explained before c after heq).accepts hi
  have hknown : ∀ i ∈ ReachedCall.invocations reached,
      host.Silent i.f ∧ i.f.arity.accepts i.values.length = true := by
    intro i hi
    obtain ⟨c, hc, hi⟩ := List.mem_filterMap.1 hi
    obtain ⟨-, hmem, haccepts⟩ := haccepts c hc i hi
    exact ⟨hsilent i.f hmem, haccepts⟩
  obtain ⟨hvm, hjournal⟩ := makes_silent hcourse.makes hknown
  have hprefix := hcourse.ended.nodes_prefix
  have hsublist := ReachedCall.nodes_invocations_sublist fun c hc i hi => (haccepts c hc i hi).1
  exact ⟨r, reached, _, hrun, hvm, hjournal, hsublist.trans hprefix.sublist, hprefix,
    hcourse.explained, hcourse.ended, fun c _ t ht => ht.returned_literal⟩

/-! ## A counter that is foldable -/

/-- The counting code under another name, and eligible. -/
def bump : Function Unit := ⟨"bump", true, .nullary (.host ())⟩

/-- The builtin functions and `bump`. -/
def builtinsAndBump : Registry Unit where
  functions := bump :: Registry.builtins.functions
  nodup := by simp [Registry.builtins, Builtin.name, bump]

theorem silent_builtinsAndBump : ∀ f ∈ builtinsAndBump.functions, counter.Silent f := by
  intro f hf
  rcases List.mem_cons.1 hf with rfl | hbuiltin
  · exact fun _ _ _ _ => rfl
  · exact silent_of_mem_builtins hbuiltin

/-- `bump()`. -/
def callOfBump : Expr := .call "bump" []

/-- `max(bump(), bump())` folds to `1`. All three calls are reached, and six lines are written. -/
theorem fold_in_post_order_bump :
    0 < 1 ∧ (∀ f ∈ builtinsAndBump.functions, counter.Silent f) ∧
      (Expr.call "max" [callOfBump, callOfBump]).depth ≤ maxTreeDepth 1 ∧
      ∀ vm journal, let s : Session Nat Unit := ⟨vm, 0, journal⟩
        ∃ reached s', ((Expr.call "max" [callOfBump, callOfBump]).fold (counter.call 1)
            builtinsAndBump 1).run s = some (.ok (.number 1), s') ∧
          s'.journal = Invocation.lines vm (ReachedCall.invocations reached) ++ journal ∧
          s'.journal.length = 6 + journal.length ∧ reached.map ReachedCall.node =
            [⟨"bump", []⟩, ⟨"bump", []⟩, ⟨"max", [callOfBump, callOfBump]⟩] := by
  have hfuel : 0 < 1 := by decide
  have hdepth : (Expr.call "max" [callOfBump, callOfBump]).depth ≤ maxTreeDepth 1 := by decide
  refine ⟨hfuel, silent_builtinsAndBump, hdepth, fun vm journal => ?_⟩
  intro s
  obtain ⟨r, reached, s', hrun, -, hjournal, -, -, -, hended, -⟩ :=
    fold_in_post_order counter hfuel builtinsAndBump silent_builtinsAndBump hdepth s
  obtain ⟨rfl, rfl⟩ : Except.ok (.number 1) = r ∧ _ = s' :=
    Prod.mk.inj (Option.some.inj hrun)
  refine ⟨reached, _, hrun, hjournal, ?_, ?_⟩
  · show journal.length + 6 = _
    exact Nat.add_comm _ _
  · cases hended with
    | through all _ _ => exact all

end Host

end FormulaLang
