import FormulaLang.Proofs.Expr.Fits
import FormulaLang.Proofs.Folding.Names
import FormulaLang.Proofs.Session.Limits

/-!
# `Evaluation.Variables` — what evaluation can see of an environment

Two environments are the same to a tree if they give the same values to its variables: then the
tree is evaluated by the same program, and so with the same calls. A source is the same once it is
compiled, since its environment takes no part in that, and a tree that is cached for it has the
variables of the tree that it spells.

- **`Expr.evalAt_congr`**: evaluation in environments that agree.
- **`evaluation_depends_on_variables`**: the same for trees in any session, and for sources in any
  session of any run.
-/

namespace FormulaLang

/-- The environments give the names the same values. A name without a binding counts as null. -/
def Env.AgreeOn (names : List String) (env env' : Env) : Prop :=
  ∀ name ∈ names, env.get name = env'.get name

namespace Env.AgreeOn

variable {env env' : Env} {names names' : List String}

theorem append_iff :
    Env.AgreeOn (names ++ names') env env' ↔
      Env.AgreeOn names env env' ∧ Env.AgreeOn names' env env' :=
  List.forall_mem_append

/-- To bind a name to null is to leave it unbound. -/
theorem bind_null {name : String} (h : env.bindings.lookup name = none) (names : List String) :
    Env.AgreeOn names env (env.bind name .null) := by
  intro x _
  rw [Env.get_bind]
  split
  · rename_i hx
    rw [hx, Env.get, h, Option.getD_none]
  · rfl

end Env.AgreeOn

/-! ## Trees -/

section
variable {m : Type → Type} [Monad m] {β : Type} {world : Surroundings m β} {maxDepth : Nat}
variable {env env' : Env}

mutual

/-- **Environments that agree on the variables of a tree are the same to it,** in any monad and
    surroundings. -/
theorem Expr.evalAt_congr (depth : Depth) (e : Expr) (d : Nat)
    (h : Env.AgreeOn (Visit.variables (e.visits d)) env env') :
    Expr.evalAt world maxDepth env depth e = Expr.evalAt world maxDepth env' depth e := by
  by_cases hlevels : depth.levels < maxTreeDepth maxDepth
  case neg =>
    -- the limit on levels is tested before anything is looked up
    rw [Expr.evalAt.eq_def, Expr.evalAt.eq_def, if_pos (Nat.not_lt.1 hlevels),
      if_pos (Nat.not_lt.1 hlevels)]
  cases e with
  | empty | number | string => rw [Expr.evalAt, Expr.evalAt]
  | «variable» name =>
      have hname : env.get name = env'.get name := h name (List.mem_singleton_self name)
      rw [Expr.evalAt, Expr.evalAt, hname]
  | unary sign e =>
      rw [Expr.evalAt_unary hlevels, Expr.evalAt_unary hlevels,
        Expr.evalAt_congr depth.down e (d + 1) h]
  | binary left p os =>
      have hparts : Env.AgreeOn (Visit.variables (left.visits (d + 1)) ++
          Visit.variables (os.visits (d + 1))) env env' := by
        rw [← Visit.variables_append]
        exact h
      obtain ⟨hleft, hos⟩ := Env.AgreeOn.append_iff.1 hparts
      rw [Expr.evalAt_binary hlevels, Expr.evalAt_binary hlevels,
        Expr.evalAt_congr depth.down left (d + 1) hleft]
      exact bind_congr fun v => Operands.evalAt_congr depth.down v os (d + 1) hos
  | call name es =>
      rw [Expr.evalAt_call hlevels, Expr.evalAt_call hlevels]
      refine bind_congr fun inside => bind_congr fun f => ?_
      rw [Expr.evalArgs_congr inside es (d + 1) h]
  | group e =>
      rw [Expr.evalAt_group hlevels, Expr.evalAt_group hlevels]
      exact bind_congr fun inside => Expr.evalAt_congr inside e (d + 1) h

theorem Operands.evalAt_congr (depth : Depth) (left : Value) (os : Operands) (d : Nat)
    (h : Env.AgreeOn (Visit.variables (os.visits d)) env env') :
    Operands.evalAt world maxDepth env depth left os =
      Operands.evalAt world maxDepth env' depth left os := by
  cases os with
  | one op e => rw [Operands.evalAt, Operands.evalAt, Expr.evalAt_congr depth e d h]
  | more op e os =>
      have hparts : Env.AgreeOn (Visit.variables (e.visits d) ++ Visit.variables (os.visits d))
          env env' := by
        rw [← Visit.variables_append]
        exact h
      obtain ⟨he, hos⟩ := Env.AgreeOn.append_iff.1 hparts
      rw [Operands.evalAt, Operands.evalAt, Expr.evalAt_congr depth e d he]
      exact bind_congr fun right => bind_congr fun v => Operands.evalAt_congr depth v os d hos

theorem Expr.evalArgs_congr (depth : Depth) (es : List Expr) (d : Nat)
    (h : Env.AgreeOn (Visit.variables (Expr.argsVisits d es)) env env') :
    Expr.evalArgs world maxDepth env depth es = Expr.evalArgs world maxDepth env' depth es := by
  cases es with
  | nil => rfl
  | cons e es =>
      rw [Expr.argsVisits, Visit.variables_append] at h
      obtain ⟨he, hes⟩ := Env.AgreeOn.append_iff.1 h
      rw [Expr.evalArgs, Expr.evalArgs, Expr.evalAt_congr depth e d he,
        Expr.evalArgs_congr depth es d hes]

end

/-- Evaluating a whole tree. -/
theorem Expr.eval_congr {e : Expr} (h : Env.AgreeOn e.variables env env') :
    e.eval world maxDepth env = e.eval world maxDepth env' := by
  have hvisits : Env.AgreeOn (Visit.variables (e.visits 1)) env env' := by
    intro name hname
    exact h name (Expr.mem_variables.2 hname)
  rw [Expr.eval, Expr.eval, Expr.evalAt_congr .root e 1 hvisits]

end

/-! ## Sources -/

namespace Host
open Run

variable {σ β : Type} {host : Host σ β} {fuel : Nat} {start : Vm β} {s : Session σ β}
variable {env env' : Env}

theorem evalTree_congr {e : Expr} (h : Env.AgreeOn e.variables env env') :
    host.perform fuel (.evalTree e env) = host.perform fuel (.evalTree e env') :=
  bind_congr fun _ => Expr.eval_congr h

/-- It is enough that the environments agree on the variables of what the source is compiled to. -/
theorem eval_congr {source : String}
    (h : ∀ entry, ((host.perform fuel (.compile source)).result s).1 = some (.ok entry) →
      Env.AgreeOn entry.tree.variables env env') :
    (host.perform fuel (.eval source env)).result s =
      (host.perform fuel (.eval source env')).result s := by
  show (Session.eval _ _ _ _).result s = (Session.eval _ _ _ _).result s
  rw [Session.eval, Session.eval, result_bind, result_bind]
  cases hcompiled : ((Session.compile (host.call fuel) fuel source).result s).1 with
  | none => rfl
  | some r =>
      cases r with
      | error error => rfl
      | ok entry =>
          have htree : Session.evalTree (host.call fuel) entry.tree env =
              Session.evalTree (host.call fuel) entry.tree env' :=
            evalTree_congr (h entry hcompiled)
          simp only [htree]

/-- What a source is compiled to at a valid moment is the tree it spells, with calls replaced by
    literals, whether or not it was cached. -/
theorem parsed_of_compile {now : List (Line β)} (hvalid : Valid start now)
    (hstart : start.cache.entries = []) (hs : s.vm = vmAt start now) {source : String}
    {entry : Entry}
    (h : ((host.perform fuel (.compile source)).result s).1 = some (.ok entry)) :
    ∃ e, parse source start.config.maxDepth = .ok e ∧
      e.Folded (fun _ _ _ => True) entry.tree := by
  -- what has happened has no effect, so it may as well be what the moment says
  let s' : Session σ β := ⟨vmAt start now, s.host, now⟩
  have hvm : s.vm = s'.vm := hs
  have hhost : s.host = s'.host := rfl
  have hsame := ((host.ignoresPast_perform fuel (.compile source)).same hvm hhost).1
  obtain ⟨hs', houtcome⟩ := compile_follows ⟨rfl, hvalid⟩ (hsame.symm.trans h)
  cases houtcome with
  | cached hkept =>
      obtain rfl := Cache.source_of_find? hkept
      exact hs'.valid.parsed_entries hstart entry (List.mem_of_find?_eq_some hkept)

/-- **Evaluation depends only on the variables that the tree names, and to be unbound is to be
    null.** In any session, evaluating a tree in two environments that agree on its variables comes
    to the same, with the same journal, and so with the same calls. So does evaluating a source,
    whatever the cache holds, at any moment of any use of an evaluator, if the environments agree on
    the variables of the tree that the source spells, should it spell one. Environments that differ
    only in whether a name is unbound or null agree on everything. -/
theorem evaluation_depends_on_variables (host : Host σ β) (fuel : Nat) (script : Script σ β)
    (registry : Registry β) (config : Config) (state : σ) :
    let start := Vm.new registry config
    let used := (script.run (host.perform fuel)).after ⟨start, state, []⟩
    (∀ e env env', Env.AgreeOn e.variables env env' → ∀ fuel (s : Session σ β),
      (host.perform fuel (.evalTree e env)).result s =
        (host.perform fuel (.evalTree e env')).result s) ∧
    (∀ source env env',
      (∀ e, parse source config.maxDepth = .ok e → Env.AgreeOn e.variables env env') →
      ∀ now, now <:+ used.journal → ∀ fuel (s : Session σ β), s.vm = vmAt start now →
        (host.perform fuel (.eval source env)).result s =
          (host.perform fuel (.eval source env')).result s) ∧
    ∀ env name, env.bindings.lookup name = none →
      ∀ names, Env.AgreeOn names env (env.bind name .null) := by
  intro start used
  refine ⟨fun e env env' h fuel s => ?_, fun source env env' h now hnow fuel s hs => ?_,
    fun env name h names => Env.AgreeOn.bind_null h names⟩
  · exact congrArg (Run.result · s) (evalTree_congr h)
  · have hvalid := (host.follows_after _ script start state).valid.of_suffix hnow
    refine eval_congr fun entry hentry => ?_
    obtain ⟨e, hparse, hfolded⟩ := parsed_of_compile hvalid rfl hs hentry
    rw [hfolded.variables_eq]
    exact h e hparse

/-! ## A cached source with a variable -/

/-- Compiles `max(abs(3), x)`. -/
def compileMax : Script Nat Unit :=
  .request (.compile "max(abs(3), x)") fun _ => .done (.ok .null)

/-- The session as the script leaves it, with the builtins and `tick`. -/
def compiledMax : Session Nat Unit :=
  (compileMax.run (counter.perform 1)).after ⟨.new builtinsAndTick ⟨2, true⟩, 0, []⟩

/-- The tree `max(3, x)` that is cached for the source does not see `y`, and where `x` is unbound it
    sees null. -/
theorem evaluation_depends_on_variables_max :
    compiledMax.vm.cache.entries =
        [⟨0, "max(abs(3), x)", .call "max" [.number 3, .variable "x"]⟩] ∧
      (∀ n, (counter.perform 1 (.eval "max(abs(3), x)"
          ((Env.empty.bind "x" (.integer 7)).bind "y" (.integer n)))).result compiledMax =
        (counter.perform 1 (.eval "max(abs(3), x)"
          (Env.empty.bind "x" (.integer 7)))).result compiledMax) ∧
      (counter.perform 1 (.evalTree (.variable "x") .empty)).result compiledMax =
        (counter.perform 1 (.evalTree (.variable "x") (Env.empty.bind "x" .null))).result
          compiledMax := by
  have hparse : parse "max(abs(3), x)" 2 =
      .ok (.call "max" [.call "abs" [.number 3], .variable "x"]) := by decide +kernel
  have hvm : compiledMax.vm = vmAt (.new builtinsAndTick ⟨2, true⟩) compiledMax.journal :=
    (counter.follows_after 1 compileMax _ 0).vm
  obtain ⟨htree, hsource, hnull⟩ :=
    evaluation_depends_on_variables counter 1 compileMax builtinsAndTick ⟨2, true⟩ 0
  refine ⟨by decide +kernel, fun n => ?_, ?_⟩
  · refine hsource _ _ _ (fun e he => ?_) compiledMax.journal List.suffix_rfl 1 compiledMax hvm
    obtain rfl := Except.ok.inj (hparse.symm.trans he)
    intro name hname
    obtain rfl : name = "x" := List.mem_singleton.1 hname
    rfl
  · exact htree _ _ _ (hnull .empty "x" rfl _) 1 compiledMax

end Host

end FormulaLang
