import FormulaLang.Proofs.Expr.Calls
import FormulaLang.Proofs.Folding.Meaning

/-!
# `Evaluation.Steps` — the steps of an evaluation, in order

Evaluation goes through a tree in one way only, so what there is to do can be listed in advance:
tests of the two limits, looking up functions, applying signs and operators, and running functions
(`Expr.steps`). Whether a step passes or fails may depend on values and on the host, but its place
in the list does not. An evaluation either gets through all of the steps, or one of them fails and
the later ones are not made (`Ended`).

## Contents
- `Expr.steps`, whose calls are the calls of the tree (`Expr.calls_steps`).
- **`Expr.within_iff_fits`**: the tests of the limits pass if the tree fits.
- **`Expr.steps_eq_append_call`**: before the function of a call runs come the steps of its
  arguments, and before these the function is looked up.
- `Ended`, with its rules for sequences of steps.
-/

namespace FormulaLang

/-- A step of an evaluation. -/
inductive Step where
  /-- The limit on levels is tested, with so many levels above. -/
  | level (above : Nat)
  /-- The limit on groups is tested, with so many groups open. -/
  | enter (opened : Nat)
  /-- The function of a call is looked up, and the arguments are counted. -/
  | resolve (node : CallNode)
  | sign (sign : Sign)
  | operator (op : Operator)
  /-- The function of a call runs. -/
  | call (node : CallNode)

/-- The call whose function runs in the step. -/
def Step.call? : Step → Option CallNode
  | .call node => some node
  | _ => none

/-- The calls whose functions run in the steps. -/
def Step.calls (steps : List Step) : List CallNode := steps.filterMap Step.call?

theorem Step.calls_append (steps steps' : List Step) :
    Step.calls (steps ++ steps') = Step.calls steps ++ Step.calls steps' :=
  List.filterMap_append

theorem Step.calls_singleton {step : Step} (h : step.call? = none) : Step.calls [step] = [] :=
  List.filterMap_cons_none h

/-- One group further in. -/
def Depth.inside (depth : Depth) : Depth := { depth with groups := depth.groups + 1 }

mutual

/-- The steps of evaluating an expression at the given depth. -/
def Expr.steps (depth : Depth) : Expr → List Step
  | .empty | .number _ | .string _ | .variable _ => [.level depth.levels]
  | .unary sign e => .level depth.levels :: (e.steps depth.down ++ [.sign sign])
  | .binary left _ os => .level depth.levels :: (left.steps depth.down ++ os.steps depth.down)
  | .call name es =>
      .level depth.levels :: .enter depth.groups :: .resolve ⟨name, es⟩ ::
        (Expr.argsSteps depth.down.inside es ++ [.call ⟨name, es⟩])
  | .group e => .level depth.levels :: .enter depth.groups :: e.steps depth.down.inside

/-- The steps of going through the operands of a run. -/
def Operands.steps (depth : Depth) : Operands → List Step
  | .one op e => e.steps depth ++ [.operator op]
  | .more op e os => e.steps depth ++ .operator op :: os.steps depth

/-- The steps of evaluating arguments. -/
def Expr.argsSteps (depth : Depth) : List Expr → List Step
  | [] => []
  | e :: es => e.steps depth ++ Expr.argsSteps depth es

end

/-! ## Calls -/

mutual

/-- **The functions run in post-order.** -/
theorem Expr.calls_steps (depth : Depth) (e : Expr) : Step.calls (e.steps depth) = e.calls := by
  cases e with
  | empty | number | string | «variable» => rfl
  | unary sign e =>
      show Step.calls (e.steps depth.down ++ [.sign sign]) = e.calls
      rw [Step.calls_append, Expr.calls_steps depth.down e]
      exact List.append_nil _
  | binary left p os =>
      show Step.calls (left.steps depth.down ++ os.steps depth.down) = left.calls ++ os.calls
      rw [Step.calls_append, Expr.calls_steps depth.down left, Operands.calls_steps depth.down os]
  | call name es =>
      show Step.calls (Expr.argsSteps depth.down.inside es ++ [.call ⟨name, es⟩]) =
        Expr.argsCalls es ++ [⟨name, es⟩]
      rw [Step.calls_append, Expr.calls_argsSteps depth.down.inside es]
      rfl
  | group e => exact Expr.calls_steps depth.down.inside e

theorem Operands.calls_steps (depth : Depth) (os : Operands) :
    Step.calls (os.steps depth) = os.calls := by
  cases os with
  | one op e =>
      rw [Operands.steps, Step.calls_append, Expr.calls_steps depth e]
      exact List.append_nil _
  | more op e os =>
      rw [Operands.steps, Step.calls_append, Expr.calls_steps depth e]
      show e.calls ++ Step.calls (os.steps depth) = e.calls ++ os.calls
      rw [Operands.calls_steps depth os]

theorem Expr.calls_argsSteps (depth : Depth) (es : List Expr) :
    Step.calls (Expr.argsSteps depth es) = Expr.argsCalls es := by
  cases es with
  | nil => rfl
  | cons e es =>
      rw [Expr.argsSteps, Step.calls_append, Expr.calls_steps depth e,
        Expr.calls_argsSteps depth es]
      rfl

end

/-! ## Limits -/

/-- The step is no test of a limit, or one that passes. -/
def Step.Within (maxDepth : Nat) : Step → Prop
  | .level above => above < maxTreeDepth maxDepth
  | .enter opened => opened < maxDepth
  | _ => True

theorem Depth.fits_iff {depth : Depth} {maxDepth height nesting : Nat} :
    depth.Fits maxDepth height nesting ↔
      depth.levels + height ≤ maxTreeDepth maxDepth ∧ depth.groups + nesting ≤ maxDepth :=
  ⟨fun h => ⟨h.levels, h.groups⟩, fun h => ⟨h.1, h.2⟩⟩

section
variable {maxDepth : Nat}

mutual

/-- **The tests of the limits pass if the tree fits.** -/
theorem Expr.within_iff_fits (depth : Depth) (hgroups : depth.groups ≤ maxDepth) (e : Expr) :
    (∀ step ∈ e.steps depth, step.Within maxDepth) ↔
      depth.Fits maxDepth e.height e.nesting := by
  cases e with
  | empty | number | string | «variable» =>
      simp only [Expr.steps, List.forall_mem_singleton, Step.Within, Depth.fits_iff, Expr.height,
        Expr.nesting]
      omega
  | unary sign e =>
      have hpos := e.height_pos
      have he := Expr.within_iff_fits depth.down hgroups e
      rw [Expr.steps, List.forall_mem_cons, List.forall_mem_append, he, List.forall_mem_singleton]
      simp only [Step.Within, Depth.fits_iff, Depth.down, Expr.height, Expr.nesting, and_true]
      omega
  | binary left p os =>
      have hpos := left.height_pos
      have hleft := Expr.within_iff_fits depth.down hgroups left
      have hos := Operands.within_iff_fits depth.down hgroups os
      rw [Expr.steps, List.forall_mem_cons, List.forall_mem_append, hleft, hos]
      simp only [Step.Within, Depth.fits_iff, Depth.down, Expr.height, Expr.nesting]
      omega
  | call name es =>
      rw [Expr.steps, List.forall_mem_cons, List.forall_mem_cons, List.forall_mem_cons,
        List.forall_mem_append, List.forall_mem_singleton]
      -- what is said of the arguments needs the tests before them to have passed
      have hargs (hlevel : depth.levels < maxTreeDepth maxDepth)
          (henter : depth.groups < maxDepth) :=
        Expr.within_iff_fits_args depth.down.inside henter hlevel es
      simp only [Step.Within, Depth.fits_iff, Depth.down, Depth.inside, Expr.height,
        Expr.nesting, true_and, and_true] at hargs ⊢
      constructor
      · rintro ⟨hlevel, henter, hes⟩
        rw [hargs hlevel henter] at hes
        omega
      · intro h
        rw [hargs (by omega) (by omega)]
        omega
  | group e =>
      rw [Expr.steps, List.forall_mem_cons, List.forall_mem_cons]
      have he (henter : depth.groups < maxDepth) :=
        Expr.within_iff_fits depth.down.inside henter e
      simp only [Step.Within, Depth.fits_iff, Depth.down, Depth.inside, Expr.height,
        Expr.nesting] at he ⊢
      constructor
      · rintro ⟨hlevel, henter, hinner⟩
        rw [he henter] at hinner
        omega
      · intro h
        rw [he (by omega)]
        omega

theorem Operands.within_iff_fits (depth : Depth) (hgroups : depth.groups ≤ maxDepth)
    (os : Operands) :
    (∀ step ∈ os.steps depth, step.Within maxDepth) ↔
      depth.Fits maxDepth os.height os.nesting := by
  cases os with
  | one op e =>
      rw [Operands.steps, List.forall_mem_append, Expr.within_iff_fits depth hgroups e,
        List.forall_mem_singleton]
      exact and_iff_left trivial
  | more op e os =>
      rw [Operands.steps, List.forall_mem_append, List.forall_mem_cons,
        Expr.within_iff_fits depth hgroups e, Operands.within_iff_fits depth hgroups os]
      simp only [Step.Within, Depth.fits_iff, Operands.height, Operands.nesting, true_and]
      omega

theorem Expr.within_iff_fits_args (depth : Depth) (hgroups : depth.groups ≤ maxDepth)
    (hlevels : depth.levels ≤ maxTreeDepth maxDepth) (es : List Expr) :
    (∀ step ∈ Expr.argsSteps depth es, step.Within maxDepth) ↔
      depth.Fits maxDepth (Expr.argsHeight es) (Expr.argsNesting es) := by
  cases es with
  | nil => exact ⟨fun _ => ⟨hlevels, hgroups⟩, fun _ => List.forall_mem_nil _⟩
  | cons e es =>
      rw [Expr.argsSteps, List.forall_mem_append, Expr.within_iff_fits depth hgroups e,
        Expr.within_iff_fits_args depth hgroups hlevels es]
      simp only [Depth.fits_iff, Expr.argsHeight, Expr.argsNesting]
      omega

end

end

/-! ## The steps of a call -/

/-- What holds wherever a list is split at one of its elements, by two parts of the list. -/
theorem forall_split_append {α : Type} {P : List α → α → Prop} {as bs : List α}
    (has : ∀ before x after, as = before ++ x :: after → P before x)
    (hbs : ∀ before x after, bs = before ++ x :: after → P (as ++ before) x) :
    ∀ before x after, as ++ bs = before ++ x :: after → P before x := by
  intro before x after h
  rcases List.append_eq_append_iff.1 h with ⟨more, rfl, hmore⟩ | ⟨more, rfl, hmore⟩
  · exact hbs more x after hmore
  · cases more with
    | nil =>
        have hfirst := hbs [] x after hmore.symm
        rwa [List.append_nil, List.append_nil] at hfirst
    | cons y more =>
        obtain ⟨rfl, -⟩ := List.cons.inj hmore
        exact has before x more rfl

/-- The same for a list and one element after it. -/
theorem forall_split_snoc {α : Type} {P : List α → α → Prop} {as : List α} {b : α}
    (has : ∀ before x after, as = before ++ x :: after → P before x) (hb : P as b) :
    ∀ before x after, as ++ [b] = before ++ x :: after → P before x := by
  refine forall_split_append has fun before x after h => ?_
  cases before with
  | nil =>
      obtain ⟨rfl, -⟩ := List.cons.inj h
      rwa [List.append_nil]
  | cons other before => simp at h

/-- If the step runs the function of a call, the steps before it end with those of the arguments,
    and the function has been looked up before these. -/
def Step.Prepared (before : List Step) (step : Step) : Prop :=
  ∀ node, step = .call node → ∃ earlier inside,
    before = earlier ++ .resolve node :: Expr.argsSteps inside node.args

/-- Every step is prepared by the ones before it. -/
def Step.AllPrepared (steps : List Step) : Prop :=
  ∀ before step after, steps = before ++ step :: after → step.Prepared before

namespace Step

theorem Prepared.append {before : List Step} {step : Step} (h : step.Prepared before)
    (steps : List Step) : step.Prepared (steps ++ before) := by
  intro node hnode
  obtain ⟨earlier, inside, rfl⟩ := h node hnode
  exact ⟨steps ++ earlier, inside, (List.append_assoc ..).symm⟩

theorem AllPrepared.append {steps steps' : List Step} (h : AllPrepared steps)
    (h' : AllPrepared steps') : AllPrepared (steps ++ steps') :=
  forall_split_append h fun before step after heq => (h' before step after heq).append steps

theorem allPrepared_nil : AllPrepared [] := by
  intro before step after h
  simp at h

/-- One step after others is prepared if it runs no function, or the function of a call that the
    others prepare. -/
theorem AllPrepared.snoc {steps : List Step} {step : Step} (h : AllPrepared steps)
    (hstep : step.Prepared steps) : AllPrepared (steps ++ [step]) :=
  forall_split_snoc h hstep

/-- A step that runs no function needs no preparation. -/
theorem prepared_of_call?_eq_none {before : List Step} {step : Step} (h : step.call? = none) :
    step.Prepared before := by
  rintro node rfl
  cases h

theorem allPrepared_singleton {step : Step} (h : step.call? = none) : AllPrepared [step] :=
  allPrepared_nil.snoc (prepared_of_call?_eq_none h)

theorem AllPrepared.cons {step : Step} {steps : List Step} (h : step.call? = none)
    (hsteps : AllPrepared steps) : AllPrepared (step :: steps) :=
  (allPrepared_singleton h).append hsteps

end Step

mutual

theorem Expr.allPrepared_steps (depth : Depth) (e : Expr) : Step.AllPrepared (e.steps depth) := by
  cases e with
  | empty | number | string | «variable» => exact Step.allPrepared_singleton rfl
  | unary sign e =>
      refine .cons rfl (.append (Expr.allPrepared_steps depth.down e) ?_)
      exact Step.allPrepared_singleton rfl
  | binary left p os =>
      refine .cons rfl (.append (Expr.allPrepared_steps depth.down left) ?_)
      exact Operands.allPrepared_steps depth.down os
  | call name es =>
      have hargs : Step.AllPrepared
          (.resolve ⟨name, es⟩ :: Expr.argsSteps depth.down.inside es) :=
        .cons rfl (Expr.allPrepared_argsSteps depth.down.inside es)
      refine .cons rfl (.cons rfl (hargs.snoc ?_))
      rintro node ⟨⟩
      exact ⟨[], depth.down.inside, rfl⟩
  | group e => exact .cons rfl (.cons rfl (Expr.allPrepared_steps depth.down.inside e))

theorem Operands.allPrepared_steps (depth : Depth) (os : Operands) :
    Step.AllPrepared (os.steps depth) := by
  cases os with
  | one op e =>
      exact .append (Expr.allPrepared_steps depth e) (Step.allPrepared_singleton rfl)
  | more op e os =>
      refine .append (Expr.allPrepared_steps depth e) (.cons rfl ?_)
      exact Operands.allPrepared_steps depth os

theorem Expr.allPrepared_argsSteps (depth : Depth) (es : List Expr) :
    Step.AllPrepared (Expr.argsSteps depth es) := by
  cases es with
  | nil => exact Step.allPrepared_nil
  | cons e es =>
      exact .append (Expr.allPrepared_steps depth e) (Expr.allPrepared_argsSteps depth es)

end

/-- **Before the function of a call runs come the steps of its arguments, and before these the
    function is looked up.** -/
theorem Expr.steps_eq_append_call {depth : Depth} {e : Expr} {before after : List Step}
    {node : CallNode} (h : e.steps depth = before ++ .call node :: after) :
    ∃ earlier inside, before = earlier ++ .resolve node :: Expr.argsSteps inside node.args :=
  e.allPrepared_steps depth before (.call node) after h node rfl

/-! ## The end of an evaluation -/

section
variable {β : Type} (Allowed : Registry β → Prop) (maxDepth : Nat)

/-- The step may pass: a test of a limit, if it does, looking up a function, if an allowed registry
    has it, and any operation and any call. -/
inductive Step.Passes : Step → Prop where
  | level {above : Nat} (h : above < maxTreeDepth maxDepth) : Step.Passes (.level above)
  | enter {opened : Nat} (h : opened < maxDepth) : Step.Passes (.enter opened)
  | resolve {node : CallNode} {registry : Registry β} {f : Function β} (allowed : Allowed registry)
      (found : registry.resolve node.name node.args.length = .ok f) : Step.Passes (.resolve node)
  | sign {sign : Sign} : Step.Passes (.sign sign)
  | operator {op : Operator} : Step.Passes (.operator op)
  | call {node : CallNode} : Step.Passes (.call node)

/-- The step may fail with the error. -/
inductive Step.Fails : Step → EvalError → Prop where
  | level {above : Nat} (h : maxTreeDepth maxDepth ≤ above) :
      Step.Fails (.level above) (.depthLimitExceeded maxDepth)
  | enter {opened : Nat} (h : maxDepth ≤ opened) :
      Step.Fails (.enter opened) (.depthLimitExceeded maxDepth)
  | resolve {node : CallNode} {registry : Registry β} {error : EvalError}
      (allowed : Allowed registry)
      (missing : registry.resolve node.name node.args.length = .error error) :
      Step.Fails (.resolve node) error
  | sign {sign : Sign} {v : Value} {error : EvalError} (failed : sign.eval v = .error error) :
      Step.Fails (.sign sign) error
  | operator {op : Operator} {left right : Value} {error : EvalError}
      (failed : op.eval left right = .error error) : Step.Fails (.operator op) error
  | call {node : CallNode} {why : FunctionError} : Step.Fails (.call node) (.call node.name why)

/-- How going through the steps ends, if the functions of the calls `made` have run on the way: all
    steps pass, or one fails with the error, and none is made after it. -/
inductive Ended {α : Type} (steps : List Step) (made : List CallNode) : Except EvalError α → Prop
    where
  | through {a : α} (calls : made = Step.calls steps)
      (passes : ∀ step ∈ steps, step.Passes Allowed maxDepth) : Ended steps made (.ok a)
  | stopped {passed rest : List Step} {step : Step} {error : EvalError}
      (split : steps = passed ++ step :: rest) (calls : made = Step.calls (passed ++ [step]))
      (passes : ∀ step ∈ passed, step.Passes Allowed maxDepth)
      (fails : step.Fails Allowed maxDepth error) : Ended steps made (.error error)

end

namespace Ended

variable {β α γ : Type} {Allowed : Registry β → Prop} {maxDepth : Nat} {steps later : List Step}
variable {made made' : List CallNode} {error : EvalError}

theorem nil (a : α) : Ended Allowed maxDepth [] [] (.ok a) :=
  .through rfl (List.forall_mem_nil _)

theorem pass {step : Step} (h : step.Passes Allowed maxDepth) (a : α) :
    Ended Allowed maxDepth [step] (Step.calls [step]) (.ok a) :=
  .through rfl (List.forall_mem_singleton.2 h)

theorem fail {step : Step} (h : step.Fails Allowed maxDepth error) (steps : List Step) :
    Ended Allowed maxDepth (step :: steps) (Step.calls [step]) (.error error : Except _ α) :=
  have split : step :: steps = [] ++ step :: steps := rfl
  .stopped split rfl (List.forall_mem_nil _) h

/-- What has stopped makes no later steps. -/
theorem append_error
    (h : Ended Allowed maxDepth steps made (.error error : Except EvalError α)) :
    Ended Allowed maxDepth (steps ++ later) made (.error error : Except EvalError γ) := by
  cases h with
  | @stopped passed rest step _ split calls passes fails =>
      have split' : steps ++ later = passed ++ step :: (rest ++ later) := by
        rw [split, List.append_assoc, List.cons_append]
      exact .stopped split' calls passes fails

/-- What has got through goes on with the later steps. -/
theorem append {a : α} {r : Except EvalError γ} (h : Ended Allowed maxDepth steps made (.ok a))
    (h' : Ended Allowed maxDepth later made' r) :
    Ended Allowed maxDepth (steps ++ later) (made ++ made') r := by
  cases h with
  | through calls passes =>
      subst calls
      cases h' with
      | through calls' passes' =>
          subst calls'
          exact .through (Step.calls_append steps later).symm
            (List.forall_mem_append.2 ⟨passes, passes'⟩)
      | @stopped passed rest step _ split calls' passes' fails =>
          subst calls'
          have split' : steps ++ later = (steps ++ passed) ++ step :: rest := by
            rw [split, List.append_assoc]
          refine .stopped split' ?_ (List.forall_mem_append.2 ⟨passes, passes'⟩) fails
          rw [List.append_assoc, Step.calls_append steps]

end Ended

end FormulaLang
