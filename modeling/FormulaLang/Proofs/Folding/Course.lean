import FormulaLang.Proofs.Evaluation.Course

/-!
# `Folding.Course` — folding comes to the calls of a tree in order

Folding goes through a tree in one way only and comes to every call right after its arguments have
been folded. There it either computes the call or leaves it, and which of the two depends on what
the arguments have become, and so on what functions have returned before. A `FoldCourse` tells what
a folding did from one session to another: the calls it came to, which of them it invoked and with
which values, and how it ended. This holds whatever the functions do.

- **`foldAt_follows`**: folding a tree that is not too tall comes to the calls of the tree in
  post-order, and rewrites the tree by what it invoked.
-/

namespace FormulaLang
open Run

variable {σ β : Type}

/-- A call of a tree that folding has come to: which one, its arguments as they were folded, and
    the invocation if it was computed. -/
structure ReachedCall (β : Type) where
  node : CallNode
  args : List Expr
  invocation : Option (Invocation β)

namespace ReachedCall

/-- The calls that were computed. -/
def invocations (reached : List (ReachedCall β)) : List (Invocation β) :=
  reached.filterMap ReachedCall.invocation

theorem invocations_append (reached reached' : List (ReachedCall β)) :
    invocations (reached ++ reached') = invocations reached ++ invocations reached' :=
  List.filterMap_append

/-- The call was left or computed without a failure. -/
def Passed (c : ReachedCall β) : Prop := ∀ i, c.invocation = some i → ∃ v, i.result = .ok v

/-- What stands in the folded tree for the call: the call itself if it was left, and if it was
    computed, the literal of what the function returned, should that have one. -/
inductive Becomes (c : ReachedCall β) : Expr → Prop where
  | left (uncomputed : c.invocation = none) : Becomes c (.call c.node.name c.args)
  | computed {i : Invocation β} {v : Value} (invoked : c.invocation = some i)
      (returned : i.result = .ok v) : Becomes c (v.toLiteral?.getD (.call c.node.name c.args))

theorem Becomes.passed {c : ReachedCall β} {t : Expr} (h : c.Becomes t) : c.Passed := by
  intro i hi
  cases h with
  | left uncomputed => cases uncomputed.symm.trans hi
  | computed invoked returned =>
      obtain rfl := Option.some.inj (invoked.symm.trans hi)
      exact ⟨_, returned⟩

end ReachedCall

/-! ## Trees with calls rewritten -/

mutual

/-- The second tree is the first with each call rewritten; the calls are the reached ones, one for
    one and in post-order. -/
inductive Expr.Rewritten {β : Type} : Expr → List (ReachedCall β) → Expr → Prop where
  | empty : Expr.Rewritten .empty [] .empty
  | number (n : Int64) : Expr.Rewritten (.number n) [] (.number n)
  | string (text : String) : Expr.Rewritten (.string text) [] (.string text)
  | variable (name : String) : Expr.Rewritten (.variable name) [] (.variable name)
  | unary {sign : Sign} {e t : Expr} {reached : List (ReachedCall β)}
      (operand : Expr.Rewritten e reached t) :
      Expr.Rewritten (.unary sign e) reached (.unary sign t)
  | binary {p : Priority} {e t : Expr} {os ts : Operands} {reached reached' : List (ReachedCall β)}
      (left : Expr.Rewritten e reached t) (operands : Operands.Rewritten os reached' ts) :
      Expr.Rewritten (.binary e p os) (reached ++ reached') (.binary t p ts)
  | group {e t : Expr} {reached : List (ReachedCall β)} (inner : Expr.Rewritten e reached t) :
      Expr.Rewritten (.group e) reached (.group t)
  | call {c : ReachedCall β} {t : Expr} {reached : List (ReachedCall β)}
      (args : Expr.ArgsRewritten c.node.args reached c.args) (becomes : c.Becomes t) :
      Expr.Rewritten (.call c.node.name c.node.args) (reached ++ [c]) t

/-- The operands of the second run are those of the first with each call rewritten. -/
inductive Operands.Rewritten {β : Type} : Operands → List (ReachedCall β) → Operands → Prop where
  | one {op : Operator} {e t : Expr} {reached : List (ReachedCall β)}
      (operand : Expr.Rewritten e reached t) :
      Operands.Rewritten (.one op e) reached (.one op t)
  | more {op : Operator} {e t : Expr} {os ts : Operands} {reached reached' : List (ReachedCall β)}
      (operand : Expr.Rewritten e reached t) (rest : Operands.Rewritten os reached' ts) :
      Operands.Rewritten (.more op e os) (reached ++ reached') (.more op t ts)

/-- The second arguments are the first with each call rewritten. -/
inductive Expr.ArgsRewritten {β : Type} : List Expr → List (ReachedCall β) → List Expr → Prop where
  | nil : Expr.ArgsRewritten [] [] []
  | cons {e t : Expr} {es ts : List Expr} {reached reached' : List (ReachedCall β)}
      (first : Expr.Rewritten e reached t) (rest : Expr.ArgsRewritten es reached' ts) :
      Expr.ArgsRewritten (e :: es) (reached ++ reached') (t :: ts)

end

/-! ## Courses -/

/-- How folding ends if it has come to the calls `reached` among those of `nodes`: all were reached
    and none failed, and the result is what was rewritten by them; or the last of them was computed
    and failed, and folding has stopped with its error. -/
inductive FoldEnded {α : Type} (nodes : List CallNode) (Rewrites : List (ReachedCall β) → α → Prop)
    (reached : List (ReachedCall β)) : Except FoldError α → Prop where
  | through {a : α} (all : reached.map ReachedCall.node = nodes) (rewrites : Rewrites reached a)
      (passed : ∀ c ∈ reached, c.Passed) : FoldEnded nodes Rewrites reached (.ok a)
  | stopped {earlier : List (ReachedCall β)} {last : ReachedCall β} {i : Invocation β}
      {why : FunctionError} (split : reached = earlier ++ [last])
      (first : reached.map ReachedCall.node <+: nodes) (passed : ∀ c ∈ earlier, c.Passed)
      (invoked : last.invocation = some i) (failed : i.result = .error why) :
      FoldEnded nodes Rewrites reached (.error (.call last.node.name why))

namespace FoldEnded

variable {α γ : Type} {nodes later : List CallNode} {Rewrites : List (ReachedCall β) → α → Prop}
variable {Rewrites' : List (ReachedCall β) → γ → Prop} {reached reached' : List (ReachedCall β)}

/-- The calls reached are the first ones. -/
theorem nodes_prefix {r : Except FoldError α} (h : FoldEnded nodes Rewrites reached r) :
    reached.map ReachedCall.node <+: nodes := by
  cases h with
  | through all _ _ => exact all ▸ List.prefix_rfl
  | stopped _ first _ _ _ => exact first

/-- What has stopped comes to no later calls. -/
theorem append_error {error : FoldError}
    (h : FoldEnded nodes Rewrites reached (.error error : Except FoldError α)) :
    FoldEnded (nodes ++ later) Rewrites' reached (.error error : Except FoldError γ) := by
  cases h with
  | stopped split first passed invoked failed =>
      exact .stopped split (first.trans (List.prefix_append _ _)) passed invoked failed

/-- What has got through goes on with the later calls. -/
theorem append {a : α} {r : Except FoldError γ} (h : FoldEnded nodes Rewrites reached (.ok a))
    (h' : FoldEnded later (fun more c => Rewrites' (reached ++ more) c) reached' r) :
    FoldEnded (nodes ++ later) Rewrites' (reached ++ reached') r := by
  cases h with
  | through all _ passed =>
      cases h' with
      | through all' rewrites' passed' =>
          refine .through ?_ rewrites' (List.forall_mem_append.2 ⟨passed, passed'⟩)
          rw [List.map_append, all, all']
      | stopped split first passed' invoked failed =>
          subst split
          refine .stopped (List.append_assoc ..).symm ?_
            (List.forall_mem_append.2 ⟨passed, passed'⟩) invoked failed
          rw [List.map_append, all]
          exact (List.prefix_append_right_inj nodes).2 first

end FoldEnded

section
variable (call : Caller (Run σ β) β) (registry : Registry β) (maxDepth : Nat)

/-- How it came to the call after the calls `before` from the session `s` on. After some of them,
    its arguments were folded, and in doing so exactly the others were reached. Then it was computed
    if it is a constant call with the arguments as they had become, with their values, and it was
    left if not. -/
def ReachedCall.Explained (c : ReachedCall β) (s : Session σ β) (before : List (ReachedCall β)) :
    Prop :=
  ∃ earlier during t t' level, before = earlier ++ during ∧
    Makes call s (invocations earlier) t ∧ Makes call t (invocations during) t' ∧
    Expr.ArgsRewritten c.node.args during c.args ∧
    (Expr.foldArgs call registry maxDepth level c.node.args).run.run t = some (.ok c.args, t') ∧
    (c.invocation = none → ∀ f values, ¬ ConstantCall registry c.node.name c.args f values) ∧
    ∀ i, c.invocation = some i →
      i.node = c.node ∧ ConstantCall registry c.node.name c.args i.f i.values

/-- What a folding did between two sessions. -/
structure FoldCourse {α : Type} (nodes : List CallNode)
    (Rewrites : List (ReachedCall β) → α → Prop) (r : Except FoldError α) (s : Session σ β)
    (reached : List (ReachedCall β)) (s' : Session σ β) : Prop where
  makes : Makes call s (ReachedCall.invocations reached) s'
  explained : ∀ before c after, reached = before ++ c :: after →
    c.Explained call registry maxDepth s before
  ended : FoldEnded nodes Rewrites reached r

/-- The program takes a course through the calls, if it ends. -/
def FoldFollows {α : Type} (nodes : List CallNode) (Rewrites : List (ReachedCall β) → α → Prop)
    (x : ExceptT FoldError (Run σ β) α) : Prop :=
  ∀ s : Session σ β, runLogic.Sat x.run s fun r s' =>
    ∃ reached, FoldCourse call registry maxDepth nodes Rewrites r s reached s'

end

section
variable {call : Caller (Run σ β) β} {registry : Registry β} {maxDepth level : Nat}
variable {α γ : Type} {s t s' : Session σ β} {nodes later : List CallNode}
variable {Rewrites : List (ReachedCall β) → α → Prop}
variable {Rewrites' : List (ReachedCall β) → γ → Prop} {reached reached' : List (ReachedCall β)}

/-- Calls that were reached before do not matter for how it came to a call. -/
theorem ReachedCall.Explained.after {c : ReachedCall β} {before : List (ReachedCall β)}
    (h : c.Explained call registry maxDepth t before)
    (hmakes : Makes call s (invocations reached) t) :
    c.Explained call registry maxDepth s (reached ++ before) := by
  obtain ⟨earlier, during, u, u', level, rfl, hearlier, hrest⟩ := h
  refine ⟨reached ++ earlier, during, u, u', level, (List.append_assoc ..).symm, ?_, hrest⟩
  rw [invocations_append]
  exact hmakes.append hearlier

namespace FoldCourse

theorem append {a : α} {r : Except FoldError γ}
    (h : FoldCourse call registry maxDepth nodes Rewrites (.ok a) s reached t)
    (h' : FoldCourse call registry maxDepth later (fun more c => Rewrites' (reached ++ more) c) r t
      reached' s') :
    FoldCourse call registry maxDepth (nodes ++ later) Rewrites' r s (reached ++ reached') s' where
  makes := by
    rw [ReachedCall.invocations_append]
    exact h.makes.append h'.makes
  explained := by
    refine forall_split_append h.explained fun before c after heq => ?_
    exact (h'.explained before c after heq).after h.makes
  ended := h.ended.append h'.ended

/-- A failure ends the course, whatever calls there would be. -/
theorem append_error {error : FoldError}
    (h : FoldCourse call registry maxDepth nodes Rewrites (.error error : Except _ α) s reached
      s') :
    FoldCourse call registry maxDepth (nodes ++ later) Rewrites' (.error error : Except _ γ) s
      reached s' where
  makes := h.makes
  explained := h.explained
  ended := h.ended.append_error

end FoldCourse

/-! ## Programs that follow calls -/

theorem foldFollows_pure {a : α} (h : Rewrites [] a) :
    FoldFollows call registry maxDepth [] Rewrites
      (pure a : ExceptT FoldError (Run σ β) α) :=
  fun s => runLogic.sat_ok ⟨[], .nil s, by simp, .through rfl h (List.forall_mem_nil _)⟩

/-- What the second part rewrites by is added to what the first part did. -/
theorem FoldFollows.seq {x : ExceptT FoldError (Run σ β) α} {f : α → ExceptT FoldError (Run σ β) γ}
    (hx : FoldFollows call registry maxDepth nodes Rewrites x)
    (hf : ∀ a reached, Rewrites reached a →
      FoldFollows call registry maxDepth later (fun more c => Rewrites' (reached ++ more) c)
        (f a)) :
    FoldFollows call registry maxDepth (nodes ++ later) Rewrites' (x >>= f) := by
  intro s
  refine runLogic.sat_seq (hx s) ?_ ?_
  · rintro error s' ⟨reached, hcourse⟩
    exact ⟨reached, hcourse.append_error⟩
  · rintro a t - ⟨reached, hcourse⟩
    have hrewrites : Rewrites reached a := by
      cases hcourse.ended with
      | through _ rewrites _ => exact rewrites
    refine runLogic.sat_mono (hf a reached hrewrites t) ?_
    rintro r s' ⟨reached', hcourse'⟩
    exact ⟨reached ++ reached', hcourse.append hcourse'⟩

/-- A result that is only wrapped up. -/
theorem FoldFollows.map {x : ExceptT FoldError (Run σ β) α} {g : α → γ}
    (hx : FoldFollows call registry maxDepth nodes Rewrites x)
    (hg : ∀ a reached, Rewrites reached a → Rewrites' reached (g a)) :
    FoldFollows call registry maxDepth nodes Rewrites' (x >>= fun a => pure (g a)) := by
  rw [← List.append_nil nodes]
  refine hx.seq fun a reached h => foldFollows_pure ?_
  rw [List.append_nil]
  exact hg a reached h

/-! ## Calls -/

/-- A call that was reached, after its arguments. -/
theorem FoldCourse.of_call {c : ReachedCall β} {result : Except FoldError Expr}
    (hargs : FoldCourse call registry maxDepth (Expr.argsCalls c.node.args)
      (Expr.ArgsRewritten c.node.args) (.ok c.args) s reached t)
    (hfolded : (Expr.foldArgs call registry maxDepth level c.node.args).run.run s =
      some (.ok c.args, t))
    (hmakes : Makes call t (ReachedCall.invocations [c]) s')
    (hleft : c.invocation = none → ∀ f values, ¬ ConstantCall registry c.node.name c.args f values)
    (hcomputed : ∀ i, c.invocation = some i →
      i.node = c.node ∧ ConstantCall registry c.node.name c.args i.f i.values)
    (hended : FoldEnded [c.node] (fun _ => c.Becomes) [c] result) :
    FoldCourse call registry maxDepth (Expr.argsCalls c.node.args ++ [c.node])
      (Expr.Rewritten (.call c.node.name c.node.args)) result s (reached ++ [c]) s' := by
  have hrewrites : Expr.ArgsRewritten c.node.args reached c.args := by
    cases hargs.ended with
    | through _ rewrites _ => exact rewrites
  constructor
  case makes =>
    rw [ReachedCall.invocations_append]
    exact hargs.makes.append hmakes
  case explained =>
    refine forall_split_snoc hargs.explained ?_
    exact ⟨[], reached, s, t, level, rfl, .nil s, hargs.makes, hrewrites, hfolded, hleft,
      hcomputed⟩
  case ended =>
    refine hargs.ended.append ?_
    cases hended with
    | through all becomes passed => exact .through all (.call hrewrites becomes) passed
    | stopped split first passed invoked failed =>
        exact .stopped split first passed invoked failed

/-- Folding the arguments, and then computing the call or leaving it. -/
theorem foldFollows_call (node : CallNode)
    (hargs : FoldFollows call registry maxDepth (Expr.argsCalls node.args)
      (Expr.ArgsRewritten node.args) (Expr.foldArgs call registry maxDepth level node.args)) :
    FoldFollows call registry maxDepth (Expr.argsCalls node.args ++ [node])
      (Expr.Rewritten (.call node.name node.args)) (do
        let args ← Expr.foldArgs call registry maxDepth level node.args
        foldCall call registry node.name args) := by
  intro s
  -- the session in which the arguments end is needed for the call, with how it came about
  have hfolded : runLogic.Sat (Expr.foldArgs call registry maxDepth level node.args).run s
      fun r t => (Expr.foldArgs call registry maxDepth level node.args).run.run s = some (r, t) ∧
        ∃ reached, FoldCourse call registry maxDepth (Expr.argsCalls node.args)
          (Expr.ArgsRewritten node.args) r s reached t :=
    fun r t hrun => ⟨hrun, hargs s r t hrun⟩
  refine runLogic.sat_seq hfolded ?_ ?_
  · rintro error t ⟨-, reached, hcourse⟩
    exact ⟨reached, hcourse.append_error⟩
  rintro args t - ⟨hfolded, reached, hcourse⟩
  by_cases hconstant : ∃ f values, ConstantCall registry node.name args f values
  case neg =>
    rw [foldCall_of_not_constant fun f values h => hconstant ⟨f, values, h⟩]
    let c : ReachedCall β := ⟨node, args, none⟩
    have hended : FoldEnded [c.node] (fun _ => c.Becomes) [c]
        (.ok (.call node.name args) : Except FoldError Expr) := by
      refine .through rfl (.left rfl) (List.forall_mem_singleton.2 ?_)
      rintro i ⟨⟩
    refine runLogic.sat_ok ⟨_, hcourse.of_call (c := c) hfolded (.nil t) ?_ ?_ hended⟩
    · exact fun _ f values h => hconstant ⟨f, values, h⟩
    · rintro i ⟨⟩
  obtain ⟨f, values, hconstant⟩ := hconstant
  rw [foldCall_of_constant hconstant]
  have hcall : runLogic.Sat (call f values) t fun result s' =>
      (call f values).run t = some (result, s') :=
    fun _ _ hrun => hrun
  refine runLogic.sat_lift hcall fun result s' _ hrun => ?_
  let i : Invocation β := ⟨node, f, values, result⟩
  let c : ReachedCall β := ⟨node, args, some i⟩
  have hwhole {r : Except FoldError Expr} (h : FoldEnded [c.node] (fun _ => c.Becomes) [c] r) :
      FoldCourse call registry maxDepth (Expr.argsCalls node.args ++ [node])
        (Expr.Rewritten (.call node.name node.args)) r s (reached ++ [c]) s' := by
    refine hcourse.of_call (c := c) hfolded (.cons hrun (.nil s')) ?_ ?_ h
    · rintro ⟨⟩
    · rintro _ ⟨⟩
      exact ⟨rfl, hconstant⟩
  cases result with
  | ok v =>
      have hbecomes : c.Becomes (v.toLiteral?.getD (.call node.name args)) := .computed rfl rfl
      have hpassed := List.forall_mem_singleton.2 hbecomes.passed
      exact runLogic.sat_ok ⟨_, hwhole (.through rfl hbecomes hpassed)⟩
  | error why =>
      exact runLogic.sat_throw ⟨_, hwhole (.stopped (List.nil_append _).symm List.prefix_rfl
        (List.forall_mem_nil _) rfl rfl)⟩

/-! ## Trees -/

/-- The test of the limit on levels passes where there is room for another one. -/
theorem FoldFollows.atLevel {x : ExceptT FoldError (Run σ β) α} (h : level < maxTreeDepth maxDepth)
    (hx : FoldFollows call registry maxDepth nodes Rewrites x) :
    FoldFollows call registry maxDepth nodes Rewrites
      (if maxTreeDepth maxDepth ≤ level then throw (.depthLimitExceeded maxDepth) else x) := by
  rwa [if_neg (Nat.not_le.2 h)]

mutual

/-- **Folding a tree comes to the calls of the tree in post-order, and rewrites it by them.** -/
theorem foldAt_follows (level : Nat) (e : Expr) (h : level + e.height ≤ maxTreeDepth maxDepth) :
    FoldFollows call registry maxDepth e.calls e.Rewritten
      (Expr.foldAt call registry maxDepth level e) := by
  have hlevel : level < maxTreeDepth maxDepth := by
    have := e.height_pos
    omega
  cases e with
  | empty =>
      rw [Expr.foldAt]
      exact FoldFollows.atLevel hlevel (foldFollows_pure .empty)
  | number n =>
      rw [Expr.foldAt]
      exact FoldFollows.atLevel hlevel (foldFollows_pure (.number n))
  | string text =>
      rw [Expr.foldAt]
      exact FoldFollows.atLevel hlevel (foldFollows_pure (.string text))
  | «variable» name =>
      rw [Expr.foldAt]
      exact FoldFollows.atLevel hlevel (foldFollows_pure (.variable name))
  | unary sign e =>
      rw [Expr.foldAt]
      simp only [Expr.height] at h
      refine FoldFollows.atLevel hlevel ((foldAt_follows (level + 1) e (by omega)).map ?_)
      exact fun t reached => .unary
  | binary left p os =>
      rw [Expr.foldAt]
      simp only [Expr.height] at h
      refine FoldFollows.atLevel hlevel
        ((foldAt_follows (level + 1) left (by omega)).seq fun t reached hleft => ?_)
      refine (foldOperands_follows (level + 1) os (by omega)).map ?_
      exact fun ts reached' hos => .binary hleft hos
  | call name es =>
      rw [Expr.foldAt]
      simp only [Expr.height] at h
      refine FoldFollows.atLevel hlevel ?_
      exact foldFollows_call ⟨name, es⟩ (foldArgs_follows (level + 1) es (by omega))
  | group e =>
      rw [Expr.foldAt]
      simp only [Expr.height] at h
      refine FoldFollows.atLevel hlevel ((foldAt_follows (level + 1) e (by omega)).map ?_)
      exact fun t reached => .group

theorem foldOperands_follows (level : Nat) (os : Operands)
    (h : level + os.height ≤ maxTreeDepth maxDepth) :
    FoldFollows call registry maxDepth os.calls os.Rewritten
      (Operands.foldAt call registry maxDepth level os) := by
  cases os with
  | one op e =>
      rw [Operands.foldAt]
      refine (foldAt_follows level e h).map ?_
      exact fun t reached => .one
  | more op e os =>
      rw [Operands.foldAt]
      simp only [Operands.height] at h
      refine (foldAt_follows level e (by omega)).seq fun t reached he => ?_
      refine (foldOperands_follows level os (by omega)).map ?_
      exact fun ts reached' hos => .more he hos

theorem foldArgs_follows (level : Nat) (es : List Expr)
    (h : level + Expr.argsHeight es ≤ maxTreeDepth maxDepth) :
    FoldFollows call registry maxDepth (Expr.argsCalls es) (Expr.ArgsRewritten es)
      (Expr.foldArgs call registry maxDepth level es) := by
  cases es with
  | nil =>
      rw [Expr.foldArgs]
      exact foldFollows_pure .nil
  | cons e es =>
      rw [Expr.foldArgs]
      simp only [Expr.argsHeight] at h
      refine (foldAt_follows level e (by omega)).seq fun t reached he => ?_
      refine (foldArgs_follows level es (by omega)).map ?_
      exact fun ts reached' hes => .cons he hes

end

end

end FormulaLang
