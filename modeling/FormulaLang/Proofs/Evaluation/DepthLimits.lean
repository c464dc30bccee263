import FormulaLang.Proofs.Evaluation.Course
import FormulaLang.Proofs.Expr.Limits
import FormulaLang.Proofs.Session.Guard

/-!
# `Evaluation.DepthLimits` — the limits on depth are met exactly by the trees beyond them

Evaluation and folding leave no part of a tree out if they succeed, so they pass the tests of the
limits at every place that the tree has. If the tree is beyond a limit, one of these tests would
fail: there is an error then, from this test or from a step before it. And no other step fails with
the error of a limit, so within the limits there is none.

- **`sat_foldAt_height`**: what could be folded is no taller than the limit on levels.
- **`depth_limits_exact`**: both directions, for evaluation and for folding.
-/

namespace FormulaLang
open Run

/-! ## Steps -/

section
variable {β : Type} {Allowed : Registry β → Prop} {maxDepth : Nat} {step : Step}

theorem Step.Passes.within (h : step.Passes Allowed maxDepth) : step.Within maxDepth := by
  cases h with
  | level h => exact h
  | enter h => exact h
  | resolve | sign | operator | call => trivial

/-- Looking up a function does not report a limit. -/
theorem Registry.resolve_ne_limit {registry : Registry β} {name : String} {found limit : Nat} :
    registry.resolve name found ≠ .error (.depthLimitExceeded limit) := by
  intro h
  unfold Registry.resolve at h
  repeat' split at h
  all_goals cases h

/-- Only the test of a limit fails with the error of a limit. -/
theorem Step.Fails.beyond {limit : Nat}
    (h : step.Fails Allowed maxDepth (.depthLimitExceeded limit)) :
    limit = maxDepth ∧ ¬ step.Within maxDepth := by
  cases h with
  | level h => exact ⟨rfl, Nat.not_lt.2 h⟩
  | enter h => exact ⟨rfl, Nat.not_lt.2 h⟩
  | resolve _ missing => exact absurd missing Registry.resolve_ne_limit
  | @sign s v _ failed =>
      exact absurd trivial (WithinLimits.ofValueError s.symbol (s.apply v) _ failed)
  | @operator op left right _ failed =>
      exact absurd trivial (WithinLimits.ofValueError op.symbol (op.apply left right) _ failed)

end

/-- The tree is too tall for the limits, or its calls and parentheses nest too deeply. -/
def Expr.Beyond (maxDepth : Nat) (e : Expr) : Prop :=
  maxTreeDepth maxDepth < e.depth ∨ maxDepth < e.nesting

/-- A tree is beyond the limits if some test of a limit in it fails. -/
theorem Expr.beyond_iff {e : Expr} {maxDepth : Nat} :
    e.Beyond maxDepth ↔ ¬ ∀ step ∈ e.steps .root, step.Within maxDepth := by
  rw [Expr.Beyond, Expr.within_iff_fits .root (Nat.zero_le maxDepth) e, Depth.fits_iff,
    Expr.depth_eq_height]
  simp only [Depth.root]
  omega

/-! ## Folding -/

namespace ProgramLogic

variable {m : Type → Type} [Monad m] (L : ProgramLogic m) {β : Type}
variable {call : Caller m β} {registry : Registry β} {maxDepth : Nat}

/-- A call is folded in any world its function may be called in, with whatever result. -/
theorem sat_foldCall_ends [LawfulMonad m]
    (hcall : ∀ w f values, L.Sat (call f values) w fun _ _ => True) (w : L.World) (name : String)
    (ts : List Expr) :
    L.Sat (foldCall call registry name ts).run w fun _ _ => True := by
  by_cases hconstant : ∃ f values, ConstantCall registry name ts f values
  · obtain ⟨f, values, hconstant⟩ := hconstant
    rw [foldCall_of_constant hconstant]
    refine L.sat_lift (hcall w f values) fun r w' _ _ => ?_
    cases r with
    | error error => exact L.sat_throw trivial
    | ok v => exact L.sat_ok trivial
  · rw [foldCall_of_not_constant fun f values h => hconstant ⟨f, values, h⟩]
    exact L.sat_ok trivial

mutual

/-- **What could be folded is no taller than the limit on levels.** -/
theorem sat_foldAt_height [LawfulMonad m]
    (hcall : ∀ w f values, L.Sat (call f values) w fun _ _ => True) (w : L.World) (level : Nat)
    (e : Expr) :
    L.Sat (Expr.foldAt call registry maxDepth level e).run w fun r _ =>
      ∀ t, r = .ok t → level + e.height ≤ maxTreeDepth maxDepth := by
  rw [Expr.foldAt.eq_def]
  split
  · exact L.sat_throw (by simp)
  rename_i hlevel
  have hlt := Nat.lt_of_not_le hlevel
  cases e with
  | empty | number | string | «variable» => exact L.sat_ok fun _ _ => hlt
  | unary sign e =>
      refine L.sat_seq (sat_foldAt_height hcall w (level + 1) e) (by simp) fun t w' _ ht => ?_
      have hheight := ht t rfl
      refine L.sat_ok fun _ _ => ?_
      simp only [Expr.height]
      omega
  | binary left p os =>
      refine L.sat_seq (sat_foldAt_height hcall w (level + 1) left) (by simp) fun t w' _ ht => ?_
      refine L.sat_seq (sat_foldOperands_height hcall w' (level + 1) os) (by simp) ?_
      intro ts w'' _ hts
      have hleft := ht t rfl
      have hos := hts ts rfl
      refine L.sat_ok fun _ _ => ?_
      simp only [Expr.height]
      omega
  | call name es =>
      refine L.sat_seq (sat_foldArgs_height hcall w (level + 1) hlt es) (by simp) ?_
      intro ts w' _ hts
      have hargs := hts ts rfl
      -- whatever becomes of the call, its arguments have been folded
      refine L.sat_mono (L.sat_foldCall_ends hcall w' name ts) fun _ _ _ _ _ => ?_
      simp only [Expr.height]
      omega
  | group e =>
      refine L.sat_seq (sat_foldAt_height hcall w (level + 1) e) (by simp) fun t w' _ ht => ?_
      have hheight := ht t rfl
      refine L.sat_ok fun _ _ => ?_
      simp only [Expr.height]
      omega

theorem sat_foldOperands_height [LawfulMonad m]
    (hcall : ∀ w f values, L.Sat (call f values) w fun _ _ => True) (w : L.World) (level : Nat)
    (os : Operands) :
    L.Sat (Operands.foldAt call registry maxDepth level os).run w fun r _ =>
      ∀ ts, r = .ok ts → level + os.height ≤ maxTreeDepth maxDepth := by
  cases os with
  | one op e =>
      refine L.sat_seq (sat_foldAt_height hcall w level e) (by simp) fun t w' _ ht => ?_
      exact L.sat_ok fun _ _ => ht t rfl
  | more op e os =>
      refine L.sat_seq (sat_foldAt_height hcall w level e) (by simp) fun t w' _ ht => ?_
      refine L.sat_seq (sat_foldOperands_height hcall w' level os) (by simp) fun ts w'' _ hts => ?_
      have hfirst := ht t rfl
      have hrest := hts ts rfl
      refine L.sat_ok fun _ _ => ?_
      simp only [Operands.height]
      omega

theorem sat_foldArgs_height [LawfulMonad m]
    (hcall : ∀ w f values, L.Sat (call f values) w fun _ _ => True) (w : L.World) (level : Nat)
    (hlevel : level ≤ maxTreeDepth maxDepth) (es : List Expr) :
    L.Sat (Expr.foldArgs call registry maxDepth level es).run w fun r _ =>
      ∀ ts, r = .ok ts → level + Expr.argsHeight es ≤ maxTreeDepth maxDepth := by
  cases es with
  | nil => exact L.sat_ok fun _ _ => hlevel
  | cons e es =>
      refine L.sat_seq (sat_foldAt_height hcall w level e) (by simp) fun t w' _ ht => ?_
      refine L.sat_seq (sat_foldArgs_height hcall w' level hlevel es) (by simp) ?_
      intro ts w'' _ hts
      have hfirst := ht t rfl
      have hrest := hts ts rfl
      refine L.sat_ok fun _ _ => ?_
      simp only [Expr.argsHeight]
      omega

end

end ProgramLogic

/-! ## Evaluation and folding in a session -/

namespace Host

variable {σ β : Type} {host : Host σ β} {fuel : Nat}

/-- The outcome of an evaluation tells of the limits what it should. -/
theorem ended_beyond {α : Type} {Allowed : Registry β → Prop} {maxDepth : Nat} {e : Expr}
    {made : List CallNode} {r : Except EvalError α}
    (h : Ended Allowed maxDepth (e.steps .root) made r) :
    (∀ limit, r = .error (.depthLimitExceeded limit) → limit = maxDepth ∧ e.Beyond maxDepth) ∧
    (e.Beyond maxDepth →
      ∃ error passed step rest, r = .error error ∧ e.steps .root = passed ++ step :: rest ∧
        (∀ earlier ∈ passed, earlier.Within maxDepth) ∧ step.Fails Allowed maxDepth error) := by
  rw [Expr.beyond_iff]
  cases h with
  | through _ passes =>
      constructor
      · rintro limit ⟨⟩
      · intro hbeyond
        exact absurd (fun step hstep => (passes step hstep).within) hbeyond
  | @stopped passed rest step error split _ passes fails =>
      constructor
      · rintro limit ⟨⟩
        obtain ⟨hlimit, hbeyond⟩ := fails.beyond
        refine ⟨hlimit, fun hwithin => hbeyond (hwithin step ?_)⟩
        simp [split]
      · intro _
        exact ⟨error, passed, step, rest, rfl, split, fun x hx => (passes x hx).within, fails⟩

/-- Evaluation ends if the functions that it may find return. -/
theorem evalTree_ends {Allowed : Registry β → Prop}
    (hfunctions : ∀ registry, Allowed registry → ∀ f ∈ registry.functions,
      host.Returns fuel f ∧ host.StaysIn Allowed f)
    (e : Expr) (env : Env) {s : Session σ β} (hs : Allowed s.vm.registry) :
    ∃ r s', (host.perform fuel (.evalTree e env)).run s = some (r, s') ∧
      Allowed s'.vm.registry := by
  refine evalTree_outcome (fun vm => Allowed vm.registry)
    (fun f => host.Returns fuel f ∧ host.StaysIn Allowed f) ?_ ?_ e env hs
  · intro vm hvm
    exact hfunctions vm.registry hvm
  · rintro f ⟨hreturns, hstays⟩ args t ht
    obtain ⟨r, hr⟩ := hreturns args t
    have hrun : (host.call fuel f args).run t = some (r, _) :=
      run_eq_some_iff.2 (Prod.ext hr rfl)
    exact ⟨r, _, hrun, hstays fuel args t r _ ht hrun⟩

/-- Folding ends if the functions of the registry return. -/
theorem fold_ends {registry : Registry β} (hreturns : ∀ f ∈ registry.functions, host.Returns fuel f)
    (maxDepth : Nat) (e : Expr) (s : Session σ β) :
    ∃ r, ((e.fold (host.call fuel) registry maxDepth).result s).1 = some r := by
  have hcall : ∀ w name f values, registry.get? name = some f → f.foldEligible = true →
      f.arity.accepts values.length = true →
      (totalLogic fun _ => True).Sat (host.call fuel f values) w fun _ _ => True := by
    intro _ name f values hget _ _ s _
    obtain ⟨r, hr⟩ := hreturns f (Registry.mem_of_get? hget) values s
    exact ⟨r, _, run_eq_some_iff.2 (Prod.ext hr rfl), trivial, trivial⟩
  have hsat := (totalLogic fun _ => True).sat_fold (fun _ _ _ _ => True) (fun _ _ _ => le_rfl)
    hcall () maxDepth e
  obtain ⟨r, s', hrun, -, -⟩ := hsat s trivial
  rw [run_eq_some_iff] at hrun
  exact ⟨r, congrArg Prod.fst hrun⟩

/-- The outcome of a folding tells of the limit on levels what it should. -/
theorem fold_beyond {registry : Registry β} {maxDepth : Nat} {e : Expr} {s : Session σ β}
    {r : Except FoldError Expr}
    (hr : ((e.fold (host.call fuel) registry maxDepth).result s).1 = some r) :
    (∀ limit, r = .error (.depthLimitExceeded limit) →
      limit = maxDepth ∧ maxTreeDepth maxDepth < e.depth) ∧
    (maxTreeDepth maxDepth < e.depth → ∃ error, r = .error error) := by
  rw [Expr.depth_eq_height]
  have hcalls : ∀ (w : Session σ β) (f : Function β) values,
      runLogic.Sat (host.call fuel f values) w fun _ _ => True :=
    fun _ _ _ _ _ _ => trivial
  have hrun : (e.fold (host.call fuel) registry maxDepth).run s = some (r, _) :=
    run_eq_some_iff.2 (Prod.ext hr rfl)
  have houtcome := runLogic.sat_fold (fun _ _ _ _ => True) (fun _ _ _ => le_rfl)
    (fun w _ f values _ _ _ => hcalls w f values) s maxDepth e r _ hrun
  have hheight := runLogic.sat_foldAt_height hcalls s 0 e r _ hrun
  constructor
  · rintro limit rfl
    cases houtcome with
    | tooTall htall => exact ⟨rfl, htall⟩
  · intro htall
    cases r with
    | error error => exact ⟨error, rfl⟩
    | ok t =>
        have := hheight t rfl
        omega

/-- **The limits on depth are sound and complete.** Whatever the functions do: if evaluating a tree
    reports the limit on depth, the tree is too tall or its groups nest too deeply; and if it is or
    they do, evaluation ends with an error, at the first test of a limit that fails or at a step
    before it. If folding reports the limit, the tree is too tall, and if it is, folding ends with
    an error. Both end if the functions that they may find return. -/
theorem depth_limits_exact (host : Host σ β) (fuel : Nat) (e : Expr) :
    (∀ (env : Env) (s : Session σ β),
      (∀ r, ((host.perform fuel (.evalTree e env)).result s).1 = some r →
        (∀ limit, r = .error (.depthLimitExceeded limit) →
          limit = s.vm.config.maxDepth ∧ e.Beyond s.vm.config.maxDepth) ∧
        (e.Beyond s.vm.config.maxDepth →
          ∃ error passed step rest, r = .error error ∧ e.steps .root = passed ++ step :: rest ∧
            (∀ earlier ∈ passed, earlier.Within s.vm.config.maxDepth) ∧
            step.Fails (fun _ : Registry β => True) s.vm.config.maxDepth error)) ∧
      ∀ Allowed : Registry β → Prop, Allowed s.vm.registry →
        (∀ registry, Allowed registry → ∀ f ∈ registry.functions,
          host.Returns fuel f ∧ host.StaysIn Allowed f) →
          ∃ r, ((host.perform fuel (.evalTree e env)).result s).1 = some r) ∧
    ∀ (registry : Registry β) (maxDepth : Nat) (s : Session σ β),
      (∀ r, ((e.fold (host.call fuel) registry maxDepth).result s).1 = some r →
        (∀ limit, r = .error (.depthLimitExceeded limit) →
          limit = maxDepth ∧ maxTreeDepth maxDepth < e.depth) ∧
        (maxTreeDepth maxDepth < e.depth → ∃ error, r = .error error)) ∧
      ((∀ f ∈ registry.functions, host.Returns fuel f) →
        ∃ r, ((e.fold (host.call fuel) registry maxDepth).result s).1 = some r) := by
  refine ⟨fun env s => ⟨fun r hr => ?_, fun Allowed hs hfunctions => ?_⟩,
    fun registry maxDepth s => ⟨fun r => fold_beyond, fun hreturns => fold_ends hreturns _ e s⟩⟩
  · have hrun : (host.perform fuel (.evalTree e env)).run s = some (r, _) :=
      run_eq_some_iff.2 (Prod.ext hr rfl)
    have hstays : ∀ registry : Registry β, True → ∀ f ∈ registry.functions,
        host.StaysIn (fun _ => True) f := by
      intro registry _ f _ fuel args t r t' _ _
      trivial
    obtain ⟨calls, hcourse⟩ := evalTree_course hstays trivial hrun
    exact ended_beyond hcourse.ended
  · obtain ⟨r, s', hrun, -⟩ := evalTree_ends hfunctions e env hs
    exact ⟨r, congrArg Prod.fst (run_eq_some_iff.1 hrun)⟩

/-! ## Groups inside groups -/

/-- `((((tick()))))`. -/
def deepTick : Expr := .group (.group (.group groupedTick))

/-- `(tick())` is beyond the limits where one group may be open, and there it has an error.
    `((((tick()))))` is too tall to be folded where no group may be open. -/
theorem depth_limits_exact_tick :
    groupedTick.Beyond 1 ∧ maxTreeDepth 0 < deepTick.depth ∧
      ∀ s : Session Nat Unit, s.vm = .new builtinsAndTick ⟨1, true⟩ →
        (∃ error, ((counter.perform 1 (.evalTree groupedTick .empty)).result s).1 =
          some (.error error)) ∧
        ∃ error, ((deepTick.fold (counter.call 1) builtinsAndTick 0).result s).1 =
          some (.error error) := by
  have hbeyond : groupedTick.Beyond 1 := .inr (by decide)
  have htall : maxTreeDepth 0 < deepTick.depth := by decide
  have hreturns : ∀ f ∈ builtinsAndTick.functions, counter.Returns 1 f :=
    fun f hf => (silent_builtinsAndTick f hf).returns 0
  refine ⟨hbeyond, htall, fun s hs => ⟨?_, ?_⟩⟩
  · obtain ⟨heval, -⟩ := depth_limits_exact counter 1 groupedTick
    obtain ⟨hexact, hends⟩ := heval .empty s
    have hregistry : s.vm.registry = builtinsAndTick := by rw [hs]; rfl
    have hfunctions : ∀ registry, registry = builtinsAndTick → ∀ f ∈ registry.functions,
        counter.Returns 1 f ∧ counter.StaysIn (· = builtinsAndTick) f := by
      rintro _ rfl f hf
      exact ⟨hreturns f hf, (silent_builtinsAndTick f hf).staysIn _⟩
    obtain ⟨r, hr⟩ := hends (· = builtinsAndTick) hregistry hfunctions
    have hmaxDepth : s.vm.config.maxDepth = 1 := by rw [hs]; rfl
    rw [hmaxDepth] at hexact
    obtain ⟨error, -, -, -, rfl, -⟩ := (hexact r hr).2 hbeyond
    exact ⟨error, hr⟩
  · obtain ⟨-, hfold⟩ := depth_limits_exact counter 1 deepTick
    obtain ⟨hexact, hends⟩ := hfold builtinsAndTick 0 s
    obtain ⟨r, hr⟩ := hends hreturns
    obtain ⟨error, rfl⟩ := (hexact r hr).2 htall
    exact ⟨error, hr⟩

end Host

end FormulaLang
