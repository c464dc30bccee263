import FormulaLang.Proofs.Canonical.Tallest
import FormulaLang.Proofs.Expr.Limits
import FormulaLang.Proofs.Folding.Measures
import FormulaLang.Proofs.Grammar.Size
import FormulaLang.Proofs.Session.Currency
import FormulaLang.Proofs.Session.Past

/-!
# `Session.Limits` — what parses is within the limits of every later stage

Parsing, folding and evaluation count what their limits bound in ways of their own: groups that are
open, levels of the tree, and both. A tree that is parsed from a source that fits in memory keeps
within all of them, and so does whatever a cache may hold for the source: that is the tree with
calls replaced by literals, at any moment of any run, and folding makes no tree taller. The
functions that run meanwhile may fail in any way they like, but then the error is that of a call.

- **`parsed_within_limits`**: no stage after parsing meets a limit of its own, and the limit on
  levels could not be lower.
-/

namespace FormulaLang

variable {σ β : Type}

/-- The error is that of a limit on levels or groups, in evaluation or in folding. -/
def Error.IsDepthLimit : Error → Prop
  | .parse _ => False
  | .eval error => error.IsDepthLimit

/-! ## Cached trees -/

/-- A cached tree is what its source spells, with calls replaced by literals. -/
def Entry.Parsed (maxDepth : Nat) (entry : Entry) : Prop :=
  ∃ e, parse entry.source maxDepth = .ok e ∧ e.Folded (fun _ _ _ => True) entry.tree

section
variable {start : Vm β} {past journal : List (Line β)} {line : Line β}

/-- A line adds only trees of their sources. Unlike with `Happens.current`, it does not matter
    against which registry they were folded. -/
theorem Happens.parsed_entries (h : Happens start past line)
    (hpast : ∀ entry ∈ (vmAt start past).cache.entries, entry.Parsed start.config.maxDepth) :
    ∀ entry ∈ line.vm.cache.entries, entry.Parsed start.config.maxDepth := by
  intro entry hentry
  cases h with
  | called | returned | found => exact hpast entry hentry
  | registered h =>
      obtain ⟨registry, -, rfl⟩ := Vm.register_eq_ok h
      exact hpast entry hentry
  | removed h =>
      rw [Vm.remove_of_contains h] at hentry
      cases hentry
  | cleared => cases hentry
  | parsed hparse _ =>
      rcases mem_store hentry with hold | ⟨rfl, rfl⟩
      · exact hpast entry hold
      · exact ⟨entry.tree, hparse, .refl _⟩
  | @folded source e t before hparse _ _ _ hfolded =>
      rcases mem_store hentry with hold | ⟨rfl, rfl⟩
      · exact hpast entry hold
      · exact ⟨e, hparse, hfolded.mono fun _ _ _ _ => trivial⟩

theorem Valid.parsed_entries (h : Valid start journal) (hstart : start.cache.entries = []) :
    ∀ entry ∈ (vmAt start journal).cache.entries, entry.Parsed start.config.maxDepth := by
  induction h with
  | nil =>
      rw [vmAt_nil, hstart]
      intro entry hentry
      cases hentry
  | cons happens _ ih => exact happens.parsed_entries ih

/-- **What is cached for a source that fits in memory keeps within the limits.** -/
theorem Valid.cached_fits (h : Valid start journal) (hstart : start.cache.entries = [])
    {source : String} (hsource : source.length < maxSourceLength) {entry : Entry}
    (hentry : (vmAt start journal).cache.find? source = some entry) :
    entry.tree.nesting ≤ start.config.maxDepth ∧
      entry.tree.height ≤ maxTreeDepth start.config.maxDepth := by
  obtain rfl := Cache.source_of_find? hentry
  obtain ⟨e, hparse, hfolded⟩ :=
    h.parsed_entries hstart entry (List.mem_of_find?_eq_some hentry)
  obtain ⟨hnesting, hheight⟩ := parse_fits hsource hparse
  obtain ⟨hheight', hnesting'⟩ := hfolded.measures_le
  exact ⟨Nat.le_trans hnesting' hnesting, Nat.le_trans hheight' hheight⟩

end

namespace Host
open Run

variable {host : Host σ β} {fuel : Nat} {start : Vm β} {s : Session σ β} {e : Expr}

/-! ## Folding and evaluating trees -/

/-- Folding a tree that is not too tall meets no limit, in any session. -/
theorem fold_withinLimits {maxDepth : Nat} (hheight : e.height ≤ maxTreeDepth maxDepth)
    (registry : Registry β) {error : FoldError}
    (h : ((e.fold (host.call fuel) registry maxDepth).result s).1 = some (.error error))
    (limit : Nat) : error ≠ .depthLimitExceeded limit := by
  have hcall : ∀ f args, (host.call fuel f args).IgnoresPast := host.ignoresPast_call fuel
  have hsat : pastLogic.Sat (e.fold (host.call fuel) registry maxDepth) () _ :=
    pastLogic.sat_fold (fun _ _ _ _ => True) (fun _ _ _ => le_rfl)
      (fun _ _ f values _ _ _ => pastLogic_sat.2 (hcall f values)) () maxDepth e
  rintro rfl
  cases hsat.2 s _ h with
  | tooTall htall => omega

/-- Evaluating a tree that fits meets no limit, in any session with these limits. -/
theorem evalTree_withinLimits (hnesting : e.nesting ≤ s.vm.config.maxDepth)
    (hheight : e.height ≤ maxTreeDepth s.vm.config.maxDepth) (env : Env)
    {r : Except EvalError Value}
    (h : ((Session.evalTree (host.call fuel) e env).result s).1 = some r) : WithinLimits r := by
  have hcall : ∀ f args, (host.call fuel f args).IgnoresPast := host.ignoresPast_call fuel
  have hfind (name : String) :
      ((Session.surroundings (host.call fuel)).find name : Run σ β _).IgnoresPast :=
    ignoresPast_look (fun _ _ => rfl) fun _ => ignoresPast_pure _
  have hsat := pastLogic.sat_eval_withinLimits (fun _ name => pastLogic_sat.2 (hfind name))
    (fun _ f values => pastLogic_sat.2 (hcall f values)) () env hnesting hheight
  rw [Session.evalTree, result_get_bind] at h
  exact hsat.2 s r h

/-! ## Compiling and evaluating sources -/

section
variable (hs : s.Follows start) (hstart : start.cache.entries = []) {source : String}
  (hsource : source.length < maxSourceLength)
include hs

/-- What compiling comes to, and that the session goes on with the journal. -/
theorem compile_follows {r : Except Error Entry}
    (h : ((Session.compile (host.call fuel) fuel source).result s).1 = some r) :
    let s' := (Session.compile (host.call fuel) fuel source).after s
    s'.Follows start ∧ Session.CompileOutcome start source s'.journal r := by
  obtain ⟨-, hs', hends⟩ := Session.keeps_compile (host.keeps_call fuel) fuel source s rfl hs
  exact ⟨hs', (hends r h).2⟩

include hsource

theorem compile_withinLimits {error : Error}
    (h : ((Session.compile (host.call fuel) fuel source).result s).1 = some (.error error)) :
    ¬ error.IsDepthLimit := by
  obtain ⟨-, houtcome⟩ := compile_follows hs h
  cases houtcome with
  | unparsed => exact fun hlimit => hlimit
  | unfolded hparse houtcome =>
      cases houtcome with
      | failed => exact fun hlimit => hlimit
      | tooTall htall =>
          have := (parse_fits hsource hparse).2
          omega

include hstart

theorem eval_withinLimits (env : Env) {error : Error}
    (h : ((Session.eval (host.call fuel) fuel source env).result s).1 = some (.error error)) :
    ¬ error.IsDepthLimit := by
  rw [Session.eval] at h
  obtain ⟨r, hcompiled, h⟩ := result_bind_eq_some_iff.1 h
  cases r with
  | error error' =>
      cases h
      exact compile_withinLimits hs hsource hcompiled
  | ok entry =>
      obtain ⟨hs', houtcome⟩ := compile_follows hs hcompiled
      cases houtcome with
      | cached hkept =>
          -- the entry is cached after compiling, and so is its tree bounded
          have hfits := hs'.valid.cached_fits hstart hsource hkept
          rw [← hs'.valid.config, ← hs'.vm] at hfits
          obtain ⟨r, hvalue, h⟩ := result_bind_eq_some_iff.1 h
          have hwithin := evalTree_withinLimits hfits.1 hfits.2 env hvalue
          cases r with
          | ok v => cases h
          | error error' =>
              cases h
              exact hwithin error' rfl

end

/-! ## Any session of any run -/

/-- In the session, neither compiling nor evaluating the source, nor folding or evaluating the tree,
    meets a limit on levels or groups. -/
structure MeetsNoLimit (host : Host σ β) (fuel : Nat) (s : Session σ β) (maxDepth : Nat)
    (source : String) (e : Expr) (env : Env) : Prop where
  compile : ∀ error, ((host.perform fuel (.compile source)).result s).1 = some (.error error) →
    ¬ error.IsDepthLimit
  fold : ∀ registry error, ((e.fold (host.call fuel) registry maxDepth).result s).1 =
    some (.error error) → ∀ limit, error ≠ .depthLimitExceeded limit
  eval : ∀ error, ((host.perform fuel (.eval source env)).result s).1 = some (.error error) →
    ¬ error.IsDepthLimit
  evalTree : ∀ error, ((host.perform fuel (.evalTree e env)).result s).1 = some (.error error) →
    ¬ error.IsDepthLimit

/-- Sessions with the evaluator of a valid moment meet no limit with what they parse. -/
theorem meetsNoLimit_of_vmAt {now : List (Line β)} (hvalid : Valid start now)
    (hstart : start.cache.entries = []) (hs : s.vm = vmAt start now) {source : String}
    (hsource : source.length < maxSourceLength)
    (hparse : parse source start.config.maxDepth = .ok e) (env : Env) :
    host.MeetsNoLimit fuel s start.config.maxDepth source e env := by
  obtain ⟨hnesting, hheight⟩ := parse_fits hsource hparse
  -- what has happened has no effect, so it may as well be what the moment says
  let s' : Session σ β := ⟨vmAt start now, s.host, now⟩
  have hfollows : s'.Follows start := ⟨rfl, hvalid⟩
  have hvm : s.vm = s'.vm := hs
  have hhost : s.host = s'.host := rfl
  have hsame (r : Request β) :
      ((host.perform fuel r).result s).1 = ((host.perform fuel r).result s').1 :=
    ((host.ignoresPast_perform fuel r).same hvm hhost).1
  constructor
  · intro error herror
    rw [hsame] at herror
    exact compile_withinLimits hfollows hsource herror
  · intro registry error herror
    exact fold_withinLimits hheight registry herror
  · intro error herror
    rw [hsame] at herror
    exact eval_withinLimits hfollows hstart hsource env herror
  · intro error herror
    have hconfig : s.vm.config = start.config := by rw [hs, hvalid.config]
    rw [← hconfig] at hnesting hheight
    exact evalTree_withinLimits hnesting hheight env herror error rfl

/-- **What parses is within the limits of every later stage, and the limit on levels is tight.**
    The tree of a source that fits in memory keeps within both limits. Therefore, however an
    evaluator with these settings was used, and at any moment of that use, compiling and evaluating
    the source, folding the tree with the functions of any registry and evaluating it meet no
    limit: where they fail, it is for another reason. And as long as the limit on levels does not
    saturate, some source has a tree of exactly that many. -/
theorem parsed_within_limits (host : Host σ β) (fuel : Nat) (script : Script σ β)
    (registry : Registry β) (config : Config) (state : σ) :
    let start := Vm.new registry config
    let used := (script.run (host.perform fuel)).after ⟨start, state, []⟩
    (∀ source e, source.length < maxSourceLength → parse source config.maxDepth = .ok e →
      e.depth ≤ maxTreeDepth config.maxDepth ∧ e.nesting ≤ config.maxDepth ∧
        ∀ now, now <:+ used.journal → ∀ s : Session σ β, s.vm = vmAt start now → ∀ fuel env,
          host.MeetsNoLimit fuel s config.maxDepth source e env) ∧
    (levelsPerGroup * (config.maxDepth + 1) < UInt64.size →
      ∃ source e, parse source config.maxDepth = .ok e ∧
        e.depth = maxTreeDepth config.maxDepth) := by
  intro start used
  refine ⟨fun source e hsource hparse => ?_, fun hwide => ?_⟩
  · obtain ⟨hnesting, hheight⟩ := parse_fits hsource hparse
    rw [Expr.depth_eq_height]
    refine ⟨hheight, hnesting, fun now hnow s hs fuel env => ?_⟩
    have hvalid := (host.follows_after _ script start state).valid.of_suffix hnow
    exact meetsNoLimit_of_vmAt hvalid rfl hs hsource hparse env
  · obtain ⟨source, e, hparse, hheight⟩ := exists_parse_tallest (Nat.le_sub_one_of_lt hwide)
    exact ⟨source, e, hparse, by rw [Expr.depth_eq_height, hheight]⟩

/-- After a function has meddled with its own registration, the source that calls it is compiled
    and evaluated within the limits, which one group reaches. -/
theorem parsed_within_limits_meddling :
    "meddle()".length < maxSourceLength ∧ parse "meddle()" 1 = .ok (.call "meddle" []) ∧
      meddling.MeetsNoLimit 3 meddled 1 "meddle()" (.call "meddle" []) .empty ∧
      levelsPerGroup * (1 + 1) < UInt64.size ∧
      ∃ source e, parse source 1 = .ok e ∧ e.depth = maxTreeDepth 1 := by
  have hsource : "meddle()".length < maxSourceLength := by decide
  have hparse : parse "meddle()" 1 = .ok (.call "meddle" []) := by decide +kernel
  have hwide : levelsPerGroup * (1 + 1) < UInt64.size := by decide
  have hvm : meddled.vm = vmAt folding meddled.journal :=
    (meddling.follows_after 3 meddleFolded folding 0).vm
  obtain ⟨hfits, htight⟩ := parsed_within_limits meddling 3 meddleFolded .empty ⟨1, true⟩ 0
  obtain ⟨-, -, hmeets⟩ := hfits "meddle()" _ hsource hparse
  exact ⟨hsource, hparse, hmeets meddled.journal List.suffix_rfl meddled hvm 3 .empty, hwide,
    htight hwide⟩

end Host

end FormulaLang
