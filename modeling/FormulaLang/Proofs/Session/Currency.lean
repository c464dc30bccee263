import FormulaLang.Proofs.Session.History
import FormulaLang.Proofs.Session.Run

/-!
# `Session.Currency` — no stale tree is ever cached

A session `Follows` its journal if the journal is valid and the evaluator is the one of its latest
moment. Every step of a session keeps that (`Run.Keeps`), and its journal only grows: first the
steps that no function takes part in, then folding, compiling and evaluating over functions that
keep it, and last, by induction on the fuel, the functions themselves, whose code turns back to
the evaluator. With `Session.History` this bounds what a cache can hold at any moment of any run.

- **`cached_trees_current`**: at every moment, cached trees rest on functions registered ever
  since.
-/

namespace FormulaLang

variable {σ β : Type} {start : Vm β}

/-- The evaluator is the one of the latest moment of its journal, and the journal is valid. -/
structure Session.Follows (start : Vm β) (s : Session σ β) : Prop where
  vm : s.vm = vmAt start s.journal
  valid : Valid start s.journal

/-- A line of what may happen goes on with the journal. -/
theorem Session.Follows.update {s : Session σ β} (hs : s.Follows start) {vm : Vm β}
    {event : Event β} (hhappens : Happens start s.journal ⟨event, vm⟩) :
    Session.Follows start { s with vm, journal := ⟨event, vm⟩ :: s.journal } :=
  ⟨rfl, .cons hhappens hs.valid⟩

theorem Session.Follows.record {s : Session σ β} (hs : s.Follows start) {event : Event β}
    (hhappens : Happens start s.journal ⟨event, vmAt start s.journal⟩) :
    Session.Follows start { s with journal := ⟨event, s.vm⟩ :: s.journal } := by
  rw [← hs.vm] at hhappens
  exact hs.update hhappens

/-! ## Steps that keep the journal -/

namespace Run

variable {α γ : Type} {w : List (Line β)}

/-- From a session with the journal `w`, the step goes on with the journal. If it ends, all its
    calls have returned, and its result is as the journal after it says. -/
def Keeps (start : Vm β) (x : Run σ β α) (w : List (Line β)) (Q : α → List (Line β) → Prop) :
    Prop :=
  ∀ s, s.journal = w → s.Follows start →
    w <:+ (x.after s).journal ∧ (x.after s).Follows start ∧
      ∀ a, (x.result s).1 = some a →
        (∃ since, Balanced since ∧ (x.after s).journal = since ++ w) ∧ Q a (x.after s).journal

theorem keeps_pure {a : α} {Q : α → List (Line β) → Prop} (h : Q a w) :
    Keeps start (pure a : Run σ β α) w Q := by
  rintro s rfl hs
  refine ⟨List.suffix_rfl, hs, fun a' ha' => ?_⟩
  cases ha'
  exact ⟨⟨[], .nil, rfl⟩, h⟩

theorem keeps_exhausted {Q : α → List (Line β) → Prop} :
    Keeps start (Session.exhausted : Run σ β α) w Q := by
  rintro s rfl hs
  exact ⟨List.suffix_rfl, hs, fun a ha => by cases ha⟩

theorem Keeps.bind {x : Run σ β α} {f : α → Run σ β γ} {Q : α → List (Line β) → Prop}
    {R : γ → List (Line β) → Prop} (hx : Keeps start x w Q)
    (hf : ∀ a w', w <:+ w' → Q a w' → Keeps start (f a) w' R) : Keeps start (x >>= f) w R := by
  rintro s rfl hs
  obtain ⟨hsuffix, hs', hQ⟩ := hx s rfl hs
  rw [after, result_bind]
  cases ha : (x.result s).1 with
  | none => exact ⟨hsuffix, hs', fun a h => by cases h⟩
  | some a =>
      obtain ⟨⟨since, hsince, hw⟩, ha⟩ := hQ a ha
      obtain ⟨hsuffix', hs'', hR⟩ := hf a _ hsuffix ha _ rfl hs'
      refine ⟨hsuffix.trans hsuffix', hs'', fun c hc => ?_⟩
      obtain ⟨⟨more, hmore, hw'⟩, hc⟩ := hR c hc
      refine ⟨⟨more ++ since, hmore.append hsince, ?_⟩, hc⟩
      rw [List.append_assoc, ← hw]
      exact hw'

/-- A sequence in which it does not matter what the first part returns. -/
theorem Keeps.seq {x : Run σ β α} {f : α → Run σ β γ} {Q : α → List (Line β) → Prop}
    {R : γ → List (Line β) → Prop} (hx : Keeps start x w Q)
    (hf : ∀ a w', w <:+ w' → Keeps start (f a) w' R) : Keeps start (x >>= f) w R :=
  hx.bind fun a w' hw _ => hf a w' hw

theorem Keeps.mono {x : Run σ β α} {Q R : α → List (Line β) → Prop} (hx : Keeps start x w Q)
    (hQR : ∀ a w', w <:+ w' → Q a w' → R a w') : Keeps start x w R := by
  rintro s rfl hs
  obtain ⟨hsuffix, hs', hQ⟩ := hx s rfl hs
  exact ⟨hsuffix, hs', fun a ha => ⟨(hQ a ha).1, hQR a _ hsuffix (hQ a ha).2⟩⟩

/-- What is seen in a look at the session is the latest moment. -/
theorem keeps_look {k : Session σ β → Run σ β γ} {Q : γ → List (Line β) → Prop}
    (hk : ∀ s, s.journal = w → s.Follows start → Keeps start (k s) w Q) :
    Keeps start (get >>= k) w Q := by
  intro s hw hs
  rw [after, result_get_bind]
  exact hk s hw hs s hw hs

/-- An update writes a line of what may happen. -/
theorem keeps_update {vm : Vm β} {event : Event β} (hhappens : Happens start w ⟨event, vm⟩)
    (hstep : event.isOfCall = false) :
    Keeps start (Session.update vm event : Run σ β Unit) w fun _ w' => vmAt start w' = vm := by
  rintro s rfl hs
  exact ⟨List.suffix_cons _ _, hs.update hhappens, fun _ _ => ⟨⟨_, .step hstep .nil, rfl⟩, rfl⟩⟩

theorem keeps_record {event : Event β} (hhappens : Happens start w ⟨event, vmAt start w⟩)
    (hstep : event.isOfCall = false) :
    Keeps start (Session.record event : Run σ β Unit) w fun _ w' =>
      vmAt start w' = vmAt start w := by
  refine keeps_look fun s hw hs => ?_
  subst hw
  rw [hs.vm]
  exact keeps_update hhappens hstep

/-- The lines of a call stand around those of its body. -/
theorem keeps_around {body : Run σ β (Except FunctionError Value)}
    (hbody : ∀ w, Keeps start body w fun _ _ => True) (f : Function β) (args : List Value) :
    Keeps start (do
      Session.record (.called f args)
      let r ← body
      Session.record (.returned f args r)
      return r) w fun r w' => ∃ since, w' = since ++ w ∧ Returned since f args r := by
  rintro s rfl hs
  -- the line of the call opens what only the line of the return closes, so `Keeps.bind` does not
  -- apply, and the three parts are taken one by one
  rw [after, result_bind, after, result_record]
  have hs₁ := hs.record (.called f args)
  generalize hcalled :
    ({ s with journal := ⟨.called f args, s.vm⟩ :: s.journal } : Session σ β) = s₁ at hs₁ ⊢
  have hw₁ : s₁.journal = ⟨.called f args, s.vm⟩ :: s.journal := by rw [← hcalled]
  obtain ⟨hsuffix, hs₂, hends⟩ := hbody _ s₁ rfl hs₁
  have hsuffix' : s.journal <:+ (body.after s₁).journal :=
    (List.suffix_cons _ _).trans (hw₁ ▸ hsuffix)
  dsimp only
  rw [result_bind]
  cases hr : (body.result s₁).1 with
  | none => exact ⟨hsuffix', hs₂, fun r h => by cases h⟩
  | some r =>
      obtain ⟨⟨during, hduring, hw₂⟩, -⟩ := hends r hr
      refine ⟨hsuffix'.trans (List.suffix_cons _ _), hs₂.record (.returned f args r), ?_⟩
      intro r' h
      cases h
      have hlines : (⟨.returned f args r, (body.after s₁).vm⟩ :: (body.after s₁).journal) =
          (⟨.returned f args r, (body.after s₁).vm⟩ :: (during ++ [⟨.called f args, s.vm⟩])) ++
            s.journal := by
        rw [hw₂, hw₁, List.cons_append, List.append_assoc, List.singleton_append]
      refine ⟨⟨_, .call hduring .nil, hlines⟩, _, hlines, ?_⟩
      exact ⟨[], during, [], _, _, hduring, rfl⟩

/-- Keeping the journal from the moment `before` on, as a way to reason about evaluation and
    folding. -/
def journalLogic (start : Vm β) (before : List (Line β)) : ProgramLogic (Run σ β) where
  World := List (Line β)
  Later w w' := w <:+ w'
  Sat x w Q := before <:+ w → Keeps start x w Q
  sat_pure h _ := keeps_pure h
  sat_bind hx hf hbefore :=
    (hx hbefore).bind fun a w' hw ha => hf a w' hw ha (hbefore.trans hw)

end Run

/-! ## Steps without functions -/

namespace Session
open Run

variable {w : List (Line β)}

theorem keeps_register (f : Function β) :
    Keeps start (register f : Run σ β _) w fun _ _ => True := by
  refine keeps_look fun s hw hs => ?_
  subst hw
  cases hvm : s.vm.register f with
  | error error => exact keeps_pure trivial
  | ok vm =>
      rw [hs.vm] at hvm
      exact (keeps_update (.registered hvm) rfl).seq fun _ _ _ => keeps_pure trivial

theorem keeps_remove (name : String) :
    Keeps start (remove name : Run σ β _) w fun _ _ => True := by
  refine keeps_look fun s hw hs => ?_
  subst hw
  dsimp only
  split
  · rename_i hcontains
    rw [hs.vm] at hcontains ⊢
    exact (keeps_update (.removed hcontains) rfl).seq fun _ _ _ => keeps_pure trivial
  · exact keeps_pure trivial

theorem keeps_clear : Keeps start (clear : Run σ β _) w fun _ _ => True := by
  refine keeps_look fun s hw hs => ?_
  subst hw
  rw [hs.vm]
  exact (keeps_update .cleared rfl).mono fun _ _ _ _ => trivial

/-- A tree may be stored if its line may come next, and then the cache has what it returns. -/
theorem keeps_store {source : String} {tree : Expr} {against : Option (Registry β)}
    (hhappens : Happens start w ⟨.compiled source ((vmAt start w).store source tree).1.tree against,
      ((vmAt start w).store source tree).2⟩) :
    Keeps start (store source tree against : Run σ β _) w fun entry w' =>
      (vmAt start w').cache.find? source = some entry := by
  refine keeps_look fun s hw hs => ?_
  subst hw
  rw [hs.vm]
  refine (keeps_update hhappens rfl).bind fun _ w' _ hvm => keeps_pure ?_
  have hfind := Cache.find?_store (vmAt start s.journal).cache source tree source
  rw [if_pos rfl] at hfind
  rw [hvm]
  exact hfind

/-! ## Steps that run functions -/

section
variable {call : Caller (Run σ β) β}

/-- The journal after a call tells what it has returned, if the function takes the arguments. -/
def KeepsCalls (start : Vm β) (call : Caller (Run σ β) β) : Prop :=
  ∀ w f args, Keeps start (call f args) w fun r w' =>
    f.arity.accepts args.length = true → ∃ since, w' = since ++ w ∧ Returned since f args r

variable (hcall : KeepsCalls start call)
include hcall

/-- **Folding goes on with the journal, and what it has seen of calls is on it.** -/
theorem keeps_fold (maxDepth : Nat) (e : Expr) :
    Keeps start (e.fold call (vmAt start w).registry maxDepth) w fun r w' =>
      FoldOutcome maxDepth (e.Folded (callsSince start w w')) (e.Fails (callsSince start w w'))
        e.height r := by
  refine (journalLogic start w).sat_fold (callsSince start w) ?_ ?_ w maxDepth e List.suffix_rfl
  · rintro now later ⟨more, rfl⟩ name values r ⟨f, since, rfl, hget, helig, haccepts, hreturned⟩
    exact ⟨f, more ++ since, by simp, hget, helig, haccepts, hreturned.append_left more⟩
  · rintro now name f values hget helig haccepts ⟨since, rfl⟩
    refine (hcall _ f values).mono fun r later hlater hreturned => ?_
    obtain ⟨more, rfl, hmore⟩ := hreturned haccepts
    exact ⟨f, more ++ since, by simp, hget, helig, haccepts, hmore.append_right since⟩

/-- What compiling a source may have come to by the moment `now`. -/
inductive CompileOutcome (start : Vm β) (source : String) (now : List (Line β)) :
    Except Error Entry → Prop where
  /-- The cache has the entry. -/
  | cached {entry : Entry} (kept : (vmAt start now).cache.find? source = some entry) :
      CompileOutcome start source now (.ok entry)
  | unparsed {error : ParseError} (parsed : parse source start.config.maxDepth = .error error) :
      CompileOutcome start source now (.error (.parse error))
  | unfolded {e : Expr} {error : FoldError} {calls : Calls}
      (parsed : parse source start.config.maxDepth = .ok e)
      (outcome : FoldOutcome start.config.maxDepth (e.Folded calls) (e.Fails calls) e.height
        (.error error)) : CompileOutcome start source now (.error (.eval (.fold error)))

/-- **A tree is stored only if the generation is the one that folding began with.** -/
theorem keeps_foldAndStore {source : String} {e : Expr}
    (hparse : parse source start.config.maxDepth = .ok e) (hoptimize : start.config.optimize = true)
    (rounds : Nat) : Keeps start (foldAndStore call source e rounds) w fun r w' =>
      CompileOutcome start source w' r := by
  -- every round begins at a moment of its own
  induction rounds generalizing w with
  | zero => exact keeps_exhausted
  | succ rounds ih =>
      refine keeps_look fun s hw hs => ?_
      subst hw
      rw [hs.vm]
      refine (keeps_fold hcall _ e).bind fun r w' hw' hr => ?_
      cases r with
      | error error =>
          rw [hs.valid.config] at hr
          exact keeps_pure (.unfolded hparse hr)
      | ok t =>
          obtain ⟨hfolded⟩ := hr
          refine keeps_look fun s' hw hs' => ?_
          subst hw
          split
          · rename_i hgeneration
            rw [hs'.vm] at hgeneration
            refine (keeps_store ?_).bind fun _ _ _ hkept => keeps_pure (.cached hkept)
            exact .folded hparse hoptimize hw' hgeneration hfolded
          · exact ih

theorem keeps_compile (rounds : Nat) (source : String) :
    Keeps start (compile call rounds source) w fun r w' => CompileOutcome start source w' r := by
  refine keeps_look fun s hw hs => ?_
  subst hw
  have hconfig : s.vm.config = start.config := by rw [hs.vm, hs.valid.config]
  dsimp only
  cases hentry : s.vm.cache.find? source with
  | some entry =>
      rw [hs.vm] at hentry
      refine (keeps_record (.found hentry) rfl).bind fun _ _ _ hvm => keeps_pure (.cached ?_)
      rwa [hvm]
  | none =>
      cases hparse : parse source s.vm.config.maxDepth with
      | error error =>
          rw [hconfig] at hparse
          exact keeps_pure (.unparsed hparse)
      | ok e =>
          rw [hconfig] at hparse
          dsimp only
          split
          · rename_i hoptimize
            rw [hconfig] at hoptimize
            exact keeps_foldAndStore hcall hparse hoptimize rounds
          · rename_i hoptimize
            rw [hconfig, Bool.not_eq_true] at hoptimize
            exact (keeps_store (.parsed hparse hoptimize)).bind fun _ _ _ hkept =>
              keeps_pure (.cached hkept)

theorem keeps_evalTree (tree : Expr) (env : Env) :
    Keeps start (evalTree call tree env) w fun _ _ => True := by
  refine keeps_look fun s _ _ => ?_
  refine (journalLogic start []).sat_eval (fun _ => True) ?_ ?_ w _ env tree (List.nil_suffix)
  · intro w' name _
    exact keeps_look fun s _ _ => keeps_pure fun _ _ => trivial
  · intro w' f values _ _
    exact (hcall w' f values).mono fun _ _ _ _ => trivial

theorem keeps_eval (rounds : Nat) (source : String) (env : Env) :
    Keeps start (eval call rounds source env) w fun _ _ => True := by
  refine (keeps_compile hcall rounds source).seq fun r w' _ => ?_
  cases r with
  | error error => exact keeps_pure trivial
  | ok entry =>
      refine (keeps_evalTree hcall entry.tree env).seq fun r _ _ => ?_
      cases r with
      | error error => exact keeps_pure trivial
      | ok v => exact keeps_pure trivial

theorem keeps_perform (rounds : Nat) (r : Request β) :
    Keeps start (perform call rounds r) w fun _ _ => True := by
  cases r with
  | eval source env => exact keeps_eval hcall rounds source env
  | compile source => exact (keeps_compile hcall rounds source).mono fun _ _ _ _ => trivial
  | evalTree tree env => exact keeps_evalTree hcall tree env
  | register f => exact keeps_register f
  | remove name => exact keeps_remove name
  | clear => exact keeps_clear
  | has name => exact keeps_look fun _ _ _ => keeps_pure trivial
  | size => exact keeps_look fun _ _ _ => keeps_pure trivial

end

end Session

/-! ## Host code -/

open Run

theorem Script.keeps_run {answer : (r : Request β) → Run σ β r.Reply}
    (hanswer : ∀ w r, Keeps start (answer r) w fun _ _ => True) (script : Script σ β)
    (w : List (Line β)) : Keeps start (script.run answer) w fun _ _ => True := by
  induction script generalizing w with
  | done result => exact keeps_pure trivial
  | read next ih => exact keeps_look fun s _ _ => ih s.host w
  | write state next ih =>
      refine Keeps.seq (Q := fun _ _ => True) ?_ fun _ w' _ => ih w'
      rintro s rfl hs
      exact ⟨List.suffix_rfl, ⟨hs.vm, hs.valid⟩, fun _ _ => ⟨⟨[], .nil, rfl⟩, trivial⟩⟩
  | request r next ih => exact (hanswer w r).seq fun reply w' _ => ih reply w'

namespace Host

/-- The line of a return is the latest after a call. -/
theorem keeps_invoke (host : Host σ β) {answer : (r : Request β) → Run σ β r.Reply}
    (hanswer : ∀ w r, Keeps start (answer r) w fun _ _ => True) (w : List (Line β)) (f : Function β)
    (args : List Value) :
    Keeps start (host.invoke answer f args) w fun r w' =>
      f.arity.accepts args.length = true → ∃ since, w' = since ++ w ∧ Returned since f args r := by
  unfold invoke
  cases hselect : f.callable.select args with
  | none =>
      refine keeps_pure fun haccepts => ?_
      rw [Function.arity, ← Callable.select_isSome, hselect] at haccepts
      cases haccepts
  | some body =>
      have hbody : ∀ w, Keeps start (host.runBody answer body args) w fun _ _ => True := by
        intro w
        cases body with
        | builtin builtin => exact keeps_pure trivial
        | host code => exact Script.keeps_run hanswer _ w
      exact (keeps_around hbody f args).mono fun _ _ _ h _ => h

/-- **Calls go on with the journal,** whatever the function does. -/
theorem keeps_call (host : Host σ β) (fuel : Nat) :
    Session.KeepsCalls start (host.call fuel) := by
  -- the requests of a function are answered with one call less
  induction fuel with
  | zero => exact fun _ _ _ => keeps_exhausted
  | succ fuel ih =>
      intro w f args
      exact host.keeps_invoke (fun _ r => Session.keeps_perform ih fuel r) w f args

theorem keeps_perform (host : Host σ β) (fuel : Nat) (w : List (Line β)) (r : Request β) :
    Keeps start (host.perform fuel r) w fun _ _ => True :=
  Session.keeps_perform (host.keeps_call fuel) fuel r

/-- The session that a script leaves follows its journal. -/
theorem follows_after (host : Host σ β) (fuel : Nat) (script : Script σ β) (start : Vm β)
    (state : σ) : ((script.run (host.perform fuel)).after ⟨start, state, []⟩).Follows start :=
  (Script.keeps_run (fun w r => host.keeps_perform fuel w r) script [] ⟨start, state, []⟩ rfl
    ⟨rfl, .nil⟩).2.1

/-! ## Cached trees -/

/-- **No stale tree is ever cached.** Let an evaluator start without cached trees, and let a
    script drive it: any requests, each chosen by the answers before it, to functions that may
    themselves turn to the evaluator. Whether or not the fuel lasts, and as long as the registry
    changes less than `2 ^ 64` times: the evaluator was, at every moment, as the journal of the
    run has it, and every tree cached at the moment was what its source spells, with calls
    replaced by literals. Each literal is what a call of an eligible function returned for the
    arguments, folded themselves, and the function takes that many and had been registered from
    before that call up to the moment. Without folding the tree was as parsed. -/
theorem cached_trees_current (host : Host σ β) (fuel : Nat) (script : Script σ β)
    (registry : Registry β) (config : Config) (state : σ) :
    let start := Vm.new registry config
    let s := (script.run (host.perform fuel)).after ⟨start, state, []⟩
    changes s.journal < UInt64.size →
      s.vm = vmAt start s.journal ∧
      ∀ now, now <:+ s.journal → ∀ entry ∈ (vmAt start now).cache.entries,
        entry.Current start now := by
  intro start s hchanges
  have hkeeps : Run.Keeps start (script.run (host.perform fuel)) [] fun _ _ => True :=
    Script.keeps_run (fun w r => host.keeps_perform fuel w r) script []
  have hs : s.Follows start := (hkeeps ⟨start, state, []⟩ rfl ⟨rfl, .nil⟩).2.1
  refine ⟨hs.vm, fun now hnow => (hs.valid.of_suffix hnow).current rfl ?_⟩
  exact Nat.lt_of_le_of_lt (hnow.sublist.countP_le) hchanges

/-! ## A function that meddles with its own registration -/

/-- A host whose only code removes `meddle`, registers it again and returns seven the first time
    it runs, and returns eight from then on. -/
def meddling : Host Nat Unit where
  behave _ _ := .read fun runs =>
    if runs = 0 then
      .write 1 (.request (.remove "meddle") fun _ =>
        .request (.register ⟨"meddle", true, .nullary (.host ())⟩) fun _ =>
          .done (.ok (.integer 7)))
    else .done (.ok (.integer 8))

/-- The function with that code. -/
def meddle : Function Unit := ⟨"meddle", true, .nullary (.host ())⟩

/-- Registers the function and compiles a call of it. -/
def meddleFolded : Script Nat Unit :=
  .request (.register meddle) fun _ => .request (.compile "meddle()") fun _ => .done (.ok .null)

/-- An evaluator without functions, which folds. -/
def folding : Vm Unit := .new .empty ⟨1, true⟩

/-- The session as the script leaves it. -/
def meddled : Session Nat Unit := (meddleFolded.run (meddling.perform 3)).after ⟨folding, 0, []⟩

/-- The seven of the first call is dropped, because folding it has changed the registry. -/
theorem cached_trees_current_meddling :
    changes meddled.journal = 3 ∧ meddled.vm.cache.entries = [⟨0, "meddle()", .number 8⟩] ∧
      Entry.Current folding meddled.journal ⟨0, "meddle()", .number 8⟩ := by
  have hchanges : changes meddled.journal = 3 := by decide +kernel
  have hentries : meddled.vm.cache.entries = [⟨0, "meddle()", .number 8⟩] := by decide +kernel
  have hfew : changes meddled.journal < UInt64.size := by
    rw [hchanges]
    decide
  obtain ⟨hvm, hcurrent⟩ := cached_trees_current meddling 3 meddleFolded .empty ⟨1, true⟩ 0 hfew
  have hcached : ⟨0, "meddle()", .number 8⟩ ∈ meddled.vm.cache.entries := by
    rw [hentries]
    exact List.mem_singleton_self _
  exact ⟨hchanges, hentries, hcurrent meddled.journal List.suffix_rfl _ (hvm ▸ hcached)⟩

end Host

end FormulaLang
