import FormulaLang.Proofs.Folding.Folded
import FormulaLang.Proofs.Session.Run

/-!
# `Session.Transcript` — what a journal tells of requests and their answers

A run writes its lines in the order in which things happen, those of host code between the lines of
the call that runs it. So the journal is a transcript: for each request that was answered it has the
lines of the calls that were made for it, and what the request itself has done, if anything.
Compiling in particular writes one line of its own if it returns a tree, right before it does, and
none if it fails; and no other request writes such a line, except that evaluating a source compiles
it first. Lines that tell that a source was compiled are therefore the same as compilations that
have returned a tree.

- **`writes_perform`**: a request that is answered writes the lines that go with the answer.
-/

namespace FormulaLang

variable {σ β : Type}

/-! ## Transcripts -/

mutual

/-- The lines of requests, one after the other, the latest first. -/
inductive Transcript : List (Line β) → Prop where
  | nil : Transcript []
  | cons {r : Request β} {reply : r.Reply} {lines past : List (Line β)}
      (answered : Answered r reply lines) (before : Transcript past) : Transcript (lines ++ past)

/-- The lines of calls, one after the other. Between the two lines of a call are those of what it
    has requested. -/
inductive CallsMade : List (Line β) → Prop where
  | nil : CallsMade []
  | cons {f : Function β} {args : List Value} {result : Except FunctionError Value} {vm vm' : Vm β}
      {during past : List (Line β)} (within : Transcript during) (before : CallsMade past) :
      CallsMade (⟨.returned f args result, vm'⟩ :: (during ++ ⟨.called f args, vm⟩ :: past))

/-- The lines of one request that had this reply. -/
inductive Answered : (r : Request β) → r.Reply → List (Line β) → Prop where
  /-- A compilation that returns a tree tells so at its end. -/
  | compiled {source : String} {entry : Entry} {against : Option (Registry β)} {vm : Vm β}
      {calls : List (Line β)} (made : CallsMade calls) :
      Answered (.compile source) (Except.ok entry : Except Error Entry)
        (⟨.compiled source entry.tree against, vm⟩ :: calls)
  | notCompiled {source : String} {error : Error} {calls : List (Line β)}
      (made : CallsMade calls) :
      Answered (.compile source) (Except.error error : Except Error Entry) calls
  | evaluatedTree {tree : Expr} {env : Env} {result : Except EvalError Value}
      {calls : List (Line β)} (made : CallsMade calls) :
      Answered (.evalTree tree env) result calls
  | evaluated {source : String} {env : Env} {entry : Entry} {result : Except Error Value}
      {lines calls : List (Line β)}
      (compiled : Answered (.compile source) (Except.ok entry : Except Error Entry) lines)
      (made : CallsMade calls) : Answered (.eval source env) result (calls ++ lines)
  | notEvaluated {source : String} {env : Env} {error : Error} {lines : List (Line β)}
      (failed : Answered (.compile source) (Except.error error : Except Error Entry) lines) :
      Answered (.eval source env) (Except.error error : Except Error Value) lines
  | registered {f : Function β} {vm : Vm β} :
      Answered (.register f) (Except.ok () : Except FunctionError Unit) [⟨.registered f, vm⟩]
  | notRegistered {f : Function β} {error : FunctionError} :
      Answered (.register f) (Except.error error : Except FunctionError Unit) []
  | removed {name : String} {vm : Vm β} : Answered (.remove name) true [⟨.removed name, vm⟩]
  | notRemoved {name : String} : Answered (.remove name) false []
  | cleared {vm : Vm β} : Answered .clear () [⟨.cleared, vm⟩]
  | has {name : String} {found : Bool} : Answered (.has name) found []
  | size {count : Nat} : Answered .size count []

end

theorem CallsMade.append {lines past : List (Line β)} (h : CallsMade lines)
    (hpast : CallsMade past) : CallsMade (lines ++ past) := by
  match h with
  | .nil => exact hpast
  | .cons within before =>
      rw [List.cons_append, List.append_assoc, List.cons_append]
      exact .cons within (before.append hpast)

theorem Transcript.append {lines past : List (Line β)} (h : Transcript lines)
    (hpast : Transcript past) : Transcript (lines ++ past) := by
  match h with
  | .nil => exact hpast
  | .cons answered before =>
      rw [List.append_assoc]
      exact .cons answered (before.append hpast)

/-! ## Steps and the lines they write -/

namespace Run

variable {α γ : Type} {vm : Vm β}

/-- If the step begins with this evaluator and ends, it has written lines, and `Q` holds of its
    result, these lines and the evaluator that it leaves. -/
def Writes (vm : Vm β) (x : Run σ β α) (Q : α → List (Line β) → Vm β → Prop) : Prop :=
  ∀ s a, s.vm = vm → (x.result s).1 = some a →
    ∃ lines, (x.after s).journal = lines ++ s.journal ∧ Q a lines (x.after s).vm

theorem writes_pure {a : α} {Q : α → List (Line β) → Vm β → Prop} (h : Q a [] vm) :
    Writes vm (pure a : Run σ β α) Q := by
  rintro s _ rfl ⟨⟩
  exact ⟨[], rfl, h⟩

theorem writes_exhausted {Q : α → List (Line β) → Vm β → Prop} :
    Writes vm (Session.exhausted : Run σ β α) Q := by
  intro s a _ h
  cases h

theorem Writes.bind {x : Run σ β α} {f : α → Run σ β γ} {Q : α → List (Line β) → Vm β → Prop}
    {R : γ → List (Line β) → Vm β → Prop} (hx : Writes vm x Q)
    (hf : ∀ a lines vm', Q a lines vm' →
      Writes vm' (f a) fun c more vm'' => R c (more ++ lines) vm'') : Writes vm (x >>= f) R := by
  intro s c hs hc
  obtain ⟨a, ha, hc⟩ := result_bind_eq_some_iff.1 hc
  obtain ⟨lines, hlines, hQ⟩ := hx s a hs ha
  obtain ⟨more, hmore, hR⟩ := hf a lines _ hQ (x.after s) c rfl hc
  have hafter : (x >>= f).after s = (f a).after (x.after s) := by
    rw [after, result_bind, ha]
    rfl
  rw [hafter]
  refine ⟨more ++ lines, ?_, hR⟩
  rw [hmore, hlines, List.append_assoc]

theorem Writes.mono {x : Run σ β α} {Q R : α → List (Line β) → Vm β → Prop}
    (hx : Writes vm x Q) (hQR : ∀ a lines vm', Q a lines vm' → R a lines vm') :
    Writes vm x R := by
  intro s a hs ha
  obtain ⟨lines, hlines, hQ⟩ := hx s a hs ha
  exact ⟨lines, hlines, hQR a lines _ hQ⟩

/-- The evaluator seen in a look at the session is the one that the step begins with. -/
theorem writes_look {k : Session σ β → Run σ β γ} {Q : γ → List (Line β) → Vm β → Prop}
    (hk : ∀ s, s.vm = vm → Writes vm (k s) Q) : Writes vm (get >>= k) Q := by
  intro s a hs ha
  rw [result_get_bind] at ha
  rw [after, result_get_bind]
  exact hk s hs s a hs ha

theorem writes_update (vm vm' : Vm β) (event : Event β) :
    Writes vm (Session.update vm' event : Run σ β Unit) fun _ lines vm'' =>
      lines = [⟨event, vm'⟩] ∧ vm'' = vm' := by
  rintro s _ - -
  exact ⟨_, rfl, rfl, rfl⟩

theorem writes_record (vm : Vm β) (event : Event β) :
    Writes vm (Session.record event : Run σ β Unit) fun _ lines vm' =>
      lines = [⟨event, vm⟩] ∧ vm' = vm := by
  refine writes_look fun s hs => ?_
  rw [hs]
  exact writes_update vm vm event

/-- Writing nothing but the lines of calls, as a way to reason about evaluation and folding. -/
def callsLogic : ProgramLogic (Run σ β) where
  World := Unit
  Later _ _ := True
  Sat x _ Q := ∀ vm, Writes vm x fun a lines _ => CallsMade lines ∧ Q a ()
  sat_pure h vm := writes_pure ⟨.nil, h⟩
  sat_bind {α γ x f _ Q R} hx hf vm := by
    refine (hx vm).bind fun a lines vm' ⟨hlines, ha⟩ => ?_
    refine (hf a () trivial ha vm').mono fun c more _ ⟨hmore, hc⟩ => ?_
    exact ⟨hmore.append hlines, hc⟩

theorem callsLogic_sat {x : Run σ β α}
    (h : ∀ vm, Writes vm x fun _ lines _ => CallsMade lines) :
    callsLogic.Sat x () fun _ _ => True :=
  fun vm => (h vm).mono fun _ _ _ hlines => ⟨hlines, trivial⟩

end Run

/-! ## The evaluator -/

namespace Session
open Run

variable {vm : Vm β}

/-- The lines are those of a compilation with this result, and if it has an entry, the cache has the
    entry in the end. -/
structure Compiled (source : String) (r : Except Error Entry) (lines : List (Line β)) (vm : Vm β) :
    Prop where
  answered : Answered (.compile source) r lines
  kept : ∀ entry, r = .ok entry → vm.cache.find? source = some entry

theorem Compiled.error {source : String} {error : Error} {calls : List (Line β)}
    (made : CallsMade calls) : Compiled source (.error error) calls vm :=
  ⟨.notCompiled made, fun _ h => by cases h⟩

/-- The lines of calls that were made before are those of the compilation, too. -/
theorem Compiled.append {source : String} {r : Except Error Entry} {lines calls : List (Line β)}
    (h : Compiled source r lines vm) (hcalls : CallsMade calls) :
    Compiled source r (lines ++ calls) vm := by
  refine ⟨?_, h.kept⟩
  cases h.answered with
  | compiled made => exact .compiled (made.append hcalls)
  | notCompiled made => exact .notCompiled (made.append hcalls)

theorem writes_register (f : Function β) :
    Writes vm (register f : Run σ β _) fun r lines _ => Answered (.register f) r lines := by
  refine writes_look fun s hs => ?_
  cases s.vm.register f with
  | error error => exact writes_pure .notRegistered
  | ok vm' =>
      refine (writes_update vm vm' (.registered f)).bind fun _ lines _ ⟨hlines, _⟩ => ?_
      rw [hlines]
      exact writes_pure .registered

theorem writes_remove (name : String) :
    Writes vm (remove name : Run σ β _) fun r lines _ => Answered (.remove name) r lines := by
  refine writes_look fun s hs => ?_
  dsimp only
  by_cases hcontains : s.vm.registry.contains name = true
  · rw [if_pos hcontains]
    refine (writes_update vm _ (.removed name)).bind fun _ lines _ ⟨hlines, _⟩ => ?_
    rw [hlines]
    exact writes_pure .removed
  · rw [if_neg hcontains]
    exact writes_pure .notRemoved

theorem writes_clear :
    Writes vm (clear : Run σ β _) fun r lines _ => Answered .clear r lines := by
  refine writes_look fun s hs => ?_
  refine (writes_update vm _ .cleared).mono fun _ lines _ ⟨hlines, _⟩ => ?_
  rw [hlines]
  exact .cleared

/-- A tree that is stored, or was there already, is told of in one line. -/
theorem writes_store (source : String) (tree : Expr) (against : Option (Registry β)) :
    Writes vm (do return .ok (← store source tree against) : Run σ β _) (Compiled source) := by
  have hstore : Writes vm (store source tree against : Run σ β Entry) fun entry lines vm' =>
      lines = [⟨.compiled source entry.tree against, vm'⟩] ∧
        vm'.cache.find? source = some entry := by
    intro s entry hs hresult
    have hkept := Cache.find?_store s.vm.cache source tree source
    rw [if_pos rfl] at hkept
    rw [result_store] at hresult
    rw [after, result_store]
    cases hresult
    exact ⟨_, rfl, rfl, hkept⟩
  refine hstore.bind fun entry lines vm' ⟨hlines, hkept⟩ => writes_pure ?_
  rw [hlines]
  refine ⟨.compiled .nil, ?_⟩
  rintro _ ⟨⟩
  exact hkept

section
variable {call : Caller (Run σ β) β}
variable (hcall : ∀ vm f args, Writes vm (call f args) fun _ lines _ => CallsMade lines)
include hcall

theorem writes_fold (registry : Registry β) (maxDepth : Nat) (e : Expr) :
    Writes vm (e.fold call registry maxDepth) fun _ lines _ => CallsMade lines := by
  -- what the calls return does not matter here
  have hcalls : ∀ f values, callsLogic.Sat (call f values) () fun _ _ => True :=
    fun f values => callsLogic_sat fun vm => hcall vm f values
  have hsat : callsLogic.Sat (e.fold call registry maxDepth) () _ :=
    callsLogic.sat_fold (fun _ _ _ _ => True) (fun _ _ _ => le_rfl)
      (fun _ _ f values _ _ _ => hcalls f values) () maxDepth e
  exact (hsat vm).mono fun _ _ _ h => h.1

theorem writes_evalTree (tree : Expr) (env : Env) :
    Writes vm (evalTree call tree env) fun r lines _ => Answered (.evalTree tree env) r lines := by
  refine writes_look fun s hs => ?_
  have hcalls : ∀ f values, callsLogic.Sat (call f values) () fun _ _ => True :=
    fun f values => callsLogic_sat fun vm => hcall vm f values
  have hfind : ∀ name, callsLogic.Sat ((surroundings call).find name) ()
      fun f? _ => ∀ f ∈ f?, True :=
    fun name vm => writes_look fun _ _ => writes_pure ⟨.nil, fun _ _ => trivial⟩
  have hsat : callsLogic.Sat (tree.eval (surroundings call) s.vm.config.maxDepth env) ()
      fun _ _ => True :=
    callsLogic.sat_eval (fun _ => True) (fun _ name => hfind name)
      (fun _ f values _ => hcalls f values) () s.vm.config.maxDepth env tree
  exact (hsat vm).mono fun _ _ _ h => .evaluatedTree h.1

theorem writes_foldAndStore (source : String) (tree : Expr) (rounds : Nat) :
    Writes vm (foldAndStore call source tree rounds) (Compiled source) := by
  induction rounds generalizing vm with
  | zero => exact writes_exhausted
  | succ rounds ih =>
      refine writes_look fun s hs => ?_
      refine (writes_fold hcall _ _ tree).bind fun r calls vm' hcalls => ?_
      cases r with
      | error error => exact writes_pure (.error hcalls)
      | ok folded =>
          refine writes_look fun s' hs' => ?_
          -- the calls of a round that is dropped stay in the journal
          by_cases hgeneration : s'.vm.generation = s.vm.generation
          · rw [if_pos hgeneration]
            exact (writes_store source folded _).mono fun _ _ _ h => h.append hcalls
          · rw [if_neg hgeneration]
            exact ih.mono fun _ _ _ h => h.append hcalls

/-- **A compilation that returns a tree writes one line of its own, at its end,** and then the cache
    has the tree. -/
theorem writes_compile (rounds : Nat) (source : String) :
    Writes vm (compile call rounds source) (Compiled source) := by
  refine writes_look fun s hs => ?_
  dsimp only
  cases hfind : s.vm.cache.find? source with
  | some entry =>
      rw [hs] at hfind
      refine (writes_record vm _).bind fun _ lines vm' ⟨hlines, hvm⟩ => writes_pure ?_
      rw [hlines, hvm]
      refine ⟨.compiled .nil, ?_⟩
      rintro _ ⟨⟩
      exact hfind
  | none =>
      dsimp only
      cases parse source s.vm.config.maxDepth with
      | error error => exact writes_pure (.error .nil)
      | ok tree =>
          dsimp only
          by_cases hoptimize : s.vm.config.optimize = true
          · rw [if_pos hoptimize]
            exact writes_foldAndStore hcall source tree rounds
          · rw [if_neg hoptimize]
            exact writes_store source tree none

theorem writes_eval (rounds : Nat) (source : String) (env : Env) :
    Writes vm (eval call rounds source env) fun r lines _ =>
      Answered (.eval source env) r lines := by
  refine (writes_compile hcall rounds source).bind fun r lines vm' ⟨hr, _⟩ => ?_
  cases r with
  | error error => exact writes_pure (.notEvaluated hr)
  | ok entry =>
      refine (writes_evalTree hcall entry.tree env).bind fun r calls vm' hcalls => ?_
      cases hcalls with
      | evaluatedTree made =>
          cases r with
          | error error => exact writes_pure (.evaluated hr made)
          | ok v => exact writes_pure (.evaluated hr made)

/-- **A request that is answered writes the lines that go with the answer.** -/
theorem writes_perform (rounds : Nat) (r : Request β) :
    Writes vm (perform call rounds r) fun reply lines _ => Answered r reply lines := by
  cases r with
  | eval source env => exact writes_eval hcall rounds source env
  | compile source => exact (writes_compile hcall rounds source).mono fun _ _ _ h => h.answered
  | evalTree tree env => exact writes_evalTree hcall tree env
  | register f => exact writes_register f
  | remove name => exact writes_remove name
  | clear => exact writes_clear
  | has name => exact writes_look fun _ _ => writes_pure .has
  | size => exact writes_look fun _ _ => writes_pure .size

end

end Session

/-! ## Host code -/

open Run

/-- The code of the host writes the transcript of its requests. -/
theorem Script.writes_run {answer : (r : Request β) → Run σ β r.Reply}
    (hanswer : ∀ vm r, Writes vm (answer r) fun reply lines _ => Answered r reply lines)
    (script : Script σ β) (vm : Vm β) :
    Writes vm (script.run answer) fun _ lines _ => Transcript lines := by
  induction script generalizing vm with
  | done result => exact writes_pure .nil
  | read next ih => exact writes_look fun s _ => ih s.host vm
  | write state next ih =>
      intro s a hs ha
      exact ih vm { s with host := state } a hs ha
  | request r next ih =>
      refine (hanswer vm r).bind fun reply lines vm' hlines => ?_
      refine (ih reply vm').mono fun _ more _ hmore => ?_
      have hone : Transcript (lines ++ []) := .cons hlines .nil
      rw [List.append_nil] at hone
      exact hmore.append hone

namespace Host

theorem writes_call (host : Host σ β) (fuel : Nat) (vm : Vm β) (f : Function β)
    (args : List Value) :
    Writes vm (host.call fuel f args) fun _ lines _ => CallsMade lines := by
  -- the requests of a function are answered with one call less
  induction fuel generalizing vm f args with
  | zero => exact writes_exhausted
  | succ fuel ih =>
      rw [call, invoke]
      cases f.callable.select args with
      | none => exact writes_pure .nil
      | some body =>
          dsimp only
          have hbody : ∀ vm, Writes vm (host.runBody
              (fun r => Session.perform (fun f args => host.call fuel f args) fuel r) body args)
              fun _ lines _ => Transcript lines := by
            intro vm
            cases body with
            | builtin builtin => exact writes_pure .nil
            | host code =>
                refine Script.writes_run (fun vm r => ?_) (host.behave code args) vm
                exact Session.writes_perform ih fuel r
          refine (writes_record vm _).bind fun _ first vm₁ ⟨hfirst, _⟩ => ?_
          refine (hbody vm₁).bind fun result during vm₂ hduring => ?_
          refine (writes_record vm₂ _).bind fun _ last vm₃ ⟨hlast, _⟩ => writes_pure ?_
          rw [hfirst, hlast]
          exact .cons hduring .nil

/-- **What a run writes is the transcript of its requests.** -/
theorem writes_script (host : Host σ β) (fuel : Nat) (script : Script σ β) (vm : Vm β) :
    Writes vm (script.run (host.perform fuel)) fun _ lines _ => Transcript lines :=
  Script.writes_run (fun _ r => Session.writes_perform (host.writes_call fuel) fuel r) script vm

/-- The journal of a run that ends is the transcript of its requests. -/
theorem transcript_journal (host : Host σ β) (fuel : Nat) (script : Script σ β) (start : Vm β)
    (state : σ) {r : Except FunctionError Value}
    (h : ((script.run (host.perform fuel)).result ⟨start, state, []⟩).1 = some r) :
    Transcript ((script.run (host.perform fuel)).after ⟨start, state, []⟩).journal := by
  obtain ⟨lines, hlines, htranscript⟩ :=
    host.writes_script fuel script start ⟨start, state, []⟩ r rfl h
  rw [List.append_nil] at hlines
  rwa [hlines]

end Host

end FormulaLang
