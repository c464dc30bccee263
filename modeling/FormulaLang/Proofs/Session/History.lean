import FormulaLang.Proofs.Folding.Folded
import FormulaLang.Proofs.Vm.Changes
import FormulaLang.Vm.Session

/-!
# `Session.History` — what a journal tells of its evaluator

A journal that starts from a given evaluator has a moment for each of its parts: the evaluator as
the first line of the part has it. A journal is `Valid` if every line says something that can
happen at the moment before it (`Happens`). Host code may register, remove, clear and compile
while a tree is being folded, so the line of a folded tree refers to an earlier moment, when
folding began: its calls returned between the two, and the generation is the same at both.

A call that has returned is told by two lines, with lines of whole calls in between (`Balanced`), so
what it returned is dated by when it began (`Returned`).

The registry changes less than `2 ^ 64` times, so the generation tells moments with different
registries apart (`registry_of_generation`). What was folded then rests on functions that are
registered still, and it does as long as no function is removed; a removal clears the cache.

- **`Valid.current`**: at every moment of a valid journal, every cached tree is current.
-/

namespace FormulaLang

variable {β : Type}

/-! ## Moments -/

/-- The evaluator at the moment that a journal has come to. -/
def vmAt (start : Vm β) : List (Line β) → Vm β
  | [] => start
  | line :: _ => line.vm

@[simp] theorem vmAt_nil (start : Vm β) : vmAt start [] = start := rfl

@[simp] theorem vmAt_cons (start : Vm β) (line : Line β) (past : List (Line β)) :
    vmAt start (line :: past) = line.vm := rfl

/-- Whether an event changes the registry. -/
def Event.isChange : Event β → Bool
  | .registered _ | .removed _ => true
  | _ => false

/-- The number of changes of the registry. -/
def changes (journal : List (Line β)) : Nat := journal.countP fun line => line.event.isChange

/-! ## Calls -/

/-- Whether an event is the beginning or the end of a call. -/
def Event.isOfCall : Event β → Bool
  | .called _ _ | .returned _ _ _ => true
  | _ => false

/-- Every call that begins in these lines returns in them, and only such calls do. -/
inductive Balanced : List (Line β) → Prop where
  | nil : Balanced []
  | step {line : Line β} {past : List (Line β)} (step : line.event.isOfCall = false)
      (before : Balanced past) : Balanced (line :: past)
  | call {f : Function β} {args : List Value} {r : Except FunctionError Value} {vm vm' : Vm β}
      {during past : List (Line β)} (within : Balanced during) (before : Balanced past) :
      Balanced (⟨.returned f args r, vm'⟩ :: (during ++ ⟨.called f args, vm⟩ :: past))

theorem Balanced.append {later past : List (Line β)} (hlater : Balanced later)
    (hpast : Balanced past) : Balanced (later ++ past) := by
  induction hlater with
  | nil => exact hpast
  | step hstep _ ih => exact .step hstep ih
  | call within _ _ ih =>
      rw [List.cons_append, List.append_assoc, List.cons_append]
      exact .call within ih

/-- In these lines, a call of the function with the arguments begins, and it returns the result. -/
def Returned (lines : List (Line β)) (f : Function β) (args : List Value)
    (r : Except FunctionError Value) : Prop :=
  ∃ later during earlier vm vm', Balanced during ∧
    lines = later ++ ⟨.returned f args r, vm'⟩ :: (during ++ ⟨.called f args, vm⟩ :: earlier)

section
variable {lines : List (Line β)} {f : Function β} {args : List Value}
variable {r : Except FunctionError Value}

theorem Returned.append_left (h : Returned lines f args r) (more : List (Line β)) :
    Returned (more ++ lines) f args r := by
  obtain ⟨later, during, earlier, vm, vm', hduring, rfl⟩ := h
  exact ⟨more ++ later, during, earlier, vm, vm', hduring, (List.append_assoc ..).symm⟩

theorem Returned.append_right (h : Returned lines f args r) (before : List (Line β)) :
    Returned (lines ++ before) f args r := by
  obtain ⟨later, during, earlier, vm, vm', hduring, rfl⟩ := h
  exact ⟨later, during, earlier ++ before, vm, vm', hduring, by simp⟩

end

/-- What folding against the registry of `before` may have seen up to the moment `now`. -/
def callsSince (start : Vm β) (before now : List (Line β)) : Calls := fun name values r =>
  ∃ f since, now = since ++ before ∧ (vmAt start before).registry.get? name = some f ∧
    f.foldEligible = true ∧ f.arity.accepts values.length = true ∧ Returned since f values r

/-- What functions have returned that folding may call, and that have been registered under their
    names from before the call until now. -/
def currentCalls (start : Vm β) (now : List (Line β)) : Calls := fun name values r =>
  ∃ f since before, now = since ++ before ∧ f.foldEligible = true ∧
    f.arity.accepts values.length = true ∧ Returned since f values r ∧
    ∀ past, before <:+ past → past <:+ now → (vmAt start past).registry.get? name = some f

/-- A cached tree is what its source spells, with calls replaced by what functions returned that are
    registered still, and as it was parsed if folding is not set. -/
def Entry.Current (start : Vm β) (now : List (Line β)) (entry : Entry) : Prop :=
  ∃ e, parse entry.source start.config.maxDepth = .ok e ∧
    (start.config.optimize = false → entry.tree = e) ∧ e.Folded (currentCalls start now) entry.tree

/-! ## Valid journals -/

/-- The line may come next after the journal `past`. -/
inductive Happens (start : Vm β) (past : List (Line β)) : Line β → Prop where
  | called (f : Function β) (args : List Value) :
      Happens start past ⟨.called f args, vmAt start past⟩
  | returned (f : Function β) (args : List Value) (r : Except FunctionError Value) :
      Happens start past ⟨.returned f args r, vmAt start past⟩
  | registered {f : Function β} {vm : Vm β} (h : (vmAt start past).register f = .ok vm) :
      Happens start past ⟨.registered f, vm⟩
  | removed {name : String} (h : (vmAt start past).registry.contains name = true) :
      Happens start past ⟨.removed name, (vmAt start past).remove name⟩
  | cleared : Happens start past ⟨.cleared, (vmAt start past).clear⟩
  | found {source : String} {entry : Entry}
      (h : (vmAt start past).cache.find? source = some entry) :
      Happens start past ⟨.compiled source entry.tree none, vmAt start past⟩
  | parsed {source : String} {e : Expr} (parsed : parse source start.config.maxDepth = .ok e)
      (optimize : start.config.optimize = false) :
      Happens start past ⟨.compiled source ((vmAt start past).store source e).1.tree none,
        ((vmAt start past).store source e).2⟩
  /-- Folding began at the moment `before`. -/
  | folded {source : String} {e t : Expr} {before : List (Line β)}
      (parsed : parse source start.config.maxDepth = .ok e)
      (optimize : start.config.optimize = true) (suffix : before <:+ past)
      (generation : (vmAt start past).generation = (vmAt start before).generation)
      (folded : e.Folded (callsSince start before past) t) :
      Happens start past ⟨.compiled source ((vmAt start past).store source t).1.tree
        (some (vmAt start before).registry), ((vmAt start past).store source t).2⟩

/-- Every line of the journal may come next after the lines before it. -/
inductive Valid (start : Vm β) : List (Line β) → Prop where
  | nil : Valid start []
  | cons {line : Line β} {past : List (Line β)} (happens : Happens start past line)
      (valid : Valid start past) : Valid start (line :: past)

section
variable {start : Vm β} {past before journal : List (Line β)} {line : Line β}

theorem Valid.of_suffix (h : Valid start journal) (hpast : past <:+ journal) :
    Valid start past := by
  induction h with
  | nil =>
      rw [List.suffix_nil.1 hpast]
      exact .nil
  | cons happens valid ih =>
      rcases List.suffix_cons_iff.1 hpast with rfl | hpast
      · exact .cons happens valid
      · exact ih hpast

/-! ## Settings, registry and generation -/

theorem Happens.config (h : Happens start past line) :
    line.vm.config = (vmAt start past).config := by
  cases h with
  | called | returned | cleared | found | parsed | folded => rfl
  | registered h =>
      obtain ⟨registry, -, rfl⟩ := Vm.register_eq_ok h
      rfl
  | removed h => rw [Vm.remove_of_contains h]

/-- Without a change, the registry and the generation are as they were. -/
theorem Happens.unchanged (h : Happens start past line) (hchange : line.event.isChange = false) :
    line.vm.registry = (vmAt start past).registry ∧
      line.vm.generation = (vmAt start past).generation := by
  cases h with
  | called | returned | cleared | found | parsed | folded => exact ⟨rfl, rfl⟩
  | registered | removed => cases hchange

/-- A change is counted. -/
theorem Happens.changed (h : Happens start past line) (hchange : line.event.isChange = true) :
    line.vm.generation = (vmAt start past).generation + 1 := by
  cases h with
  | called | returned | cleared | found | parsed | folded => cases hchange
  | registered h =>
      obtain ⟨registry, -, rfl⟩ := Vm.register_eq_ok h
      rfl
  | removed h => rw [Vm.remove_of_contains h]

theorem Valid.config (h : Valid start journal) : (vmAt start journal).config = start.config := by
  induction h with
  | nil => rfl
  | cons happens _ ih => exact happens.config.trans ih

theorem changes_cons (line : Line β) (past : List (Line β)) :
    changes (line :: past) = changes past + if line.event.isChange then 1 else 0 :=
  List.countP_cons

theorem changes_append (since before : List (Line β)) :
    changes (since ++ before) = changes since + changes before :=
  List.countP_append

/-- The generation is the number of changes, in a word that wraps. -/
theorem Valid.generation (h : Valid start journal) :
    (vmAt start journal).generation = start.generation + UInt64.ofNat (changes journal) := by
  induction h with
  | nil => simp [changes]
  | @cons line past happens _ ih =>
      rw [changes_cons]
      cases hchange : line.event.isChange with
      | false =>
          rw [vmAt_cons, (happens.unchanged hchange).2, ih]
          simp
      | true =>
          rw [vmAt_cons, happens.changed hchange, ih]
          simp [UInt64.ofNat_add, UInt64.add_assoc]

/-- Without changes in between the registry stays as it is. -/
theorem Valid.registry_of_changes {since : List (Line β)} (h : Valid start (since ++ before))
    (hchanges : changes since = 0) :
    (vmAt start (since ++ before)).registry = (vmAt start before).registry := by
  induction since with
  | nil => rfl
  | cons line since ih =>
      rw [changes_cons] at hchanges
      cases h with
      | cons happens valid =>
          have hline : line.event.isChange = false := by
            cases hchange : line.event.isChange with
            | false => rfl
            | true => simp [hchange] at hchanges
          rw [List.cons_append, vmAt_cons, (happens.unchanged hline).1]
          exact ih valid (by omega)

/-- **Moments with the same generation have the same registry, and so have all between them,** as
    long as the generation has not wrapped. -/
theorem Valid.registry_of_generation {since : List (Line β)} (h : Valid start (since ++ before))
    (hchanges : changes (since ++ before) < UInt64.size)
    (hgeneration : (vmAt start (since ++ before)).generation = (vmAt start before).generation) :
    ∀ now, before <:+ now → now <:+ since ++ before →
      (vmAt start now).registry = (vmAt start before).registry := by
  -- both counts are below the size of a word, so equal generations mean equal counts
  have hsince : changes since = 0 := by
    rw [h.generation, (h.of_suffix (List.suffix_append _ _)).generation] at hgeneration
    have hcount := congrArg UInt64.toNat ((UInt64.add_right_inj _).1 hgeneration)
    have hbefore : changes before < UInt64.size := by
      rw [changes_append] at hchanges
      omega
    rw [UInt64.toNat_ofNat_of_lt' hchanges, UInt64.toNat_ofNat_of_lt' hbefore,
      changes_append] at hcount
    omega
  rintro now ⟨middle, rfl⟩ hnow
  have hmiddle : middle <:+ since := List.suffix_append_self_iff.1 hnow
  refine (h.of_suffix hnow).registry_of_changes ?_
  have := hmiddle.sublist.countP_le (p := fun line : Line β => line.event.isChange)
  simp only [changes] at *
  omega

/-! ## Cached trees -/

/-- Calls stay current as long as their functions stay registered. -/
theorem currentCalls_cons (hkept : ∀ name f, (vmAt start past).registry.get? name = some f →
      line.vm.registry.get? name = some f) :
    currentCalls start past ≤ currentCalls start (line :: past) := by
  rintro name values r ⟨f, since, before, rfl, heligible, haccepts, hreturned, hregistered⟩
  refine ⟨f, line :: since, before, rfl, heligible, haccepts, ?_, fun now hbefore hnow => ?_⟩
  · exact hreturned.append_left [line]
  · rcases List.suffix_cons_iff.1 hnow with rfl | hnow
    · exact hkept name f (hregistered _ (List.suffix_append _ _) List.suffix_rfl)
    · exact hregistered now hbefore hnow

/-- What folding has seen is current if the registry has been the same since folding began. -/
theorem callsSince_le_currentCalls (hsame : ∀ now, before <:+ now → now <:+ past →
      (vmAt start now).registry = (vmAt start before).registry) :
    callsSince start before past ≤ currentCalls start past := by
  rintro name values r ⟨f, since, rfl, hget, heligible, haccepts, hreturned⟩
  refine ⟨f, since, before, rfl, heligible, haccepts, hreturned, fun now hbefore hnow => ?_⟩
  rw [hsame now hbefore hnow]
  exact hget

theorem Entry.Current.cons {entry : Entry} (h : entry.Current start past)
    (hkept : ∀ name f, (vmAt start past).registry.get? name = some f →
      line.vm.registry.get? name = some f) : entry.Current start (line :: past) := by
  obtain ⟨e, hparse, hoptimize, hfolded⟩ := h
  exact ⟨e, hparse, hoptimize, hfolded.mono (currentCalls_cons hkept)⟩

/-- Storing a tree adds at most the entry of its source. -/
theorem mem_store {vm : Vm β} {source : String} {tree : Expr} {entry : Entry}
    (h : entry ∈ (vm.store source tree).2.cache.entries) :
    entry ∈ vm.cache.entries ∨ (entry.source = source ∧ entry.tree = tree) := by
  change entry ∈ (vm.cache.store source tree).2.entries at h
  cases hentry : vm.cache.find? source with
  | some kept =>
      rw [Cache.store_of_find?_eq_some tree hentry] at h
      exact .inl h
  | none =>
      rw [Cache.store_of_find?_eq_none tree hentry] at h
      rcases List.mem_cons.1 h with rfl | h
      · exact .inr ⟨rfl, rfl⟩
      · exact .inl h

/-- A line keeps the cached trees current and adds only current ones. -/
theorem Happens.current (h : Happens start past line) (hvalid : Valid start past)
    (hchanges : changes past < UInt64.size)
    (hcurrent : ∀ entry ∈ (vmAt start past).cache.entries, entry.Current start past) :
    ∀ entry ∈ line.vm.cache.entries, entry.Current start (line :: past) := by
  intro entry hentry
  cases h with
  | called | returned | found => exact (hcurrent entry hentry).cons fun _ _ h => h
  | registered h =>
      obtain ⟨registry, hregister, rfl⟩ := Vm.register_eq_ok h
      exact (hcurrent entry hentry).cons fun _ _ => Registry.get?_of_register hregister
  | removed h =>
      rw [Vm.remove_of_contains h] at hentry
      cases hentry
  | cleared => cases hentry
  | parsed hparse hoptimize =>
      rcases mem_store hentry with hold | ⟨rfl, rfl⟩
      · exact (hcurrent entry hold).cons fun _ _ h => h
      · exact ⟨entry.tree, hparse, fun _ => rfl, .refl _⟩
  | @folded source e t before hparse hoptimize hsuffix hgeneration hfolded =>
      rcases mem_store hentry with hold | ⟨rfl, rfl⟩
      · exact (hcurrent entry hold).cons fun _ _ h => h
      · -- the generation is the one that folding began with, so nothing it has seen is gone
        obtain ⟨since, rfl⟩ := hsuffix
        have hcalls := callsSince_le_currentCalls
          (hvalid.registry_of_generation hchanges hgeneration)
        have hnew : entry.Current start (since ++ before) :=
          ⟨e, hparse, fun h => absurd (hoptimize.symm.trans h) (by decide), hfolded.mono hcalls⟩
        exact hnew.cons fun _ _ h => h

/-- **At every moment, every cached tree is current,** if no tree was cached at the start and the
    generation has not wrapped. -/
theorem Valid.current (h : Valid start journal) (hstart : start.cache.entries = [])
    (hchanges : changes journal < UInt64.size) :
    ∀ entry ∈ (vmAt start journal).cache.entries, entry.Current start journal := by
  induction h with
  | nil =>
      rw [vmAt_nil, hstart]
      intro entry hentry
      cases hentry
  | cons happens valid ih =>
      rw [changes_cons] at hchanges
      exact happens.current valid (by omega) (ih (by omega))

end

end FormulaLang
