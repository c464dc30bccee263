import FormulaLang.Vm.Session

/-!
# `Session.Run` — steps of a session, one after the other

A step of a session is a program that carries the session along and stops where its fuel ends.
Here its two projections, the result and the session it leaves, are computed for the primitive
steps, for sequences, and for what an evaluator does without running functions. Nothing after this
module looks behind `Run` again.
-/

namespace FormulaLang

variable {σ β : Type}

namespace Run

instance : LawfulMonad (Run σ β) :=
  inferInstanceAs (LawfulMonad (OptionT (StateM (Session σ β))))

variable {α γ : Type}

/-! ## Results and sessions after -/

@[simp] theorem result_pure (a : α) (s : Session σ β) :
    (pure a : Run σ β α).result s = (some a, s) := rfl

@[simp] theorem result_get (s : Session σ β) :
    (get : Run σ β (Session σ β)).result s = (some s, s) := rfl

@[simp] theorem result_update (vm : Vm β) (event : Event β) (s : Session σ β) :
    (Session.update vm event : Run σ β Unit).result s =
      (some (), { s with vm, journal := ⟨event, vm⟩ :: s.journal }) := rfl

@[simp] theorem result_record (event : Event β) (s : Session σ β) :
    (Session.record event : Run σ β Unit).result s =
      (some (), { s with journal := ⟨event, s.vm⟩ :: s.journal }) := rfl

theorem result_bind (x : Run σ β α) (f : α → Run σ β γ) (s : Session σ β) :
    (x >>= f).result s =
      match (x.result s).1 with
      | none => (none, x.after s)
      | some a => (f a).result (x.after s) := by
  have h : (x >>= f).result s =
      (match (x.result s).1 with
        | some a => f a
        | none => pure none : StateM (Session σ β) (Option γ)) (x.result s).2 := rfl
  rw [h, after]
  cases (x.result s).1 <;> rfl

/-- A sequence has a result if both of its parts have one. -/
theorem result_bind_eq_some_iff {x : Run σ β α} {f : α → Run σ β γ} {s : Session σ β} {c : γ} :
    ((x >>= f).result s).1 = some c ↔
      ∃ a, (x.result s).1 = some a ∧ ((f a).result (x.after s)).1 = some c := by
  rw [result_bind]
  cases (x.result s).1 with
  | none => simp
  | some a => simp

/-- A look at the session does nothing. -/
@[simp] theorem result_get_bind (k : Session σ β → Run σ β γ) (s : Session σ β) :
    (get >>= k).result s = (k s).result s := by
  rw [result_bind, after, result_get]

theorem run_eq_some_iff {x : Run σ β α} {s s' : Session σ β} {a : α} :
    x.run s = some (a, s') ↔ x.result s = (some a, s') := by
  unfold run after
  rcases x.result s with ⟨_ | a', s''⟩ <;> simp

/-! ## Programs with errors -/

section
variable {ε : Type} {x : ExceptT ε (Run σ β) α} {s s' : Session σ β}

/-- A sequence goes on with the result of its first part, -/
theorem result_bind_of_ok {a : α} (h : x.run.result s = (some (.ok a), s'))
    (f : α → ExceptT ε (Run σ β) γ) : (x >>= f).run.result s = (f a).run.result s' := by
  show (x.run >>= ExceptT.bindCont f).result s = _
  rw [result_bind, after, h]
  rfl

/-- and ends with its error. -/
theorem result_bind_of_error {e : ε} (h : x.run.result s = (some (.error e), s'))
    (f : α → ExceptT ε (Run σ β) γ) : (x >>= f).run.result s = (some (.error e), s') := by
  show (x.run >>= ExceptT.bindCont f).result s = _
  rw [result_bind, after, h]
  rfl

/-- A step of the session itself has no errors. -/
theorem result_lift_bind {y : Run σ β α} {a : α} (h : y.result s = (some a, s'))
    (f : α → ExceptT ε (Run σ β) γ) : (liftM y >>= f).run.result s = (f a).run.result s' := by
  show (ExceptT.lift y >>= f).run.result s = _
  rw [ExceptT.run_bind_lift, result_bind, after, h]

theorem result_liftExcept (r : Except ε α) (s : Session σ β) :
    (liftExcept r : ExceptT ε (Run σ β) α).run.result s = (some r, s) := by
  cases r with
  | ok a => rfl
  | error e => rfl

end

end Run

/-! ## Steps without functions -/

namespace Session
open Run

variable {s : Session σ β}

theorem result_register_of_ok {f : Function β} {vm : Vm β} (h : s.vm.register f = .ok vm) :
    (register f : Run σ β _).result s =
      (some (.ok ()), { s with vm, journal := ⟨.registered f, vm⟩ :: s.journal }) := by
  unfold register
  rw [result_get_bind, h]
  dsimp only
  rw [result_bind, after, result_update]
  rfl

theorem result_register_of_error {f : Function β} {error : FunctionError}
    (h : s.vm.register f = .error error) :
    (register f : Run σ β _).result s = (some (.error error), s) := by
  unfold register
  rw [result_get_bind, h]
  exact result_pure _ s

theorem result_remove_of_contains {name : String} (h : s.vm.registry.contains name = true) :
    (remove name : Run σ β _).result s = (some true, { s with
      vm := s.vm.remove name
      journal := ⟨.removed name, s.vm.remove name⟩ :: s.journal }) := by
  unfold remove
  rw [result_get_bind]
  dsimp only
  rw [if_pos h, result_bind, after, result_update]
  rfl

theorem result_remove_of_not_contains {name : String}
    (h : ¬ s.vm.registry.contains name = true) :
    (remove name : Run σ β _).result s = (some false, s) := by
  unfold remove
  rw [result_get_bind]
  dsimp only
  rw [if_neg h]
  exact result_pure _ s

/-- A registration succeeds and writes a line of it, or does nothing. -/
theorem register_outcome {f : Function β} {r : Except FunctionError Unit} {s' : Session σ β}
    (h : (register f : Run σ β _).run s = some (r, s')) :
    (r = .ok () ∧ s.vm.register f = .ok s'.vm ∧
        s'.journal = ⟨.registered f, s'.vm⟩ :: s.journal) ∨
      ∃ error, s.vm.register f = .error error ∧ r = .error error ∧ s' = s := by
  rw [run_eq_some_iff] at h
  cases hvm : s.vm.register f with
  | error error =>
      rw [result_register_of_error hvm] at h
      cases h
      exact .inr ⟨error, rfl, rfl, rfl⟩
  | ok vm =>
      rw [result_register_of_ok hvm] at h
      cases h
      exact .inl ⟨rfl, rfl, rfl⟩

/-- A removal that finds its function writes a line of it, and any other does nothing. -/
theorem remove_outcome {name : String} {found : Bool} {s' : Session σ β}
    (h : (remove name : Run σ β _).run s = some (found, s')) :
    found = s.vm.registry.contains name ∧
      ((found = true ∧ s'.vm = s.vm.remove name ∧
          s'.journal = ⟨.removed name, s'.vm⟩ :: s.journal) ∨
        (found = false ∧ s' = s)) := by
  rw [run_eq_some_iff] at h
  by_cases hcontains : s.vm.registry.contains name = true
  · rw [result_remove_of_contains hcontains] at h
    cases h
    exact ⟨hcontains.symm, .inl ⟨rfl, rfl, rfl⟩⟩
  · rw [result_remove_of_not_contains hcontains] at h
    cases h
    exact ⟨(Bool.eq_false_iff.2 hcontains).symm, .inr ⟨rfl, rfl⟩⟩

theorem result_store (source : String) (tree : Expr) (against : Option (Registry β)) :
    (store source tree against : Run σ β Entry).result s =
      (some (s.vm.store source tree).1, { s with
        vm := (s.vm.store source tree).2
        journal := ⟨.compiled source (s.vm.store source tree).1.tree against,
          (s.vm.store source tree).2⟩ :: s.journal }) := by
  unfold store
  rw [result_get_bind]
  dsimp only
  rw [result_bind, after, result_update]
  rfl

end Session

end FormulaLang
