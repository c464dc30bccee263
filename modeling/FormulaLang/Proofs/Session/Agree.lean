import FormulaLang.Proofs.Session.Run

/-!
# `Session.Agree` — two steps with the same result

Two steps `Agree` along a relation of sessions if from related sessions both run out of fuel, or
they have the same result and leave sessions that are related again. What follows two agreeing
steps has to agree only for the results that they have (`Agree.bind`); where only one side takes a
step, that step has to agree with a return (`Agree.bind_left`).
-/

namespace FormulaLang.Run

variable {σ β α γ : Type} {Same : Session σ β → Session σ β → Prop}

/-- The steps have the same result from related sessions, and where they end they leave related
    ones. -/
def Agree (Same : Session σ β → Session σ β → Prop) (x y : Run σ β α) : Prop :=
  ∀ s s', Same s s' → (x.result s).1 = (y.result s').1 ∧
    ∀ a, (x.result s).1 = some a → Same (x.after s) (y.after s')

theorem agree_pure (a : α) : Agree Same (pure a : Run σ β α) (pure a) :=
  fun _ _ h => ⟨rfl, fun _ _ => h⟩

namespace Agree

variable {x y : Run σ β α} {f g : α → Run σ β γ}

theorem bind (hxy : Agree Same x y)
    (hfg : ∀ s s' a, Same s s' → (x.result s).1 = some a → Agree Same (f a) (g a)) :
    Agree Same (x >>= f) (y >>= g) := by
  intro s s' h
  obtain ⟨hresult, hafter⟩ := hxy s s' h
  rw [after, after, result_bind, result_bind, ← hresult]
  cases ha : (x.result s).1 with
  | none => exact ⟨rfl, fun c hc => by cases hc⟩
  | some a => exact hfg s s' a h ha _ _ (hafter a ha)

theorem seq (hxy : Agree Same x y) (hfg : ∀ a, Agree Same (f a) (g a)) :
    Agree Same (x >>= f) (y >>= g) :=
  hxy.bind fun _ _ a _ _ => hfg a

/-- A step on the left alone. -/
theorem bind_left {a : α} {z : Run σ β γ} (hx : Agree Same x (pure a))
    (hf : Agree Same (f a) z) : Agree Same (x >>= f) z := by
  intro s s' h
  obtain ⟨hresult, hafter⟩ := hx s s' h
  rw [after, result_bind, hresult]
  exact hf _ _ (hafter a hresult)

end Agree

/-! ## Programs with errors -/

section
variable {ε : Type}

theorem agree_liftExcept (r : Except ε α) :
    Agree Same (liftExcept r : ExceptT ε (Run σ β) α).run
      (liftExcept r : ExceptT ε (Run σ β) α).run := by
  cases r with
  | ok a => exact agree_pure _
  | error e => exact agree_pure _

namespace Agree

variable {x y : ExceptT ε (Run σ β) α} {f g : α → ExceptT ε (Run σ β) γ}

theorem bindE (hxy : Agree Same x.run y.run)
    (hfg : ∀ s s' a, Same s s' → (x.run.result s).1 = some (.ok a) →
      Agree Same (f a).run (g a).run) :
    Agree Same (x >>= f).run (y >>= g).run := by
  refine hxy.bind fun s s' r h hr => ?_
  cases r with
  | ok a => exact hfg s s' a h hr
  | error e => exact agree_pure _

theorem seqE (hxy : Agree Same x.run y.run) (hfg : ∀ a, Agree Same (f a).run (g a).run) :
    Agree Same (x >>= f).run (y >>= g).run :=
  hxy.bindE fun _ _ a _ _ => hfg a

theorem bind_leftE {a : α} {z : ExceptT ε (Run σ β) γ} (hx : Agree Same x.run (pure (.ok a)))
    (hf : Agree Same (f a).run z.run) : Agree Same (x >>= f).run z.run :=
  bind_left hx hf

/-- Steps of the session itself have no errors. -/
theorem lift {x y : Run σ β α} (hxy : Agree Same x y)
    (hfg : ∀ a, Agree Same (f a).run (g a).run) :
    Agree Same (liftM x >>= f).run (liftM y >>= g).run := by
  show Agree Same (ExceptT.lift x >>= f).run (ExceptT.lift y >>= g).run
  rw [ExceptT.run_bind_lift, ExceptT.run_bind_lift]
  exact hxy.seq hfg

theorem lift_left {x : Run σ β α} {a : α} {z : ExceptT ε (Run σ β) γ} (hx : Agree Same x (pure a))
    (hf : Agree Same (f a).run z.run) : Agree Same (liftM x >>= f).run z.run := by
  show Agree Same (ExceptT.lift x >>= f).run z.run
  rw [ExceptT.run_bind_lift]
  exact hx.bind_left hf

end Agree

end

end FormulaLang.Run
