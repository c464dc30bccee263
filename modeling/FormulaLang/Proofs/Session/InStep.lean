import FormulaLang.Proofs.Grammar.Guard
import FormulaLang.Proofs.Session.Run

/-!
# `Session.InStep` — two steps of which a limit may stop the first

Two steps `EndTogether` if from related sessions both end, with the same result, and leave sessions
that are related again. They `StopOrAgree` if that is so unless the first one ends with an error of
its limit, whatever the second one does then. The relation may be another one after the steps than
before, as they may change what the sessions have in common (`Session.Beside` says that it is the
host, and names the evaluators).
-/

namespace FormulaLang

variable {σ β : Type}

/-- The evaluators are these two, and the hosts are in the same state. -/
structure Session.Beside (vm vm' : Vm β) (s s' : Session σ β) : Prop where
  left : s.vm = vm
  right : s'.vm = vm'
  host : s.host = s'.host

namespace Run

variable {ε ε' α γ : Type} {Pre Mid Post : Session σ β → Session σ β → Prop}
variable {IsLimit : ε → Prop} {IsLimit' : ε' → Prop}

/-- From related sessions both steps end, with the same result, and leave related ones. -/
def EndTogether (Pre Post : Session σ β → Session σ β → Prop) (x y : Run σ β α) : Prop :=
  ∀ s s', Pre s s' → ∃ a, (x.result s).1 = some a ∧ (y.result s').1 = some a ∧
    Post (x.after s) (y.after s')

/-- From related sessions the first step ends. If it does so in any other way than with an error of
    the limit, the second one ends, too, with the same result, and they leave related sessions. -/
def StopOrAgree (Pre Post : Session σ β → Session σ β → Prop) (IsLimit : ε → Prop)
    (x y : Run σ β (Except ε α)) : Prop :=
  ∀ s s', Pre s s' → ∃ r, (x.result s).1 = some r ∧
    ((∃ e, IsLimit e ∧ r = .error e) ∨ (y.result s').1 = some r ∧ Post (x.after s) (y.after s'))

theorem EndTogether.stopOrAgree {x y : Run σ β (Except ε α)} (h : EndTogether Pre Post x y) :
    StopOrAgree Pre Post IsLimit x y := by
  intro s s' hpre
  obtain ⟨r, hx, hy, hpost⟩ := h s s' hpre
  exact ⟨r, hx, .inr ⟨hy, hpost⟩⟩

theorem endTogether_pure (a : α) : EndTogether Pre Pre (pure a) (pure a) :=
  fun _ _ h => ⟨a, rfl, rfl, h⟩

theorem EndTogether.bind {x y : Run σ β α} {f g : α → Run σ β (Except ε γ)}
    (hxy : EndTogether Pre Mid x y) (hfg : ∀ a, StopOrAgree Mid Post IsLimit (f a) (g a)) :
    StopOrAgree Pre Post IsLimit (x >>= f) (y >>= g) := by
  intro s s' hpre
  obtain ⟨a, hx, hy, hmid⟩ := hxy s s' hpre
  rw [after, after, result_bind, result_bind, hx, hy]
  exact hfg a _ _ hmid

namespace StopOrAgree

theorem same (r : Except ε α) : StopOrAgree Pre Pre IsLimit (pure r) (pure r) :=
  (endTogether_pure r).stopOrAgree

theorem mono {x y : Run σ β (Except ε α)} (h : StopOrAgree Pre Mid IsLimit x y)
    (himp : ∀ s s', Mid s s' → Post s s') : StopOrAgree Pre Post IsLimit x y := by
  intro s s' hpre
  obtain ⟨r, hx, hstopped | ⟨hy, hmid⟩⟩ := h s s' hpre
  · exact ⟨r, hx, .inl hstopped⟩
  · exact ⟨r, hx, .inr ⟨hy, himp _ _ hmid⟩⟩

/-- A look at the sessions does not change them. -/
theorem look {k k' : Session σ β → Run σ β (Except ε α)}
    (hhost : ∀ s s', Pre s s' → s.host = s'.host)
    (h : ∀ s s', Pre s s' → StopOrAgree (Session.Beside s.vm s'.vm) Post IsLimit (k s) (k' s')) :
    StopOrAgree Pre Post IsLimit (get >>= k) (get >>= k') := by
  intro s s' hpre
  rw [after, after, result_get_bind, result_get_bind]
  exact h s s' hpre s s' ⟨rfl, rfl, hhost s s' hpre⟩

theorem stops {e : ε} (h : IsLimit e) (y : Run σ β (Except ε α)) :
    StopOrAgree Pre Post IsLimit (pure (.error e)) y :=
  fun _ _ _ => ⟨.error e, rfl, .inl ⟨e, h, rfl⟩⟩

/-- What follows a step that was stopped has to be stopped by that. -/
theorem bind {x y : Run σ β (Except ε α)} {f g : Except ε α → Run σ β (Except ε' γ)}
    (hxy : StopOrAgree Pre Mid IsLimit x y)
    (hstop : ∀ e, IsLimit e → ∃ e', IsLimit' e' ∧ f (.error e) = pure (.error e'))
    (hfg : ∀ s s' r, Pre s s' → (x.result s).1 = some r →
      StopOrAgree Mid Post IsLimit' (f r) (g r)) :
    StopOrAgree Pre Post IsLimit' (x >>= f) (y >>= g) := by
  intro s s' hpre
  obtain ⟨r, hx, hstopped | ⟨hy, hmid⟩⟩ := hxy s s' hpre
  · obtain ⟨e, he, rfl⟩ := hstopped
    obtain ⟨e', he', hf⟩ := hstop e he
    rw [after, result_bind, hx]
    dsimp only
    rw [hf]
    exact ⟨.error e', rfl, .inl ⟨e', he', rfl⟩⟩
  · have hstep := hfg s s' r hpre hx
    rw [after, after, result_bind, result_bind, hx, hy]
    exact hstep _ _ hmid

/-- The second step ends, too, if it does so beside itself. -/
theorem guarded {x y : Run σ β (Except ε α)} {Pre' Post' : Session σ β → Session σ β → Prop}
    (h : StopOrAgree Pre Post IsLimit x y) (hy : StopOrAgree Pre' Post' IsLimit y y)
    {s s' : Session σ β} (hpre : Pre s s') (hpre' : Pre' s' s') :
    ∃ r r', (x.result s).1 = some r ∧ (y.result s').1 = some r' ∧ Guarded IsLimit r r' := by
  obtain ⟨r, hr, hstopped | ⟨hsame, -⟩⟩ := h s s' hpre
  · obtain ⟨r', hr', -⟩ := hy s' s' hpre'
    exact ⟨r, r', hr, hr', .inl hstopped⟩
  · exact ⟨r, r, hr, hsame, .refl r⟩

/-! ### Programs with errors -/

variable {f g : α → ExceptT ε (Run σ β) γ}

theorem bindE {x y : ExceptT ε (Run σ β) α} (hxy : StopOrAgree Pre Mid IsLimit x.run y.run)
    (hfg : ∀ s s' a, Pre s s' → (x.run.result s).1 = some (.ok a) →
      StopOrAgree Mid Mid IsLimit (f a).run (g a).run) :
    StopOrAgree Pre Mid IsLimit (x >>= f).run (y >>= g).run := by
  refine StopOrAgree.bind hxy (fun e he => ⟨e, he, rfl⟩) fun s s' r hpre hr => ?_
  cases r with
  | ok a => exact hfg s s' a hpre hr
  | error e => exact .same (.error e)

theorem seqE {x y : ExceptT ε (Run σ β) α} (hxy : StopOrAgree Pre Mid IsLimit x.run y.run)
    (hfg : ∀ a, StopOrAgree Mid Mid IsLimit (f a).run (g a).run) :
    StopOrAgree Pre Mid IsLimit (x >>= f).run (y >>= g).run :=
  hxy.bindE fun _ _ a _ _ => hfg a

/-- Steps of the session itself have no errors. -/
theorem lift {x y : Run σ β α} (hxy : EndTogether Pre Mid x y)
    (hfg : ∀ a, StopOrAgree Mid Post IsLimit (f a).run (g a).run) :
    StopOrAgree Pre Post IsLimit (liftM x >>= f).run (liftM y >>= g).run := by
  show StopOrAgree Pre Post IsLimit (ExceptT.lift x >>= f).run (ExceptT.lift y >>= g).run
  rw [ExceptT.run_bind_lift, ExceptT.run_bind_lift]
  exact hxy.bind hfg

theorem ofExcept (r : Except ε α) :
    StopOrAgree Pre Pre IsLimit (liftExcept r : ExceptT ε (Run σ β) α).run
      (liftExcept r : ExceptT ε (Run σ β) α).run := by
  cases r with
  | ok a => exact .same (.ok a)
  | error e => exact .same (.error e)

end StopOrAgree

end Run

end FormulaLang
