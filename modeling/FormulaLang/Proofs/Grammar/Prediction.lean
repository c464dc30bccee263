import FormulaLang.Proofs.Grammar.Completeness

/-!
# `Grammar.Prediction` — rules that look one token ahead

A rule of the parser decides by the next token only, and it never takes back what it has taken. Two
things follow for a rule that takes what `L` derives. Where it succeeds, it succeeds in the same way
before any other tokens that begin alike (`Steady`). Where it fails, the tokens before the one that
the error points at can be completed to something that `L` derives, while that token makes the rule
fail whatever comes behind it; an error at the end of the tokens points at none, and all of them can
be completed (`Fault`).

Both are shown here for the ways in which rules are put together.

## Contents
- **`Predictive`**: what rules take, that they are steady, and where they fail.
- **Sequences.** `Locates.bind` and `Locates.map`.
- **Loops.** `many` is the loop behind runs of operators and lists of arguments.
-/

namespace FormulaLang

/-- The error points at the token: it tells its position, and its text if it tells one. -/
def SyntaxError.PointsAt : SyntaxError → Token → Prop
  | .unexpectedToken _ found position, token => found = token.text ∧ position = token.position
  | .trailingInput found position, token => found = token.text ∧ position = token.position
  | .invalidNumber found position, token => found = token.text ∧ position = token.position
  | .nestingTooDeep _ position, token => position = token.position
  | .unexpectedEnd _, _ => False

theorem Except.bind_eq_error {ε α β : Type} {x : Except ε α} {f : α → Except ε β} {error : ε} :
    x >>= f = .error error ↔ x = .error error ∨ ∃ a, x = .ok a ∧ f a = .error error := by
  cases x <;> simp [bind, Except.bind]

namespace Parser

variable {α β κ : Type}

/-! ## What a rule may do -/

/-- Tokens can be added so that `L` derives the list. -/
def Viable (L : List Token → α → Prop) (ts : List Token) : Prop := ∃ us a, L (ts ++ us) a

theorem Viable.of_append {L : List Token → α → Prop} {ts us : List Token}
    (h : Viable L (ts ++ us)) : Viable L ts := by
  obtain ⟨vs, a, ha⟩ := h
  exact ⟨us ++ vs, a, by rwa [← List.append_assoc]⟩

theorem viable_of_derived {L : List Token → α → Prop} {ts : List Token} {a : α} (h : L ts a) :
    Viable L ts := ⟨[], a, by rwa [List.append_nil]⟩

/-- Where `rule` succeeds, only the next of the tokens left may have been looked at. -/
def Steady (rule : Parser α) : Prop :=
  ∀ ⦃ts a rest⦄, rule ts = .ok (a, rest) → ∃ us, ts = us ++ rest ∧
    ∀ rest', rest'.head? = rest.head? → rule (us ++ rest') = .ok (a, rest')

/-- Why and where `rule` fails on `ts`. -/
inductive Fault (rule : Parser α) (L : List Token → α → Prop) (ts : List Token) :
    SyntaxError → Prop where
  /-- The tokens end too early. -/
  | atEnd {expected} (viable : Viable L ts) : Fault rule L ts (.unexpectedEnd expected)
  /-- The tokens before `token` are fine, and nothing behind it can mend it. -/
  | atToken (before : List Token) {token after error} (split : ts = before ++ token :: after)
      (points : error.PointsAt token) (viable : Viable L before)
      (final : ∀ us, rule (before ++ token :: us) = .error error) : Fault rule L ts error

/-- The errors of `rule` say where it fails. -/
def Locates (rule : Parser α) (L : List Token → α → Prop) : Prop :=
  ∀ ⦃ts error⦄, rule ts = .error error → Fault rule L ts error

/-- `rule` takes what `L` derives, and decides by the next token. -/
structure Predictive (rule : Parser α) (L : List Token → α → Prop) : Prop where
  takes : Takes rule L
  steady : Steady rule
  locates : Locates rule L

/-- What is taken is both derived and taken before other tokens that begin alike. -/
theorem Predictive.ok {rule : Parser α} {L : List Token → α → Prop} (h : Predictive rule L)
    {ts rest : List Token} {a : α} (hrun : rule ts = .ok (a, rest)) :
    ∃ us, ts = us ++ rest ∧ L us a ∧
      ∀ rest', rest'.head? = rest.head? → rule (us ++ rest') = .ok (a, rest') := by
  obtain ⟨us, hus, hderived⟩ := h.takes hrun
  obtain ⟨vs, hvs, hsteady⟩ := h.steady hrun
  obtain rfl : us = vs := List.append_cancel_right (hus.symm.trans hvs)
  exact ⟨us, hus, hderived, hsteady⟩

/-- Tokens that begin alike still do behind the same tokens. -/
theorem head?_append_congr {us rest rest' : List Token} (h : rest'.head? = rest.head?) :
    (us ++ rest').head? = (us ++ rest).head? := by
  rw [List.head?_append, List.head?_append, h]

/-- **A part that fails makes the whole fail, at the same token.** The whole has taken `us` before
    the part, fails with it, and can be completed from what the part can be completed to. -/
theorem Fault.within {part : Parser α} {L : List Token → α → Prop} {whole : Parser β}
    {M : List Token → β → Prop} {vs : List Token} {error : SyntaxError} (h : Fault part L vs error)
    (us : List Token) (hfails : ∀ vs', vs'.head? = vs.head? → part vs' = .error error →
      whole (us ++ vs') = .error error)
    (hcompletes : ∀ ⦃ws a⦄, L ws a → Viable M (us ++ ws)) : Fault whole M (us ++ vs) error := by
  have hviable {ws : List Token} (hws : Viable L ws) : Viable M (us ++ ws) := by
    obtain ⟨xs, a, ha⟩ := hws
    have := hcompletes ha
    rw [← List.append_assoc] at this
    exact this.of_append
  cases h with
  | atEnd viable => exact .atEnd (hviable viable)
  | atToken before split points viable final =>
      subst split
      refine .atToken (us ++ before) (by rw [List.append_assoc]) points (hviable viable)
        fun xs => ?_
      rw [List.append_assoc]
      exact hfails _ (head?_append_congr rfl) (final xs)

/-! ## Sequences -/

theorem Steady.pure (a : α) : Steady fun ts => .ok (a, ts) := by
  intro ts a' rest h
  cases h
  exact ⟨[], rfl, fun rest' _ => rfl⟩

theorem Steady.bind {r : Parser α} {f : α → Parser β} (hr : Steady r) (hf : ∀ a, Steady (f a)) :
    Steady fun ts => r ts >>= fun x => f x.1 x.2 := by
  intro ts b rest h
  obtain ⟨⟨a, mid⟩, hmid, hrest⟩ := Except.bind_eq_ok.1 h
  obtain ⟨us, rfl, hus⟩ := hr hmid
  obtain ⟨vs, rfl, hvs⟩ := hf a hrest
  refine ⟨us ++ vs, by rw [List.append_assoc], fun rest' hhead => ?_⟩
  rw [List.append_assoc]
  exact Except.bind_eq_ok.2 ⟨_, hus _ (head?_append_congr hhead), hvs _ hhead⟩

theorem Steady.map {r : Parser α} (hr : Steady r) (g : α → β) :
    Steady fun ts => r ts >>= fun x => .ok (g x.1, x.2) :=
  hr.bind fun a => .pure (g a)

theorem Locates.bind {r : Parser α} {L : List Token → α → Prop} {f : α → Parser β}
    {M : List Token → β → Prop} (hr : Predictive r L)
    (hf : ∀ us a, L us a → Locates (f a) fun vs b => M (us ++ vs) b)
    (hcompletes : ∀ us a, L us a → Viable M us) :
    Locates (fun ts => r ts >>= fun x => f x.1 x.2) M := by
  intro ts error h
  rcases Except.bind_eq_error.1 h with hfirst | ⟨⟨a, rest⟩, hfirst, hlater⟩
  · refine (hr.locates hfirst).within [] (fun vs' _ hvs' => ?_) hcompletes
    exact Except.bind_eq_error.2 (.inl hvs')
  · obtain ⟨us, rfl, hus, hsteady⟩ := hr.ok hfirst
    refine (hf us a hus hlater).within us (fun vs' hhead hvs' => ?_)
      fun ws b hb => viable_of_derived hb
    exact Except.bind_eq_error.2 (.inr ⟨_, hsteady vs' hhead, hvs'⟩)

theorem Locates.map {r : Parser α} {L : List Token → α → Prop} (hr : Locates r L) {g : α → β}
    {M : List Token → β → Prop} (hg : ∀ ⦃us a⦄, L us a → M us (g a)) :
    Locates (fun ts => r ts >>= fun x => .ok (g x.1, x.2)) M := by
  intro ts error h
  rcases Except.bind_eq_error.1 h with hfails | ⟨_, _, hok⟩
  · refine (hr hfails).within [] (fun vs' _ hvs' => ?_)
      fun ws a ha => viable_of_derived (hg ha)
    exact Except.bind_eq_error.2 (.inl hvs')
  · cases hok

/-! ## First tokens -/

/-- The token is wrong whatever follows, or it decides how `rule` goes on behind it. -/
inductive Decides (rule : Parser α) (L : List Token → α → Prop) (token : Token) : Prop where
  | wrong (error : SyntaxError) (points : error.PointsAt token)
      (fails : ∀ ts, rule (token :: ts) = .error error)
  | goesOn {next : Parser α} (eq : ∀ ts, rule (token :: ts) = next ts) (steady : Steady next)
      (locates : Locates next fun ts a => L (token :: ts) a)

/-- Nothing is left to decide. -/
theorem Decides.enough {rule : Parser α} {L : List Token → α → Prop} {token : Token} {a : α}
    (h : ∀ ts, rule (token :: ts) = .ok (a, ts)) : Decides rule L token :=
  .goesOn h (.pure a) fun _ _ hrun => by cases hrun

/-- A rule that begins with a token is predictive if each token is wrong or decides. -/
theorem Predictive.of_first {rule : Parser α} {L : List Token → α → Prop} (expected : Expected)
    (takes : Takes rule L) (hnil : rule [] = .error (.unexpectedEnd expected))
    (hviable : Viable L []) (hfirst : ∀ token, Decides rule L token) : Predictive rule L where
  takes := takes
  steady := by
    intro ts a rest hrun
    cases ts with
    | nil => cases hnil.symm.trans hrun
    | cons token ts =>
        cases hfirst token with
        | wrong _ _ fails => cases (fails ts).symm.trans hrun
        | goesOn eq steady _ =>
            rw [eq] at hrun
            obtain ⟨us, rfl, hus⟩ := steady hrun
            refine ⟨token :: us, rfl, fun rest' hhead => ?_⟩
            rw [List.cons_append, eq]
            exact hus rest' hhead
  locates := by
    intro ts error hrun
    cases ts with
    | nil =>
        cases hnil.symm.trans hrun
        exact .atEnd hviable
    | cons token ts =>
        cases hfirst token with
        | wrong _ points fails =>
            cases (fails ts).symm.trans hrun
            exact .atToken [] rfl points hviable fails
        | goesOn eq _ locates =>
            rw [eq] at hrun
            refine (locates hrun).within [token] (fun vs' _ hvs' => ?_)
              fun us a ha => viable_of_derived ha
            rw [List.singleton_append, eq]
            exact hvs'

/-! ## Loops -/

/-- Items, each after a token that `look` asks for, and at most `count` of them. -/
def many (look : List Token → Option κ) (item : Parser α) (mk : κ → α → β) :
    Nat → Parser (List β)
  | 0, ts => .ok ([], ts)
  | count + 1, ts =>
    match look ts with
    | none => .ok ([], ts)
    | some k => item ts.tail >>= fun x =>
        many look item mk count x.2 >>= fun y => .ok (mk k x.1 :: y.1, y.2)

section
variable {look : List Token → Option κ} {item : Parser α} {mk : κ → α → β}
  {L : List Token → α → Prop} {M : List Token → List β → Prop}

/-- More turns than there are tokens change nothing. -/
theorem many_succ (hnone : look [] = none) (hitem : Takes item L) {count : Nat} {ts : List Token}
    (h : ts.length ≤ count) : many look item mk (count + 1) ts = many look item mk count ts := by
  induction count generalizing ts with
  | zero =>
      obtain rfl := List.length_eq_zero_iff.1 (Nat.le_zero.1 h)
      simp [many, hnone]
  | succ count ih =>
      rw [many, many]
      cases hlook : look ts with
      | none => rfl
      | some k =>
          simp only
          cases hrun : item ts.tail with
          | error error => rfl
          | ok result =>
              obtain ⟨us, hus, -⟩ := hitem hrun
              have hlength := congrArg List.length hus
              simp only [List.length_tail, List.length_append] at hlength
              simp only [bind, Except.bind]
              rw [ih (by omega)]

/-- Items to the end of the loop. -/
def all (look : List Token → Option κ) (item : Parser α) (mk : κ → α → β) : Parser (List β) :=
  fun ts => many look item mk ts.length ts

theorem many_eq_all (hnone : look [] = none) (hitem : Takes item L) {count : Nat} {ts : List Token}
    (h : ts.length ≤ count) : many look item mk count ts = all look item mk ts := by
  induction h with
  | refl => rfl
  | step hle ih => rw [many_succ hnone hitem hle, ih]

/-- One turn of a loop that has turns enough. -/
theorem all_eq (hnone : look [] = none) (hitem : Takes item L) (ts : List Token) :
    all look item mk ts =
      match look ts with
      | none => .ok ([], ts)
      | some k => item ts.tail >>= fun x =>
          all look item mk x.2 >>= fun y => .ok (mk k x.1 :: y.1, y.2) := by
  rw [← many_eq_all hnone hitem (Nat.le_succ ts.length), many]
  cases look ts with
  | none => rfl
  | some k =>
      simp only
      cases hrun : item ts.tail with
      | error error => rfl
      | ok result =>
          obtain ⟨us, hus, -⟩ := hitem hrun
          have hlength := congrArg List.length hus
          simp only [List.length_tail, List.length_append] at hlength
          simp only [bind, Except.bind]
          rw [many_eq_all hnone hitem (by omega)]

variable (hlook : ∀ ts ts', ts'.head? = ts.head? → look ts' = look ts) (hnone : look [] = none)
include hlook hnone

theorem all_steady (h : Predictive item L) : Steady (all look item mk) := by
  intro ts
  -- each turn leaves fewer tokens
  induction hn : ts.length using Nat.strongRecOn generalizing ts with
  | ind n ih =>
      subst hn
      intro bs rest hrun
      rw [all_eq hnone h.takes] at hrun
      cases hnext : look ts with
      | none =>
          simp only [hnext] at hrun
          cases hrun
          refine ⟨[], rfl, fun rest' hhead => ?_⟩
          rw [List.nil_append, all_eq hnone h.takes, hlook _ _ hhead, hnext]
      | some k =>
          simp only [hnext] at hrun
          cases ts with
          | nil => cases hnone.symm.trans hnext
          | cons token ts =>
              obtain ⟨⟨a, mid⟩, hitem, hrun⟩ := Except.bind_eq_ok.1 hrun
              obtain ⟨⟨bs, rest⟩, hmore, hrun⟩ := Except.bind_eq_ok.1 hrun
              cases hrun
              obtain ⟨us, rfl, hus⟩ : ∃ us, ts = us ++ mid ∧ _ := h.steady hitem
              have hshorter : mid.length < (token :: (us ++ mid)).length := by
                rw [List.length_cons, List.length_append]
                omega
              obtain ⟨vs, rfl, hvs⟩ := ih mid.length hshorter rfl hmore
              refine ⟨token :: (us ++ vs), by simp, fun rest' hhead => ?_⟩
              rw [List.cons_append, List.append_assoc, all_eq hnone h.takes,
                hlook (token :: (us ++ (vs ++ rest))) (token :: (us ++ (vs ++ rest'))) rfl, hnext]
              exact Except.bind_eq_ok.2 ⟨_, hus _ (head?_append_congr hhead),
                Except.bind_eq_ok.2 ⟨_, hvs _ hhead, rfl⟩⟩

/-- A loop fails where one of its items does. What is left out behind it may end the loop, so its
    beginning is completed by completing the item. -/
theorem all_locates (h : Predictive item L) (hnil : M [] [])
    (hcons : ∀ ⦃token us vs k a bs⦄, look (token :: us) = some k → L us a → M vs bs →
      M (token :: (us ++ vs)) (mk k a :: bs)) : Locates (all look item mk) M := by
  intro ts
  induction hn : ts.length using Nat.strongRecOn generalizing ts with
  | ind n ih =>
      subst hn
      intro error hrun
      rw [all_eq hnone h.takes] at hrun
      cases hnext : look ts with
      | none =>
          simp only [hnext] at hrun
          cases hrun
      | some k =>
          simp only [hnext] at hrun
          cases ts with
          | nil => cases hnone.symm.trans hnext
          | cons token ts =>
              have hagain (us : List Token) : look (token :: us) = some k := by
                rw [← hnext]
                exact hlook _ _ rfl
              rcases Except.bind_eq_error.1 hrun with hitem | ⟨⟨a, mid⟩, hitem, hlater⟩
              · refine (h.locates hitem).within [token] (fun vs' _ hvs' => ?_)
                  fun us a ha => ?_
                · rw [List.singleton_append, all_eq hnone h.takes, hagain]
                  exact Except.bind_eq_error.2 (.inl hvs')
                · have hderived := hcons (hagain us) ha hnil
                  rw [List.append_nil] at hderived
                  exact viable_of_derived hderived
              · obtain ⟨us, hts, hus, hsteady⟩ := h.ok hitem
                obtain rfl : ts = us ++ mid := hts
                have hshorter : mid.length < (token :: (us ++ mid)).length := by
                  rw [List.length_cons, List.length_append]
                  omega
                rcases Except.bind_eq_error.1 hlater with hmore | ⟨_, _, hok⟩
                · refine (ih mid.length hshorter rfl hmore).within (token :: us)
                    (fun vs' hhead hvs' => ?_) fun vs bs hbs => ?_
                  · rw [List.cons_append, all_eq hnone h.takes, hagain]
                    exact Except.bind_eq_error.2 (.inr ⟨_, hsteady vs' hhead,
                      Except.bind_eq_error.2 (.inl hvs')⟩)
                  · exact viable_of_derived (hcons (hagain us) hus hbs)
                · cases hok

end

end Parser

end FormulaLang
