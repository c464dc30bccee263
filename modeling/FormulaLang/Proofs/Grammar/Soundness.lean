import FormulaLang.Proofs.Grammar.Derivation

/-!
# `Grammar.Soundness` — the parser takes only what the grammar derives

A rule of the parser turns the tokens ahead into a result and the tokens left. `Takes rule L` says
that what it has taken in between is derived by `L` and spells the result. Each combinator of the
parser has one such lemma, with the relation of its operand as hypothesis; only `expression`
recurses, on the number of groups that may still be opened, and that number bounds the nesting of
what it returns.

- **`expression_takes`**: with room for `room` groups the parser returns trees that nest no
  deeper.
-/

namespace FormulaLang

/-- Inverts one step of a `do` block. -/
theorem Except.bind_eq_ok {ε α β : Type} {x : Except ε α} {f : α → Except ε β} {b : β} :
    x >>= f = .ok b ↔ ∃ a, x = .ok a ∧ f a = .ok b := by
  cases x <;> simp [bind, Except.bind]

theorem Operator.ofSymbol?_eq_some_iff {text : String} {op : Operator} :
    Operator.ofSymbol? text = some op ↔ text = op.symbol := by
  constructor
  · intro h
    unfold Operator.ofSymbol? at h
    split at h <;> cases h <;> rfl
  · rintro rfl
    exact Operator.ofSymbol?_symbol op

theorem Sign.ofSymbol?_eq_some_iff {text : String} {sign : Sign} :
    Sign.ofSymbol? text = some sign ↔ text = sign.symbol := by
  constructor
  · intro h
    unfold Sign.ofSymbol? at h
    split at h <;> cases h <;> rfl
  · rintro rfl
    exact Sign.ofSymbol?_symbol sign

namespace Parser
open Grammar

/-! ## Single tokens -/

theorem operator?_eq_some_iff {p : Priority} {ts : List Token} {op : Operator} :
    operator? p ts = some op ↔
      ∃ token us, ts = token :: us ∧ IsSymbol token op.symbol ∧ op.priority = p := by
  cases ts with
  | nil => simp [operator?]
  | cons token us =>
      simp only [operator?, IsSymbol, List.cons.injEq]
      by_cases hkind : token.kind = .operator
      · simp [hkind, Option.filter_eq_some_iff, Operator.ofSymbol?_eq_some_iff, Priority.accepts]
      · simp [hkind]

theorem sign?_eq_some_iff {ts : List Token} {sign : Sign} :
    sign? ts = some sign ↔ ∃ token us, ts = token :: us ∧ IsSymbol token sign.symbol := by
  cases ts with
  | nil => simp [sign?]
  | cons token us =>
      simp only [sign?, IsSymbol, List.cons.injEq]
      by_cases hkind : token.kind = .operator
      · simp [hkind, Sign.ofSymbol?_eq_some_iff]
      · simp [hkind]

theorem paren_eq_ok_iff {c : Char} {expected : Expected} {ts rest : List Token} {u : Unit} :
    paren c expected ts = .ok (u, rest) ↔
      ∃ token, ts = token :: rest ∧ token.isControl c = true := by
  cases ts with
  | nil => simp [paren, next, bind, Except.bind]
  | cons token us =>
      simp only [paren, next, bind, Except.bind, List.cons.injEq]
      constructor
      · intro hrun
        split at hrun
        · rename_i h
          cases hrun
          exact ⟨token, ⟨rfl, rfl⟩, h⟩
        · cases hrun
      · rintro ⟨_, ⟨rfl, rfl⟩, h⟩
        simp [h]

/-! ## Rules -/

/-- What `rule` takes of the tokens ahead is derived by `L`, and spells its result. -/
def Takes {α : Type} (rule : Parser α) (L : List Token → α → Prop) : Prop :=
  ∀ ⦃ts a rest⦄, rule ts = .ok (a, rest) → ∃ us, ts = us ++ rest ∧ L us a

/-- `L`, restricted to trees with at most `room` groups inside one another. -/
def Shallow (room : Nat) (L : List Token → Expr → Prop) (ts : List Token) (e : Expr) : Prop :=
  L ts e ∧ e.nesting ≤ room

variable {limit room : Nat} {p : Priority} {operand atom expression : Parser Expr}

theorem steps_takes (h : Takes operand (Shallow room (Lower p))) (count : Nat) :
    Takes (steps p operand count)
      (fun ts steps => Steps p ts steps ∧ ∀ step ∈ steps, step.2.nesting ≤ room) := by
  -- the count bounds the rounds of the loop; soundness does not ask whether it is enough
  induction count with
  | zero =>
      intro ts steps rest hrun
      cases hrun
      exact ⟨[], rfl, .nil, by simp⟩
  | succ count ih =>
      intro ts more rest hrun
      rw [Parser.steps] at hrun
      split at hrun
      · cases hrun
        exact ⟨[], rfl, .nil, by simp⟩
      · rename_i op hop
        obtain ⟨token, us, rfl, hsymbol, hlevel⟩ := operator?_eq_some_iff.1 hop
        obtain ⟨⟨e, ts₁⟩, he, hrun⟩ := Except.bind_eq_ok.1 hrun
        obtain ⟨⟨later, ts₂⟩, hlater, hrun⟩ := Except.bind_eq_ok.1 hrun
        cases hrun
        obtain ⟨vs, rfl, hoperand, hnest⟩ := h he
        obtain ⟨ws, rfl, hsteps, hnests⟩ := ih hlater
        exact ⟨token :: (vs ++ ws), by simp, .cons hsymbol hlevel hoperand hsteps,
          List.forall_mem_cons.2 ⟨hnest, hnests⟩⟩

theorem run_takes (h : Takes operand (Shallow room (Lower p))) :
    Takes (run p operand) (Shallow room (Binary p)) := by
  intro ts e rest hrun
  obtain ⟨⟨left, ts₁⟩, hleft, hrun⟩ := Except.bind_eq_ok.1 hrun
  obtain ⟨⟨more, ts₂⟩, hmore, hrun⟩ := Except.bind_eq_ok.1 hrun
  cases hrun
  obtain ⟨us, rfl, hfirst, hnest⟩ := h hleft
  obtain ⟨vs, rfl, hsteps, hnests⟩ := steps_takes h _ hmore
  exact ⟨us ++ vs, by simp, .run hfirst hsteps, Expr.nesting_run_le.2 ⟨hnest, hnests⟩⟩

theorem signed_takes (h : Takes atom (Shallow room Atom)) :
    Takes (signed atom) (Shallow room Signed) := by
  intro ts e rest hrun
  rw [signed] at hrun
  split at hrun
  · obtain ⟨us, rfl, hatom, hnest⟩ := h hrun
    exact ⟨us, rfl, .atom hatom, hnest⟩
  · rename_i sign hsign
    obtain ⟨token, us, rfl, hsymbol⟩ := sign?_eq_some_iff.1 hsign
    obtain ⟨⟨operand, ts₁⟩, hoperand, hrun⟩ := Except.bind_eq_ok.1 hrun
    cases hrun
    obtain ⟨vs, rfl, hatom, hnest⟩ := h hoperand
    exact ⟨token :: vs, rfl, .sign hsymbol hatom, hnest⟩

theorem levels_takes (h : Takes atom (Shallow room Atom)) :
    Takes (levels atom) (Shallow room Expression) := by
  have hsigned : Takes (signed atom) (Shallow room (Lower .multiplicative)) := by
    intro ts e rest hrun
    obtain ⟨us, hts, hsigned, hnest⟩ := signed_takes h hrun
    exact ⟨us, hts, lower_multiplicative.2 hsigned, hnest⟩
  have hproduct : Takes (run .multiplicative (signed atom)) (Shallow room (Lower .additive)) := by
    intro ts e rest hrun
    obtain ⟨us, hts, hbinary, hnest⟩ := run_takes hsigned hrun
    exact ⟨us, hts, lower_additive.2 hbinary, hnest⟩
  exact run_takes hproduct

theorem moreArguments_takes (h : Takes expression (Shallow room Expression)) (count : Nat) :
    Takes (moreArguments expression count)
      (fun ts es => MoreArguments ts es ∧ ∀ e ∈ es, e.nesting ≤ room) := by
  induction count with
  | zero =>
      intro ts es rest hrun
      cases hrun
      exact ⟨[], rfl, .nil, by simp⟩
  | succ count ih =>
      intro ts es rest hrun
      rw [moreArguments] at hrun
      split at hrun
      · rename_i hcomma
        obtain ⟨token, us, rfl⟩ : ∃ token us, ts = token :: us := by
          cases ts with
          | nil => simp [isComma] at hcomma
          | cons token us => exact ⟨token, us, rfl⟩
        obtain ⟨⟨e, ts₁⟩, he, hrun⟩ := Except.bind_eq_ok.1 hrun
        obtain ⟨⟨later, ts₂⟩, hlater, hrun⟩ := Except.bind_eq_ok.1 hrun
        cases hrun
        obtain ⟨vs, rfl, hargument, hnest⟩ := h he
        obtain ⟨ws, rfl, hmore, hnests⟩ := ih hlater
        have hkind : token.kind = .comma := by simpa [isComma] using hcomma
        exact ⟨token :: (vs ++ ws), by simp, .cons hkind hargument hmore,
          List.forall_mem_cons.2 ⟨hnest, hnests⟩⟩
      · cases hrun
        exact ⟨[], rfl, .nil, by simp⟩

theorem arguments_takes (h : Takes expression (Shallow room Expression)) :
    Takes (arguments expression)
      (fun ts es => Arguments ts es ∧ ∀ e ∈ es, e.nesting ≤ room) := by
  intro ts es rest hrun
  rw [arguments] at hrun
  split at hrun
  · cases hrun
    exact ⟨[], rfl, .none, by simp⟩
  · obtain ⟨⟨e, ts₁⟩, he, hrun⟩ := Except.bind_eq_ok.1 hrun
    obtain ⟨⟨later, ts₂⟩, hlater, hrun⟩ := Except.bind_eq_ok.1 hrun
    cases hrun
    obtain ⟨us, rfl, hfirst, hnest⟩ := h he
    obtain ⟨vs, rfl, hmore, hnests⟩ := moreArguments_takes h _ hlater
    exact ⟨us ++ vs, by simp, .some hfirst hmore, List.forall_mem_cons.2 ⟨hnest, hnests⟩⟩

/-- After the name of a function comes the rest of a call, one group deeper than its arguments. -/
theorem call_takes (h : Takes expression (Shallow room Expression)) {name : Token}
    (hname : name.kind = .functionName) :
    Takes (call expression name.text)
      (fun ts e => Shallow (room + 1) Atom (name :: ts) e) := by
  intro ts e rest hrun
  obtain ⟨⟨u, ts₁⟩, hopen, hrun⟩ := Except.bind_eq_ok.1 hrun
  obtain ⟨⟨args, ts₂⟩, hargs, hrun⟩ := Except.bind_eq_ok.1 hrun
  obtain ⟨⟨v, ts₃⟩, hclose, hrun⟩ := Except.bind_eq_ok.1 hrun
  cases hrun
  obtain ⟨opening, rfl, hopening⟩ := paren_eq_ok_iff.1 hopen
  obtain ⟨closing, rfl, hclosing⟩ := paren_eq_ok_iff.1 hclose
  obtain ⟨us, rfl, harguments, hnests⟩ := arguments_takes h hargs
  refine ⟨opening :: (us ++ [closing]), by simp, .call hname hopening harguments hclosing, ?_⟩
  simpa [Expr.nesting] using Expr.argsNesting_le.2 hnests

theorem group_takes (h : Takes expression (Shallow room Expression)) {opening : Token}
    (hopening : opening.isControl '(') :
    Takes (group expression) (fun ts e => Shallow (room + 1) Atom (opening :: ts) e) := by
  intro ts e rest hrun
  obtain ⟨⟨inner, ts₁⟩, hinner, hrun⟩ := Except.bind_eq_ok.1 hrun
  obtain ⟨⟨v, ts₂⟩, hclose, hrun⟩ := Except.bind_eq_ok.1 hrun
  cases hrun
  obtain ⟨closing, rfl, hclosing⟩ := paren_eq_ok_iff.1 hclose
  obtain ⟨us, rfl, hexpression, hnest⟩ := h hinner
  exact ⟨us ++ [closing], by simp, .group hopening hexpression hclosing, Nat.succ_le_succ hnest⟩

theorem grouped_eq_ok_iff {inner : Option (Parser Expr)} {opening : Token}
    {rule : Parser Expr → Parser Expr} {ts rest : List Token} {e : Expr} :
    grouped limit inner opening rule ts = .ok (e, rest) ↔
      ∃ expression, inner = some expression ∧ rule expression ts = .ok (e, rest) := by
  cases inner <;> simp [grouped]

/-- An atom nests one group deeper than the expressions that `inner` reads, if it reads any. -/
theorem atom_takes {inner : Option (Parser Expr)}
    (h : ∀ expression, inner = some expression →
      ∃ below, room = below + 1 ∧ Takes expression (Shallow below Expression)) :
    Takes (Parser.atom limit inner) (Shallow room Atom) := by
  intro ts e rest hrun
  obtain ⟨⟨token, us⟩, hnext, hkinds⟩ := Except.bind_eq_ok.1 hrun
  obtain rfl : ts = token :: us := by
    cases ts <;> cases hnext
    rfl
  dsimp only at hkinds
  split at hkinds
  · rename_i hkind
    cases hkinds
    exact ⟨[token], rfl, .variable hkind, Nat.zero_le _⟩
  · rename_i hkind
    cases hkinds
    exact ⟨[token], rfl, by simpa [unquote] using Atom.string hkind, Nat.zero_le _⟩
  · rename_i hkind
    split at hkinds
    · rename_i n hn
      cases hkinds
      exact ⟨[token], rfl, .number hkind hn, Nat.zero_le _⟩
    · cases hkinds
  · rename_i hkind
    -- a group is opened only where there is room for one, so what is inside has one group less
    obtain ⟨expression, hinner, hrun⟩ := grouped_eq_ok_iff.1 hkinds
    obtain ⟨below, rfl, hexpression⟩ := h expression hinner
    obtain ⟨vs, rfl, hcall⟩ := call_takes hexpression hkind hrun
    exact ⟨token :: vs, rfl, hcall⟩
  · split at hkinds
    · rename_i hopening
      obtain ⟨expression, hinner, hrun⟩ := grouped_eq_ok_iff.1 hkinds
      obtain ⟨below, rfl, hexpression⟩ := h expression hinner
      obtain ⟨vs, rfl, hgroup⟩ := group_takes hexpression hopening hrun
      exact ⟨token :: vs, rfl, hgroup⟩
    · cases hkinds

/-- **What the parser takes is an expression that keeps within the room for groups.** -/
theorem expression_takes (limit room : Nat) :
    Takes (Parser.expression limit room) (Shallow room Expression) := by
  induction room with
  | zero =>
      intro ts e rest hrun
      rw [Parser.expression] at hrun
      exact levels_takes (atom_takes (by simp)) hrun
  | succ room ih =>
      intro ts e rest hrun
      rw [Parser.expression] at hrun
      refine levels_takes (atom_takes ?_) hrun
      rintro expression hexpression
      obtain rfl := Option.some.inj hexpression
      exact ⟨room, rfl, ih⟩

end Parser

end FormulaLang
