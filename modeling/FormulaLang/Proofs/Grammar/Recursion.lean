import FormulaLang.Proofs.Grammar.Counting
import FormulaLang.Proofs.Grammar.Soundness

/-!
# `Grammar.Recursion` — how deep the rules of the parser recurse

The parser with the counter does what the parser does that hands on how much room there is. Where
`n` groups are open the counter says `n`, and each of these groups, like the whole, has come through
seven rules at most. So `expression` is active at most once more than groups may be open, however
long the input is, and a cut-off there is never met.

The counter is put back by every rule that has a result, also after loops over operands and arguments
(`Keeps`). A rule that fails ends the run. Whenever a rule starts, the parentheses that are taken by
then and not closed again are as many as the counter says.

- **`parse_bounded`**: the result of the parser with the counter, and what its notes say.
-/

namespace FormulaLang

/-! ## Parentheses -/

/-- Of the tokens, those before `ahead` are taken, and `unclosed` of the parentheses among them are
    not closed. -/
def Unclosed (tokens : List Token) (unclosed : Nat) (ahead : List Token) : Prop :=
  ∃ taken, tokens = taken ++ ahead ∧
    taken.countP (·.isControl '(') = taken.countP (·.isControl ')') + unclosed

namespace Unclosed

variable {tokens ts : List Token} {token : Token} {n : Nat}

theorem start (tokens : List Token) : Unclosed tokens 0 tokens := ⟨[], rfl, rfl⟩

theorem isControl_eq_false {c d : Char} (h : token.isControl c = true) (hne : c ≠ d) :
    token.isControl d = false := by
  simp only [Token.isControl, Bool.and_eq_true, beq_iff_eq] at h
  simp [Token.isControl, h, hne]

theorem opening (h : Unclosed tokens n (token :: ts)) (hopening : token.isControl '(' = true) :
    Unclosed tokens (n + 1) ts := by
  obtain ⟨taken, htokens, hcount⟩ := h
  have hclosing : token.isControl ')' = false := isControl_eq_false hopening (by decide)
  refine ⟨taken ++ [token], by simp [htokens], ?_⟩
  simp only [List.countP_append, List.countP_singleton, hopening, hclosing, if_true,
    Bool.false_eq_true, if_false]
  omega

theorem closing (h : Unclosed tokens (n + 1) (token :: ts)) (hclosing : token.isControl ')' = true) :
    Unclosed tokens n ts := by
  obtain ⟨taken, htokens, hcount⟩ := h
  have hopening : token.isControl '(' = false := isControl_eq_false hclosing (by decide)
  refine ⟨taken ++ [token], by simp [htokens], ?_⟩
  simp only [List.countP_append, List.countP_singleton, hopening, hclosing, if_true,
    Bool.false_eq_true, if_false]
  omega

/-- A token that is no parenthesis opens and closes nothing. -/
theorem other (h : Unclosed tokens n (token :: ts)) (hkind : token.kind ≠ .control) :
    Unclosed tokens n ts := by
  obtain ⟨taken, htokens, hcount⟩ := h
  have hcontrol (c : Char) : token.isControl c = false := by simp [Token.isControl, hkind]
  refine ⟨taken ++ [token], by simp [htokens], ?_⟩
  simp only [List.countP_append, List.countP_singleton, hcontrol, Bool.false_eq_true, if_false]
  omega

end Unclosed

/-! ## Rules that are active -/

/-- Of the active rules `opened` have opened a group and `active` are `expression`; all in all they
    are `height`. -/
structure Active (callers : List Rule) (opened active height : Nat) : Prop where
  opened : callers.countP Rule.isGroup = opened
  active : callers.count .expression = active
  height : callers.length = height

namespace Active

variable {callers : List Rule} {opened active height : Nat}

theorem nil : Active [] 0 0 0 := ⟨rfl, rfl, rfl⟩

theorem expression (h : Active callers opened active height) :
    Active (.expression :: callers) opened (active + 1) (height + 1) := by
  refine ⟨?_, ?_, ?_⟩
  · rw [List.countP_cons, h.opened]
    rfl
  · rw [List.count_cons_self, h.active]
  · rw [List.length_cons, h.height]

/-- A rule that opens a group. -/
theorem group (h : Active callers opened active height) {rule : Rule} (hgroup : rule.isGroup = true) :
    Active (rule :: callers) (opened + 1) active (height + 1) := by
  have hrule : rule ≠ .expression := by
    rintro rfl
    cases hgroup
  refine ⟨?_, ?_, ?_⟩
  · rw [List.countP_cons_of_pos hgroup, h.opened]
  · rw [List.count_cons_of_ne hrule, h.active]
  · rw [List.length_cons, h.height]

/-- Any other rule. -/
theorem other (h : Active callers opened active height) (rule : Rule) (hrule : rule ≠ .expression)
    (hgroup : rule.isGroup = false) : Active (rule :: callers) opened active (height + 1) := by
  refine ⟨?_, ?_, ?_⟩
  · rw [List.countP_cons_of_neg (by simp [hgroup]), h.opened]
  · rw [List.count_cons_of_ne hrule, h.active]
  · rw [List.length_cons, h.height]

end Active

/-- What a note says if groups are counted right: the counter is at the number of groups that are
    open, which the limit bounds, and with it how often `expression` is active and how many rules are.
    The parentheses that are taken and not closed are those of these groups; only that of a group that
    is about to be counted is one more. -/
structure Start.Bounded (limit : Nat) (tokens : List Token) (start : Start) : Prop where
  activations : start.activations ≤ limit + 1
  counter : start.counter = start.openGroups
  within : start.counter ≤ limit
  height : start.callers.length < 8 * (limit + 1)
  unclosed : Unclosed tokens
    (start.counter + if start.rule = .parenthesized then 1 else 0) start.ahead

namespace Counting

variable {α γ : Type} {limit : Nat} {tokens : List Token} {s : State}

/-! ## Runs -/

theorem result_bind (x : Counting α) (f : α → Counting γ) (s : State) :
    (x >>= f).result s =
      match x.result s with
      | (.ok a, s') => (f a).result s'
      | (.error stop, s') => (.error stop, s') := by
  have h : (x >>= f).result s =
      match x.result s with | (r, s') => (ExceptT.bindCont f r : StateM State _) s' := rfl
  rw [h]
  rcases x.result s with ⟨_ | a, s'⟩ <;> rfl

/-- All notes so far are as they should be. -/
def Noted (limit : Nat) (tokens : List Token) (s : State) : Prop :=
  ∀ start ∈ s.starts, start.Bounded limit tokens

/-- The state of a parser where the counter says `counter` and `unclosed` parentheses are not
    closed. -/
structure Counted (limit : Nat) (tokens : List Token) (counter unclosed : Nat) (s : State) :
    Prop where
  counter : s.counter = counter
  unclosed : Unclosed tokens unclosed s.ahead
  noted : Noted limit tokens s

/-- A run ends like a rule: with the same result and the same tokens ahead, in a state of the given
    kind, or with the same error. -/
inductive Ends (limit : Nat) (tokens : List Token) (After : State → Prop) :
    Except Stop α × State → Except SyntaxError (α × List Token) → Prop where
  | ok {a s} (after : After s) : Ends limit tokens After (.ok a, s) (.ok (a, s.ahead))
  | error {e s} (noted : Noted limit tokens s) :
      Ends limit tokens After (.error (.error e), s) (.error e)

/-- From states of the first kind, the run does what the rule does and leads to the second kind. -/
def Follows (limit : Nat) (tokens : List Token) (Before After : State → Prop) (x : Counting α)
    (rule : Parser α) : Prop :=
  ∀ s, Before s → Ends limit tokens After (x.result s) (rule s.ahead)

/-- The run does what the rule does where `opened` groups are open, and leaves as many open. -/
abbrev Keeps (limit : Nat) (tokens : List Token) (opened : Nat) (x : Counting α)
    (rule : Parser α) : Prop :=
  Follows limit tokens (Counted limit tokens opened opened) (Counted limit tokens opened opened)
    x rule

variable {Before Between After : State → Prop}

theorem Ends.bind {x : Counting α} {f : α → Counting γ}
    {outcome : Except SyntaxError (α × List Token)}
    {k : α × List Token → Except SyntaxError (γ × List Token)}
    (hx : Ends limit tokens Between (x.result s) outcome)
    (hf : ∀ a s', Between s' → Ends limit tokens After ((f a).result s') (k (a, s'.ahead))) :
    Ends limit tokens After ((x >>= f).result s) (outcome >>= k) := by
  rw [result_bind]
  generalize x.result s = r at hx
  cases hx with
  | ok between => exact hf _ _ between
  | error noted => exact .error noted

theorem follows_pure (a : α) :
    Follows limit tokens After After (pure a) (fun ts => .ok (a, ts)) :=
  fun _ h => .ok h

/-- A token that is no parenthesis is dropped. -/
theorem Counted.skipped {counter unclosed : Nat} (hs : Counted limit tokens counter unclosed s)
    {token : Token} {ts : List Token} (hahead : s.ahead = token :: ts)
    (hkind : token.kind ≠ .control) :
    Counted limit tokens counter unclosed { s with ahead := s.ahead.tail } := by
  have hunclosed := hs.unclosed
  rw [hahead] at hunclosed
  refine ⟨hs.counter, ?_, hs.noted⟩
  rw [hahead]
  exact hunclosed.other hkind

/-- The tokens ahead are read without taking any. -/
theorem result_ahead_bind (f : List Token → Counting γ) (s : State) :
    (ahead >>= f).result s = (f s.ahead).result s := rfl

theorem result_skip_bind (f : Unit → Counting γ) (s : State) :
    (skip >>= f).result s = (f ()).result { s with ahead := s.ahead.tail } := rfl

/-- A rule notes that it starts, and goes on. -/
theorem Follows.started {rule : Rule} {callers : List Rule} {counter unclosed : Nat}
    {x : Counting α} {parser : Parser α}
    (h : Follows limit tokens (Counted limit tokens counter unclosed) After x parser)
    (hbounded : ∀ ts, Unclosed tokens unclosed ts →
      Start.Bounded limit tokens ⟨rule, callers, counter, ts⟩) :
    Follows limit tokens (Counted limit tokens counter unclosed) After
      (start rule callers >>= fun _ => x) parser := by
  intro s hs
  have hstart : Start.Bounded limit tokens ⟨rule, callers, s.counter, s.ahead⟩ := by
    rw [hs.counter]
    exact hbounded s.ahead hs.unclosed
  exact h { s with starts := _ :: s.starts }
    ⟨hs.counter, hs.unclosed, List.forall_mem_cons.2 ⟨hstart, hs.noted⟩⟩

/-! ## Groups that are opened and closed -/

section
variable {counter unclosed : Nat} {x : Counting α} {rule : Parser α}

/-- Where one more group may be open, the counter goes up. -/
theorem Follows.entered (hlt : counter < limit) (opening : Token)
    (h : Follows limit tokens (Counted limit tokens (counter + 1) unclosed) After x rule) :
    Follows limit tokens (Counted limit tokens counter unclosed) After
      (enter limit opening >>= fun _ => x) rule := by
  intro s hs
  have hcounter : ¬ limit ≤ s.counter := by
    rw [hs.counter]
    omega
  have henter : (enter limit opening).result s = (.ok (), { s with counter := s.counter + 1 }) := by
    show (if limit ≤ s.counter then _ else _ : Counting Unit).result s = _
    rw [if_neg hcounter]
    rfl
  rw [result_bind, henter]
  exact h _ ⟨congrArg (· + 1) hs.counter, hs.unclosed, hs.noted⟩

/-- Where no more may be open, the token that opens one is the error. -/
theorem follows_enter_full (hle : limit ≤ counter) (opening : Token) (f : Unit → Counting α) :
    Follows limit tokens (Counted limit tokens counter unclosed) After
      (enter limit opening >>= f) (fun _ => .error (.nestingTooDeep limit opening.position)) := by
  intro s hs
  have hcounter : limit ≤ s.counter := by
    rw [hs.counter]
    exact hle
  have henter : (enter limit opening).result s =
      (.error (.error (.nestingTooDeep limit opening.position)), s) := by
    show (if limit ≤ s.counter then _ else _ : Counting Unit).result s = _
    rw [if_pos hcounter]
    rfl
  rw [result_bind, henter]
  exact .error hs.noted

theorem Follows.left
    (h : Follows limit tokens (Counted limit tokens counter unclosed) After x rule) :
    Follows limit tokens (Counted limit tokens (counter + 1) unclosed) After
      (leave >>= fun _ => x) rule := by
  intro s hs
  have hcounter : s.counter - 1 = counter := by
    rw [hs.counter]
    rfl
  exact h { s with counter := s.counter - 1 } ⟨hcounter, hs.unclosed, hs.noted⟩

/-- A parenthesis is taken, or is the error. -/
theorem follows_paren {c : Char} {unclosed' : Nat} (expected : Expected)
    (htake : ∀ token ts, token.isControl c = true → Unclosed tokens unclosed (token :: ts) →
      Unclosed tokens unclosed' ts) :
    Follows limit tokens (Counted limit tokens counter unclosed)
      (Counted limit tokens counter unclosed') (paren c expected) (Parser.paren c expected) := by
  intro s hs
  obtain ⟨ahead, counter, starts⟩ := s
  cases ahead with
  | nil => exact .error hs.noted
  | cons token ts =>
      have hrule : Parser.paren c expected (token :: ts) =
          if token.isControl c then .ok ((), ts)
          else .error (Parser.unexpected expected token) := rfl
      have hrun : (paren c expected).result ⟨token :: ts, counter, starts⟩ =
          (if token.isControl c then pure () else fail (Parser.unexpected expected token) :
            Counting Unit).result ⟨ts, counter, starts⟩ := rfl
      rw [hrule, hrun]
      by_cases hc : token.isControl c = true
      · rw [if_pos hc, if_pos hc]
        exact .ok (s := ⟨ts, counter, starts⟩) ⟨hs.counter, htake token ts hc hs.unclosed, hs.noted⟩
      · rw [if_neg hc, if_neg hc]
        exact .error hs.noted

end

/-! ## Loops -/

section
variable {opened : Nat} {operand expression : Counting Expr} {operand' expression' : Parser Expr}

theorem steps_keeps (h : Keeps limit tokens opened operand operand') (p : Priority) (count : Nat) :
    Keeps limit tokens opened (steps p operand count) (Parser.steps p operand' count) := by
  induction count with
  | zero => exact follows_pure []
  | succ count ih =>
      intro s hs
      rw [steps, Parser.steps, result_ahead_bind]
      cases hop : Parser.operator? p s.ahead with
      | none => exact .ok hs
      | some op =>
          obtain ⟨token, ts, hahead, hsymbol, -⟩ := Parser.operator?_eq_some_iff.1 hop
          have hskipped := hs.skipped hahead (by simp [hsymbol.1])
          show Ends limit tokens _ ((skip >>= fun _ => _).result s) _
          rw [result_skip_bind]
          refine Ends.bind (h _ hskipped) fun e s' hs' => ?_
          exact Ends.bind (ih s' hs') fun rest s'' hs'' => .ok hs''

theorem exists_of_isComma {ts : List Token} (h : Parser.isComma ts = true) :
    ∃ token us, ts = token :: us ∧ token.kind = .comma := by
  cases ts with
  | nil => cases h
  | cons token us => exact ⟨token, us, rfl, by simpa [Parser.isComma] using h⟩

theorem moreArguments_keeps (h : Keeps limit tokens opened expression expression') (count : Nat) :
    Keeps limit tokens opened (moreArguments expression count)
      (Parser.moreArguments expression' count) := by
  induction count with
  | zero => exact follows_pure []
  | succ count ih =>
      intro s hs
      rw [moreArguments, Parser.moreArguments, result_ahead_bind]
      by_cases hcomma : Parser.isComma s.ahead = true
      · rw [if_pos hcomma, if_pos hcomma]
        obtain ⟨token, ts, hahead, hkind⟩ := exists_of_isComma hcomma
        have hskipped := hs.skipped hahead (by simp [hkind])
        rw [result_skip_bind]
        refine Ends.bind (h _ hskipped) fun e s' hs' => ?_
        exact Ends.bind (ih s' hs') fun es s'' hs'' => .ok hs''
      · rw [if_neg hcomma, if_neg hcomma]
        exact .ok hs

theorem arguments_keeps (h : Keeps limit tokens opened expression expression') :
    Keeps limit tokens opened (arguments expression) (Parser.arguments expression') := by
  intro s hs
  rw [arguments, Parser.arguments, result_ahead_bind]
  by_cases hclosing : Parser.isParen ')' s.ahead = true
  · rw [if_pos hclosing, if_pos hclosing]
    exact .ok hs
  · rw [if_neg hclosing, if_neg hclosing]
    refine Ends.bind (h s hs) fun e s' hs' => ?_
    rw [result_ahead_bind]
    exact Ends.bind (moreArguments_keeps h _ s' hs') fun es s'' hs'' => .ok hs''

end

/-! ## Rules -/

/-- The rules that are active where `opened` groups are open and `below` rules have started since the
    last of them was opened, the first of these being `expression`. -/
abbrev Below (opened below : Nat) (callers : List Rule) : Prop :=
  Active callers opened (opened + 1) (8 * opened + below)

/-- A rule that starts there does what the rule of the parser does. -/
def KeepsBelow (limit : Nat) (tokens : List Token) (opened below : Nat)
    (x : List Rule → Counting α) (rule : Parser α) : Prop :=
  ∀ callers, Below opened below callers → Keeps limit tokens opened (x callers) rule

section
variable {opened below : Nat} {operand : List Rule → Counting Expr} {operand' : Parser Expr}

/-- What a rule other than `expression` notes when it starts. -/
theorem Below.bounded {callers : List Rule} (h : Below opened below callers)
    (hopened : opened ≤ limit) (hbelow : below ≤ 7) (rule : Rule) (hrule : rule ≠ .expression)
    (ts : List Token) (hunclosed : Unclosed tokens
      (opened + if rule = .parenthesized then 1 else 0) ts) :
    Start.Bounded limit tokens ⟨rule, callers, opened, ts⟩ where
  activations := by
    show (rule :: callers).count .expression ≤ limit + 1
    rw [List.count_cons_of_ne hrule, h.active]
    omega
  counter := h.opened.symm
  within := hopened
  height := by
    show callers.length < _
    rw [h.height]
    omega
  unclosed := hunclosed

theorem lower_keeps (p : Priority) (hopened : opened ≤ limit) (hbelow : below ≤ 7)
    (h : KeepsBelow limit tokens opened (below + 1) operand operand') :
    KeepsBelow limit tokens opened below (lower p operand) operand' := by
  intro callers hcallers
  have hoperand := h _ (hcallers.other (.lower p) (by simp) rfl)
  exact hoperand.started (hcallers.bounded hopened hbelow (.lower p) (by simp))

theorem binary_keeps (p : Priority) (hopened : opened ≤ limit) (hbelow : below + 1 ≤ 7)
    (h : KeepsBelow limit tokens opened (below + 2) operand operand') :
    KeepsBelow limit tokens opened below (binary p operand) (Parser.run p operand') := by
  intro callers hcallers
  have hlower := lower_keeps p hopened hbelow h _ (hcallers.other (.binary p) (by simp) rfl)
  refine Follows.started ?_ (hcallers.bounded hopened (by omega) (.binary p) (by simp))
  intro s hs
  refine Ends.bind (hlower s hs) fun left s' hs' => ?_
  rw [result_ahead_bind]
  exact Ends.bind (steps_keeps hlower p _ s' hs') fun rest s'' hs'' => .ok hs''

theorem signedAtom_keeps (hopened : opened ≤ limit) (hbelow : below ≤ 7)
    (h : KeepsBelow limit tokens opened (below + 1) operand operand') :
    KeepsBelow limit tokens opened below (signedAtom operand) (Parser.signed operand') := by
  intro callers hcallers
  have hatom := h _ (hcallers.other .signedAtom (by simp) rfl)
  refine Follows.started ?_ (hcallers.bounded hopened hbelow .signedAtom (by simp))
  intro s hs
  rw [result_ahead_bind, Parser.signed]
  cases hsign : Parser.sign? s.ahead with
  | none => exact hatom s hs
  | some sign =>
      obtain ⟨token, ts, hahead, hsymbol⟩ := Parser.sign?_eq_some_iff.1 hsign
      have hskipped := hs.skipped hahead (by simp [hsymbol.1])
      show Ends limit tokens _ ((skip >>= fun _ => _).result s) _
      rw [result_skip_bind]
      exact Ends.bind (hatom _ hskipped) fun e s' hs' => .ok hs'

end

/-! ## Groups -/

/-- A rule for whole expressions does what the rule of the parser does. -/
def KeepsInside (limit : Nat) (tokens : List Token) (opened : Nat)
    (expression : List Rule → Counting Expr) (rule : Parser Expr) : Prop :=
  ∀ callers, Active callers opened opened (8 * opened) →
    Keeps limit tokens opened (expression callers) rule

section
variable {opened : Nat} {expression : List Rule → Counting Expr} {expression' : Parser Expr}
variable {callers : List Rule}

/-- The arguments of a call are one group further in. -/
theorem functionCall_keeps (hlt : opened < limit) (hcallers : Below opened 7 callers)
    (h : KeepsInside limit tokens (opened + 1) expression expression') (name : Token) :
    Keeps limit tokens opened (functionCall limit expression name callers)
      (Parser.call expression' name.text) := by
  have hinside : Active (.functionCall :: callers) (opened + 1) (opened + 1) (8 * (opened + 1)) :=
    hcallers.group rfl
  have harguments := arguments_keeps (h _ hinside)
  refine Follows.started (Follows.entered hlt name ?_)
    (hcallers.bounded (Nat.le_of_lt hlt) (Nat.le_refl 7) .functionCall (by simp))
  intro s hs
  refine Ends.bind (follows_paren .openParen (fun _ _ => flip Unclosed.opening) s hs)
    fun _ s' hs' => ?_
  refine Ends.bind (harguments s' hs') fun args s'' hs'' => ?_
  refine Ends.bind (follows_paren .closeParenOrComma (fun _ _ => flip Unclosed.closing) s'' hs'')
    fun _ s''' hs''' => ?_
  exact (follows_pure (Expr.call name.text args)).left s''' hs'''

/-- A group in parentheses begins with the parenthesis that is taken already. -/
theorem parenthesized_keeps (hlt : opened < limit) (hcallers : Below opened 7 callers)
    (h : KeepsInside limit tokens (opened + 1) expression expression') (opening : Token) :
    Follows limit tokens (Counted limit tokens opened (opened + 1))
      (Counted limit tokens opened opened) (parenthesized limit expression opening callers)
      (Parser.group expression') := by
  have hinside : Active (.parenthesized :: callers) (opened + 1) (opened + 1) (8 * (opened + 1)) :=
    hcallers.group rfl
  refine Follows.started (Follows.entered hlt opening ?_)
    (hcallers.bounded (Nat.le_of_lt hlt) (Nat.le_refl 7) .parenthesized (by simp))
  intro s hs
  refine Ends.bind (h _ hinside s hs) fun inner s' hs' => ?_
  refine Ends.bind (follows_paren .closeParen (fun _ _ => flip Unclosed.closing) s' hs')
    fun _ s'' hs'' => ?_
  exact (follows_pure (Expr.group inner)).left s'' hs''

/-- The rule for what is inside a group is there exactly where one more group may be open. -/
def Inside (limit : Nat) (tokens : List Token) (opened : Nat)
    (expression : List Rule → Counting Expr) : Option (Parser Expr) → Prop
  | none => opened = limit
  | some rule => opened < limit ∧ KeepsInside limit tokens (opened + 1) expression rule

theorem Inside.le {inner : Option (Parser Expr)}
    (h : Inside limit tokens opened expression inner) : opened ≤ limit := by
  cases inner with
  | none => exact Nat.le_of_eq h
  | some rule => exact Nat.le_of_lt h.1

/-- Where no more groups may be open, a call ends at its name. -/
theorem grouped_functionCall_keeps {inner : Option (Parser Expr)}
    (hinner : Inside limit tokens opened expression inner) (hcallers : Below opened 7 callers)
    (name : Token) :
    Keeps limit tokens opened (functionCall limit expression name callers)
      (Parser.grouped limit inner name fun rule => Parser.call rule name.text) := by
  cases inner with
  | none =>
      refine Follows.started (follows_enter_full (Nat.le_of_eq hinner.symm) name _) ?_
      exact hcallers.bounded hinner.le (Nat.le_refl 7) .functionCall (by simp)
  | some rule => exact functionCall_keeps hinner.1 hcallers hinner.2 name

theorem grouped_parenthesized_follows {inner : Option (Parser Expr)}
    (hinner : Inside limit tokens opened expression inner) (hcallers : Below opened 7 callers)
    (opening : Token) :
    Follows limit tokens (Counted limit tokens opened (opened + 1))
      (Counted limit tokens opened opened) (parenthesized limit expression opening callers)
      (Parser.grouped limit inner opening Parser.group) := by
  cases inner with
  | none =>
      refine Follows.started (follows_enter_full (Nat.le_of_eq hinner.symm) opening _) ?_
      exact hcallers.bounded hinner.le (Nat.le_refl 7) .parenthesized (by simp)
  | some rule => exact parenthesized_keeps hinner.1 hcallers hinner.2 opening

theorem atom_keeps {inner : Option (Parser Expr)}
    (hinner : Inside limit tokens opened expression inner) :
    KeepsBelow limit tokens opened 6 (atom limit expression) (Parser.atom limit inner) := by
  intro callers hcallers
  have hbelow : Below opened 7 (.atom :: callers) := hcallers.other .atom (by simp) rfl
  refine Follows.started ?_ (hcallers.bounded hinner.le (by omega) .atom (by simp))
  intro s hs
  obtain ⟨ahead, counter, starts⟩ := s
  cases ahead with
  | nil => exact .error hs.noted
  | cons token ts =>
      have hnext : (next .expression).result ⟨token :: ts, counter, starts⟩ =
          (.ok token, ⟨ts, counter, starts⟩) := rfl
      have hrule : Parser.next .expression (token :: ts) = .ok (token, ts) := rfl
      have hskipped (hkind : token.kind ≠ .control) :
          Counted limit tokens opened opened ⟨ts, counter, starts⟩ := hs.skipped rfl hkind
      rw [result_bind, hnext, Parser.atom, hrule]
      dsimp only [bind, Except.bind]
      cases hkind : token.kind with
      | «variable» | stringLiteral =>
          exact .ok (s := ⟨ts, counter, starts⟩) (hskipped (by simp [hkind]))
      | number =>
          dsimp only
          cases Numeral.read? token.text with
          | some n => exact .ok (s := ⟨ts, counter, starts⟩) (hskipped (by simp [hkind]))
          | none => exact .error hs.noted
      | functionName =>
          exact grouped_functionCall_keeps hinner hbelow token _ (hskipped (by simp [hkind]))
      | _ =>
          -- of these only a parenthesis is an atom, and it is open before its group is counted
          dsimp only
          by_cases hopening : token.isControl '(' = true
          · rw [if_pos hopening, if_pos hopening]
            exact grouped_parenthesized_follows hinner hbelow token ⟨ts, counter, starts⟩
              ⟨hs.counter, hs.unclosed.opening hopening, hs.noted⟩
          · rw [if_neg hopening, if_neg hopening]
            exact .error hs.noted

end

/-! ## Expressions -/

/-- An expression over atoms that keep the count keeps it, too, and is one more that is active. -/
theorem levels_keeps {opened : Nat} {inner : Option (Parser Expr)}
    {nested : List Rule → Counting Expr} (hinner : Inside limit tokens opened nested inner)
    {callers : List Rule} (hcallers : Active callers opened opened (8 * opened)) :
    Keeps limit tokens opened
      (start .expression callers >>= fun _ =>
        binary .additive (binary .multiplicative (signedAtom (atom limit nested)))
          (.expression :: callers))
      (Parser.levels (Parser.atom limit inner)) := by
  have hopened := hinner.le
  have hsigned := signedAtom_keeps hopened (by omega) (atom_keeps hinner)
  have hproduct := binary_keeps .multiplicative hopened (by omega) hsigned
  have hsum := binary_keeps .additive hopened (by omega) hproduct
  refine Follows.started (hsum _ hcallers.expression) fun ts hunclosed => ⟨?_, ?_, hopened, ?_, ?_⟩
  · show (Rule.expression :: callers).count .expression ≤ limit + 1
    rw [List.count_cons_self, hcallers.active]
    omega
  · exact hcallers.opened.symm
  · show callers.length < 8 * (limit + 1)
    rw [hcallers.height]
    omega
  · exact hunclosed

/-- **Where `opened` groups are open and room for more is left, `expression` keeps the count,** and
    is active at most as often as there is room, and once more. -/
theorem expression_keeps {room opened cutoff : Nat} (hroom : opened + room = limit)
    (hcutoff : room < cutoff) :
    KeepsInside limit tokens opened (expression limit cutoff) (Parser.expression limit room) := by
  induction room generalizing opened cutoff with
  | zero =>
      intro callers hcallers
      obtain ⟨cutoff, rfl⟩ : ∃ n, cutoff = n + 1 := ⟨cutoff - 1, by omega⟩
      have hinner : Inside limit tokens opened (expression limit cutoff) none := hroom
      exact levels_keeps hinner hcallers
  | succ room ih =>
      intro callers hcallers
      obtain ⟨cutoff, rfl⟩ : ∃ n, cutoff = n + 1 := ⟨cutoff - 1, by omega⟩
      have hinner : Inside limit tokens opened (expression limit cutoff)
          (some fun ts => Parser.expression limit room ts) := by
        exact ⟨by omega, ih (by omega) (by omega)⟩
      exact levels_keeps hinner hcallers

/-! ## Parsing -/

/-- The parser with the counter comes to what the parser comes to, and notes only starts of the kind
    that is to be expected. -/
theorem whole_ends {cutoff : Nat} (hcutoff : limit < cutoff) (ts : List Token) :
    ((whole limit cutoff).result ⟨ts, 0, []⟩).1 =
        (match ts with
          | [] => .ok .empty
          | ts => do
            match ← Parser.expression limit limit ts with
            | (e, []) => .ok e
            | (_, token :: _) => .error (.trailingInput token.text token.position) :
          Except SyntaxError Expr).mapError .error ∧
      Noted limit ts ((whole limit cutoff).result ⟨ts, 0, []⟩).2 := by
  have hnoted : Noted limit ts ⟨ts, 0, []⟩ := List.forall_mem_nil _
  cases ts with
  | nil => exact ⟨rfl, hnoted⟩
  | cons token ts =>
      have hends := expression_keeps (Nat.zero_add limit) hcutoff [] .nil ⟨token :: ts, 0, []⟩
        ⟨rfl, .start (token :: ts), hnoted⟩
      rw [whole, result_ahead_bind]
      dsimp only [List.isEmpty_cons] at hends ⊢
      rw [if_neg Bool.false_ne_true, result_bind]
      generalize (expression limit cutoff []).result ⟨token :: ts, 0, []⟩ = r at hends
      generalize Parser.expression limit limit (token :: ts) = outcome at hends
      cases hends with
      | error noted => exact ⟨rfl, noted⟩
      | @ok e s after =>
          dsimp only
          rw [result_ahead_bind]
          cases hahead : s.ahead with
          | nil => exact ⟨rfl, after.noted⟩
          | cons last rest => exact ⟨rfl, after.noted⟩

/-- **The recursion of the parser is bounded by the limit, whatever the input is.** With a counter
    of open groups in the place of room for them, and a cut-off above the limit on how often
    `expression` is active, parsing has the same result, so it is never cut off. Whenever a rule
    starts, `expression` is active at most once more than groups may be open, and the counter says
    how many groups are open. -/
theorem parse_bounded {maxDepth cutoff : Nat} (hcutoff : maxDepth < cutoff) (tokens : List Token) :
    (parse cutoff tokens maxDepth).1 = (parseTokens tokens maxDepth).mapError .error ∧
      ∀ start ∈ (parse cutoff tokens maxDepth).2,
        start.Bounded maxDepth (tokens.filter fun token => token.kind != .whitespace) :=
  whole_ends hcutoff _

/-- `(a)-((`. -/
def groupThenGroups : List Token :=
  [⟨.control, "(", ⟨1, 0⟩⟩, ⟨.variable, "a", ⟨1, 1⟩⟩, ⟨.control, ")", ⟨1, 2⟩⟩,
    ⟨.operator, "-", ⟨1, 3⟩⟩, ⟨.control, "(", ⟨1, 4⟩⟩, ⟨.control, "(", ⟨1, 5⟩⟩]

/-- Where one group may be open, the group that is closed does not count any more, and the second of
    the two at the end is one too many. It is met before a third `expression` could be active: the
    first of the two is noted with the counter at zero again, the second with two `expression`
    active and the counter at one. -/
theorem parse_bounded_groups :
    1 < 2 ∧ (parse 2 groupThenGroups 1).1 = .error (.error (.nestingTooDeep 1 ⟨1, 5⟩)) ∧
      (∀ start ∈ (parse 2 groupThenGroups 1).2, start.Bounded 1 groupThenGroups) ∧
      (∃ start ∈ (parse 2 groupThenGroups 1).2, start.rule = .parenthesized ∧
        start.ahead = groupThenGroups.drop 5 ∧ start.activations = 1 ∧ start.counter = 0) ∧
      ∃ start ∈ (parse 2 groupThenGroups 1).2, start.rule = .parenthesized ∧
        start.ahead = [] ∧ start.activations = 2 ∧ start.counter = 1 := by
  have hcutoff : 1 < 2 := by decide
  obtain ⟨hresult, hbounded⟩ := parse_bounded hcutoff groupThenGroups
  have herror : parseTokens groupThenGroups 1 = .error (.nestingTooDeep 1 ⟨1, 5⟩) := rfl
  rw [herror] at hresult
  exact ⟨hcutoff, hresult, hbounded, by decide +kernel, by decide +kernel⟩

end Counting

end FormulaLang
