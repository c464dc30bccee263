import FormulaLang.Proofs.Grammar.Soundness

/-!
# `Grammar.Completeness` — the parser takes all that the grammar derives

`Reads rule L stops` says that a rule of the parser reads every list that `L` derives to its end,
as long as what follows cannot continue it (`stops`). One token of lookahead decides that: a run
of operators goes on exactly at an operator of its level, an argument list exactly at a comma. So
the greedy loops never take a token too many or too few, and together with `Grammar.Soundness`
parsing is the grammar itself.

- **`parseTokens_eq_ok_iff`**: the parser returns exactly the trees that the tokens spell and that
  keep within the limit on groups.
- **`Expression.unique`**: tokens spell at most one tree.
-/

namespace FormulaLang

namespace Parser
open Grammar

/-- `rule` reads what `L` derives to its end, where `stops` holds of the tokens after it. -/
def Reads {α : Type} (rule : Parser α) (L : List Token → α → Prop) (stops : List Token → Prop) :
    Prop :=
  ∀ ⦃us a rest⦄, L us a → stops rest → rule (us ++ rest) = .ok (a, rest)

/-- No operator of any level comes next. -/
def NoOperator (ts : List Token) : Prop := ∀ p, operator? p ts = none

theorem noOperator_nil : NoOperator [] := fun _ => rfl

theorem noOperator_cons {token : Token} {ts : List Token} (h : token.kind ≠ .operator) :
    NoOperator (token :: ts) := by
  intro p
  simp [operator?, h]

theorem noOperator_of_isControl {token : Token} {c : Char} {ts : List Token}
    (h : token.isControl c = true) : NoOperator (token :: ts) := by
  apply noOperator_cons
  simp only [Token.isControl, Bool.and_eq_true, beq_iff_eq] at h
  simp [h.1]

variable {limit room : Nat} {p : Priority} {operand atom expression : Parser Expr}

/-! ## Runs -/

/-- What follows the operand of a step: another step, or what follows the run. -/
theorem steps_follow {stops : List Token → Prop}
    (hop : ∀ ts op, operator? p ts = some op → stops ts)
    {us rest : List Token} {steps : List (Operator × Expr)} (h : Steps p us steps)
    (hrest : stops rest) : stops (us ++ rest) := by
  cases h with
  | nil => exact hrest
  | cons symbol level _ _ => exact hop _ _ (operator?_eq_some_iff.2 ⟨_, _, rfl, symbol, level⟩)

theorem steps_reads {stops : List Token → Prop}
    (h : Reads operand (Shallow room (Lower p)) stops)
    (hop : ∀ ts op, operator? p ts = some op → stops ts)
    {us rest : List Token} {steps : List (Operator × Expr)} {count : Nat}
    (hsteps : Steps p us steps)
    (hnest : ∀ step ∈ steps, step.2.nesting ≤ room) (hrest : stops rest)
    (hend : operator? p rest = none) (hcount : us.length ≤ count) :
    Parser.steps p operand count (us ++ rest) = .ok (steps, rest) := by
  induction steps generalizing us count with
  | nil =>
      cases hsteps
      cases count <;> simp [Parser.steps, hend]
  | cons step steps ih =>
      cases hsteps with
      | @cons _ op token ts vs e _ symbol level hoperand more =>
          -- every step has a token, so the count lasts for all of them
          obtain ⟨count, rfl⟩ : ∃ k, count = k + 1 :=
            ⟨count - 1, by simp only [List.length_cons] at hcount; omega⟩
          obtain ⟨hnest, hnests⟩ := List.forall_mem_cons.1 hnest
          have hnext : operator? p (token :: (ts ++ (vs ++ rest))) = some op :=
            operator?_eq_some_iff.2 ⟨token, _, rfl, symbol, level⟩
          have hfirst : operand (ts ++ (vs ++ rest)) = .ok (e, vs ++ rest) :=
            h ⟨hoperand, hnest⟩ (steps_follow hop more hrest)
          have hmore : Parser.steps p operand count (vs ++ rest) = .ok (steps, rest) :=
            ih more hnests (by simp only [List.length_cons, List.length_append] at hcount; omega)
          rw [List.cons_append, List.append_assoc, Parser.steps, hnext]
          simp only [List.tail_cons, hfirst, bind, Except.bind, hmore]

theorem run_reads {stops : List Token → Prop} (h : Reads operand (Shallow room (Lower p)) stops)
    (hop : ∀ ts op, operator? p ts = some op → stops ts) :
    Reads (run p operand) (Shallow room (Binary p))
      (fun rest => stops rest ∧ operator? p rest = none) := by
  rintro us e rest ⟨hbinary, hnest⟩ ⟨hrest, hend⟩
  cases hbinary with
  | @run _ ts vs left steps first more =>
      obtain ⟨hleft, hnests⟩ := Expr.nesting_run_le.1 hnest
      have hfirst : operand (ts ++ (vs ++ rest)) = .ok (left, vs ++ rest) :=
        h ⟨first, hleft⟩ (steps_follow hop more hrest)
      have hmore : Parser.steps p operand (vs ++ rest).length (vs ++ rest) = .ok (steps, rest) :=
        steps_reads h hop more hnests hrest hend (by simp)
      simp only [Parser.run, List.append_assoc, hfirst, bind, Except.bind, hmore]

theorem signed_reads (h : Reads atom (Shallow room Atom) fun _ => True) :
    Reads (signed atom) (Shallow room Signed) fun _ => True := by
  rintro us e rest ⟨hsigned, hnest⟩ -
  cases hsigned with
  | @sign sign token ts operand symbol hatom =>
      have hsign : sign? (token :: (ts ++ rest)) = some sign :=
        sign?_eq_some_iff.2 ⟨token, _, rfl, symbol⟩
      have hread : atom (ts ++ rest) = .ok (operand, rest) := h ⟨hatom, hnest⟩ trivial
      simp only [List.cons_append, signed, hsign, List.tail_cons, bind, Except.bind, hread]
  | atom hatom =>
      -- the first token is no operator, so it is not taken for a sign
      obtain ⟨token, ts, rfl, hkind, -⟩ := hatom.head
      have hsign : sign? (token :: ts ++ rest) = none := by simp [sign?, hkind]
      simp only [signed, hsign]
      exact h ⟨hatom, hnest⟩ trivial

theorem levels_reads (h : Reads atom (Shallow room Atom) fun _ => True) :
    Reads (levels atom) (Shallow room Expression) NoOperator := by
  have hsigned : Reads (signed atom) (Shallow room (Lower .multiplicative)) fun _ => True := by
    rintro us e rest ⟨hlower, hnest⟩ hrest
    exact signed_reads h ⟨lower_multiplicative.1 hlower, hnest⟩ hrest
  have hproduct : Reads (run .multiplicative (signed atom)) (Shallow room (Lower .additive))
      fun rest => operator? .multiplicative rest = none := by
    rintro us e rest ⟨hlower, hnest⟩ hrest
    exact run_reads hsigned (fun _ _ _ => trivial) ⟨lower_additive.1 hlower, hnest⟩
      ⟨trivial, hrest⟩
  rintro us e rest hexpression hrest
  refine run_reads hproduct ?_ hexpression ⟨hrest .multiplicative, hrest .additive⟩
  -- an operator of a sum ends the product before it
  intro ts op hop
  obtain ⟨token, us, rfl, ⟨hkind, htext⟩, hlevel⟩ := operator?_eq_some_iff.1 hop
  simp [operator?, hkind, htext, Option.filter, Priority.accepts, hlevel]

/-! ## Groups -/

theorem moreArguments_reads (h : Reads expression (Shallow room Expression) NoOperator)
    {us rest : List Token} {es : List Expr} {count : Nat} (hmore : MoreArguments us es)
    (hnest : ∀ e ∈ es, e.nesting ≤ room) (hrest : NoOperator rest) (hend : isComma rest = false)
    (hcount : us.length ≤ count) :
    moreArguments expression count (us ++ rest) = .ok (es, rest) := by
  induction es generalizing us count with
  | nil =>
      cases hmore
      cases count <;> simp [moreArguments, hend]
  | cons e es ih =>
      cases hmore with
      | @cons comma ts vs _ _ kind argument more =>
          obtain ⟨count, rfl⟩ : ∃ k, count = k + 1 :=
            ⟨count - 1, by simp only [List.length_cons] at hcount; omega⟩
          obtain ⟨hnest, hnests⟩ := List.forall_mem_cons.1 hnest
          have hfollow : NoOperator (vs ++ rest) := by
            cases more with
            | nil => exact hrest
            | cons kind _ _ => exact noOperator_cons (by simp [kind])
          have hfirst : expression (ts ++ (vs ++ rest)) = .ok (e, vs ++ rest) :=
            h ⟨argument, hnest⟩ hfollow
          have hlater : moreArguments expression count (vs ++ rest) = .ok (es, rest) :=
            ih more hnests (by simp only [List.length_cons, List.length_append] at hcount; omega)
          simp [moreArguments, isComma, kind, hfirst, bind, Except.bind, hlater]

theorem arguments_reads (h : Reads expression (Shallow room Expression) NoOperator) :
    Reads (arguments expression) (fun ts es => Arguments ts es ∧ ∀ e ∈ es, e.nesting ≤ room)
      (fun rest => isParen ')' rest = true) := by
  rintro us es rest ⟨hargs, hnest⟩ hclosing
  obtain ⟨closing, rest, rfl⟩ : ∃ closing ts, rest = closing :: ts := by
    cases rest with
    | nil => simp [isParen] at hclosing
    | cons closing rest => exact ⟨closing, rest, rfl⟩
  have hkind : closing.kind = .control := by
    simp only [isParen, Token.isControl, Bool.and_eq_true, beq_iff_eq] at hclosing
    exact hclosing.1
  have hend : NoOperator (closing :: rest) := noOperator_of_isControl hclosing
  have hcomma : isComma (closing :: rest) = false := by simp [isComma, hkind]
  cases hargs with
  | none => simp [arguments, hclosing]
  | @some ts vs e es first more =>
      obtain ⟨hnest, hnests⟩ := List.forall_mem_cons.1 hnest
      -- the first argument does not begin with a closing parenthesis, so the list is not empty
      obtain ⟨token, us, rfl, htoken⟩ := first.begins
      have hfollow : NoOperator (vs ++ closing :: rest) := by
        cases more with
        | nil => exact hend
        | cons kind _ _ => exact noOperator_cons (by simp [kind])
      have hfirst : expression (token :: us ++ (vs ++ closing :: rest))
          = .ok (e, vs ++ closing :: rest) := h ⟨first, hnest⟩ hfollow
      have hlater : moreArguments expression (vs ++ closing :: rest).length (vs ++ closing :: rest)
          = .ok (es, closing :: rest) :=
        moreArguments_reads h more hnests hend hcomma (by simp)
      rw [List.append_assoc]
      simp only [arguments, List.cons_append, isParen, htoken, Bool.false_eq_true, if_false]
      rw [← List.cons_append, hfirst]
      simp only [bind, Except.bind, hlater]

/-- The rest of a call is read at one group less than the call has. -/
theorem call_reads (h : Reads expression (Shallow room Expression) NoOperator) {name : Token} :
    Reads (call expression name.text)
      (fun ts e => Shallow (room + 1) Atom (name :: ts) e ∧ name.kind = .functionName)
      fun _ => True := by
  rintro us e rest ⟨⟨hatom, hnest⟩, hkind⟩ -
  cases hatom with
  -- the name of a function is none of these
  | «variable» kind | string kind | number kind _ => simp [kind] at hkind
  | group opens _ _ => simp [Token.isControl, hkind] at opens
  | @call _ opening ts closing args _ opens arguments closes =>
      have hnests : ∀ e ∈ args, e.nesting ≤ room :=
        Expr.argsNesting_le.1 (Nat.le_of_succ_le_succ hnest)
      have hargs : Parser.arguments expression (ts ++ closing :: rest) =
          .ok (args, closing :: rest) :=
        arguments_reads h ⟨arguments, hnests⟩ closes
      have hopen : paren '(' .openParen (opening :: (ts ++ closing :: rest))
          = .ok ((), ts ++ closing :: rest) := paren_eq_ok_iff.2 ⟨opening, rfl, opens⟩
      have hclose : paren ')' .closeParenOrComma (closing :: rest) = .ok ((), rest) :=
        paren_eq_ok_iff.2 ⟨closing, rfl, closes⟩
      simp [Parser.call, hopen, hargs, hclose, bind, Except.bind]

theorem group_reads (h : Reads expression (Shallow room Expression) NoOperator) {opening : Token} :
    Reads (group expression)
      (fun ts e => Shallow (room + 1) Atom (opening :: ts) e ∧ opening.kind = .control)
      fun _ => True := by
  rintro us e rest ⟨⟨hatom, hnest⟩, hkind⟩ -
  cases hatom with
  | «variable» kind | string kind | number kind _ | call kind _ _ _ => simp [kind] at hkind
  | @group _ ts closing inner _ expression closes =>
      have hinner : _ = Except.ok (inner, closing :: rest) :=
        h ⟨expression, Nat.le_of_succ_le_succ hnest⟩ (noOperator_of_isControl closes)
      have hclose : paren ')' .closeParen (closing :: rest) = .ok ((), rest) :=
        paren_eq_ok_iff.2 ⟨closing, rfl, closes⟩
      simp [Parser.group, hinner, hclose, bind, Except.bind]

/-! ## Expressions -/

/-- An atom with room for a group needs a rule for the expressions inside. -/
theorem atom_reads {inner : Option (Parser Expr)}
    (h : ∀ below, room = below + 1 →
      ∃ expression, inner = some expression ∧
        Reads expression (Shallow below Expression) NoOperator) :
    Reads (Parser.atom limit inner) (Shallow room Atom) fun _ => True := by
  rintro us e rest ⟨hatom, hnest⟩ -
  cases hatom with
  | «variable» kind => simp [Parser.atom, next, kind, bind, Except.bind]
  | string kind => simp [Parser.atom, next, kind, unquote, bind, Except.bind]
  | number kind value => simp [Parser.atom, next, kind, value, bind, Except.bind]
  | @call name opening ts closing args kind opens arguments closes =>
      obtain ⟨below, rfl⟩ : ∃ below, room = below + 1 :=
        ⟨room - 1, by simp only [Expr.nesting] at hnest; omega⟩
      obtain ⟨expression, rfl, hexpression⟩ := h below rfl
      have hcall : Parser.call expression name.text (opening :: ts ++ [closing] ++ rest)
          = .ok (.call name.text args, rest) := call_reads hexpression
        ⟨⟨.call kind opens arguments closes, hnest⟩, kind⟩ trivial
      simpa [Parser.atom, next, kind, grouped, bind, Except.bind] using hcall
  | @group opening ts closing inner opens expression closes =>
      obtain ⟨below, rfl⟩ : ∃ below, room = below + 1 :=
        ⟨room - 1, by simp only [Expr.nesting] at hnest; omega⟩
      obtain ⟨rule, rfl, hrule⟩ := h below rfl
      have hkind : opening.kind = .control := by
        simp only [Token.isControl, Bool.and_eq_true, beq_iff_eq] at opens
        exact opens.1
      have hgroup : Parser.group rule (ts ++ [closing] ++ rest) = .ok (.group inner, rest) :=
        group_reads hrule ⟨⟨.group opens expression closes, hnest⟩, hkind⟩ trivial
      simpa [Parser.atom, next, hkind, opens, grouped, bind, Except.bind] using hgroup

/-- **The parser reads every expression for whose groups there is room.** -/
theorem expression_reads (limit room : Nat) :
    Reads (Parser.expression limit room) (Shallow room Expression) NoOperator := by
  induction room with
  | zero =>
      intro us e rest hexpression hrest
      rw [Parser.expression]
      exact levels_reads (atom_reads (by simp)) hexpression hrest
  | succ room ih =>
      intro us e rest hexpression hrest
      rw [Parser.expression]
      refine levels_reads (atom_reads ?_) hexpression hrest
      rintro below hbelow
      obtain rfl := Nat.succ.inj hbelow
      exact ⟨_, rfl, ih⟩

end Parser

namespace Grammar
open FormulaLang.Parser

/-! ## Whole lists of tokens -/

/-- The parser takes a whole list of tokens exactly if it is an expression with room for its
    groups. -/
theorem expression_eq_ok_nil_iff (limit : Nat) {room : Nat} {ts : List Token} {e : Expr} :
    Parser.expression limit room ts = .ok (e, []) ↔ Expression ts e ∧ e.nesting ≤ room := by
  constructor
  · intro h
    obtain ⟨us, rfl, hexpression⟩ := expression_takes limit room h
    rwa [List.append_nil]
  · intro h
    simpa using expression_reads limit room h noOperator_nil

/-- **Parsing is the grammar.** White space aside, the parser returns a tree exactly if there are
    no tokens and the tree is the empty one, or if the tokens are an expression that spells the
    tree and no more than `maxDepth` of its groups are inside one another. -/
theorem parseTokens_eq_ok_iff (tokens : List Token) (maxDepth : Nat) (e : Expr) :
    parseTokens tokens maxDepth = .ok e ↔
      (tokens.filter (fun token => token.kind != .whitespace) = [] ∧ e = .empty) ∨
      (Expression (tokens.filter fun token => token.kind != .whitespace) e ∧
        e.nesting ≤ maxDepth) := by
  rw [parseTokens]
  cases tokens.filter fun token => token.kind != .whitespace with
  | nil =>
      have hnone : ¬ Expression [] e := fun h => h.ne_nil rfl
      simp [hnone, eq_comm]
  | cons token ts =>
      simp only [reduceCtorEq, false_and, false_or]
      rw [← expression_eq_ok_nil_iff maxDepth, Except.bind_eq_ok]
      constructor
      · rintro ⟨⟨e', rest⟩, hexpression, hend⟩
        cases rest with
        | nil =>
            obtain rfl := Except.ok.inj hend
            exact hexpression
        | cons next rest => cases hend
      · intro hexpression
        exact ⟨(e, []), hexpression, rfl⟩

/-- **Tokens spell at most one tree**, since the parser returns only one. -/
theorem Expression.unique {ts : List Token} {e e' : Expr} (h : Expression ts e)
    (h' : Expression ts e') : e = e' := by
  -- room enough for both trees
  have hread := (expression_eq_ok_nil_iff 0).2 ⟨h, Nat.le_max_left e.nesting e'.nesting⟩
  have hread' := (expression_eq_ok_nil_iff 0).2 ⟨h', Nat.le_max_right e.nesting e'.nesting⟩
  cases hread.symm.trans hread'
  rfl

end Grammar

end FormulaLang
