import FormulaLang.Proofs.Grammar.Prediction
import FormulaLang.Proofs.Grammar.Source

/-!
# `Grammar.Diagnosis` — syntax errors point at the first token that is wrong

Each rule of the parser is predictive, by way of how it is put together. What it has taken when it
fails can always be completed: an operand is a variable if need be, what is open is closed, and
neither needs room for a group. So the tokens before an error could still have become an expression,
and those up to the token that it points at no longer can.

- **`parseTokens_diagnosis`**: what an error says of the tokens.
-/

namespace FormulaLang

namespace Parser
open Grammar

variable {limit room : Nat} {p : Priority} {operand atom expression : Parser Expr}

/-! ## Looking at the next token -/

section
variable (ts ts' : List Token) (h : ts'.head? = ts.head?)
include h

theorem operator?_congr : operator? p ts' = operator? p ts := by
  cases ts <;> cases ts' <;> simp_all [operator?]

theorem sign?_congr : sign? ts' = sign? ts := by
  cases ts <;> cases ts' <;> simp_all [sign?]

theorem isComma_congr : isComma ts' = isComma ts := by
  cases ts <;> cases ts' <;> simp_all [isComma]

theorem isParen_congr {c : Char} : isParen c ts' = isParen c ts := by
  cases ts <;> cases ts' <;> simp_all [isParen]

end

/-- A parenthesis to complete tokens with. -/
def parenToken (c : Char) : Token := ⟨.control, String.ofList [c], ⟨1, 0⟩⟩

@[simp] theorem isControl_parenToken (c : Char) : (parenToken c).isControl c = true := by
  simp [parenToken, Token.isControl]

/-- An operand to complete tokens with. -/
def operandToken : Token := ⟨.variable, "x", ⟨1, 0⟩⟩

theorem atom_operandToken : Shallow room Atom [operandToken] (.variable "x") := by
  have hkind : operandToken.kind = .variable := rfl
  exact ⟨.variable hkind, Nat.zero_le _⟩

theorem paren_predictive (c : Char) (expected : Expected) :
    Predictive (paren c expected)
      fun ts _ => ∃ token, ts = [token] ∧ token.isControl c = true := by
  refine .of_first expected ?takes rfl
    ⟨[parenToken c], (), parenToken c, rfl, isControl_parenToken c⟩ fun token => ?_
  case takes =>
    intro ts u rest h
    obtain ⟨token, rfl, htoken⟩ := paren_eq_ok_iff.1 h
    exact ⟨[token], rfl, token, rfl, htoken⟩
  by_cases htoken : token.isControl c = true
  · exact .enough (a := ()) fun ts => paren_eq_ok_iff.2 ⟨token, rfl, htoken⟩
  · refine .wrong (unexpected expected token) ⟨rfl, rfl⟩ fun ts => ?_
    simp [paren, next, bind, Except.bind, htoken]

/-! ## Runs -/

theorem steps_eq_many (count : Nat) (ts : List Token) :
    Parser.steps p operand count ts = many (operator? p) operand Prod.mk count ts := by
  induction count generalizing ts with
  | zero => rfl
  | succ count ih =>
      rw [Parser.steps, many]
      cases operator? p ts with
      | none => rfl
      | some op => simp only [ih]

theorem steps_predictive (h : Predictive operand (Shallow room (Lower p))) :
    Predictive (fun ts => Parser.steps p operand ts.length ts)
      (fun ts steps => Steps p ts steps ∧ ∀ step ∈ steps, step.2.nesting ≤ room) := by
  have hall : (fun ts => Parser.steps p operand ts.length ts) = all (operator? p) operand Prod.mk :=
    funext fun ts => steps_eq_many ts.length ts
  refine ⟨fun ts steps rest hrun => steps_takes h.takes ts.length hrun, ?_, ?_⟩
  · rw [hall]
    exact all_steady operator?_congr rfl h
  · rw [hall]
    refine all_locates operator?_congr rfl h ⟨.nil, by simp⟩ ?_
    rintro token us vs op e steps hop ⟨hoperand, hnest⟩ ⟨hsteps, hnests⟩
    obtain ⟨hsymbol, hlevel⟩ : IsSymbol token op.symbol ∧ op.priority = p := by
      simpa using operator?_eq_some_iff.1 hop
    exact ⟨.cons hsymbol hlevel hoperand hsteps, List.forall_mem_cons.2 ⟨hnest, hnests⟩⟩

theorem run_predictive (h : Predictive operand (Shallow room (Lower p))) :
    Predictive (run p operand) (Shallow room (Binary p)) where
  takes := run_takes h.takes
  steady := h.steady.bind fun left => (steps_predictive h).steady.map (Expr.run left p)
  locates := by
    have hmore (us : List Token) (left : Expr) (hleft : Shallow room (Lower p) us left) :
        Locates (fun ts => Parser.steps p operand ts.length ts >>= fun y =>
          .ok (Expr.run left p y.1, y.2)) fun vs e => Shallow room (Binary p) (us ++ vs) e := by
      refine (steps_predictive h).locates.map fun vs steps hsteps => ?_
      exact ⟨.run hleft.1 hsteps.1, Expr.nesting_run_le.2 ⟨hleft.2, hsteps.2⟩⟩
    exact Locates.bind (M := Shallow room (Binary p)) h hmore fun us left hleft =>
      viable_of_derived ⟨.of_lower hleft.1, hleft.2⟩

/-- The first token of an operand tells whether it is signed. -/
theorem signed_predictive (h : Predictive atom (Shallow room Atom)) :
    Predictive (signed atom) (Shallow room Signed) where
  takes := signed_takes h.takes
  steady := by
    intro ts e rest hrun
    rw [signed] at hrun
    cases hsign : sign? ts with
    | none =>
        simp only [hsign] at hrun
        obtain ⟨us, rfl, hus⟩ := h.steady hrun
        refine ⟨us, rfl, fun rest' hhead => ?_⟩
        rw [signed, sign?_congr _ _ (head?_append_congr hhead), hsign]
        exact hus rest' hhead
    | some sign =>
        simp only [hsign] at hrun
        obtain ⟨token, ts, rfl, hsymbol⟩ := sign?_eq_some_iff.1 hsign
        obtain ⟨⟨operand, rest⟩, hatom, hrun⟩ := Except.bind_eq_ok.1 hrun
        cases hrun
        obtain ⟨us, hts, hus⟩ := h.steady hatom
        obtain rfl : ts = us ++ rest := hts
        refine ⟨token :: us, rfl, fun rest' hhead => ?_⟩
        rw [List.cons_append, signed, sign?_eq_some_iff.2 ⟨token, us ++ rest', rfl, hsymbol⟩]
        exact Except.bind_eq_ok.2 ⟨_, hus rest' hhead, rfl⟩
  locates := by
    intro ts error hrun
    rw [signed] at hrun
    cases hsign : sign? ts with
    | none =>
        simp only [hsign] at hrun
        refine (h.locates hrun).within [] (fun vs' hhead hvs' => ?_) fun us e he => ?_
        · rw [List.nil_append, signed, sign?_congr _ _ hhead, hsign]
          exact hvs'
        · exact viable_of_derived ⟨.atom he.1, he.2⟩
    | some sign =>
        simp only [hsign] at hrun
        obtain ⟨token, ts, rfl, hsymbol⟩ := sign?_eq_some_iff.1 hsign
        rcases Except.bind_eq_error.1 hrun with hatom | ⟨_, _, hok⟩
        · refine (h.locates hatom).within [token] (fun vs' hhead hvs' => ?_)
            fun us e he => ?_
          · rw [List.singleton_append, signed, sign?_eq_some_iff.2 ⟨token, vs', rfl, hsymbol⟩]
            exact Except.bind_eq_error.2 (.inl hvs')
          · exact viable_of_derived ⟨.sign hsymbol he.1, he.2⟩
        · cases hok

theorem levels_predictive (h : Predictive atom (Shallow room Atom)) :
    Predictive (levels atom) (Shallow room Expression) := by
  have hsigned : Predictive (signed atom) (Shallow room (Lower .multiplicative)) := by
    have heq : Shallow room (Lower .multiplicative) = Shallow room Signed := by
      funext ts e
      simp only [Shallow, lower_multiplicative]
    rw [heq]
    exact signed_predictive h
  have hproduct : Predictive (run .multiplicative (signed atom))
      (Shallow room (Lower .additive)) := by
    have heq : Shallow room (Lower .additive) = Shallow room (Binary .multiplicative) := by
      funext ts e
      simp only [Shallow, lower_additive]
    rw [heq]
    exact run_predictive hsigned
  exact run_predictive hproduct

/-! ## Groups -/

theorem moreArguments_eq_many (count : Nat) (ts : List Token) :
    moreArguments expression count ts =
      many (fun ts => if isComma ts then some () else none) expression (fun _ e => e) count ts := by
  induction count generalizing ts with
  | zero => rfl
  | succ count ih =>
      rw [moreArguments, many]
      cases isComma ts with
      | false => rfl
      | true => simp only [if_true, ih]

theorem moreArguments_predictive (h : Predictive expression (Shallow room Expression)) :
    Predictive (fun ts => moreArguments expression ts.length ts)
      (fun ts es => MoreArguments ts es ∧ ∀ e ∈ es, e.nesting ≤ room) := by
  have hall : (fun ts => moreArguments expression ts.length ts) =
      all (fun ts => if isComma ts then some () else none) expression (fun _ e => e) :=
    funext fun ts => moreArguments_eq_many ts.length ts
  have hlook (ts ts' : List Token) (hhead : ts'.head? = ts.head?) :
      (if isComma ts' then some () else none) = if isComma ts then some () else none := by
    rw [isComma_congr ts ts' hhead]
  refine ⟨fun ts es rest hrun => moreArguments_takes h.takes ts.length hrun, ?_, ?_⟩
  · rw [hall]
    exact all_steady hlook rfl h
  · rw [hall]
    refine all_locates hlook rfl h ⟨.nil, by simp⟩ ?_
    rintro token us vs ⟨⟩ e es hcomma ⟨hargument, hnest⟩ ⟨hmore, hnests⟩
    have hkind : token.kind = .comma := by simpa [isComma] using hcomma
    exact ⟨.cons hkind hargument hmore, List.forall_mem_cons.2 ⟨hnest, hnests⟩⟩

theorem arguments_predictive (h : Predictive expression (Shallow room Expression)) :
    Predictive (arguments expression)
      (fun ts es => Arguments ts es ∧ ∀ e ∈ es, e.nesting ≤ room) where
  takes := arguments_takes h.takes
  steady := by
    have hsome : Steady fun ts => expression ts >>= fun x =>
        moreArguments expression x.2.length x.2 >>= fun y => .ok (x.1 :: y.1, y.2) :=
      h.steady.bind fun e => (moreArguments_predictive h).steady.map (e :: ·)
    intro ts es rest hrun
    rw [arguments] at hrun
    split at hrun
    · rename_i hparen
      cases hrun
      refine ⟨[], rfl, fun rest' hhead => ?_⟩
      rw [List.nil_append, arguments, isParen_congr _ _ hhead, if_pos hparen]
    · rename_i hparen
      obtain ⟨us, rfl, hus⟩ := hsome hrun
      refine ⟨us, rfl, fun rest' hhead => ?_⟩
      rw [arguments, isParen_congr _ _ (head?_append_congr hhead), if_neg hparen]
      exact hus rest' hhead
  locates := by
    have hmore (us : List Token) (e : Expr) (he : Shallow room Expression us e) :
        Locates (fun ts => moreArguments expression ts.length ts >>= fun y => .ok (e :: y.1, y.2))
          fun vs es => Arguments (us ++ vs) es ∧ ∀ e ∈ es, e.nesting ≤ room := by
      refine (moreArguments_predictive h).locates.map fun vs es hes => ?_
      exact ⟨.some he.1 hes.1, List.forall_mem_cons.2 ⟨he.2, hes.2⟩⟩
    have hsome : Locates (fun ts => expression ts >>= fun x =>
        moreArguments expression x.2.length x.2 >>= fun y => .ok (x.1 :: y.1, y.2))
        fun ts es => Arguments ts es ∧ ∀ e ∈ es, e.nesting ≤ room := by
      refine Locates.bind (M := fun ts es => Arguments ts es ∧ ∀ e ∈ es, e.nesting ≤ room) h hmore
        fun us e he => ?_
      have hone := Arguments.some he.1 .nil
      rw [List.append_nil] at hone
      exact viable_of_derived ⟨hone, by simpa using he.2⟩
    intro ts error hrun
    rw [arguments] at hrun
    split at hrun
    · cases hrun
    · rename_i hparen
      refine (hsome hrun).within [] (fun vs' hhead hvs' => ?_)
        fun us es hes => viable_of_derived hes
      rw [List.nil_append, arguments, isParen_congr _ _ hhead, if_neg hparen]
      exact hvs'

/-- What is taken of a call can be completed as soon as it is open. -/
theorem call_predictive (h : Predictive expression (Shallow room Expression)) {name : Token}
    (hname : name.kind = .functionName) :
    Predictive (call expression name.text)
      (fun ts e => Shallow (room + 1) Atom (name :: ts) e) where
  takes := call_takes h.takes hname
  steady :=
    (paren_predictive '(' .openParen).steady.bind fun _ =>
      (arguments_predictive h).steady.bind fun args =>
        (paren_predictive ')' .closeParenOrComma).steady.map fun _ => Expr.call name.text args
  locates := by
    have hcall {opening closing : Token} {us : List Token} {args : List Expr}
        (hopening : opening.isControl '(' = true)
        (hargs : Arguments us args ∧ ∀ e ∈ args, e.nesting ≤ room)
        (hclosing : closing.isControl ')' = true) :
        Shallow (room + 1) Atom (name :: opening :: (us ++ [closing])) (.call name.text args) :=
      ⟨.call hname hopening hargs.1 hclosing, by
        simpa [Expr.nesting] using Expr.argsNesting_le.2 hargs.2⟩
    have hclose (opening : Token) (hopening : opening.isControl '(' = true) (us : List Token)
        (args : List Expr) (hargs : Arguments us args ∧ ∀ e ∈ args, e.nesting ≤ room) :
        Locates (fun ts => paren ')' .closeParenOrComma ts >>= fun y =>
          .ok (Expr.call name.text args, y.2))
          fun vs e => Shallow (room + 1) Atom (name :: opening :: (us ++ vs)) e := by
      refine (paren_predictive ')' .closeParenOrComma).locates.map (g := fun _ => _) ?_
      rintro vs - ⟨closing, rfl, hclosing⟩
      exact hcall hopening hargs hclosing
    have harguments (us : List Token) (_ : Unit)
        (hus : ∃ opening, us = [opening] ∧ opening.isControl '(' = true) :
        Locates (fun ts => arguments expression ts >>= fun x =>
          paren ')' .closeParenOrComma x.2 >>= fun y => .ok (Expr.call name.text x.1, y.2))
          fun vs e => Shallow (room + 1) Atom (name :: (us ++ vs)) e := by
      obtain ⟨opening, rfl, hopening⟩ := hus
      refine Locates.bind (M := fun vs e => Shallow (room + 1) Atom (name :: opening :: vs) e)
        (arguments_predictive h) (hclose opening hopening) fun us args hargs => ?_
      exact ⟨[parenToken ')'], _, hcall hopening hargs (isControl_parenToken ')')⟩
    refine Locates.bind (M := fun ts e => Shallow (room + 1) Atom (name :: ts) e)
      (paren_predictive '(' .openParen) harguments ?_
    rintro us - ⟨opening, rfl, hopening⟩
    exact ⟨[parenToken ')'], _, hcall hopening ⟨.none, by simp⟩ (isControl_parenToken ')')⟩

theorem group_predictive (h : Predictive expression (Shallow room Expression)) {opening : Token}
    (hopening : opening.isControl '(' = true) :
    Predictive (group expression) (fun ts e => Shallow (room + 1) Atom (opening :: ts) e) where
  takes := group_takes h.takes hopening
  steady := h.steady.bind fun inner =>
    (paren_predictive ')' .closeParen).steady.map fun _ => Expr.group inner
  locates := by
    have hgroup {us : List Token} {inner : Expr} (hinner : Shallow room Expression us inner)
        {closing : Token} (hclosing : closing.isControl ')' = true) :
        Shallow (room + 1) Atom (opening :: (us ++ [closing])) (.group inner) :=
      ⟨.group hopening hinner.1 hclosing, Nat.succ_le_succ hinner.2⟩
    have hclose (us : List Token) (inner : Expr) (hinner : Shallow room Expression us inner) :
        Locates (fun ts => paren ')' .closeParen ts >>= fun y => .ok (Expr.group inner, y.2))
          fun vs e => Shallow (room + 1) Atom (opening :: (us ++ vs)) e := by
      refine (paren_predictive ')' .closeParen).locates.map (g := fun _ => _) ?_
      rintro vs - ⟨closing, rfl, hclosing⟩
      exact hgroup hinner hclosing
    exact Locates.bind (M := fun ts e => Shallow (room + 1) Atom (opening :: ts) e) h hclose
      fun us inner hinner =>
        ⟨[parenToken ')'], _, hgroup hinner (isControl_parenToken ')')⟩

/-! ## Expressions -/

theorem atom_predictive {inner : Option (Parser Expr)}
    (h : ∀ expression, inner = some expression →
      ∃ below, room = below + 1 ∧ Predictive expression (Shallow below Expression)) :
    Predictive (Parser.atom limit inner) (Shallow room Atom) := by
  refine .of_first .expression ?takes rfl ⟨[operandToken], _, atom_operandToken⟩
    fun token => ?_
  case takes =>
    refine atom_takes fun expression hinner => ?_
    obtain ⟨below, hroom, hexpression⟩ := h expression hinner
    exact ⟨below, hroom, hexpression.takes⟩
  -- without room the token that opens a group is wrong, with room `rule` reads on in the group
  have hgroup (rule : Parser Expr → Parser Expr)
      (heq : ∀ ts, Parser.atom limit inner (token :: ts) = grouped limit inner token rule ts)
      (hrule : ∀ expression below, Predictive expression (Shallow below Expression) →
        Predictive (rule expression) fun ts e => Shallow (below + 1) Atom (token :: ts) e) :
      Decides (Parser.atom limit inner) (Shallow room Atom) token := by
    cases inner with
    | none => exact .wrong (.nestingTooDeep limit token.position) rfl heq
    | some expression =>
        obtain ⟨below, rfl, hexpression⟩ := h expression rfl
        have hread := hrule expression below hexpression
        exact .goesOn heq hread.steady hread.locates
  cases hkind : token.kind with
  | «variable» =>
      refine .enough (a := .variable token.text) fun ts => ?_
      simp [Parser.atom, next, hkind, bind, Except.bind]
  | stringLiteral =>
      refine .enough (a := .string (unquote token.text)) fun ts => ?_
      simp [Parser.atom, next, hkind, bind, Except.bind]
  | number =>
      cases hvalue : Numeral.read? token.text with
      | none =>
          refine .wrong (.invalidNumber token.text token.position) ⟨rfl, rfl⟩ fun ts => ?_
          simp [Parser.atom, next, hkind, hvalue, bind, Except.bind]
      | some n =>
          refine .enough (a := .number n) fun ts => ?_
          simp [Parser.atom, next, hkind, hvalue, bind, Except.bind]
  | functionName =>
      refine hgroup (fun expression => call expression token.text)
        (fun ts => ?_) fun expression below hexpression => call_predictive hexpression hkind
      simp [Parser.atom, next, hkind, bind, Except.bind]
  | operator | control | comma | newLine | whitespace =>
      by_cases hopening : token.isControl '(' = true
      · refine hgroup group (fun ts => ?_) fun expression below hexpression =>
          group_predictive hexpression hopening
        simp [Parser.atom, next, hkind, hopening, bind, Except.bind]
      · refine .wrong (unexpected .expression token) ⟨rfl, rfl⟩ fun ts => ?_
        simp [Parser.atom, next, hkind, hopening, bind, Except.bind]

/-- **Expressions are predictive,** whatever room there is for groups. -/
theorem expression_predictive (limit room : Nat) :
    Predictive (Parser.expression limit room) (Shallow room Expression) := by
  induction room with
  | zero =>
      have heq : Parser.expression limit 0 = levels (Parser.atom limit none) :=
        funext fun ts => by rw [Parser.expression]
      rw [heq]
      exact levels_predictive (atom_predictive (by simp))
  | succ room ih =>
      have heq : Parser.expression limit (room + 1) =
          levels (Parser.atom limit (some (Parser.expression limit room))) :=
        funext fun ts => by rw [Parser.expression]
      rw [heq]
      refine levels_predictive (atom_predictive ?_)
      rintro expression hexpression
      obtain rfl := Option.some.inj hexpression
      exact ⟨room, rfl, ih⟩

end Parser

/-! ## Lists of tokens -/

namespace Grammar
open FormulaLang.Parser

/-- The parser takes the tokens. -/
def Accepted (maxDepth : Nat) (ts : List Token) : Prop := ∃ e, parseTokens ts maxDepth = .ok e

/-- Tokens that are more than white space can be added so that the parser takes the list. -/
def Promising (maxDepth : Nat) (ts : List Token) : Prop :=
  ∃ us, NoBlank us ∧ Accepted maxDepth (ts ++ us)

/-- What an error says of the tokens: that they end too early, or that one of them, at which it
    points, is the first with which they can no longer become an expression. -/
def Diagnosis (maxDepth : Nat) (ts : List Token) : SyntaxError → Prop
  | .unexpectedEnd _ => ¬ Accepted maxDepth ts ∧ Promising maxDepth ts
  | error => ∃ (k : Nat) (h : k < ts.length), error.PointsAt ts[k] ∧
      Promising maxDepth (ts.take k) ∧ ¬ Promising maxDepth (ts.take (k + 1))

variable {maxDepth : Nat} {ts : List Token}

/-- The parser reads an expression and wants nothing behind it. -/
theorem parseTokens_eq (hne : ts ≠ []) (h : NoBlank ts) :
    parseTokens ts maxDepth = Parser.expression maxDepth maxDepth ts >>= fun x =>
      match x.2 with
      | [] => .ok x.1
      | token :: _ => .error (.trailingInput token.text token.position) := by
  obtain ⟨token, ts, rfl⟩ := List.exists_cons_of_ne_nil hne
  have hfilter : (token :: ts).filter (fun token => token.kind != .whitespace) = token :: ts :=
    significant_eq_self h
  rw [parseTokens, hfilter]
  show Parser.expression maxDepth maxDepth (token :: ts) >>= _ = _
  congr 1
  funext x
  obtain ⟨e, rest⟩ := x
  cases rest <;> rfl

theorem accepted_of_expression {e : Expr} (h : Shallow maxDepth Expression ts e) :
    Accepted maxDepth ts := by
  refine ⟨e, ?_⟩
  rw [parseTokens_eq h.1.ne_nil h.1.noBlank, (expression_eq_ok_nil_iff maxDepth).2 h]
  rfl

theorem promising_of_viable (h : Viable (Shallow maxDepth Expression) ts) :
    Promising maxDepth ts := by
  obtain ⟨us, e, he⟩ := h
  exact ⟨us, (noBlank_append.1 he.1.noBlank).2, accepted_of_expression he⟩

/-- A token is wrong if the parser fails on it whatever follows. -/
theorem not_promising {before after : List Token} {token : Token}
    (hblank : NoBlank (before ++ token :: after))
    (h : ∀ us e, Parser.expression maxDepth maxDepth (before ++ token :: us) ≠ .ok (e, [])) :
    ¬ Promising maxDepth (before ++ [token]) := by
  rintro ⟨us, hus, e, he⟩
  obtain ⟨hbefore, hafter⟩ := noBlank_append.1 hblank
  have hsplit : before ++ [token] ++ us = before ++ token :: us := by simp
  have hnoBlank : NoBlank (before ++ token :: us) :=
    noBlank_append.2 ⟨hbefore, noBlank_cons.2 ⟨(noBlank_cons.1 hafter).1, hus⟩⟩
  rw [hsplit, parseTokens_eq (by simp) hnoBlank] at he
  obtain ⟨⟨e', rest⟩, hrun, hend⟩ := Except.bind_eq_ok.1 he
  cases rest with
  | nil => exact h us e' hrun
  | cons => cases hend

/-- An error that points at the first wrong token is the right one. -/
theorem diagnosis_of_split {before after : List Token} {token : Token} {error : SyntaxError}
    (hpoints : error.PointsAt token) (hbefore : Promising maxDepth before)
    (htoken : ¬ Promising maxDepth (before ++ [token])) :
    Diagnosis maxDepth (before ++ token :: after) error := by
  have hk : ∃ (k : Nat) (h : k < (before ++ token :: after).length),
      error.PointsAt (before ++ token :: after)[k] ∧
        Promising maxDepth ((before ++ token :: after).take k) ∧
        ¬ Promising maxDepth ((before ++ token :: after).take (k + 1)) := by
    refine ⟨before.length, by simp, by simpa using hpoints, by simpa using hbefore, ?_⟩
    rwa [List.take_append, List.take_of_length_le (Nat.le_succ _), Nat.add_sub_cancel_left]
  cases error with
  | unexpectedEnd => exact hpoints.elim
  | unexpectedToken | trailingInput | invalidNumber | nestingTooDeep => exact hk

/-- **Syntax errors point at the first token that is wrong.** Where the parser fails at a token, the
    tokens before it could still have become an expression, and with it they cannot. Where it
    fails at the end, more tokens would have made an expression. -/
theorem parseTokens_diagnosis (hts : NoBlank ts) {error : SyntaxError}
    (h : parseTokens ts maxDepth = .error error) : Diagnosis maxDepth ts error := by
  have hne : ts ≠ [] := by
    rintro rfl
    cases h
  have hrun := h
  rw [parseTokens_eq hne hts] at hrun
  rcases Except.bind_eq_error.1 hrun with hfails | ⟨⟨e, rest⟩, hrun, hend⟩
  · cases (expression_predictive maxDepth maxDepth).locates hfails with
    | atEnd viable =>
        refine ⟨?_, promising_of_viable viable⟩
        rintro ⟨e, he⟩
        cases h.symm.trans he
    | atToken before split points viable final =>
        subst split
        refine diagnosis_of_split points (promising_of_viable viable) (not_promising hts ?_)
        intro us e he
        cases (final us).symm.trans he
  · obtain ⟨us, rfl, hus, hsteady⟩ := (expression_predictive maxDepth maxDepth).ok hrun
    cases rest with
    | nil => cases hend
    | cons token rest =>
        cases hend
        refine diagnosis_of_split ⟨rfl, rfl⟩ ⟨[], noBlank_nil, ?_⟩ (not_promising hts ?_)
        · rw [List.append_nil]
          exact accepted_of_expression hus
        · intro vs e' he'
          cases (hsteady (token :: vs) rfl).symm.trans he'

/-- In `1+)` the parenthesis is the first wrong token. -/
theorem parseTokens_diagnosis_closing :
    let ts : List Token :=
      [⟨.number, "1", ⟨1, 0⟩⟩, ⟨.operator, "+", ⟨1, 1⟩⟩, ⟨.control, ")", ⟨1, 2⟩⟩]
    let error := SyntaxError.unexpectedToken .expression ")" ⟨1, 2⟩
    NoBlank ts ∧ parseTokens ts 8 = .error error ∧ Diagnosis 8 ts error :=
  ⟨by simp [NoBlank], by rfl, parseTokens_diagnosis (by simp [NoBlank]) (by rfl)⟩

end Grammar

end FormulaLang
