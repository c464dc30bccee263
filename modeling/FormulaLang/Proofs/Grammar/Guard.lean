import FormulaLang.Expr.Parser

/-!
# `Grammar.Guard` — in parsing the limit is a guard and nothing else

With more room for groups a rule does the same work in the same order. The limit decides only
whether a token that opens a group is an error, so a rule that gets past all of them with less room
takes the same tokens, and fails in the same way, with more (`Guarded`).

The relation is kept by every way of putting rules together, and so by induction on the room.

- **`parseTokens_guarded`**, **`parse_guarded`**: what parsing with a limit comes to, an error of
  the limit aside, it comes to with every larger limit.
-/

namespace FormulaLang

/-! ## Outcomes that a limit guards -/

/-- The second outcome is the same as the first, unless the first is an error of the limit. -/
def Guarded {ε α : Type} (IsLimit : ε → Prop) (x y : Except ε α) : Prop :=
  (∃ e, IsLimit e ∧ x = .error e) ∨ y = x

namespace Guarded

variable {ε α γ : Type} {IsLimit : ε → Prop} {x y : Except ε α}

theorem refl (x : Except ε α) : Guarded IsLimit x x := .inr rfl

theorem stops {e : ε} (h : IsLimit e) (y : Except ε α) : Guarded IsLimit (.error e) y :=
  .inl ⟨e, h, rfl⟩

/-- A sequence is guarded if both of its parts are. -/
theorem bind {f g : α → Except ε γ} (hxy : Guarded IsLimit x y)
    (hfg : ∀ a, Guarded IsLimit (f a) (g a)) : Guarded IsLimit (x >>= f) (y >>= g) := by
  rcases hxy with ⟨e, he, rfl⟩ | rfl
  · exact stops he (y >>= g)
  · cases y with
    | error e => exact refl (.error e)
    | ok a => exact hfg a

end Guarded

/-- The error is that of a group too many. -/
def SyntaxError.IsLimit : SyntaxError → Prop
  | .nestingTooDeep _ _ => True
  | _ => False

/-- The error is that of a group too many. -/
def ParseError.IsLimit : ParseError → Prop
  | .lexical _ => False
  | .syntactic error => error.IsLimit

namespace Parser

variable {α : Type}

/-! ## Rules -/

/-- The second rule does what the first one does, unless the limit stops that. -/
def Guards (rule rule' : Parser α) : Prop :=
  ∀ ts, Guarded SyntaxError.IsLimit (rule ts) (rule' ts)

section
variable {operand operand' expression expression' : Parser Expr}

theorem steps_guards (h : Guards operand operand') (p : Priority) (count : Nat) :
    Guards (steps p operand count) (steps p operand' count) := by
  induction count with
  | zero =>
      intro ts
      exact .refl (.ok ([], ts))
  | succ count ih =>
      intro ts
      rw [steps, steps]
      cases operator? p ts with
      | none => exact .refl (.ok ([], ts))
      | some op =>
          refine Guarded.bind (h ts.tail) fun (e, ts) => ?_
          refine Guarded.bind (ih ts) fun (rest, ts) => ?_
          exact .refl (.ok ((op, e) :: rest, ts))

theorem run_guards (h : Guards operand operand') (p : Priority) :
    Guards (run p operand) (run p operand') := by
  intro ts
  refine Guarded.bind (h ts) fun (left, ts) => ?_
  refine Guarded.bind (steps_guards h p ts.length ts) fun (rest, ts) => ?_
  exact .refl (.ok (Expr.run left p rest, ts))

theorem signed_guards (h : Guards operand operand') :
    Guards (signed operand) (signed operand') := by
  intro ts
  rw [signed, signed]
  cases sign? ts with
  | none => exact h ts
  | some sign =>
      refine Guarded.bind (h ts.tail) fun (e, ts) => ?_
      exact .refl (.ok (Expr.unary sign e, ts))

theorem levels_guards (h : Guards operand operand') :
    Guards (levels operand) (levels operand') :=
  run_guards (run_guards (signed_guards h) .multiplicative) .additive

theorem moreArguments_guards (h : Guards expression expression') (count : Nat) :
    Guards (moreArguments expression count) (moreArguments expression' count) := by
  induction count with
  | zero =>
      intro ts
      exact .refl (.ok ([], ts))
  | succ count ih =>
      intro ts
      rw [moreArguments, moreArguments]
      by_cases hcomma : isComma ts = true
      · rw [if_pos hcomma, if_pos hcomma]
        refine Guarded.bind (h ts.tail) fun (e, ts) => ?_
        refine Guarded.bind (ih ts) fun (es, ts) => ?_
        exact .refl (.ok (e :: es, ts))
      · rw [if_neg hcomma, if_neg hcomma]
        exact .refl (.ok ([], ts))

theorem arguments_guards (h : Guards expression expression') :
    Guards (arguments expression) (arguments expression') := by
  intro ts
  rw [arguments, arguments]
  by_cases hclosing : isParen ')' ts = true
  · rw [if_pos hclosing, if_pos hclosing]
    exact .refl (.ok ([], ts))
  · rw [if_neg hclosing, if_neg hclosing]
    refine Guarded.bind (h ts) fun (e, ts) => ?_
    refine Guarded.bind (moreArguments_guards h ts.length ts) fun (es, ts) => ?_
    exact .refl (.ok (e :: es, ts))

theorem call_guards (h : Guards expression expression') (name : String) :
    Guards (call expression name) (call expression' name) := by
  intro ts
  refine Guarded.bind (.refl (paren '(' .openParen ts)) fun (_, ts) => ?_
  refine Guarded.bind (arguments_guards h ts) fun (args, ts) => ?_
  exact .refl _

theorem group_guards (h : Guards expression expression') :
    Guards (group expression) (group expression') := by
  intro ts
  refine Guarded.bind (h ts) fun (inner, ts) => ?_
  exact .refl _

end

/-! ## Groups -/

section
variable {limit limit' : Nat} {inner inner' : Option (Parser Expr)}

/-- Where the first side has a rule for the inside of a group, so has the second, and the first
    guards it. -/
def GuardsInside (inner inner' : Option (Parser Expr)) : Prop :=
  ∀ expression, inner = some expression → ∃ expression', inner' = some expression' ∧
    Guards expression expression'

theorem grouped_guards (h : GuardsInside inner inner') (opening : Token)
    {rule : Parser Expr → Parser Expr}
    (hrule : ∀ expression expression', Guards expression expression' →
      Guards (rule expression) (rule expression')) :
    Guards (grouped limit inner opening rule) (grouped limit' inner' opening rule) := by
  intro ts
  cases hinner : inner with
  | none => exact .stops trivial (grouped limit' inner' opening rule ts)
  | some expression =>
      obtain ⟨expression', hinner', hguards⟩ := h expression hinner
      rw [hinner']
      exact hrule expression expression' hguards ts

theorem atom_guards (h : GuardsInside inner inner') :
    Guards (atom limit inner) (atom limit' inner') := by
  intro ts
  refine Guarded.bind (.refl (next .expression ts)) fun (token, ts) => ?_
  have hcall : Guards (grouped limit inner token fun expression => call expression token.text)
      (grouped limit' inner' token fun expression => call expression token.text) :=
    grouped_guards h token fun _ _ hguards => call_guards hguards token.text
  have hgroup : Guards (grouped limit inner token group) (grouped limit' inner' token group) :=
    grouped_guards h token fun _ _ hguards => group_guards hguards
  -- of the kinds of tokens only two open a group, and the others do not see the limit
  dsimp only
  cases token.kind with
  | functionName => exact hcall ts
  | «variable» | stringLiteral | number => exact .refl _
  | _ =>
      dsimp only
      by_cases hopening : token.isControl '(' = true
      · rw [if_pos hopening, if_pos hopening]
        exact hgroup ts
      · rw [if_neg hopening, if_neg hopening]
        exact .refl _

end

/-- **More room makes a difference only where there was none left.** -/
theorem expression_guards (limit limit' : Nat) {room room' : Nat} (h : room ≤ room') :
    Guards (expression limit room) (expression limit' room') := by
  induction room generalizing room' with
  | zero =>
      have hinside (inner' : Option (Parser Expr)) : GuardsInside none inner' := by
        intro expression hexpression
        cases hexpression
      cases room' with
      | zero => exact levels_guards (atom_guards (hinside none))
      | succ room' => exact levels_guards (atom_guards (hinside _))
  | succ room ih =>
      obtain ⟨room', rfl⟩ : ∃ n, room' = n + 1 := ⟨room' - 1, by omega⟩
      have hguards : Guards (expression limit room) (expression limit' room') := ih (by omega)
      refine levels_guards (atom_guards ?_)
      rintro _ ⟨⟩
      exact ⟨_, rfl, hguards⟩

end Parser

/-! ## Parsing -/

variable {d d' : Nat}

/-- **In parsing tokens the limit is a guard and nothing else.** -/
theorem parseTokens_guarded (h : d ≤ d') (tokens : List Token) :
    Guarded SyntaxError.IsLimit (parseTokens tokens d) (parseTokens tokens d') := by
  rw [parseTokens, parseTokens]
  cases tokens.filter fun token => token.kind != .whitespace with
  | nil => exact .refl (.ok Expr.empty)
  | cons token ts =>
      refine Guarded.bind (Parser.expression_guards d d' h (token :: ts)) fun (e, rest) => ?_
      exact .refl _

/-- **In parsing a source the limit is a guard and nothing else.** -/
theorem parse_guarded (h : d ≤ d') (source : String) :
    Guarded ParseError.IsLimit (parse source d) (parse source d') := by
  rw [parse, parse]
  cases tokenize source with
  | error error => exact .refl _
  | ok tokens =>
      dsimp only
      rcases parseTokens_guarded h tokens with ⟨error, hlimit, herror⟩ | hsame
      · have hstops : ParseError.IsLimit (.syntactic error) := hlimit
        rw [herror]
        exact .stops hstops _
      · rw [hsame]
        exact .refl _

end FormulaLang
