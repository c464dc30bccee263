import FormulaLang.Expr.Parser
import FormulaLang.Proofs.Expr.Nesting

/-!
# `Grammar.Derivation` — which token lists are expressions, and which trees they spell

    expression  := binary(additive)
    binary(p)   := lower(p) (op_at(p) lower(p))*
    lower(p)    := binary(q)                  if q is the next level after p
                 | signed                     if p is the highest level
    signed      := ("+" | "-") atom | atom
    atom        := variable | text | number | call | "(" expression ")"
    call        := name "(" arguments ")"
    arguments   := (expression ("," expression)*)?

Each rule is a relation between a list of tokens, taken to its last one, and what it spells. The
rules say nothing of an order in which tokens are looked at, nor of limits.

## Contents
- **The rules**, one relation each.
- **First tokens.** Every expression has one, which is how a closing parenthesis right after an
  opening one is told from the first argument.
-/

namespace FormulaLang

namespace Grammar

/-- `token` is the symbol `text` of an operator or a sign. -/
def IsSymbol (token : Token) (text : String) : Prop := token.kind = .operator ∧ token.text = text

mutual

/-- A first operand and any number of steps at level `p`; without steps it is the operand itself. -/
inductive Binary : Priority → List Token → Expr → Prop where
  | run {p ts us left steps} (first : Lower p ts left) (more : Steps p us steps) :
      Binary p (ts ++ us) (.run left p steps)

/-- An operand of level `p`. -/
inductive Lower : Priority → List Token → Expr → Prop where
  | level {p q ts e} (next : p.next = some q) (run : Binary q ts e) : Lower p ts e
  | signed {p ts e} (highest : p.next = none) (operand : Signed ts e) : Lower p ts e

/-- The steps of a run: operators of level `p`, each with the operand after it. -/
inductive Steps : Priority → List Token → List (Operator × Expr) → Prop where
  | nil {p} : Steps p [] []
  | cons {p op token ts us e steps} (symbol : IsSymbol token op.symbol) (level : op.priority = p)
      (operand : Lower p ts e) (more : Steps p us steps) :
      Steps p (token :: (ts ++ us)) ((op, e) :: steps)

/-- An atom, or a sign and an atom. -/
inductive Signed : List Token → Expr → Prop where
  | sign {sign token ts e} (symbol : IsSymbol token sign.symbol) (operand : Atom ts e) :
      Signed (token :: ts) (.unary sign e)
  | atom {ts e} (operand : Atom ts e) : Signed ts e

/-- An expression that neither operators nor signs make up. -/
inductive Atom : List Token → Expr → Prop where
  | variable {token} (kind : token.kind = .variable) : Atom [token] (.variable token.text)
  | string {token} (kind : token.kind = .stringLiteral) :
      Atom [token] (.string (String.ofList token.text.toList.tail.dropLast))
  | number {token n} (kind : token.kind = .number) (value : Numeral.read? token.text = some n) :
      Atom [token] (.number n)
  | call {name opening ts closing args} (kind : name.kind = .functionName)
      (opens : opening.isControl '(') (arguments : Arguments ts args)
      (closes : closing.isControl ')') :
      Atom (name :: opening :: (ts ++ [closing])) (.call name.text args)
  | group {opening ts closing e} (opens : opening.isControl '(')
      (inner : Binary .lowest ts e) (closes : closing.isControl ')') :
      Atom (opening :: (ts ++ [closing])) (.group e)

/-- The arguments of a call. -/
inductive Arguments : List Token → List Expr → Prop where
  | none : Arguments [] []
  | some {ts us e es} (first : Binary .lowest ts e) (more : MoreArguments us es) :
      Arguments (ts ++ us) (e :: es)

/-- The arguments after the first one, each with a comma before it. -/
inductive MoreArguments : List Token → List Expr → Prop where
  | nil : MoreArguments [] []
  | cons {comma ts us e es} (kind : comma.kind = .comma) (argument : Binary .lowest ts e)
      (more : MoreArguments us es) : MoreArguments (comma :: (ts ++ us)) (e :: es)

end

/-- The tokens that are one whole expression. -/
abbrev Expression : List Token → Expr → Prop := Binary .lowest

/-! ## The two levels -/

/-- An operand is a run without steps. -/
theorem Binary.of_lower {p : Priority} {ts : List Token} {e : Expr} (h : Lower p ts e) :
    Binary p ts e := by
  simpa [Expr.run] using Binary.run h .nil

theorem lower_multiplicative {ts : List Token} {e : Expr} :
    Lower .multiplicative ts e ↔ Signed ts e := by
  constructor
  · intro h
    cases h with
    | level next _ => simp [Priority.next] at next
    | signed _ operand => exact operand
  · exact .signed rfl

theorem lower_additive {ts : List Token} {e : Expr} :
    Lower .additive ts e ↔ Binary .multiplicative ts e := by
  constructor
  · intro h
    cases h with
    | level next run =>
        obtain rfl := Option.some.inj next
        exact run
    | signed highest _ => simp [Priority.next] at highest
  · exact .level rfl

/-! ## First tokens -/

/-- The list has a first token, and it is no closing parenthesis. -/
def Begins (ts : List Token) : Prop := ∃ token us, ts = token :: us ∧ token.isControl ')' = false

theorem Begins.append {ts us : List Token} (h : Begins ts) : Begins (ts ++ us) := by
  obtain ⟨token, rest, rfl, hclosing⟩ := h
  exact ⟨token, rest ++ us, rfl, hclosing⟩

/-- An atom does not begin with an operator either, so a sign is never mistaken for one. -/
theorem Atom.head {ts : List Token} {e : Expr} (h : Atom ts e) :
    ∃ token us, ts = token :: us ∧ token.kind ≠ .operator ∧ token.isControl ')' = false := by
  cases h with
  | «variable» kind | string kind | number kind _ | call kind _ _ _ =>
      exact ⟨_, _, rfl, by rw [kind]; decide, by simp [Token.isControl, kind]⟩
  | group opens _ _ =>
      simp only [Token.isControl, Bool.and_eq_true, beq_iff_eq] at opens
      exact ⟨_, _, rfl, by rw [opens.1]; decide, by simp [Token.isControl, opens]⟩

theorem Signed.begins {ts : List Token} {e : Expr} (h : Signed ts e) : Begins ts := by
  cases h with
  | sign symbol _ => exact ⟨_, _, rfl, by simp [Token.isControl, symbol.1]⟩
  | atom operand =>
      obtain ⟨token, us, rfl, -, hclosing⟩ := operand.head
      exact ⟨token, us, rfl, hclosing⟩

theorem Lower.begins {p : Priority} {ts : List Token} {e : Expr} (h : Lower p ts e) :
    Begins ts := by
  cases p with
  | multiplicative => exact (lower_multiplicative.1 h).begins
  | additive =>
      cases lower_additive.1 h with
      | run first _ => exact (lower_multiplicative.1 first).begins.append

/-- **Every expression has a first token, and it is no closing parenthesis.** -/
theorem Binary.begins {p : Priority} {ts : List Token} {e : Expr} (h : Binary p ts e) :
    Begins ts := by
  cases h with
  | run first _ => exact first.begins.append

theorem Binary.ne_nil {p : Priority} {ts : List Token} {e : Expr} (h : Binary p ts e) :
    ts ≠ [] := by
  obtain ⟨token, us, rfl, -⟩ := h.begins
  simp

end Grammar

end FormulaLang
