import FormulaLang.Proofs.Grammar.Diagnosis

/-!
# `Grammar.Relocation` — the parser passes positions on and nothing else

No rule looks at the position of a token, other than to put it into an error. So if all tokens ahead
are relocated, in whatever way, a rule has the same result, and leaves the same tokens or fails with
the same error, relocated. This is kept by every way of putting rules together, and so by induction
on the room for groups.

- **`parseTokens_relocate`**: what relocated tokens are parsed to.
- **`pointsAt_of_parseTokens`**: an error is that of the end or points at one of the tokens.
-/

namespace FormulaLang

/-- The token at another place. -/
def Token.relocate (g : Position → Position) (token : Token) : Token :=
  { token with position := g token.position }

/-- The error for tokens at other places. -/
def SyntaxError.relocate (g : Position → Position) : SyntaxError → SyntaxError
  | .unexpectedToken expected found position => .unexpectedToken expected found (g position)
  | .unexpectedEnd expected => .unexpectedEnd expected
  | .trailingInput found position => .trailingInput found (g position)
  | .invalidNumber text position => .invalidNumber text (g position)
  | .nestingTooDeep limit position => .nestingTooDeep limit (g position)

namespace Parser

variable {α γ : Type} {g : Position → Position}

/-! ## Results -/

/-- The outcome of a rule for tokens at other places. -/
def relocated (g : Position → Position) :
    Except SyntaxError (α × List Token) → Except SyntaxError (α × List Token)
  | .ok (a, ts) => .ok (a, ts.map (Token.relocate g))
  | .error error => .error (error.relocate g)

/-- Relocating the tokens ahead relocates the outcome. -/
def Equivariant (g : Position → Position) (rule : Parser α) : Prop :=
  ∀ ts, rule (ts.map (Token.relocate g)) = relocated g (rule ts)

/-- A sequence is relocated in both of its parts. -/
theorem relocated_bind {x : Except SyntaxError (α × List Token)}
    {f f' : α × List Token → Except SyntaxError (γ × List Token)}
    (h : ∀ a ts, f' (a, ts.map (Token.relocate g)) = relocated g (f (a, ts))) :
    relocated g x >>= f' = relocated g (x >>= f) := by
  cases x with
  | error error => rfl
  | ok x => exact h x.1 x.2

/-! ## Single tokens -/

@[simp] theorem isControl_relocate (token : Token) (c : Char) :
    (token.relocate g).isControl c = token.isControl c := rfl

theorem paren_equivariant (c : Char) (expected : Expected) :
    Equivariant g (paren c expected) := by
  intro ts
  cases ts with
  | nil => rfl
  | cons token ts =>
      show (if (token.relocate g).isControl c then _ else _) = relocated g (if _ then _ else _)
      rw [isControl_relocate]
      split
      · rfl
      · rfl

theorem operator?_relocate (p : Priority) (ts : List Token) :
    operator? p (ts.map (Token.relocate g)) = operator? p ts := by
  cases ts <;> rfl

theorem sign?_relocate (ts : List Token) : sign? (ts.map (Token.relocate g)) = sign? ts := by
  cases ts <;> rfl

theorem isComma_relocate (ts : List Token) :
    isComma (ts.map (Token.relocate g)) = isComma ts := by
  cases ts <;> rfl

theorem isParen_relocate (c : Char) (ts : List Token) :
    isParen c (ts.map (Token.relocate g)) = isParen c ts := by
  cases ts <;> rfl

theorem tail_relocate (ts : List Token) :
    (ts.map (Token.relocate g)).tail = ts.tail.map (Token.relocate g) :=
  List.map_tail.symm

/-! ## Rules -/

section
variable {operand expression : Parser Expr}

theorem steps_equivariant (h : Equivariant g operand) (p : Priority) (count : Nat) :
    Equivariant g (steps p operand count) := by
  induction count with
  | zero => exact fun ts => rfl
  | succ count ih =>
      intro ts
      rw [steps, steps, operator?_relocate]
      cases operator? p ts with
      | none => rfl
      | some op =>
          dsimp only
          rw [tail_relocate, h]
          refine relocated_bind fun e ts => ?_
          dsimp only
          rw [ih]
          exact relocated_bind fun rest ts => rfl

theorem run_equivariant (h : Equivariant g operand) (p : Priority) :
    Equivariant g (run p operand) := by
  intro ts
  rw [run, run, h]
  refine relocated_bind fun left ts => ?_
  dsimp only
  rw [List.length_map, steps_equivariant h]
  exact relocated_bind fun rest ts => rfl

theorem signed_equivariant (h : Equivariant g operand) : Equivariant g (signed operand) := by
  intro ts
  rw [signed, signed, sign?_relocate]
  cases sign? ts with
  | none => exact h ts
  | some sign =>
      dsimp only
      rw [tail_relocate, h]
      exact relocated_bind fun e ts => rfl

theorem levels_equivariant (h : Equivariant g operand) : Equivariant g (levels operand) :=
  run_equivariant (run_equivariant (signed_equivariant h) .multiplicative) .additive

theorem moreArguments_equivariant (h : Equivariant g expression) (count : Nat) :
    Equivariant g (moreArguments expression count) := by
  induction count with
  | zero => exact fun ts => rfl
  | succ count ih =>
      intro ts
      rw [moreArguments, moreArguments, isComma_relocate]
      split
      · rw [tail_relocate, h]
        refine relocated_bind fun e ts => ?_
        dsimp only
        rw [ih]
        exact relocated_bind fun es ts => rfl
      · rfl

theorem arguments_equivariant (h : Equivariant g expression) :
    Equivariant g (arguments expression) := by
  intro ts
  rw [arguments, arguments, isParen_relocate]
  split
  · rfl
  · rw [h]
    refine relocated_bind fun e ts => ?_
    dsimp only
    rw [List.length_map, moreArguments_equivariant h]
    exact relocated_bind fun es ts => rfl

theorem call_equivariant (h : Equivariant g expression) (name : String) :
    Equivariant g (call expression name) := by
  intro ts
  rw [call, call, paren_equivariant]
  refine relocated_bind fun _ ts => ?_
  dsimp only
  rw [arguments_equivariant h]
  refine relocated_bind fun args ts => ?_
  dsimp only
  rw [paren_equivariant]
  exact relocated_bind fun _ ts => rfl

theorem group_equivariant (h : Equivariant g expression) : Equivariant g (group expression) := by
  intro ts
  rw [group, group, h]
  refine relocated_bind fun inner ts => ?_
  dsimp only
  rw [paren_equivariant]
  exact relocated_bind fun _ ts => rfl

end

section
variable (limit : Nat) {inner : Option (Parser Expr)}

theorem grouped_equivariant (hinner : ∀ expression ∈ inner, Equivariant g expression)
    {rule : Parser Expr → Parser Expr}
    (hrule : ∀ expression, Equivariant g expression → Equivariant g (rule expression))
    (opening : Token) (ts : List Token) :
    grouped limit inner (opening.relocate g) rule (ts.map (Token.relocate g)) =
      relocated g (grouped limit inner opening rule ts) := by
  cases inner with
  | none => rfl
  | some expression => exact hrule expression (hinner expression rfl) ts

theorem atom_equivariant (hinner : ∀ expression ∈ inner, Equivariant g expression) :
    Equivariant g (atom limit inner) := by
  intro ts
  cases ts with
  | nil => rfl
  | cons token ts =>
      have hcall := grouped_equivariant limit hinner
        (fun _ h => call_equivariant h token.text) token ts
      have hgroup := grouped_equivariant limit hinner (fun _ h => group_equivariant h) token ts
      have hkind : (token.relocate g).kind = token.kind := rfl
      have htext : (token.relocate g).text = token.text := rfl
      rw [atom, atom, List.map_cons]
      dsimp only [next, bind, Except.bind]
      rw [hkind, htext, isControl_relocate]
      cases token.kind with
      | functionName => exact hcall
      | «variable» | stringLiteral => rfl
      | number =>
          dsimp only
          cases Numeral.read? token.text with
          | none => rfl
          | some n => rfl
      | _ =>
          dsimp only
          split
          · exact hgroup
          · rfl

end

theorem expression_equivariant (limit room : Nat) : Equivariant g (expression limit room) := by
  induction room with
  | zero =>
      have hatom : Equivariant g (atom limit none) := atom_equivariant limit (by simp)
      exact levels_equivariant hatom
  | succ room ih =>
      refine levels_equivariant (atom_equivariant limit ?_)
      rintro _ ⟨⟩
      exact ih

end Parser

/-! ## Lists of tokens -/

variable {ts : List Token} {maxDepth : Nat}

/-- **Relocated tokens are parsed to the same, relocated.** -/
theorem parseTokens_relocate (g : Position → Position) (ts : List Token) (maxDepth : Nat) :
    parseTokens (ts.map (Token.relocate g)) maxDepth =
      (parseTokens ts maxDepth).mapError (SyntaxError.relocate g) := by
  have hfilter : (ts.map (Token.relocate g)).filter (fun token => token.kind != .whitespace) =
      (ts.filter fun token => token.kind != .whitespace).map (Token.relocate g) :=
    List.filter_map
  rw [parseTokens, parseTokens, hfilter]
  cases ts.filter fun token => token.kind != .whitespace with
  | nil => rfl
  | cons token ts =>
      have hrun := Parser.expression_equivariant (g := g) maxDepth maxDepth (token :: ts)
      show Parser.expression maxDepth maxDepth ((token :: ts).map (Token.relocate g)) >>= _ = _
      rw [hrun]
      dsimp only
      cases Parser.expression maxDepth maxDepth (token :: ts) with
      | error error => rfl
      | ok x =>
          obtain ⟨e, rest⟩ := x
          cases rest <;> rfl

/-- **An error is that of the end or points at one of the tokens.** -/
theorem pointsAt_of_parseTokens {error : SyntaxError}
    (h : parseTokens ts maxDepth = .error error) :
    (∃ expected, error = .unexpectedEnd expected) ∨ ∃ token ∈ ts, error.PointsAt token := by
  have hmem : ∀ token ∈ ts.filter fun token => token.kind != .whitespace, token ∈ ts :=
    fun token htoken => (List.mem_filter.1 htoken).1
  rw [parseTokens] at h
  generalize ts.filter (fun token => token.kind != .whitespace) = us at h hmem
  cases us with
  | nil => cases h
  | cons token us =>
      have hpredictive := Parser.expression_predictive maxDepth maxDepth
      rcases Except.bind_eq_error.1 h with hfails | ⟨⟨e, rest⟩, hrun, hend⟩
      · cases hpredictive.locates hfails with
        | atEnd => exact .inl ⟨_, rfl⟩
        | atToken before split points =>
            refine .inr ⟨_, hmem _ ?_, points⟩
            rw [split]
            exact List.mem_append_right before List.mem_cons_self
      · obtain ⟨taken, hsplit, -⟩ := hpredictive.takes hrun
        cases rest with
        | nil => cases hend
        | cons last rest =>
            cases hend
            refine .inr ⟨last, hmem _ ?_, rfl, rfl⟩
            rw [hsplit]
            exact List.mem_append_right taken List.mem_cons_self

end FormulaLang
