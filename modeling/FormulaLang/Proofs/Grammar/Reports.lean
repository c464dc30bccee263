import FormulaLang.Proofs.Canonical.Tree
import FormulaLang.Proofs.Grammar.Prediction

/-!
# `Grammar.Reports` — what the parser finds in the tokens of a source

Not every list of tokens comes from a source. In one that does, the name of a function is directly
before an opening parenthesis, and a number is a run of digits. White space is dropped before parsing,
but there is none between a name and its parenthesis, so the lists that the parser has ahead are of
this kind all along (`Legible`). The parser is made for other lists, too, and tests both again. From a
source it never finds that the parenthesis is missing, and a number is an error only for its size.

The tree of a source has the numbers of the source in their order.

- **`parse_reports`**: which errors there are, and what becomes of a number.
-/

namespace FormulaLang

open Lexical

/-! ## Errors -/

/-- The token is a run of digits with a value that 64 bits do not hold. -/
structure Token.Overflows (token : Token) : Prop where
  kind : token.kind = .number
  digits : Fits .number token.text.toList
  large : Int64.maxValue.toInt < Numeral.value token.text.toList

/-- The error is not that of an opening parenthesis that is missing, and if it is that of a number, one
    of the tokens overflows. -/
def SyntaxError.Foreseen (tokens : List Token) : SyntaxError → Prop
  | .unexpectedToken expected _ _ | .unexpectedEnd expected => expected ≠ .openParen
  | .invalidNumber text position =>
      ∃ token ∈ tokens, token.text = text ∧ token.position = position ∧ token.Overflows
  | .trailingInput _ _ | .nestingTooDeep _ _ => True

/-! ## Numbers -/

/-- The number that digits are read as, if it is in range. -/
theorem Token.IsFit.read?_number {token : Token} (h : token.IsFit) (kind : token.kind = .number) :
    Numeral.read? token.text = Integer.checked? (Numeral.value token.text.toList) := by
  rw [IsFit, kind] at h
  exact Numeral.read?_of_digits h.1 h.2

theorem Integer.inRange_natCast {n : Nat} : InRange n ↔ (n : Int) ≤ Int64.maxValue.toInt := by
  have hmin : Int64.minValue.toInt = -9223372036854775808 := rfl
  rw [InRange, hmin]
  omega

/-- Digits that are no number overflow. -/
theorem Token.IsFit.overflows {token : Token} (h : token.IsFit) (kind : token.kind = .number)
    (hnone : Numeral.read? token.text = none) : token.Overflows := by
  rw [h.read?_number kind, Integer.checked?_eq_none_iff, Integer.inRange_natCast] at hnone
  rw [IsFit, kind] at h
  exact ⟨kind, h, Int.not_le.1 hnone⟩

/-- Digits with a value in range are the number of that value. -/
theorem Token.IsFit.exists_number {token : Token} (h : token.IsFit) (kind : token.kind = .number)
    (hrange : (Numeral.value token.text.toList : Int) ≤ Int64.maxValue.toInt) :
    ∃ n : Int64, n.toInt = Numeral.value token.text.toList ∧
      Numeral.read? token.text = some n := by
  cases hread : Numeral.read? token.text with
  | none => exact absurd (h.overflows kind hread).large (Int.not_lt.2 hrange)
  | some n =>
      rw [h.read?_number kind, Integer.checked?_eq_some_iff] at hread
      exact ⟨n, hread, rfl⟩

namespace Parser

variable {α γ : Type} {tokens : List Token}

/-! ## Legible lists -/

/-- The list is made of the given tokens, each with a text of its kind, and the name of a function is
    always directly before an opening parenthesis. -/
def Legible (tokens : List Token) : List Token → Prop
  | [] => True
  | token :: ts =>
    token ∈ tokens ∧ token.IsFit ∧ (token.kind = .functionName → isParen '(' ts = true) ∧
      Legible tokens ts

theorem Legible.tail {ts : List Token} (h : Legible tokens ts) : Legible tokens ts.tail := by
  cases ts with
  | nil => exact h
  | cons token ts => exact h.2.2.2

/-- The outcome of a rule leaves a legible list, or is an error that is foreseen. -/
def Reports (tokens : List Token) : Except SyntaxError (α × List Token) → Prop
  | .ok (_, ts) => Legible tokens ts
  | .error error => error.Foreseen tokens

theorem Reports.bind {x : Except SyntaxError (α × List Token)}
    {f : α × List Token → Except SyntaxError (γ × List Token)} (hx : Reports tokens x)
    (hf : ∀ a ts, Legible tokens ts → Reports tokens (f (a, ts))) : Reports tokens (x >>= f) := by
  cases x with
  | error error => exact hx
  | ok x => exact hf x.1 x.2 hx

/-- The rule reports whatever legible list is ahead. -/
def Reporting (tokens : List Token) (rule : Parser α) : Prop :=
  ∀ ts, Legible tokens ts → Reports tokens (rule ts)

/-! ## Rules -/

theorem paren_reporting (c : Char) {expected : Expected} (h : expected ≠ .openParen) :
    Reporting tokens (paren c expected) := by
  intro ts hts
  cases ts with
  | nil => exact h
  | cons token ts =>
      show Reports tokens (if token.isControl c then _ else _)
      split
      · exact hts.2.2.2
      · exact h

section
variable {operand expression : Parser Expr}

theorem steps_reporting (h : Reporting tokens operand) (p : Priority) (count : Nat) :
    Reporting tokens (steps p operand count) := by
  induction count with
  | zero => exact fun ts hts => hts
  | succ count ih =>
      intro ts hts
      rw [steps]
      cases operator? p ts with
      | none => exact hts
      | some op =>
          refine Reports.bind (h ts.tail hts.tail) fun e ts hts => ?_
          exact Reports.bind (ih ts hts) fun rest ts hts => hts

theorem run_reporting (h : Reporting tokens operand) (p : Priority) :
    Reporting tokens (run p operand) := by
  intro ts hts
  refine Reports.bind (h ts hts) fun left ts hts => ?_
  exact Reports.bind (steps_reporting h p ts.length ts hts) fun rest ts hts => hts

theorem signed_reporting (h : Reporting tokens operand) : Reporting tokens (signed operand) := by
  intro ts hts
  rw [signed]
  cases sign? ts with
  | none => exact h ts hts
  | some sign => exact Reports.bind (h ts.tail hts.tail) fun e ts hts => hts

theorem levels_reporting (h : Reporting tokens operand) : Reporting tokens (levels operand) :=
  run_reporting (run_reporting (signed_reporting h) .multiplicative) .additive

theorem moreArguments_reporting (h : Reporting tokens expression) (count : Nat) :
    Reporting tokens (moreArguments expression count) := by
  induction count with
  | zero => exact fun ts hts => hts
  | succ count ih =>
      intro ts hts
      rw [moreArguments]
      split
      · refine Reports.bind (h ts.tail hts.tail) fun e ts hts => ?_
        exact Reports.bind (ih ts hts) fun es ts hts => hts
      · exact hts

theorem arguments_reporting (h : Reporting tokens expression) :
    Reporting tokens (arguments expression) := by
  intro ts hts
  rw [arguments]
  split
  · exact hts
  · refine Reports.bind (h ts hts) fun e ts hts => ?_
    exact Reports.bind (moreArguments_reporting h ts.length ts hts) fun es ts hts => hts

/-- Where the parenthesis is there, a call does not miss it. -/
theorem call_reports (h : Reporting tokens expression) (name : String) {ts : List Token}
    (hts : Legible tokens ts) (hparen : isParen '(' ts = true) :
    Reports tokens (call expression name ts) := by
  cases ts with
  | nil => cases hparen
  | cons opening ts =>
      have hopening : paren '(' .openParen (opening :: ts) = .ok ((), ts) :=
        paren_eq_ok_iff.2 ⟨opening, rfl, hparen⟩
      rw [call, hopening]
      dsimp only [bind, Except.bind]
      refine Reports.bind (arguments_reporting h ts hts.tail) fun args ts hts => ?_
      exact Reports.bind (paren_reporting ')' (by decide) ts hts) fun _ ts hts => hts

theorem group_reporting (h : Reporting tokens expression) :
    Reporting tokens (group expression) := by
  intro ts hts
  refine Reports.bind (h ts hts) fun inner ts hts => ?_
  exact Reports.bind (paren_reporting ')' (by decide) ts hts) fun _ ts hts => hts

end

/-- A number token is its number, or an error. -/
theorem atom_of_number (limit : Nat) (inner : Option (Parser Expr)) {token : Token}
    (hkind : token.kind = .number) (ts : List Token) :
    atom limit inner (token :: ts) =
      match Numeral.read? token.text with
      | some n => .ok (.number n, ts)
      | none => .error (.invalidNumber token.text token.position) := by
  obtain ⟨kind, text, position⟩ := token
  obtain rfl : kind = .number := hkind
  rfl

theorem atom_reporting (limit : Nat) {inner : Option (Parser Expr)}
    (hinner : ∀ expression ∈ inner, Reporting tokens expression) :
    Reporting tokens (atom limit inner) := by
  intro ts hts
  cases ts with
  | nil => exact (by decide : Expected.expression ≠ .openParen)
  | cons token ts =>
      obtain ⟨hmem, hfit, hname, hrest⟩ := hts
      have hgroup : Reports tokens (grouped limit inner token group ts) := by
        cases inner with
        | none => exact trivial
        | some expression => exact group_reporting (hinner expression rfl) ts hrest
      have hcall (hparen : isParen '(' ts = true) :
          Reports tokens
            (grouped limit inner token (fun expression => call expression token.text) ts) := by
        cases inner with
        | none => exact trivial
        | some expression => exact call_reports (hinner expression rfl) token.text hrest hparen
      by_cases hnumber : token.kind = .number
      · rw [atom_of_number limit inner hnumber]
        cases hread : Numeral.read? token.text with
        | some n => exact hrest
        | none => exact ⟨token, hmem, rfl, rfl, hfit.overflows hnumber hread⟩
      rw [atom]
      dsimp only [next, bind, Except.bind]
      cases hkind : token.kind with
      | number => exact absurd hkind hnumber
      | functionName => exact hcall (hname hkind)
      | «variable» | stringLiteral => exact hrest
      | _ =>
          dsimp only
          split
          · exact hgroup
          · exact (by decide : Expected.expression ≠ .openParen)

/-- **In the tokens of a source the parser finds only errors that are foreseen.** -/
theorem expression_reporting (limit room : Nat) :
    Reporting tokens (expression limit room) := by
  induction room with
  | zero =>
      have hatom : Reporting tokens (atom limit none) := atom_reporting limit (by simp)
      exact levels_reporting hatom
  | succ room ih =>
      refine levels_reporting (atom_reporting limit ?_)
      rintro _ ⟨⟩
      exact ih

end Parser

/-! ## Sources -/

open Grammar

/-- The tokens of a segmentation are legible when white space is dropped. -/
theorem legible_of_segmentation {tokens : List Token} {source : List Char} {ts : List Token}
    (h : Segmentation source (ts.map Token.lexeme)) (hmem : ∀ token ∈ ts, token ∈ tokens) :
    Parser.Legible tokens (significant ts) := by
  induction ts generalizing source with
  | nil => exact trivial
  | cons token ts ih =>
      obtain ⟨rest, -, hfit, hneighbour, hrest⟩ := Segmentation.cons_iff.1 h
      obtain ⟨htoken, hts⟩ := List.forall_mem_cons.1 hmem
      have hlater := ih hrest hts
      by_cases hblank : token.kind = .whitespace
      · have hdropped : significant (token :: ts) = significant ts :=
          List.filter_cons_of_neg (by simp [hblank])
        rwa [hdropped]
      · have hkept : significant (token :: ts) = token :: significant ts :=
          List.filter_cons_of_pos (by simp [hblank])
        rw [hkept]
        refine ⟨htoken, hfit, fun hname => ?_, hlater⟩
        -- what comes directly behind the name is a parenthesis, so it is not dropped
        have hkind : token.lexeme.kind = .functionName := hname
        rw [Lexeme.MayPrecede, hkind] at hneighbour
        obtain ⟨l, hl, hopens⟩ := hneighbour.2
        cases ts with
        | nil => cases hl
        | cons opening ts =>
            obtain rfl : opening.lexeme = l := Option.some.inj hl
            have hcontrol : opening.kind = .control := hopens.1
            have htext : opening.text.toList = ['('] := hopens.2
            have hopening : significant (opening :: ts) = opening :: significant ts :=
              List.filter_cons_of_pos (by simp [hcontrol])
            rw [hopening]
            show opening.isControl '(' = true
            simp [Token.isControl, hcontrol, htext]

/-- The tokens of a source are legible when white space is dropped. -/
theorem legible_of_tokenize {source : String} {tokens : List Token}
    (h : tokenize source = .ok tokens) : Parser.Legible tokens (significant tokens) :=
  legible_of_segmentation (tokenize_eq_ok_iff.1 h).1 fun _ htoken => htoken

/-- A source has only syntax errors that are foreseen. -/
theorem foreseen_of_parse {source : String} {maxDepth : Nat} {error : SyntaxError}
    (h : parse source maxDepth = .error (.syntactic error)) :
    ∃ tokens, tokenize source = .ok tokens ∧ error.Foreseen tokens := by
  rw [parse] at h
  cases htokens : tokenize source with
  | error lexical =>
      rw [htokens] at h
      cases h
  | ok tokens =>
      refine ⟨tokens, rfl, ?_⟩
      have hlegible := legible_of_tokenize htokens
      have herror : parseTokens tokens maxDepth = .error error := by
        rw [htokens] at h
        dsimp only at h
        cases hparse : parseTokens tokens maxDepth with
        | ok e =>
            rw [hparse] at h
            cases h
        | error error' =>
            rw [hparse] at h
            cases h
            rfl
      rw [parseTokens] at herror
      rw [significant] at hlegible
      cases hts : tokens.filter fun token => token.kind != .whitespace with
      | nil =>
          rw [hts] at herror
          cases herror
      | cons token ts =>
          rw [hts] at herror hlegible
          have hreports := Parser.expression_reporting maxDepth maxDepth (token :: ts) hlegible
          rcases Except.bind_eq_error.1 herror with hfails | ⟨⟨e, rest⟩, hrun, hend⟩
          · rwa [hfails] at hreports
          · cases rest with
            | nil => cases hend
            | cons last rest =>
                cases hend
                exact trivial

/-! ## Numbers in their order -/

mutual

/-- The numbers in an expression, from left to right. -/
def Expr.numbers : Expr → List Int64
  | .empty | .string _ | .variable _ => []
  | .number n => [n]
  | .unary _ e => e.numbers
  | .binary e _ os => e.numbers ++ os.numbers
  | .call _ es => Expr.argsNumbers es
  | .group e => e.numbers

/-- The numbers in the operands of a run. -/
def Operands.numbers : Operands → List Int64
  | .one _ e => e.numbers
  | .more _ e os => e.numbers ++ os.numbers

/-- The numbers in arguments. -/
def Expr.argsNumbers : List Expr → List Int64
  | [] => []
  | e :: es => e.numbers ++ Expr.argsNumbers es

end

/-- The values of the tokens that are numbers, from left to right. -/
def Grammar.values (ts : List Token) : List Int :=
  (ts.filter fun token => token.kind == .number).map fun token =>
    (Numeral.value token.text.toList : Int)

theorem Operands.numbers_ofList (op : Operator) (e : Expr) (rest : List (Operator × Expr)) :
    (Operands.ofList op e rest).numbers = e.numbers ++ rest.flatMap fun step => step.2.numbers := by
  induction rest generalizing op e with
  | nil =>
      rw [Operands.ofList, Operands.numbers, List.flatMap_nil, List.append_nil]
  | cons step rest ih =>
      rw [Operands.ofList, Operands.numbers, ih, List.flatMap_cons]

theorem Expr.numbers_run (left : Expr) (p : Priority) (steps : List (Operator × Expr)) :
    (Expr.run left p steps).numbers =
      left.numbers ++ steps.flatMap fun step => step.2.numbers := by
  cases steps with
  | nil => rw [Expr.run, List.flatMap_nil, List.append_nil]
  | cons step steps =>
      rw [Expr.run, Expr.numbers, Operands.numbers_ofList, List.flatMap_cons]

namespace Grammar

variable {ts us : List Token} {token : Token}

theorem values_append : values (ts ++ us) = values ts ++ values us := by
  rw [values, List.filter_append, List.map_append]
  rfl

/-- A token of another kind has no value. -/
theorem values_cons (h : token.kind ≠ .number) : values (token :: ts) = values ts := by
  rw [values, List.filter_cons_of_neg (by simpa using h)]
  rfl

/-- **An expression has the numbers of its tokens, in their order.** -/
theorem Binary.numbers {p : Priority} {e : Expr} (h : Binary p ts e) :
    AllFit ts → e.numbers.map Int64.toInt = values ts := by
  refine @Binary.rec
    (fun _ ts e _ => AllFit ts → e.numbers.map Int64.toInt = values ts)
    (fun _ ts e _ => AllFit ts → e.numbers.map Int64.toInt = values ts)
    (fun _ ts steps _ => AllFit ts →
      (steps.flatMap fun step => step.2.numbers).map Int64.toInt = values ts)
    (fun ts e _ => AllFit ts → e.numbers.map Int64.toInt = values ts)
    (fun ts e _ => AllFit ts → e.numbers.map Int64.toInt = values ts)
    (fun ts es _ => AllFit ts → (Expr.argsNumbers es).map Int64.toInt = values ts)
    (fun ts es _ => AllFit ts → (Expr.argsNumbers es).map Int64.toInt = values ts)
    ?run ?level ?signed ?noStep ?step ?sign ?unsigned ?name ?text ?number ?call ?group ?noArgument
    ?arguments ?noMore ?more p ts e h
  case run =>
    intro p ts us left steps first more hfirst hmore hfit
    obtain ⟨hts, hus⟩ := allFit_append.1 hfit
    rw [Expr.numbers_run, List.map_append, hfirst hts, hmore hus, values_append]
  case level =>
    intro p q ts e next run hrun
    exact hrun
  case signed =>
    intro p ts e highest operand hoperand
    exact hoperand
  case noStep | noArgument | noMore =>
    intros
    rfl
  case step =>
    intro p op token ts us e steps symbol level operand more hoperand hmore hfit
    obtain ⟨hts, hus⟩ := allFit_append.1 (allFit_cons.1 hfit).2
    rw [List.flatMap_cons, List.map_append, hoperand hts, hmore hus,
      values_cons (by simp [symbol.1]), values_append]
  case sign =>
    intro sign token ts e symbol operand hoperand hfit
    rw [values_cons (by simp [symbol.1])]
    exact hoperand (allFit_cons.1 hfit).2
  case unsigned =>
    intro ts e operand hoperand
    exact hoperand
  case name | text =>
    intro token kind hfit
    rw [values_cons (by simp [kind])]
    rfl
  case number =>
    intro token n kind value hfit
    have hread := (allFit_cons.1 hfit).1.read?_number kind
    rw [value, eq_comm, Integer.checked?_eq_some_iff] at hread
    rw [values, List.filter_cons_of_pos (by simp [kind])]
    show [n.toInt] = [(Numeral.value token.text.toList : Int)]
    rw [hread]
  case call =>
    intro name opening ts closing args kind opens arguments closes hargs hfit
    obtain ⟨hts, -⟩ := allFit_append.1 (allFit_cons.1 (allFit_cons.1 hfit).2).2
    have hclosing : values [closing] = [] := values_cons (by simp [kind_of_isControl closes])
    rw [values_cons (by simp [kind]), values_cons (by simp [kind_of_isControl opens]),
      values_append, hclosing, List.append_nil]
    exact hargs hts
  case group =>
    intro opening ts closing e opens inner closes hinner hfit
    obtain ⟨hts, -⟩ := allFit_append.1 (allFit_cons.1 hfit).2
    have hclosing : values [closing] = [] := values_cons (by simp [kind_of_isControl closes])
    rw [values_cons (by simp [kind_of_isControl opens]), values_append, hclosing, List.append_nil]
    exact hinner hts
  case arguments =>
    intro ts us e es first more hfirst hmore hfit
    obtain ⟨hts, hus⟩ := allFit_append.1 hfit
    rw [Expr.argsNumbers, List.map_append, hfirst hts, hmore hus, values_append]
  case more =>
    intro comma ts us e es kind argument more hargument hmore hfit
    obtain ⟨hts, hus⟩ := allFit_append.1 (allFit_cons.1 hfit).2
    rw [Expr.argsNumbers, List.map_append, hargument hts, hmore hus,
      values_cons (by simp [kind]), values_append]

/-- White space has no value. -/
theorem values_significant (ts : List Token) : values (significant ts) = values ts := by
  have hnumber (token : Token) :
      (token.kind == .number && token.kind != .whitespace) = (token.kind == .number) := by
    cases token.kind <;> rfl
  rw [values, significant, List.filter_filter]
  simp only [hnumber]
  rfl

end Grammar

/-- The tree of a source has the numbers of the source. -/
theorem numbers_of_parse {source : String} {maxDepth : Nat} {e : Expr}
    (h : parse source maxDepth = .ok e) :
    ∃ tokens, tokenize source = .ok tokens ∧ e.numbers.map Int64.toInt = values tokens := by
  obtain ⟨tokens, htokens, hspells, -⟩ := parse_eq_ok_iff.1 h
  refine ⟨tokens, htokens, ?_⟩
  have hfit : AllFit (significant tokens) :=
    fun token htoken => allFit_of_tokenize htokens token (List.mem_filter.1 htoken).1
  rw [← values_significant]
  generalize significant tokens = ts at hspells hfit
  cases hspells with
  | blank => rfl
  | expression derived => exact derived.numbers hfit

/-- **From a source, the guards of the parser against other lists of tokens are never met.** Whatever
    the limit is, an opening parenthesis is never what is missing, and only a run of digits that
    overflows is refused as a number. Any other run of digits is the number of its value wherever
    an atom begins with it, so a tree has the numbers of its source in their order. -/
theorem parse_reports (source : String) (maxDepth : Nat) :
    (∀ found position, parse source maxDepth ≠
      .error (.syntactic (.unexpectedToken .openParen found position))) ∧
    parse source maxDepth ≠ .error (.syntactic (.unexpectedEnd .openParen)) ∧
    (∀ text position, parse source maxDepth = .error (.syntactic (.invalidNumber text position)) →
      ∃ tokens, tokenize source = .ok tokens ∧
        ∃ token ∈ tokens, token.text = text ∧ token.position = position ∧ token.Overflows) ∧
    (∀ tokens, tokenize source = .ok tokens → ∀ token ∈ tokens, token.kind = .number →
      (Numeral.value token.text.toList : Int) ≤ Int64.maxValue.toInt →
      ∃ n : Int64, n.toInt = Numeral.value token.text.toList ∧
        ∀ limit inner ts, Parser.atom limit inner (token :: ts) = .ok (.number n, ts)) ∧
    ∀ e, parse source maxDepth = .ok e →
      ∃ tokens, tokenize source = .ok tokens ∧ e.numbers.map Int64.toInt = values tokens := by
  refine ⟨fun found position h => ?_, fun h => ?_, fun text position h => foreseen_of_parse h,
    fun tokens htokens token htoken hkind hrange => ?_, fun e => numbers_of_parse⟩
  · obtain ⟨_, -, hforeseen⟩ := foreseen_of_parse h
    exact hforeseen rfl
  · obtain ⟨_, -, hforeseen⟩ := foreseen_of_parse h
    exact hforeseen rfl
  · have hfit := allFit_of_tokenize htokens token htoken
    obtain ⟨n, hn, hread⟩ := hfit.exists_number hkind hrange
    refine ⟨n, hn, fun limit inner ts => ?_⟩
    rw [Parser.atom_of_number limit inner hkind, hread]

/-- The token of the source `007`. -/
def sevenToken : Token := ⟨.number, "007", ⟨1, 0⟩⟩

/-- `9223372036854775808` overflows, and `007` is seven. -/
theorem parse_reports_digits :
    parse "9223372036854775808" 0 =
        .error (.syntactic (.invalidNumber "9223372036854775808" ⟨1, 0⟩)) ∧
      (∃ tokens, tokenize "9223372036854775808" = .ok tokens ∧
        ∃ token ∈ tokens, token.text = "9223372036854775808" ∧ token.position = ⟨1, 0⟩ ∧
          token.Overflows) ∧
      tokenize "007" = .ok [sevenToken] ∧
      (∃ n : Int64, n.toInt = 7 ∧
        ∀ limit inner ts, Parser.atom limit inner (sevenToken :: ts) = .ok (.number n, ts)) ∧
      ∃ e, parse "007" 0 = .ok e ∧ e.numbers.map Int64.toInt = [7] := by
  have hrefused : parse "9223372036854775808" 0 =
      .error (.syntactic (.invalidNumber "9223372036854775808" ⟨1, 0⟩)) := by decide +kernel
  have htokens : tokenize "007" = .ok [sevenToken] := by decide +kernel
  have hparse : parse "007" 0 = .ok (.number 7) := by decide +kernel
  obtain ⟨-, -, hoverflows, -, -⟩ := parse_reports "9223372036854775808" 0
  obtain ⟨-, -, -, hnumber, hnumbers⟩ := parse_reports "007" 0
  obtain ⟨tokens, htokens', hvalues⟩ := hnumbers _ hparse
  obtain rfl : [sevenToken] = tokens := Except.ok.inj (htokens.symm.trans htokens')
  exact ⟨hrefused, hoverflows _ _ hrefused, htokens,
    hnumber _ htokens sevenToken List.mem_cons_self rfl (by decide +kernel), _, hparse, hvalues⟩

end FormulaLang
