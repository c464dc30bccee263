import FormulaLang.Proofs.Grammar.Source
import FormulaLang.Proofs.Text.Numerals

/-!
# `Canonical.Tree` — the shape of trees that are parsed

A tree of a source is never blank inside, has no negative number, no name that is none and no text
that could not stand between quotes. Where an operand would need parentheses it has them: there is
no run in a product or behind a sign, no sum directly in a sum, and no sign behind a sign. A tree
with these properties is canonical.

- **`Grammar.Binary.canonical`**: tokens with texts of their kinds spell canonical trees only.
-/

namespace FormulaLang

open Lexical

/-! ## Canonical trees -/

namespace Expr

/-- Whether the expression is a run of operators. -/
def isRun : Expr → Bool
  | .binary .. => true
  | _ => false

/-- Whether the expression is a run of `+` and `-`. -/
def isSum : Expr → Bool
  | .binary _ .additive _ => true
  | _ => false

/-- Whether the expression is a sign and its operand. -/
def isSigned : Expr → Bool
  | .unary .. => true
  | _ => false

/-- What may be an operand of a run without parentheses: all but a sum in a sum, all but a run in a
    product. -/
def StandsIn : Priority → Expr → Prop
  | .additive, e => e.isSum = false
  | .multiplicative, e => e.isRun = false

theorem isSum_eq_false_of_isRun {e : Expr} (h : e.isRun = false) : e.isSum = false := by
  cases e <;> simp_all [isSum, isRun]

theorem StandsIn.of_isRun {e : Expr} (h : e.isRun = false) (p : Priority) : e.StandsIn p := by
  cases p with
  | additive => exact isSum_eq_false_of_isRun h
  | multiplicative => exact h

end Expr

mutual

/-- The expression is one that some source spells. A run has an operator by its type. -/
def Expr.Canonical : Expr → Prop
  | .empty => False
  | .number n => 0 ≤ n.toInt
  | .string text => Body '\'' text.toList ∨ Body '\"' text.toList
  | .variable name => IsName name.toList
  | .unary _ operand => operand.isRun = false ∧ operand.isSigned = false ∧ operand.Canonical
  | .binary left p operands => left.StandsIn p ∧ left.Canonical ∧ operands.Canonical p
  | .call name args => IsName name.toList ∧ Expr.ArgsCanonical args
  | .group inner => inner.Canonical

/-- All operators are of level `p`, and all operands may stand between them. -/
def Operands.Canonical (p : Priority) : Operands → Prop
  | .one op e => op.priority = p ∧ e.StandsIn p ∧ e.Canonical
  | .more op e rest => (op.priority = p ∧ e.StandsIn p ∧ e.Canonical) ∧ rest.Canonical p

/-- All arguments are canonical. -/
def Expr.ArgsCanonical : List Expr → Prop
  | [] => True
  | e :: es => e.Canonical ∧ Expr.ArgsCanonical es

end

theorem Operands.canonical_iff {p : Priority} (os : Operands) :
    os.Canonical p ↔
      ∀ step ∈ os.toList, step.1.priority = p ∧ step.2.StandsIn p ∧ step.2.Canonical := by
  match os with
  | .one op e => simp [Operands.Canonical, Operands.toList]
  | .more op e rest =>
      rw [Operands.Canonical, rest.canonical_iff, Operands.toList, List.forall_mem_cons]

theorem Expr.argsCanonical_iff {es : List Expr} :
    Expr.ArgsCanonical es ↔ ∀ e ∈ es, e.Canonical := by
  induction es with
  | nil => simp [Expr.ArgsCanonical]
  | cons e es ih => rw [Expr.ArgsCanonical, ih, List.forall_mem_cons]

/-- A first operand and steps make a canonical expression, be there steps or not. -/
theorem Expr.canonical_run {left : Expr} {p : Priority} {steps : List (Operator × Expr)}
    (hstands : left.StandsIn p) (hleft : left.Canonical)
    (hsteps : ∀ step ∈ steps, step.1.priority = p ∧ step.2.StandsIn p ∧ step.2.Canonical) :
    (Expr.run left p steps).Canonical := by
  cases steps with
  | nil => exact hleft
  | cons step steps =>
      refine ⟨hstands, hleft, (Operands.canonical_iff _).2 ?_⟩
      rw [Operands.toList_ofList]
      exact hsteps

/-- A run is a sum only at the level of sums. -/
theorem Expr.isSum_run {left : Expr} {steps : List (Operator × Expr)}
    (h : left.StandsIn .multiplicative) : (Expr.run left .multiplicative steps).isSum = false := by
  cases steps with
  | nil => exact isSum_eq_false_of_isRun h
  | cons step steps => rfl

/-! ## What tokens spell -/

/-- The token has a text of its kind. -/
def Token.IsFit (token : Token) : Prop := Fits token.kind token.text.toList

/-- The text between the quotes of a token could stand between them again. -/
theorem Token.IsFit.canonical_string {token : Token} (h : token.IsFit)
    (kind : token.kind = .stringLiteral) :
    (Expr.string (String.ofList token.text.toList.tail.dropLast)).Canonical := by
  rw [IsFit, kind] at h
  obtain ⟨quote, hquote, body, hbody, htext⟩ := h
  rw [Expr.Canonical, htext, String.toList_ofList, List.tail_cons, List.dropLast_concat]
  rcases List.mem_cons.1 hquote with rfl | hquote
  · exact .inl hbody
  · obtain rfl := List.mem_singleton.1 hquote
    exact .inr hbody

/-- The digits of a token make no negative number. -/
theorem Token.IsFit.canonical_number {token : Token} {n : Int64} (h : token.IsFit)
    (kind : token.kind = .number) (value : Numeral.read? token.text = some n) :
    (Expr.number n).Canonical := by
  rw [IsFit, kind] at h
  exact Numeral.nonneg_of_read?_digits h.1 h.2 value

theorem Token.IsFit.isName {token : Token} (h : token.IsFit)
    (kind : token.kind = .variable ∨ token.kind = .functionName) : IsName token.text.toList := by
  rw [IsFit] at h
  rcases kind with kind | kind
  · rwa [kind] at h
  · rwa [kind] at h

namespace Grammar

/-- All tokens have texts of their kinds. -/
def AllFit (ts : List Token) : Prop := ∀ token ∈ ts, token.IsFit

theorem allFit_cons {token : Token} {ts : List Token} :
    AllFit (token :: ts) ↔ token.IsFit ∧ AllFit ts := List.forall_mem_cons

theorem allFit_append {ts us : List Token} : AllFit (ts ++ us) ↔ AllFit ts ∧ AllFit us :=
  List.forall_mem_append

/-- **Tokens with texts of their kinds spell canonical trees only.** Each rule adds what the next
    one asks of its operands: an atom is neither signed nor a run, what a sign makes of it is no
    run, and a product is no sum. -/
theorem Binary.canonical {p : Priority} {ts : List Token} {e : Expr} (h : Binary p ts e) :
    AllFit ts → e.Canonical ∧ (p = .multiplicative → e.isSum = false) := by
  refine @Binary.rec
    (fun p ts e _ => AllFit ts → e.Canonical ∧ (p = .multiplicative → e.isSum = false))
    (fun p ts e _ => AllFit ts → e.StandsIn p ∧ e.Canonical)
    (fun p ts steps _ => AllFit ts →
      ∀ step ∈ steps, step.1.priority = p ∧ step.2.StandsIn p ∧ step.2.Canonical)
    (fun ts e _ => AllFit ts → e.isRun = false ∧ e.Canonical)
    (fun ts e _ => AllFit ts → e.isRun = false ∧ e.isSigned = false ∧ e.Canonical)
    (fun ts es _ => AllFit ts → ∀ e ∈ es, e.Canonical)
    (fun ts es _ => AllFit ts → ∀ e ∈ es, e.Canonical)
    ?run ?level ?signed ?noStep ?step ?sign ?unsigned ?name ?text ?number ?call ?group ?noArgument
    ?arguments ?noMore ?more p ts e h
  case run =>
    intro p ts us left steps first more hfirst hmore hfit
    obtain ⟨hts, hus⟩ := allFit_append.1 hfit
    obtain ⟨hstands, hleft⟩ := hfirst hts
    refine ⟨Expr.canonical_run hstands hleft (hmore hus), ?_⟩
    rintro rfl
    exact Expr.isSum_run hstands
  case level =>
    intro p q ts e next run hrun hfit
    obtain ⟨hcanonical, hproduct⟩ := hrun hfit
    cases p with
    | additive =>
        obtain rfl := Option.some.inj next
        exact ⟨hproduct rfl, hcanonical⟩
    | multiplicative => cases next
  case signed =>
    intro p ts e highest operand hoperand hfit
    obtain ⟨hrun, hcanonical⟩ := hoperand hfit
    exact ⟨.of_isRun hrun p, hcanonical⟩
  case noStep =>
    intro p hfit
    exact List.forall_mem_nil _
  case step =>
    intro p op token ts us e steps symbol level operand more hoperand hmore hfit
    obtain ⟨-, hfit⟩ := allFit_cons.1 hfit
    obtain ⟨hts, hus⟩ := allFit_append.1 hfit
    exact List.forall_mem_cons.2 ⟨⟨level, hoperand hts⟩, hmore hus⟩
  case sign =>
    intro sign token ts e symbol operand hoperand hfit
    exact ⟨rfl, hoperand (allFit_cons.1 hfit).2⟩
  case unsigned =>
    intro ts e operand hoperand hfit
    obtain ⟨hrun, -, hcanonical⟩ := hoperand hfit
    exact ⟨hrun, hcanonical⟩
  case name =>
    intro token kind hfit
    exact ⟨rfl, rfl, (allFit_cons.1 hfit).1.isName (.inl kind)⟩
  case text =>
    intro token kind hfit
    exact ⟨rfl, rfl, (allFit_cons.1 hfit).1.canonical_string kind⟩
  case number =>
    intro token n kind value hfit
    exact ⟨rfl, rfl, (allFit_cons.1 hfit).1.canonical_number kind value⟩
  case call =>
    intro name opening ts closing args kind opens arguments closes hargs hfit
    obtain ⟨hname, hfit⟩ := allFit_cons.1 hfit
    obtain ⟨hts, -⟩ := allFit_append.1 (allFit_cons.1 hfit).2
    exact ⟨rfl, rfl, hname.isName (.inr kind), Expr.argsCanonical_iff.2 (hargs hts)⟩
  case group =>
    intro opening ts closing e opens inner closes hinner hfit
    obtain ⟨hts, -⟩ := allFit_append.1 (allFit_cons.1 hfit).2
    exact ⟨rfl, rfl, (hinner hts).1⟩
  case noArgument | noMore =>
    intro hfit
    exact List.forall_mem_nil _
  case arguments =>
    intro ts us e es first more hfirst hmore hfit
    obtain ⟨hts, hus⟩ := allFit_append.1 hfit
    exact List.forall_mem_cons.2 ⟨(hfirst hts).1, hmore hus⟩
  case more =>
    intro comma ts us e es kind argument more hargument hmore hfit
    obtain ⟨hts, hus⟩ := allFit_append.1 (allFit_cons.1 hfit).2
    exact List.forall_mem_cons.2 ⟨(hargument hts).1, hmore hus⟩

end Grammar

/-- The tokens of a source have texts of their kinds. -/
theorem allFit_of_tokenize {source : String} {tokens : List Token}
    (h : tokenize source = .ok tokens) : Grammar.AllFit tokens := by
  intro token htoken
  exact (tokenize_eq_ok_iff.1 h).1.fits token.lexeme (List.mem_map_of_mem htoken)

/-- **A parsed tree is blank or canonical.** -/
theorem canonical_of_parse {source : String} {maxDepth : Nat} {e : Expr}
    (h : parse source maxDepth = .ok e) : e = .empty ∨ e.Canonical := by
  obtain ⟨tokens, htokens, hspells, -⟩ := parse_eq_ok_iff.1 h
  have hfit : Grammar.AllFit (Grammar.significant tokens) :=
    fun token htoken => allFit_of_tokenize htokens token ((List.mem_filter.1 htoken).1)
  generalize Grammar.significant tokens = ts at hspells hfit
  cases hspells with
  | blank => exact .inl rfl
  | expression derived => exact .inr (derived.canonical hfit).1

end FormulaLang
