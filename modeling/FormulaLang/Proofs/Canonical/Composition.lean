import Mathlib.Data.List.Forall2
import FormulaLang.Proofs.Canonical.Image

/-!
# `Canonical.Composition` — sources put together

What a source spells depends on its lexemes alone, and an expression ends where a symbol, a comma
or a closing parenthesis follows it: no token runs on into what is put behind it, and none into what
is put before it. So texts may be put together as the grammar puts expressions together, with white
space anywhere in them, and the tree of the whole is made of the trees of the parts.

- **`Grammar.Binary.of_lexemes`**: where the tokens stand makes no difference to the grammar.
- **`parse_iff_phrase`**: a source parses to a tree if its lexemes are a `Phrase` for it, and phrases
  are put together by one lemma for each rule.
- **`parse_compositional`**: calls, parentheses and sums of sources.
-/

namespace FormulaLang

open Lexical

namespace Grammar

/-! ## Rules see lexemes only -/

theorem kind_of_lexeme {token token' : Token} (h : token.lexeme = token'.lexeme) :
    token.kind = token'.kind := (Lexeme.mk.inj h).1

theorem text_of_lexeme {token token' : Token} (h : token.lexeme = token'.lexeme) :
    token.text = token'.text := String.toList_inj.1 (Lexeme.mk.inj h).2

theorem IsSymbol.of_lexeme {token token' : Token} {text : String}
    (h : token.lexeme = token'.lexeme) (symbol : IsSymbol token' text) : IsSymbol token text :=
  ⟨(kind_of_lexeme h).trans symbol.1, (text_of_lexeme h).trans symbol.2⟩

theorem isControl_congr {token token' : Token} {paren : Char} (h : token.lexeme = token'.lexeme)
    (control : token'.isControl paren) : token.isControl paren := by
  rwa [Token.isControl, kind_of_lexeme h, text_of_lexeme h]

/-- **Where the tokens stand makes no difference,** to any of the rules. -/
theorem Binary.of_lexemes {p : Priority} {ts : List Token} {e : Expr} (h : Binary p ts e) :
    ∀ us, Spell us (ts.map Token.lexeme) → Binary p us e := by
  refine @Binary.rec
    (fun p ts e _ => ∀ us, Spell us (ts.map Token.lexeme) → Binary p us e)
    (fun p ts e _ => ∀ us, Spell us (ts.map Token.lexeme) → Lower p us e)
    (fun p ts steps _ => ∀ us, Spell us (ts.map Token.lexeme) → Steps p us steps)
    (fun ts e _ => ∀ us, Spell us (ts.map Token.lexeme) → Signed us e)
    (fun ts e _ => ∀ us, Spell us (ts.map Token.lexeme) → Atom us e)
    (fun ts es _ => ∀ us, Spell us (ts.map Token.lexeme) → Arguments us es)
    (fun ts es _ => ∀ us, Spell us (ts.map Token.lexeme) → MoreArguments us es)
    ?run ?level ?signed ?noStep ?step ?sign ?unsigned ?name ?text ?number ?call ?group ?noArgument
    ?arguments ?noMore ?more p ts e h
  case run =>
    intro p ts us left steps first more hfirst hmore vs hvs
    rw [List.map_append] at hvs
    obtain ⟨vs, ws, rfl, hvs, hws⟩ := spell_append.1 hvs
    exact .run (hfirst vs hvs) (hmore ws hws)
  case level =>
    intro p q ts e next run hrun us hus
    exact .level next (hrun us hus)
  case signed =>
    intro p ts e highest operand hoperand us hus
    exact .signed highest (hoperand us hus)
  case noStep =>
    intro p us hus
    obtain rfl := spell_nil.1 hus
    exact .nil
  case step =>
    intro p op token ts us e steps symbol level operand more hoperand hmore vs hvs
    rw [List.map_cons, List.map_append] at hvs
    obtain ⟨token', vs, rfl, hlexeme, hvs⟩ := spell_cons.1 hvs
    obtain ⟨vs, ws, rfl, hvs, hws⟩ := spell_append.1 hvs
    exact .cons (symbol.of_lexeme hlexeme) level (hoperand vs hvs) (hmore ws hws)
  case sign =>
    intro sign token ts e symbol operand hoperand us hus
    obtain ⟨token', us, rfl, hlexeme, hus⟩ := spell_cons.1 hus
    exact .sign (symbol.of_lexeme hlexeme) (hoperand us hus)
  case unsigned =>
    intro ts e operand hoperand us hus
    exact .atom (hoperand us hus)
  case name =>
    intro token kind us hus
    obtain ⟨token', rfl, hlexeme⟩ := spell_singleton.1 hus
    rw [← text_of_lexeme hlexeme]
    exact .variable ((kind_of_lexeme hlexeme).trans kind)
  case text =>
    intro token kind us hus
    obtain ⟨token', rfl, hlexeme⟩ := spell_singleton.1 hus
    rw [← text_of_lexeme hlexeme]
    exact .string ((kind_of_lexeme hlexeme).trans kind)
  case number =>
    intro token n kind value us hus
    obtain ⟨token', rfl, hlexeme⟩ := spell_singleton.1 hus
    rw [← text_of_lexeme hlexeme] at value
    exact .number ((kind_of_lexeme hlexeme).trans kind) value
  case call =>
    intro name opening ts closing args kind opens arguments closes hargs us hus
    rw [List.map_cons, List.map_cons, List.map_append] at hus
    obtain ⟨name', us, rfl, hname, hus⟩ := spell_cons.1 hus
    obtain ⟨opening', us, rfl, hopening, hus⟩ := spell_cons.1 hus
    obtain ⟨us, vs, rfl, harguments, hvs⟩ := spell_append.1 hus
    obtain ⟨closing', rfl, hclosing⟩ := spell_singleton.1 hvs
    rw [← text_of_lexeme hname]
    exact .call ((kind_of_lexeme hname).trans kind) (isControl_congr hopening opens)
      (hargs us harguments) (isControl_congr hclosing closes)
  case group =>
    intro opening ts closing e opens inner closes hinner us hus
    rw [List.map_cons, List.map_append] at hus
    obtain ⟨opening', us, rfl, hopening, hus⟩ := spell_cons.1 hus
    obtain ⟨us, vs, rfl, hbetween, hvs⟩ := spell_append.1 hus
    obtain ⟨closing', rfl, hclosing⟩ := spell_singleton.1 hvs
    exact .group (isControl_congr hopening opens) (hinner us hbetween)
      (isControl_congr hclosing closes)
  case noArgument =>
    intro us hus
    obtain rfl := spell_nil.1 hus
    exact .none
  case arguments =>
    intro ts us e es first more hfirst hmore vs hvs
    rw [List.map_append] at hvs
    obtain ⟨vs, ws, rfl, hvs, hws⟩ := spell_append.1 hvs
    exact .some (hfirst vs hvs) (hmore ws hws)
  case noMore =>
    intro us hus
    obtain rfl := spell_nil.1 hus
    exact .nil
  case more =>
    intro comma ts us e es kind argument more hargument hmore vs hvs
    rw [List.map_cons, List.map_append] at hvs
    obtain ⟨comma', vs, rfl, hlexeme, hvs⟩ := spell_cons.1 hvs
    obtain ⟨vs, ws, rfl, hvs, hws⟩ := spell_append.1 hvs
    exact .cons ((kind_of_lexeme hlexeme).trans kind) (hargument vs hvs) (hmore ws hws)

/-! ## White space -/

theorem significant_append (ts us : List Token) :
    significant (ts ++ us) = significant ts ++ significant us :=
  List.filter_append ts us

theorem significant_cons {token : Token} {l : Lexeme} (h : token.lexeme = l)
    (hl : l.kind ≠ .whitespace) (ts : List Token) :
    significant (token :: ts) = token :: significant ts := by
  subst h
  exact List.filter_cons_of_pos (bne_iff_ne.2 hl)

/-- White space is the same in tokens with the same lexemes. -/
theorem spell_significant {ts us : List Token} (h : Spell ts (us.map Token.lexeme)) :
    Spell (significant ts) ((significant us).map Token.lexeme) := by
  induction us generalizing ts with
  | nil =>
      obtain rfl := spell_nil.1 h
      rfl
  | cons token us ih =>
      obtain ⟨token', ts, rfl, hlexeme, hts⟩ := spell_cons.1 h
      rw [significant, significant, List.filter_cons, List.filter_cons, kind_of_lexeme hlexeme]
      split
      · exact spell_cons.2 ⟨token', _, rfl, hlexeme, ih hts⟩
      · exact ih hts

end Grammar

open Grammar

/-! ## Lexemes put together -/

/-- Lexemes may stand behind others if an operand may end before them. -/
theorem Readable.append {ls ls' : List Lexeme} (h : Readable ls) (h' : Readable ls')
    (hend : EndsOperand ls') : Readable (ls ++ ls') := by
  induction ls with
  | nil => exact h'
  | cons l ls ih =>
      obtain ⟨hfits, hnext, hls⟩ := readable_cons.1 h
      refine readable_cons.2 ⟨hfits, ?_, ih hls⟩
      cases ls with
      | cons l' ls => exact hnext
      | nil =>
          -- the last lexeme has nothing behind it, so it is not the name of a function
          obtain ⟨kind, text⟩ := l
          show Lexeme.MayPrecede _ ls'.head?
          cases kind with
          | number => exact hend.number text
          | «variable» => exact hend.variable text
          | functionName =>
              obtain ⟨-, l', hl', -⟩ := hnext
              cases hl'
          | _ => trivial

/-- The lexemes are those of their text, and tokens that have them are the expression, white space
    apart. -/
structure Phrase (ls : List Lexeme) (e : Expr) : Prop where
  readable : Readable ls
  expression : ∀ ts, Spell ts ls → Expression (significant ts) e

/-- **A source parses to a tree if its lexemes are a phrase for it,** within the limit on groups. -/
theorem parse_iff_phrase {source : String} {maxDepth : Nat} {e : Expr} (he : e ≠ .empty) :
    parse source maxDepth = .ok e ↔
      ∃ ls, ls.flatMap Lexeme.text = source.toList ∧ Phrase ls e ∧ e.nesting ≤ maxDepth := by
  constructor
  · intro h
    obtain ⟨tokens, htokens, hspells, hnest⟩ := parse_eq_ok_iff.1 h
    have hsegmentation := (tokenize_eq_ok_iff.1 htokens).1
    have hreadable : Readable (tokens.map Token.lexeme) := by
      rw [Readable, hsegmentation.lossless]
      exact hsegmentation
    have hexpression : Expression (significant tokens) e := by
      generalize significant tokens = ts at hspells
      cases hspells with
      | blank => exact absurd rfl he
      | expression derived => exact derived
    exact ⟨tokens.map Token.lexeme, hsegmentation.lossless,
      ⟨hreadable, fun ts hts => hexpression.of_lexemes _ (spell_significant hts)⟩, hnest⟩
  · rintro ⟨ls, htext, ⟨hreadable, hexpression⟩, hnest⟩
    rw [Readable, htext] at hreadable
    obtain ⟨tokens, htokens, hlexemes⟩ := exists_tokenize_iff.2 hreadable
    exact parse_eq_ok_iff.2 ⟨tokens, htokens, .expression (hexpression tokens hlexemes), hnest⟩

theorem readable_closing : Readable [.closing] :=
  readable_cons.2 ⟨.inr rfl, trivial, readable_nil⟩

/-! ### Parentheses -/

theorem Phrase.group {ls : List Lexeme} {e : Expr} (h : Phrase ls e) :
    Phrase (.opening :: (ls ++ [.closing])) (.group e) where
  readable :=
    readable_cons.2 ⟨.inl rfl, trivial, h.readable.append readable_closing endsOperand_closing⟩
  expression ts hts := by
    obtain ⟨opening, ts, rfl, hopening, hts⟩ := spell_cons.1 hts
    obtain ⟨ts, us, rfl, hinner, hus⟩ := spell_append.1 hts
    obtain ⟨closing, rfl, hclosing⟩ := spell_singleton.1 hus
    rw [significant_cons hopening (by decide), significant_append,
      significant_cons hclosing (by decide)]
    exact (Derived.of_atom (.group (isControl_of_lexeme hopening) (h.expression ts hinner)
      (isControl_of_lexeme hclosing))).sum

/-! ### Calls -/

/-- The lexemes of arguments after the first one. -/
def Lexeme.behindCommas (lss : List (List Lexeme)) : List Lexeme := lss.flatMap (.comma :: ·)

/-- The lexemes of arguments, with commas between them. -/
def Lexeme.separated : List (List Lexeme) → List Lexeme
  | [] => []
  | ls :: lss => ls ++ Lexeme.behindCommas lss

section
variable {lss : List (List Lexeme)} {es : List Expr} {ls : List Lexeme}

theorem readable_behindCommas (h : List.Forall₂ Phrase lss es) (hls : Readable ls)
    (hend : EndsOperand ls) :
    Readable (Lexeme.behindCommas lss ++ ls) ∧ EndsOperand (Lexeme.behindCommas lss ++ ls) := by
  induction h with
  | nil => exact ⟨hls, hend⟩
  | cons first _ ih =>
      obtain ⟨hmore, hcomma⟩ := ih
      rw [Lexeme.behindCommas, List.flatMap_cons, List.cons_append, List.cons_append,
        List.append_assoc]
      exact ⟨readable_cons.2 ⟨rfl, trivial, first.readable.append hmore hcomma⟩, endsOperand_comma⟩

theorem readable_separated (h : List.Forall₂ Phrase lss es) (hls : Readable ls)
    (hend : EndsOperand ls) : Readable (Lexeme.separated lss ++ ls) := by
  cases h with
  | nil => exact hls
  | cons first more =>
      obtain ⟨hmore, hcomma⟩ := readable_behindCommas more hls hend
      rw [Lexeme.separated, List.append_assoc]
      exact first.readable.append hmore hcomma

theorem moreArguments_of_spell (h : List.Forall₂ Phrase lss es) {ts : List Token}
    (hts : Spell ts (Lexeme.behindCommas lss)) : MoreArguments (significant ts) es := by
  induction h generalizing ts with
  | nil =>
      obtain rfl := spell_nil.1 hts
      exact .nil
  | cons first _ ih =>
      rw [Lexeme.behindCommas, List.flatMap_cons] at hts
      obtain ⟨comma, ts, rfl, hcomma, hts⟩ := spell_cons.1 hts
      obtain ⟨ts, us, rfl, hts, hus⟩ := spell_append.1 hts
      rw [significant_cons hcomma (by decide), significant_append]
      exact .cons (Lexeme.mk.inj hcomma).1 (first.expression ts hts) (ih hus)

theorem arguments_of_spell (h : List.Forall₂ Phrase lss es) {ts : List Token}
    (hts : Spell ts (Lexeme.separated lss)) : Arguments (significant ts) es := by
  cases h with
  | nil =>
      obtain rfl := spell_nil.1 hts
      exact .none
  | cons first more =>
      obtain ⟨ts, us, rfl, hts, hus⟩ := spell_append.1 hts
      rw [significant_append]
      exact .some (first.expression ts hts) (moreArguments_of_spell more hus)

theorem Phrase.call {name : String} (hname : IsName name.toList)
    (h : List.Forall₂ Phrase lss es) :
    Phrase (⟨.functionName, name.toList⟩ :: .opening :: (Lexeme.separated lss ++ [.closing]))
      (.call name es) where
  readable :=
    readable_cons.2 ⟨hname, mayPrecede_opening _, readable_cons.2 ⟨.inl rfl, trivial,
      readable_separated h readable_closing endsOperand_closing⟩⟩
  expression ts hts := by
    obtain ⟨token, ts, rfl, htoken, hts⟩ := spell_cons.1 hts
    obtain ⟨opening, ts, rfl, hopening, hts⟩ := spell_cons.1 hts
    obtain ⟨ts, us, rfl, harguments, hus⟩ := spell_append.1 hts
    obtain ⟨closing, rfl, hclosing⟩ := spell_singleton.1 hus
    rw [significant_cons htoken nofun, significant_cons hopening (by decide), significant_append,
      significant_cons hclosing (by decide)]
    obtain ⟨hkind, htext⟩ := Lexeme.mk.inj htoken
    have hatom := Atom.call hkind (isControl_of_lexeme hopening) (arguments_of_spell h harguments)
      (isControl_of_lexeme hclosing)
    rw [String.toList_inj.1 htext] at hatom
    exact (Derived.of_atom hatom).sum

end

/-! ### Sums -/

namespace Expr

/-- The first operand of a sum, and its steps. A tree that is no sum is a sum without steps. -/
def summands : Expr → Expr × List (Operator × Expr)
  | .binary left .additive os => (left, os.toList)
  | e => (e, [])

theorem summands_of_isSum {e : Expr} (h : e.isSum = false) : e.summands = (e, []) := by
  cases e with
  | binary left p os =>
      cases p with
      | additive => cases h
      | multiplicative => rfl
  | _ => rfl

/-- What a run at the level of sums is made of, be there steps or not. -/
theorem summands_run {left : Expr} (h : left.isSum = false) (steps : List (Operator × Expr)) :
    (Expr.run left .additive steps).summands = (left, steps) := by
  cases steps with
  | nil => exact summands_of_isSum h
  | cons step steps => rw [Expr.run, summands, Operands.toList_ofList]

/-- The first sum with an operator and the second sum behind it. -/
def sum (e : Expr) (op : Operator) (e' : Expr) : Expr :=
  .run e.summands.1 .additive (e.summands.2 ++ (op, e'.summands.1) :: e'.summands.2)

/-- The two together are a run with an operator. -/
theorem sum_eq_binary (e : Expr) (op : Operator) (e' : Expr) :
    ∃ os, e.sum op e' = .binary e.summands.1 .additive os ∧
      os.toList = e.summands.2 ++ (op, e'.summands.1) :: e'.summands.2 := by
  rw [sum]
  cases e.summands.2 with
  | nil => exact ⟨_, rfl, Operands.toList_ofList ..⟩
  | cons step steps => exact ⟨_, rfl, Operands.toList_ofList ..⟩

end Expr

namespace Grammar

/-- An operand of a sum is no sum. -/
theorem Lower.isSum {ts : List Token} {e : Expr} (h : Lower .additive ts e) : e.isSum = false := by
  cases lower_additive.1 h with
  | run first _ =>
      refine Expr.isSum_run ?_
      cases lower_multiplicative.1 first with
      | sign _ _ => rfl
      | atom operand => cases operand <;> rfl

theorem Steps.append {p : Priority} {ts us : List Token} {steps steps' : List (Operator × Expr)}
    (h : Steps p ts steps) (h' : Steps p us steps') : Steps p (ts ++ us) (steps ++ steps') := by
  induction steps generalizing ts with
  | nil =>
      cases h
      exact h'
  | cons step steps ih =>
      cases h with
      | cons symbol level operand more =>
          rw [List.cons_append, List.append_assoc]
          exact .cons symbol level operand (ih more)

/-- The steps of the second expression go on with those of the first. -/
theorem Binary.sum {ts us : List Token} {token : Token} {op : Operator} {e e' : Expr}
    (h : Binary .additive ts e) (symbol : IsSymbol token op.symbol)
    (level : op.priority = .additive) (h' : Binary .additive us e') :
    Binary .additive (ts ++ token :: us) (e.sum op e') := by
  cases h with
  | run first more =>
      cases h' with
      | run first' more' =>
          rw [Expr.sum, Expr.summands_run first.isSum, Expr.summands_run first'.isSum,
            List.append_assoc]
          exact .run first (more.append (.cons symbol level first' more'))

end Grammar

theorem Phrase.sum {ls ls' : List Lexeme} {e e' : Expr} {op : Operator} (h : Phrase ls e)
    (level : op.priority = .additive) (h' : Phrase ls' e') :
    Phrase (ls ++ .symbol op.symbol :: ls') (e.sum op e') where
  readable :=
    h.readable.append (readable_cons.2 ⟨fits_operator op, trivial, h'.readable⟩)
      (endsOperand_symbol op)
  expression ts hts := by
    obtain ⟨ts, us, rfl, hfirst, hus⟩ := spell_append.1 hts
    obtain ⟨token, us, rfl, htoken, hus⟩ := spell_cons.1 hus
    rw [significant_append, significant_cons htoken nofun]
    exact (h.expression ts hfirst).sum (isSymbol_of_lexeme htoken) level (h'.expression us hus)

theorem Expr.nesting_summands {e : Expr} {n : Nat} (h : e.nesting ≤ n) :
    e.summands.1.nesting ≤ n ∧ ∀ step ∈ e.summands.2, step.2.nesting ≤ n := by
  cases e with
  | binary left p os =>
      cases p with
      | additive =>
          obtain ⟨hleft, hos⟩ := Nat.max_le.1 h
          exact ⟨hleft, os.nesting_le.1 hos⟩
      | multiplicative => exact ⟨h, List.forall_mem_nil _⟩
  | _ => exact ⟨h, List.forall_mem_nil _⟩

/-- A sum opens no more groups than the two that it is made of. -/
theorem Expr.nesting_sum_le {e e' : Expr} {op : Operator} {n : Nat} (h : e.nesting ≤ n)
    (h' : e'.nesting ≤ n) : (e.sum op e').nesting ≤ n := by
  obtain ⟨hleft, hsteps⟩ := Expr.nesting_summands h
  obtain ⟨hleft', hsteps'⟩ := Expr.nesting_summands h'
  rw [Expr.sum, Expr.nesting_run_le]
  exact ⟨hleft, List.forall_mem_append.2 ⟨hsteps, List.forall_mem_cons.2 ⟨hleft', hsteps'⟩⟩⟩

/-! ## Sources put together -/

/-- The text of arguments has a comma between each two of them. -/
theorem text_separated (lss : List (List Lexeme)) :
    (Lexeme.separated lss).flatMap Lexeme.text =
      [','].intercalate (lss.map fun ls => ls.flatMap Lexeme.text) := by
  cases lss with
  | nil => rfl
  | cons ls lss =>
      induction lss generalizing ls with
      | nil => simp [Lexeme.separated, Lexeme.behindCommas]
      | cons ls' lss ih =>
          have hseparated : Lexeme.separated (ls :: ls' :: lss) =
              ls ++ .comma :: Lexeme.separated (ls' :: lss) := rfl
          rw [hseparated, List.flatMap_append, List.flatMap_cons, ih, List.map_cons, List.map_cons,
            List.map_cons, List.intercalate_cons_cons, List.append_assoc]
          rfl

/-- The lexemes of sources, one list for each. -/
theorem exists_phrases {d : Nat} {sources : List String} {es : List Expr}
    (h : List.Forall₂ (fun source e => parse source d = .ok e ∧ e ≠ .empty) sources es) :
    ∃ lss, (lss.map fun ls => ls.flatMap Lexeme.text) = sources.map String.toList ∧
      List.Forall₂ Phrase lss es ∧ ∀ e ∈ es, e.nesting ≤ d := by
  induction h with
  | nil => exact ⟨[], rfl, .nil, List.forall_mem_nil _⟩
  | cons first _ ih =>
      obtain ⟨lss, htexts, hphrase, hnest⟩ := ih
      obtain ⟨ls, htext, hfirst, hnesting⟩ := (parse_iff_phrase first.2).1 first.1
      refine ⟨ls :: lss, ?_, .cons hfirst hphrase, List.forall_mem_cons.2 ⟨hnesting, hnest⟩⟩
      rw [List.map_cons, List.map_cons, htext, htexts]

/-- **Parsing is compositional in the source text.** Let sources parse to trees that are not blank,
    within a limit on groups. If one more group may be open, their texts with commas between them,
    in parentheses and behind a name, parse to the call of that name with those trees as its
    arguments, and the text of one of them in parentheses parses to its tree in parentheses. The
    texts of two with a `+` or `-` between them parse, within the limit as it was, to one run: the
    summands of the first tree, then the operator and the summands of the second, a tree that is no
    sum being the only summand of itself. -/
theorem parse_compositional (d : Nat) :
    (∀ (name : String) (sources : List String) (es : List Expr), IsName name.toList →
      List.Forall₂ (fun source e => parse source d = .ok e ∧ e ≠ .empty) sources es →
        parse (name ++ "(" ++ ",".intercalate sources ++ ")") (d + 1) = .ok (.call name es)) ∧
    (∀ source e, parse source d = .ok e → e ≠ .empty →
      parse ("(" ++ source ++ ")") (d + 1) = .ok (.group e)) ∧
    ∀ (op : Operator) source source' e e', op.priority = .additive →
      parse source d = .ok e → e ≠ .empty → parse source' d = .ok e' → e' ≠ .empty →
        ∃ os, parse (source ++ op.symbol ++ source') d = .ok (.binary e.summands.1 .additive os) ∧
          os.toList = e.summands.2 ++ (op, e'.summands.1) :: e'.summands.2 := by
  refine ⟨fun name sources es hname h => ?_, fun source e h he => ?_,
    fun op source source' e e' hop h he h' he' => ?_⟩
  · obtain ⟨lss, htexts, hphrase, hnest⟩ := exists_phrases h
    have hne : Expr.call name es ≠ .empty := nofun
    refine (parse_iff_phrase hne).2 ⟨_, ?_, .call hname hphrase,
      Nat.succ_le_succ (Expr.argsNesting_le.2 hnest)⟩
    rw [List.flatMap_cons, List.flatMap_cons, List.flatMap_append, text_separated, htexts]
    simp [Lexeme.opening, Lexeme.closing]
  · obtain ⟨ls, htext, hphrase, hnest⟩ := (parse_iff_phrase he).1 h
    have hne : Expr.group e ≠ .empty := nofun
    refine (parse_iff_phrase hne).2 ⟨_, ?_, hphrase.group, Nat.succ_le_succ hnest⟩
    rw [List.flatMap_cons, List.flatMap_append, htext]
    simp [Lexeme.opening, Lexeme.closing]
  · obtain ⟨ls, htext, hphrase, hnest⟩ := (parse_iff_phrase he).1 h
    obtain ⟨ls', htext', hphrase', hnest'⟩ := (parse_iff_phrase he').1 h'
    obtain ⟨os, hsum, hos⟩ := e.sum_eq_binary op e'
    have hwhole := hphrase.sum hop hphrase'
    have hlimit : (e.sum op e').nesting ≤ d := Expr.nesting_sum_le hnest hnest'
    rw [hsum] at hwhole hlimit
    have hne : Expr.binary e.summands.1 .additive os ≠ .empty := nofun
    refine ⟨os, (parse_iff_phrase hne).2 ⟨_, ?_, hwhole, hlimit⟩, hos⟩
    rw [List.flatMap_append, List.flatMap_cons, htext, htext']
    simp [Lexeme.symbol]

/-- White space at the edge of a source stays where it is, and a sum after a sum goes on with it. -/
theorem parse_compositional_max :
    parse "1 + 2" 1 = .ok (.binary (.number 1) .additive (.one .add (.number 2))) ∧
      parse " (x)" 1 = .ok (.group (.variable "x")) ∧
      parse ("max" ++ "(" ++ ",".intercalate ["1 + 2", " (x)"] ++ ")") 2 = .ok (.call "max"
        [.binary (.number 1) .additive (.one .add (.number 2)), .group (.variable "x")]) ∧
      parse ("(" ++ " (x)" ++ ")") 2 = .ok (.group (.group (.variable "x"))) ∧
      ∃ os, parse ("1 + 2" ++ "-" ++ " (x)") 1 = .ok (.binary (.number 1) .additive os) ∧
        os.toList = [(.add, .number 2), (.sub, .group (.variable "x"))] := by
  have hsum : parse "1 + 2" 1 = .ok (.binary (.number 1) .additive (.one .add (.number 2))) := by
    decide +kernel
  have hgroup : parse " (x)" 1 = .ok (.group (.variable "x")) := by decide +kernel
  have hname : IsName "max".toList :=
    ⟨'m', ['a', 'x'], rfl, by decide, List.all_eq_true.1 (by decide)⟩
  obtain ⟨hcall, hparentheses, hrun⟩ := parse_compositional 1
  exact ⟨hsum, hgroup, hcall "max" _ _ hname (.cons ⟨hsum, nofun⟩ (.cons ⟨hgroup, nofun⟩ .nil)),
    hparentheses _ _ hgroup nofun, hrun .sub _ _ _ _ rfl hsum nofun hgroup nofun⟩

end FormulaLang
