import FormulaLang.Proofs.Grammar.Source

/-!
# `Grammar.Size` — what is parsed keeps within the limits of the later stages

A sum, a product, a sign and the group itself are the four levels that a group can add, so an
expression whose groups nest `n` deep has at most `4 * (n + 1)` levels. Every group also has a
token of its own and every token a character. A source that fits in memory is therefore too short
for the saturated limit on levels to matter.

- **`parse_fits`**: a parsed tree keeps within the limit on groups and the limit on levels.
-/

namespace FormulaLang

namespace Grammar

/-! ## Levels and groups of an expression -/

/-- A tree that `ts` spell has at most `k` levels besides the four for each of its nested groups,
    and fewer nested groups than there are tokens. -/
structure Measured (k : Nat) (ts : List Token) (e : Expr) : Prop where
  height : e.height ≤ 4 * e.nesting + k
  nesting : e.nesting < ts.length

theorem Measured.mono {k k' : Nat} {ts ts' : List Token} {e : Expr} (h : Measured k ts e)
    (hk : k ≤ k') (hts : ts.length ≤ ts'.length) : Measured k' ts' e :=
  ⟨Nat.le_trans h.height (by omega), Nat.lt_of_lt_of_le h.nesting hts⟩

theorem Steps.operand {p : Priority} {ts : List Token} {steps : List (Operator × Expr)}
    (h : Steps p ts steps) :
    ∀ step ∈ steps, ∃ us, Lower p us step.2 ∧ us.length ≤ ts.length := by
  induction steps generalizing ts with
  | nil => simp
  | cons step steps ih =>
      cases h with
      | @cons _ op token us vs e _ symbol level operand more =>
          intro step hstep
          rcases List.mem_cons.1 hstep with rfl | hlater
          · exact ⟨us, operand, by simp; omega⟩
          · obtain ⟨ws, hlower, hws⟩ := ih more step hlater
            exact ⟨ws, hlower, by simp; omega⟩

theorem MoreArguments.argument {ts : List Token} {es : List Expr} (h : MoreArguments ts es) :
    ∀ e ∈ es, ∃ us, Expression us e ∧ us.length ≤ ts.length := by
  induction es generalizing ts with
  | nil => simp
  | cons e es ih =>
      cases h with
      | @cons comma us vs _ _ kind argument more =>
          intro e he
          rcases List.mem_cons.1 he with rfl | hlater
          · exact ⟨us, argument, by simp; omega⟩
          · obtain ⟨ws, hexpression, hws⟩ := ih more e hlater
            exact ⟨ws, hexpression, by simp; omega⟩

theorem Arguments.argument {ts : List Token} {es : List Expr} (h : Arguments ts es) :
    ∀ e ∈ es, ∃ us, Expression us e ∧ us.length ≤ ts.length := by
  cases h with
  | none => simp
  | @some us vs e es first more =>
      intro e he
      rcases List.mem_cons.1 he with rfl | hlater
      · exact ⟨us, first, by simp⟩
      · obtain ⟨ws, hexpression, hws⟩ := more.argument e hlater
        exact ⟨ws, hexpression, by simp; omega⟩

/-- A run adds one level to those of its operands. -/
theorem run_measured {k : Nat} {p : Priority} {ts : List Token} {e : Expr}
    (hlower : ∀ us e, us.length ≤ ts.length → Lower p us e → Measured k us e) (h : Binary p ts e) :
    Measured (k + 1) ts e := by
  cases h with
  | @run _ us vs left steps first more =>
      have hleft : Measured k us left := hlower us left (by simp) first
      have hsteps : ∀ step ∈ steps, ∃ ws, ws.length ≤ vs.length ∧ Measured k ws step.2 := by
        intro step hstep
        obtain ⟨ws, hoperand, hws⟩ := more.operand step hstep
        exact ⟨ws, hws, hlower ws step.2 (by simp; omega) hoperand⟩
      -- the operands nest no deeper than the run, which bounds their heights by its nesting
      have hnest := Expr.nesting_run_le.1 (Nat.le_refl (Expr.run left p steps).nesting)
      constructor
      · refine Expr.height_run_le (n := 4 * (Expr.run left p steps).nesting + k) ?_ ?_
        · have := hleft.height
          omega
        · intro step hstep
          obtain ⟨ws, -, hmeasured⟩ := hsteps step hstep
          have := hmeasured.height
          have := hnest.2 step hstep
          omega
      · have hbound : (Expr.run left p steps).nesting ≤ us.length + vs.length - 1 := by
          refine Expr.nesting_run_le.2 ⟨?_, fun step hstep => ?_⟩
          · have := hleft.nesting
            omega
          · obtain ⟨ws, hws, hmeasured⟩ := hsteps step hstep
            have := hmeasured.nesting
            omega
        have := hleft.nesting
        rw [List.length_append]
        omega

/-- A group adds one level to those of the expressions in it. -/
theorem atom_measured {ts : List Token} {e : Expr}
    (hinner : ∀ us e, us.length < ts.length → Expression us e → Measured 4 us e) (h : Atom ts e) :
    Measured 1 ts e := by
  cases h with
  | «variable» | string | number => exact ⟨Nat.le_refl _, Nat.zero_lt_one⟩
  | @call name opening us closing args kind opens arguments closes =>
      have hargs : ∀ e ∈ args, ∃ vs, vs.length ≤ us.length ∧ Measured 4 vs e := by
        intro e he
        obtain ⟨vs, hexpression, hvs⟩ := arguments.argument e he
        exact ⟨vs, hvs, hinner vs e (by simp; omega) hexpression⟩
      have hnest := Expr.argsNesting_le.1 (Nat.le_refl (Expr.argsNesting args))
      have hheight : Expr.argsHeight args ≤ 4 * Expr.argsNesting args + 4 := by
        refine Expr.argsHeight_le.2 fun e he => ?_
        obtain ⟨vs, -, hmeasured⟩ := hargs e he
        have := hmeasured.height
        have := hnest e he
        omega
      have hlength : Expr.argsNesting args ≤ us.length := by
        refine Expr.argsNesting_le.2 fun e he => ?_
        obtain ⟨vs, hvs, hmeasured⟩ := hargs e he
        have := hmeasured.nesting
        omega
      constructor
      · simp only [Expr.height, Expr.nesting]
        omega
      · simp only [Expr.nesting, List.length_cons, List.length_append, List.length_nil]
        omega
  | @group opening us closing inner opens expression closes =>
      have hshorter : us.length < (opening :: (us ++ [closing])).length := by
        rw [List.length_cons, List.length_append]
        omega
      have hmeasured := hinner us inner hshorter expression
      have hheight := hmeasured.height
      have hlength := hmeasured.nesting
      constructor
      · simp only [Expr.height, Expr.nesting]
        omega
      · simp only [Expr.nesting, List.length_cons, List.length_append, List.length_nil]
        omega

theorem signed_measured {ts : List Token} {e : Expr}
    (hinner : ∀ us e, us.length < ts.length → Expression us e → Measured 4 us e)
    (h : Signed ts e) : Measured 2 ts e := by
  cases h with
  | @sign sign token us operand symbol hatom =>
      have hmeasured := atom_measured (fun vs e hvs => hinner vs e (Nat.lt_succ_of_lt hvs)) hatom
      have hheight := hmeasured.height
      have hlength := hmeasured.nesting
      constructor
      · simp only [Expr.height, Expr.nesting]
        omega
      · simp only [Expr.nesting, List.length_cons]
        omega
  | atom hatom => exact (atom_measured hinner hatom).mono (by omega) (Nat.le_refl _)

/-- **An expression has at most four levels for each of its nested groups and four more.** -/
theorem expression_measured {ts : List Token} {e : Expr} (h : Expression ts e) :
    Measured 4 ts e := by
  induction hn : ts.length using Nat.strongRecOn generalizing ts e with
  | ind n ih =>
      subst hn
      -- only the expressions in groups are shorter lists; the levels in between are passed through
      have hsigned : ∀ us e, us.length ≤ ts.length → Signed us e → Measured 2 us e := by
        intro us e hus hsigned
        exact signed_measured
          (fun vs e hvs hexpression => ih vs.length (by omega) hexpression rfl) hsigned
      refine run_measured (fun us e hus hlower => ?_) h
      refine run_measured (fun vs e hvs hlower => ?_) (lower_additive.1 hlower)
      exact hsigned vs e (by omega) (lower_multiplicative.1 hlower)

end Grammar

/-! ## Tokens of a source -/

/-- Every token has a character of its own. -/
theorem length_le_of_tokenize {source : String} {tokens : List Token}
    (h : tokenize source = .ok tokens) : tokens.length ≤ source.length := by
  have hpieces := split_eq_map_piece_iff.2 (tokenize_eq_ok_iff.1 h).1
  have hlength := Piece.length_split_le source.toList
  rwa [hpieces, List.length_map, List.length_map] at hlength

/-! ## Limits -/

/-- The numbers of characters that memory has room for: at four bytes each, less than `2 ^ 63`
    bytes. -/
def maxSourceLength : Nat := UInt64.size / 8

/-- **Parsed trees fit.** They keep within both limits that hold when they are folded and
    evaluated. -/
theorem parse_fits {source : String} {maxDepth : Nat} {e : Expr}
    (hsource : source.length < maxSourceLength) (h : parse source maxDepth = .ok e) :
    e.nesting ≤ maxDepth ∧ e.height ≤ maxTreeDepth maxDepth := by
  obtain ⟨tokens, htokens, hspells, hnest⟩ := parse_eq_ok_iff.1 h
  have hfilter : (Grammar.significant tokens).length ≤ tokens.length := List.length_filter_le ..
  have htokens := length_le_of_tokenize htokens
  generalize Grammar.significant tokens = ts at hspells hfilter
  cases hspells with
  | blank => exact ⟨Nat.zero_le _, maxTreeDepth_pos maxDepth⟩
  | expression derived =>
      have hmeasured := Grammar.expression_measured derived
      have hheight := hmeasured.height
      have hlength := hmeasured.nesting
      refine ⟨hnest, ?_⟩
      -- so short a source has groups for too few levels to come near the saturated limit
      simp only [maxSourceLength, UInt64.size] at hsource
      simp only [maxTreeDepth, levelsPerGroup, wordMax, UInt64.size]
      omega

end FormulaLang
