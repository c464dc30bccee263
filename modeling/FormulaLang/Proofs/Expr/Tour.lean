import FormulaLang.Proofs.Expr.Nesting
import FormulaLang.Proofs.Expr.Visits
import Mathlib.Data.List.Nodup
import Mathlib.Order.Bounds.Basic

/-!
# `Expr.Tour` — where the nodes of a tree are, and in which order

Two nodes of a tree may be equal, so what a walk visits are occurrences: a node, and the place it is
at. The place of an expression is the path to it from the root, by the positions of its parts. A
sign, an operator or the name of a function is a tag; it has the place of the operand or argument
that it stands before. The tour of a tree is all of its occurrences in the order of a walk that
skips nothing.

The tour is specified without its recursion. It has every occurrence of the tree and no other, and
it is in strict order: by places, outer before inner and left before right, and at one place the tag
first. So it has every occurrence once.

- **`Expr.mem_tour_expr`**, **`Expr.mem_tour_tag`**: what is in the tour.
- **`Expr.pairwise_tour`**: its order.
- **`Expr.isTour_tour`**: the whole specification.
- **`Expr.visits_eq`**: a walk that skips nothing makes the visits of the tour.
- **`Expr.isGreatest_depth`**: the depth of a tree is that of its deepest expression.
-/

namespace FormulaLang

/-- Whether the node is an expression. All others are tags. -/
def Node.isExpr : Node → Bool
  | .expr _ => true
  | _ => false

theorem Node.exists_of_isExpr {node : Node} (h : node.isExpr = true) : ∃ t, node = .expr t := by
  cases node with
  | expr t => exact ⟨t, rfl⟩
  | operator | sign | functionName => cases h

/-! ## Parts -/

/-- A part of an expression: an expression inside it, with the tag that stands before, if there is
    one. The name of a call without arguments stands before nothing. -/
structure Part where
  tag : Option Node
  expr : Option Expr

/-- The parts of a call: its arguments, the first one with the name of the function. -/
def Expr.argsParts (name : String) : List Expr → List Part
  | [] => [⟨some (.functionName name), none⟩]
  | e :: es => ⟨some (.functionName name), some e⟩ :: es.map fun e => ⟨none, some e⟩

/-- The parts of a run after its first operand: the others, each with its operator. -/
def Operands.parts (os : Operands) : List Part :=
  os.toList.map fun step => ⟨some (.operator step.1), some step.2⟩

/-- The parts of an expression, from left to right. -/
def Expr.parts : Expr → List Part
  | .empty | .number _ | .string _ | .variable _ => []
  | .unary sign e => [⟨some (.sign sign), some e⟩]
  | .binary left _ os => ⟨none, some left⟩ :: os.parts
  | .call name es => Expr.argsParts name es
  | .group e => [⟨none, some e⟩]

/-- The expression at a place, the path to it by positions of parts. -/
def Expr.at? : Expr → List Nat → Option Expr
  | e, [] => some e
  | e, i :: place => do (← (← e.parts[i]?).expr).at? place

/-- Tags are no expressions. -/
theorem Expr.isExpr_tag {e : Expr} {part : Part} (hpart : part ∈ e.parts) {tag : Node}
    (htag : part.tag = some tag) : tag.isExpr = false := by
  cases e with
  | empty | number | string | «variable» => cases hpart
  | unary sign e =>
      obtain rfl := List.mem_singleton.1 hpart
      cases htag
      rfl
  | group e =>
      obtain rfl := List.mem_singleton.1 hpart
      cases htag
  | binary left p os =>
      rcases List.mem_cons.1 hpart with rfl | hpart
      · cases htag
      · obtain ⟨step, -, rfl⟩ := List.mem_map.1 hpart
        cases htag
        rfl
  | call name es =>
      cases es with
      | nil =>
          obtain rfl := List.mem_singleton.1 hpart
          cases htag
          rfl
      | cons e es =>
          rcases List.mem_cons.1 hpart with rfl | hpart
          · cases htag
            rfl
          · obtain ⟨e', -, rfl⟩ := List.mem_map.1 hpart
            cases htag

/-- A tree is one level taller than the tallest of its parts. -/
theorem Expr.height_le_succ {e : Expr} {n : Nat} :
    e.height ≤ n + 1 ↔ ∀ part ∈ e.parts, ∀ child, part.expr = some child → child.height ≤ n := by
  cases e with
  | empty | number | string | «variable» => simp [Expr.height, Expr.parts]
  | unary | group => simp [Expr.height, Expr.parts]
  | binary left p os =>
      rw [Expr.height, Nat.add_le_add_iff_right, Nat.max_le, Operands.height_le, Expr.parts,
        List.forall_mem_cons, Operands.parts, List.forall_mem_map]
      simp
  | call name es =>
      rw [Expr.height, Nat.add_le_add_iff_right, Expr.argsHeight_le]
      cases es <;> simp [Expr.parts, Expr.argsParts]

theorem Expr.height_lt_of_part {e child : Expr} {part : Part} (hpart : part ∈ e.parts)
    (hchild : part.expr = some child) : child.height < e.height := by
  obtain ⟨n, hn⟩ : ∃ n, e.height = n + 1 := ⟨e.height - 1, by have := e.height_pos; omega⟩
  have := Expr.height_le_succ.1 hn.le part hpart child hchild
  omega

/-- What holds of an expression if it holds of its parts holds of all. -/
@[elab_as_elim]
theorem Expr.parts_induction {motive : Expr → Prop}
    (step : ∀ e, (∀ part ∈ e.parts, ∀ child, part.expr = some child → motive child) → motive e)
    (e : Expr) : motive e := by
  induction hn : e.height using Nat.strongRecOn generalizing e with
  | ind n ih =>
      refine step e fun part hpart child hchild => ?_
      exact ih child.height (hn ▸ Expr.height_lt_of_part hpart hchild) child rfl

/-! ## Occurrences -/

/-- A node at a place of a tree. -/
structure Occurrence where
  place : List Nat
  node : Node
deriving DecidableEq

namespace Occurrence

/-- The occurrence as seen from one level up, where it is in the given part. -/
def under (i : Nat) (o : Occurrence) : Occurrence := ⟨i :: o.place, o.node⟩

/-- The visit to the occurrence, if the root is at the given depth. -/
def visit (depth : Nat) (o : Occurrence) : Visit := ⟨depth + o.place.length, o.node⟩

/-- The first occurrence is an expression that has the second one inside. -/
def Above (o o' : Occurrence) : Prop :=
  o.node.isExpr = true ∧ o.place <+: o'.place ∧ o.place ≠ o'.place

instance (o o' : Occurrence) : Decidable (o.Above o') :=
  inferInstanceAs (Decidable (_ ∧ _ ∧ _))

/-- The order of occurrences: by their places, and at one place the tag before the expression. -/
def Precedes (o o' : Occurrence) : Prop :=
  o.place < o'.place ∨ (o.place = o'.place ∧ o.node.isExpr = false ∧ o'.node.isExpr = true)

variable {o o' o'' : Occurrence} {i j : Nat}

@[simp] theorem place_under : (o.under i).place = i :: o.place := rfl

@[simp] theorem node_under : (o.under i).node = o.node := rfl

theorem visit_under (depth : Nat) : (o.under i).visit depth = o.visit (depth + 1) := by
  simp only [visit, under, List.length_cons, Visit.mk.injEq, and_true]
  omega

theorem map_visit_under (depth i : Nat) (tour : List Occurrence) :
    (tour.map (under i)).map (visit depth) = tour.map (visit (depth + 1)) := by
  rw [List.map_map]
  exact List.map_congr_left fun o _ => visit_under depth

theorem above_under : (o.under i).Above (o'.under i) ↔ o.Above o' := by
  simp [Above, List.cons_prefix_cons]

theorem precedes_under : (o.under i).Precedes (o'.under i) ↔ o.Precedes o' := by
  simp [Precedes]

theorem Precedes.irrefl (o : Occurrence) : ¬ o.Precedes o := by
  rintro (h | ⟨-, h, h'⟩)
  · exact List.lt_irrefl _ h
  · rw [h] at h'
    cases h'

theorem Precedes.trans (h : o.Precedes o') (h' : o'.Precedes o'') : o.Precedes o'' := by
  rcases h with h | ⟨hplace, htag, hexpr⟩
  · rcases h' with h' | ⟨hplace', -, -⟩
    · exact .inl (List.lt_trans h h')
    · exact .inl (hplace' ▸ h)
  · rcases h' with h' | ⟨-, htag', -⟩
    · exact .inl (hplace ▸ h')
    · rw [hexpr] at htag'
      cases htag'

/-- What an expression has inside comes after it. -/
theorem Above.precedes (h : o.Above o') : o.Precedes o' := by
  obtain ⟨-, ⟨rest, hrest⟩, hne⟩ := h
  left
  rw [← hrest]
  cases rest with
  | nil => exact absurd ((List.append_nil _).symm.trans hrest) hne
  | cons i rest =>
      have hnil : [] < i :: rest := List.nil_lt_cons i rest
      simpa using List.append_left_lt hnil

end Occurrence

/-! ## The tour -/

mutual

/-- All occurrences in a tree, in the order of a walk that skips nothing. -/
def Expr.tour : Expr → List Occurrence
  | .empty => [⟨[], .expr .empty⟩]
  | .number n => [⟨[], .expr (.number n)⟩]
  | .string text => [⟨[], .expr (.string text)⟩]
  | .variable name => [⟨[], .expr (.variable name)⟩]
  | .unary sign e =>
    ⟨[], .expr (.unary sign e)⟩ :: ⟨[0], .sign sign⟩ :: e.tour.map (Occurrence.under 0)
  | .binary left p os =>
    ⟨[], .expr (.binary left p os)⟩ :: (left.tour.map (Occurrence.under 0) ++ os.tour 1)
  | .call name es =>
    ⟨[], .expr (.call name es)⟩ :: ⟨[0], .functionName name⟩ :: Expr.argsTour 0 es
  | .group e => ⟨[], .expr (.group e)⟩ :: e.tour.map (Occurrence.under 0)

/-- The occurrences in the operands of a run, the first of which is the part `i`. -/
def Operands.tour (i : Nat) : Operands → List Occurrence
  | .one op e => ⟨[i], .operator op⟩ :: e.tour.map (Occurrence.under i)
  | .more op e os =>
    ⟨[i], .operator op⟩ :: (e.tour.map (Occurrence.under i) ++ os.tour (i + 1))

/-- The occurrences in arguments, the first of which is the part `i`. -/
def Expr.argsTour (i : Nat) : List Expr → List Occurrence
  | [] => []
  | e :: es => e.tour.map (Occurrence.under i) ++ Expr.argsTour (i + 1) es

end

namespace Part

/-- The occurrences in the part `i`: its tag, and what its expression has inside. -/
def tour (i : Nat) (part : Part) : List Occurrence :=
  part.tag.toList.map (Occurrence.mk [i]) ++
    part.expr.elim [] fun e => e.tour.map (Occurrence.under i)

/-- The occurrences in parts, the first of which is the part `i`. -/
def tours (i : Nat) : List Part → List Occurrence
  | [] => []
  | part :: parts => part.tour i ++ tours (i + 1) parts

end Part

theorem Operands.tour_eq (i : Nat) (os : Operands) : os.tour i = Part.tours i os.parts := by
  cases os with
  | one op e =>
      show _ = Part.tour i _ ++ []
      simp [Operands.tour, Part.tour]
  | more op e os =>
      show _ = Part.tour i _ ++ Part.tours (i + 1) os.parts
      rw [← Operands.tour_eq]
      simp [Operands.tour, Part.tour]

theorem Expr.argsTour_eq (i : Nat) (es : List Expr) :
    Expr.argsTour i es = Part.tours i (es.map fun e => ⟨none, some e⟩) := by
  induction es generalizing i with
  | nil => rfl
  | cons e es ih => simp [Expr.argsTour, Part.tours, Part.tour, ih]

/-- **The tour of a tree is its root and then the tours of its parts.** -/
theorem Expr.tour_eq (e : Expr) : e.tour = ⟨[], .expr e⟩ :: Part.tours 0 e.parts := by
  cases e with
  | empty | number | string | «variable» => rfl
  | unary | group => simp [Expr.tour, Expr.parts, Part.tours, Part.tour]
  | binary left p os => simp [Expr.tour, Expr.parts, Part.tours, Part.tour, Operands.tour_eq]
  | call name es =>
      cases es with
      | nil => rfl
      | cons e es =>
          simp [Expr.tour, Expr.parts, Expr.argsParts, Part.tours, Part.tour, Expr.argsTour,
            Expr.argsTour_eq]

mutual

/-- **The visits of a walk that skips nothing are those of the tour.** -/
theorem Expr.visits_eq (depth : Nat) (e : Expr) :
    e.visits depth = e.tour.map (Occurrence.visit depth) := by
  cases e with
  | empty | number | string | «variable» => rfl
  | unary sign e =>
      rw [Expr.visits, Expr.visits_eq (depth + 1) e, ← Occurrence.map_visit_under depth 0]
      rfl
  | binary left p os =>
      rw [Expr.visits, Expr.visits_eq (depth + 1) left, Operands.visits_eq depth 1 os,
        ← Occurrence.map_visit_under depth 0, ← List.map_append]
      rfl
  | call name es =>
      rw [Expr.visits, Expr.argsVisits_eq depth 0 es]
      rfl
  | group e =>
      rw [Expr.visits, Expr.visits_eq (depth + 1) e, ← Occurrence.map_visit_under depth 0]
      rfl

theorem Operands.visits_eq (depth i : Nat) (os : Operands) :
    os.visits (depth + 1) = (os.tour i).map (Occurrence.visit depth) := by
  cases os with
  | one op e =>
      rw [Operands.visits, Expr.visits_eq (depth + 1) e, ← Occurrence.map_visit_under depth i]
      rfl
  | more op e os =>
      rw [Operands.visits, Expr.visits_eq (depth + 1) e, Operands.visits_eq depth (i + 1) os,
        ← Occurrence.map_visit_under depth i, ← List.map_append]
      rfl

theorem Expr.argsVisits_eq (depth i : Nat) (es : List Expr) :
    Expr.argsVisits (depth + 1) es = (Expr.argsTour i es).map (Occurrence.visit depth) := by
  cases es with
  | nil => rfl
  | cons e es =>
      rw [Expr.argsVisits, Expr.visits_eq (depth + 1) e, Expr.argsVisits_eq depth (i + 1) es,
        ← Occurrence.map_visit_under depth i, ← List.map_append]
      rfl

end

/-! ### Members -/

namespace Part

theorem mem_tour {part : Part} {i : Nat} {o : Occurrence} :
    o ∈ part.tour i ↔ (∃ tag, part.tag = some tag ∧ o = ⟨[i], tag⟩) ∨
      ∃ e o', part.expr = some e ∧ o' ∈ e.tour ∧ o = o'.under i := by
  obtain ⟨tag, e⟩ := part
  cases tag <;> cases e <;> simp [tour, eq_comm]

theorem mem_tours {parts : List Part} {i : Nat} {o : Occurrence} :
    o ∈ tours i parts ↔
      ∃ (k : Nat) (part : Part), parts[k]? = some part ∧ o ∈ part.tour (i + k) := by
  induction parts generalizing i with
  | nil => simp [tours]
  | cons part parts ih =>
      rw [tours, List.mem_append, ih]
      constructor
      · rintro (h | ⟨k, part', hget, h⟩)
        · exact ⟨0, part, rfl, h⟩
        · refine ⟨k + 1, part', hget, ?_⟩
          rwa [Nat.add_assoc, Nat.add_comm 1 k] at h
      · rintro ⟨k, part', hget, h⟩
        cases k with
        | zero =>
            obtain rfl := Option.some.inj hget
            exact .inl h
        | succ k =>
            refine .inr ⟨k, part', hget, ?_⟩
            rwa [Nat.add_assoc, Nat.add_comm 1 k]

end Part

namespace Expr

variable {e t : Expr} {place : List Nat} {node : Node} {i : Nat}

theorem mem_tour_nil : ⟨[], node⟩ ∈ e.tour ↔ node = .expr e := by
  rw [tour_eq, List.mem_cons]
  constructor
  · rintro (h | h)
    · exact (Occurrence.mk.inj h).2
    · obtain ⟨k, part, -, h⟩ := Part.mem_tours.1 h
      rcases Part.mem_tour.1 h with ⟨tag, -, h⟩ | ⟨_, o', -, -, h⟩
      · cases h
      · cases h
  · rintro rfl
    exact .inl rfl

theorem mem_tour_cons : ⟨i :: place, node⟩ ∈ e.tour ↔ ∃ part, e.parts[i]? = some part ∧
    ((place = [] ∧ part.tag = some node) ∨
      ∃ child, part.expr = some child ∧ ⟨place, node⟩ ∈ child.tour) := by
  rw [tour_eq, List.mem_cons, Part.mem_tours]
  constructor
  · rintro (h | ⟨k, part, hget, h⟩)
    · cases h
    rw [Nat.zero_add] at h
    rcases Part.mem_tour.1 h with ⟨tag, htag, h⟩ | ⟨child, ⟨place', node'⟩, hchild, hmem, h⟩
    · cases h
      exact ⟨part, hget, .inl ⟨rfl, htag⟩⟩
    · cases h
      exact ⟨part, hget, .inr ⟨child, hchild, hmem⟩⟩
  · rintro ⟨part, hget, h⟩
    refine .inr ⟨i, part, hget, ?_⟩
    rw [Nat.zero_add]
    rcases h with ⟨rfl, htag⟩ | ⟨child, hchild, hmem⟩
    · exact Part.mem_tour.2 (.inl ⟨node, htag, rfl⟩)
    · exact Part.mem_tour.2 (.inr ⟨child, _, hchild, hmem, rfl⟩)

theorem at?_cons_eq_some : e.at? (i :: place) = some t ↔
    ∃ part, e.parts[i]? = some part ∧ ∃ child, part.expr = some child ∧
      child.at? place = some t := by
  simp [at?, Option.bind_eq_some_iff]

/-- **The expressions in the tour are those at the places of the tree.** -/
theorem mem_tour_expr : ⟨place, .expr t⟩ ∈ e.tour ↔ e.at? place = some t := by
  induction place generalizing e with
  | nil =>
      rw [mem_tour_nil, at?]
      simp [eq_comm]
  | cons i place ih =>
      rw [mem_tour_cons, at?_cons_eq_some]
      refine exists_congr fun part => and_congr_right fun hpart => ?_
      have htag : part.tag ≠ some (.expr t) := fun h =>
        Bool.false_ne_true ((isExpr_tag (List.mem_of_getElem? hpart) h).symm)
      simp [htag, ih]

/-- **The tags in the tour are those of the parts of its expressions.** -/
theorem mem_tour_tag (hnode : node.isExpr = false) : ⟨place, node⟩ ∈ e.tour ↔
    ∃ outer i whole part, place = outer ++ [i] ∧ e.at? outer = some whole ∧
      whole.parts[i]? = some part ∧ part.tag = some node := by
  induction place generalizing e with
  | nil =>
      rw [mem_tour_nil]
      constructor
      · rintro rfl
        cases hnode
      · rintro ⟨outer, i, whole, part, h, -⟩
        simp at h
  | cons i place ih =>
      rw [mem_tour_cons]
      constructor
      · rintro ⟨part, hpart, ⟨rfl, htag⟩ | ⟨child, hchild, hmem⟩⟩
        · exact ⟨[], i, e, part, rfl, rfl, hpart, htag⟩
        · obtain ⟨outer, k, whole, part', rfl, hat, hpart', htag⟩ := ih.1 hmem
          refine ⟨i :: outer, k, whole, part', rfl, ?_, hpart', htag⟩
          exact at?_cons_eq_some.2 ⟨part, hpart, child, hchild, hat⟩
      · rintro ⟨outer, k, whole, part', hplace, hat, hpart', htag⟩
        cases outer with
        | nil =>
            cases hplace
            cases hat
            exact ⟨part', hpart', .inl ⟨rfl, htag⟩⟩
        | cons j outer =>
            cases hplace
            obtain ⟨part, hpart, child, hchild, hat⟩ := at?_cons_eq_some.1 hat
            refine ⟨part, hpart, .inr ⟨child, hchild, ih.2 ?_⟩⟩
            exact ⟨outer, k, whole, part', rfl, hat, hpart', htag⟩

end Expr

/-! ### Order -/

namespace Part

variable {part : Part} {parts : List Part} {i : Nat} {o : Occurrence}

theorem place_of_mem_tour (h : o ∈ part.tour i) : ∃ place, o.place = i :: place := by
  rcases mem_tour.1 h with ⟨tag, -, rfl⟩ | ⟨_, o', -, -, rfl⟩
  · exact ⟨[], rfl⟩
  · exact ⟨o'.place, rfl⟩

/-- The parts from `i` on are at places that begin so. -/
theorem place_of_mem_tours (h : o ∈ tours i parts) : ∃ k place, i ≤ k ∧ o.place = k :: place := by
  obtain ⟨k, part, -, hmem⟩ := mem_tours.1 h
  obtain ⟨place, hplace⟩ := place_of_mem_tour hmem
  exact ⟨i + k, place, Nat.le_add_right i k, hplace⟩

theorem pairwise_tour (htag : ∀ tag, part.tag = some tag → tag.isExpr = false)
    (hchild : ∀ child, part.expr = some child → child.tour.Pairwise Occurrence.Precedes) :
    (part.tour i).Pairwise Occurrence.Precedes := by
  obtain ⟨tag, child⟩ := part
  refine List.pairwise_append.2 ⟨?_, ?_, ?_⟩
  · cases tag <;> simp
  · cases child with
    | none => exact .nil
    | some child =>
        exact List.pairwise_map.2 ((hchild child rfl).imp Occurrence.precedes_under.2)
  · intro o ho o' ho'
    obtain ⟨tag', rfl, rfl⟩ : ∃ tag', tag = some tag' ∧ o = ⟨[i], tag'⟩ := by
      simpa [eq_comm] using ho
    cases child with
    | none => cases ho'
    | some child =>
        obtain ⟨⟨place, node⟩, hmem, rfl⟩ := List.mem_map.1 ho'
        cases place with
        | nil =>
            obtain rfl := Expr.mem_tour_nil.1 hmem
            exact .inr ⟨rfl, htag tag' rfl, rfl⟩
        | cons j place => exact .inl (by simp)

theorem pairwise_tours
    (htag : ∀ part ∈ parts, ∀ tag, part.tag = some tag → tag.isExpr = false)
    (hchild : ∀ part ∈ parts, ∀ child, part.expr = some child →
      child.tour.Pairwise Occurrence.Precedes) :
    (tours i parts).Pairwise Occurrence.Precedes := by
  induction parts generalizing i with
  | nil => exact .nil
  | cons part parts ih =>
      obtain ⟨htag, htags⟩ := List.forall_mem_cons.1 htag
      obtain ⟨hchild, hchildren⟩ := List.forall_mem_cons.1 hchild
      refine List.pairwise_append.2 ⟨pairwise_tour htag hchild, ih htags hchildren, ?_⟩
      intro o ho o' ho'
      obtain ⟨place, hplace⟩ := place_of_mem_tour ho
      obtain ⟨k, place', hk, hplace'⟩ := place_of_mem_tours ho'
      left
      rw [hplace, hplace', List.cons_lt_cons_iff]
      exact .inl hk

end Part

namespace Expr

/-- **The tour is in strict order.** -/
theorem pairwise_tour (e : Expr) : e.tour.Pairwise Occurrence.Precedes := by
  induction e using parts_induction with
  | step e ih =>
      rw [tour_eq]
      refine List.pairwise_cons.2 ⟨fun o ho => ?_, Part.pairwise_tours ?_ ih⟩
      · obtain ⟨k, place, -, hplace⟩ := Part.place_of_mem_tours ho
        left
        rw [hplace]
        exact List.nil_lt_cons k place
      · intro part hpart tag htag
        exact isExpr_tag hpart htag

/-- **Nothing is in the tour twice.** -/
theorem nodup_tour (e : Expr) : e.tour.Nodup := by
  refine e.pairwise_tour.imp fun {o o'} h => ?_
  rintro rfl
  exact Occurrence.Precedes.irrefl o h

end Expr

/-- In a list in strict order, two members with none between them are neighbours. -/
theorem infix_of_pairwise {α : Type} {R : α → α → Prop} {l : List α} (h : l.Pairwise R) {x y : α}
    (hx : x ∈ l) (hy : y ∈ l) (hne : y ≠ x) (hyx : ¬ R y x) (hnone : ∀ z, R x z → ¬ R z y) :
    [x, y] <:+: l := by
  obtain ⟨before, after, rfl⟩ := List.append_of_mem hx
  obtain ⟨-, hafter, hbefore⟩ := List.pairwise_append.1 h
  obtain ⟨hx', hafter⟩ := List.pairwise_cons.1 hafter
  have hmem : y ∈ after := by
    rcases List.mem_append.1 hy with hy | hy
    · exact absurd (hbefore y hy x List.mem_cons_self) hyx
    · rcases List.mem_cons.1 hy with rfl | hy
      · exact absurd rfl hne
      · exact hy
  cases after with
  | nil => cases hmem
  | cons z after =>
      rcases List.mem_cons.1 hmem with rfl | hmem
      · exact ⟨before, after, by simp⟩
      · exact absurd ((List.pairwise_cons.1 hafter).1 y hmem) (hnone z (hx' z List.mem_cons_self))

namespace Expr

variable {e whole t : Expr} {outer place : List Nat} {node tag : Node} {i : Nat} {part : Part}

theorem at?_append (hwhole : e.at? outer = some whole) (hpart : whole.parts[i]? = some part)
    (ht : part.expr = some t) : e.at? (outer ++ [i]) = some t := by
  induction outer generalizing e with
  | nil =>
      cases hwhole
      exact at?_cons_eq_some.2 ⟨part, hpart, t, ht, rfl⟩
  | cons j outer ih =>
      obtain ⟨part', hpart', child, hchild, hat⟩ := at?_cons_eq_some.1 hwhole
      exact at?_cons_eq_some.2 ⟨part', hpart', child, hchild, ih hat⟩

/-- **Between a tag and the expression that it stands before there is nothing.** -/
theorem tag_directly_before (hwhole : e.at? outer = some whole)
    (hpart : whole.parts[i]? = some ⟨some tag, some t⟩) :
    [⟨outer ++ [i], tag⟩, ⟨outer ++ [i], .expr t⟩] <:+: e.tour := by
  have htag : tag.isExpr = false := isExpr_tag (List.mem_of_getElem? hpart) rfl
  refine infix_of_pairwise e.pairwise_tour ?_ ?_ ?_ ?_ ?_
  · exact (mem_tour_tag htag).2 ⟨outer, i, whole, _, rfl, hwhole, hpart, rfl⟩
  · exact mem_tour_expr.2 (at?_append hwhole hpart rfl)
  · rintro ⟨⟩
    cases htag
  · rintro (h | ⟨-, h, -⟩)
    · exact List.lt_irrefl _ h
    · cases h
  · rintro z (hlt | ⟨hplace, -, hexpr⟩) (hlt' | ⟨hplace', htag', -⟩)
    · exact List.lt_irrefl _ (List.lt_trans hlt hlt')
    · exact List.lt_irrefl _ (hplace' ▸ hlt)
    · exact List.lt_irrefl _ (hplace ▸ hlt')
    · rw [hexpr] at htag'
      cases htag'

/-! ### Depths -/

/-- The places above a place of the tree hold expressions. -/
theorem exists_at?_of_prefix {above : List Nat} (h : above <+: place) (ht : e.at? place = some t) :
    ∃ whole, e.at? above = some whole := by
  induction above generalizing e place with
  | nil => exact ⟨e, rfl⟩
  | cons j above ih =>
      obtain ⟨rest, rfl⟩ := h
      obtain ⟨part, hpart, child, hchild, hat⟩ := at?_cons_eq_some.1 ht
      obtain ⟨whole, hwhole⟩ := ih ⟨rest, rfl⟩ hat
      exact ⟨whole, at?_cons_eq_some.2 ⟨part, hpart, child, hchild, hwhole⟩⟩

/-- An occurrence has one expression above it at every place that is a proper beginning of its
    own. -/
theorem exists_at?_of_mem_tour {o : Occurrence} (ho : o ∈ e.tour) {above : List Nat}
    (habove : above <+: o.place) (hne : above ≠ o.place) :
    ∃ whole, e.at? above = some whole := by
  obtain ⟨place, node⟩ := o
  cases hnode : node.isExpr with
  | true =>
      obtain ⟨t, rfl⟩ := Node.exists_of_isExpr hnode
      exact exists_at?_of_prefix habove (mem_tour_expr.1 ho)
  | false =>
      obtain ⟨outer, i, whole, part, rfl, hwhole, -⟩ := (mem_tour_tag hnode).1 ho
      rcases List.prefix_concat_iff.1 habove with heq | hbegins
      · exact absurd heq hne
      · exact exists_at?_of_prefix hbegins hwhole

/-- The expressions above an occurrence, by their places: the proper beginnings of its own place. -/
theorem perm_above {o : Occurrence} (ho : o ∈ e.tour) :
    List.Perm ((e.tour.filter fun a => a.Above o).map Occurrence.place)
      ((List.range o.place.length).map o.place.take) := by
  refine (List.perm_ext_iff_of_nodup ?_ ?_).2 fun above => ?_
  · refine List.Nodup.map_on ?_ (e.nodup_tour.filter _)
    rintro ⟨place, node⟩ ha ⟨place', node'⟩ ha' rfl
    obtain ⟨hmem, habove⟩ := List.mem_filter.1 ha
    obtain ⟨hmem', habove'⟩ := List.mem_filter.1 ha'
    obtain ⟨t, rfl⟩ := Node.exists_of_isExpr (of_decide_eq_true habove).1
    obtain ⟨t', rfl⟩ := Node.exists_of_isExpr (of_decide_eq_true habove').1
    rw [mem_tour_expr] at hmem hmem'
    rw [Option.some.inj (hmem.symm.trans hmem')]
  · refine List.Nodup.map_on (fun k hk k' hk' h => ?_) List.nodup_range
    have hlength := congrArg List.length h
    rw [List.mem_range] at hk hk'
    simp only [List.length_take] at hlength
    omega
  · simp only [List.mem_map, List.mem_filter, List.mem_range, decide_eq_true_eq]
    constructor
    · rintro ⟨a, ⟨-, -, hbegins, hne⟩, rfl⟩
      refine ⟨a.place.length, ?_, (List.prefix_iff_eq_take.1 hbegins).symm⟩
      exact Nat.lt_of_le_of_ne hbegins.length_le fun h => hne (hbegins.eq_of_length h)
    · rintro ⟨k, hk, rfl⟩
      have hne : o.place.take k ≠ o.place := fun h => by
        have := congrArg List.length h
        rw [List.length_take] at this
        omega
      have hbegins := List.take_prefix k o.place
      obtain ⟨whole, hwhole⟩ := exists_at?_of_mem_tour ho hbegins hne
      exact ⟨⟨o.place.take k, .expr whole⟩, ⟨mem_tour_expr.2 hwhole, rfl, hbegins, hne⟩, rfl⟩

/-- **The depth of an occurrence is one more than the number of expressions above it.** -/
theorem depth_of_mem_tour {o : Occurrence} (ho : o ∈ e.tour) :
    (o.visit 1).depth = 1 + e.tour.countP fun a => a.Above o := by
  have hlength := (perm_above ho).length_eq
  rw [List.length_map, List.length_map, List.length_range] at hlength
  rw [List.countP_eq_length_filter, hlength]
  rfl

/-- A tree has an expression as deep as it is tall. -/
theorem exists_at?_height (e : Expr) :
    ∃ place t, e.at? place = some t ∧ e.height = place.length + 1 := by
  induction e using parts_induction with
  | step e ih =>
      by_cases hsmall : e.height ≤ 1
      · exact ⟨[], e, rfl, Nat.le_antisymm hsmall e.height_pos⟩
      obtain ⟨n, hn⟩ : ∃ n, e.height = n + 2 := ⟨e.height - 2, by omega⟩
      -- some part is as tall as it may be
      have htall : ¬ ∀ part ∈ e.parts, ∀ child, part.expr = some child → child.height ≤ n := by
        rw [← height_le_succ]
        omega
      push Not at htall
      obtain ⟨part, hpart, child, hchild, hlt⟩ := htall
      have hheight := height_lt_of_part hpart hchild
      obtain ⟨place, t, hat, hplace⟩ := ih part hpart child hchild
      obtain ⟨i, hi⟩ := List.getElem?_of_mem hpart
      refine ⟨i :: place, t, at?_cons_eq_some.2 ⟨part, hi, child, hchild, hat⟩, ?_⟩
      rw [List.length_cons]
      omega

theorem length_lt_height (ht : e.at? place = some t) : place.length < e.height := by
  induction place generalizing e with
  | nil => exact e.height_pos
  | cons i place ih =>
      obtain ⟨part, hpart, child, hchild, hat⟩ := at?_cons_eq_some.1 ht
      have hlt := height_lt_of_part (List.mem_of_getElem? hpart) hchild
      have := ih hat
      rw [List.length_cons]
      omega

/-- **The depth of a tree is that of its deepest expression.** -/
theorem isGreatest_depth (e : Expr) :
    IsGreatest {depth | ∃ place t, e.at? place = some t ∧ depth = place.length + 1} e.depth := by
  rw [depth_eq_height]
  refine ⟨exists_at?_height e, ?_⟩
  rintro depth ⟨place, t, hat, rfl⟩
  exact length_lt_height hat

/-! ### The tour without its recursion -/

/-- What the tour of a tree is. -/
structure IsTour (e : Expr) (tour : List Occurrence) : Prop where
  /-- It has the expressions at the places of the tree, -/
  exprs : ∀ place t, ⟨place, .expr t⟩ ∈ tour ↔ e.at? place = some t
  /-- and the tags of their parts. -/
  tags : ∀ place node, node.isExpr = false → (⟨place, node⟩ ∈ tour ↔
    ∃ outer i whole part, place = outer ++ [i] ∧ e.at? outer = some whole ∧
      whole.parts[i]? = some part ∧ part.tag = some node)
  once : tour.Nodup
  ordered : tour.Pairwise Occurrence.Precedes
  /-- An expression comes before all that it has inside, -/
  outerFirst : ∀ before o after, tour = before ++ o :: after → ∀ o' ∈ before, ¬ o.Above o'
  /-- and a tag directly before the operand or argument that it stands before. -/
  directly : ∀ outer i whole tag t, e.at? outer = some whole →
    whole.parts[i]? = some ⟨some tag, some t⟩ →
      [⟨outer ++ [i], tag⟩, ⟨outer ++ [i], .expr t⟩] <:+: tour
  /-- The depth of an occurrence counts the expressions above it. -/
  depths : ∀ o ∈ tour, (o.visit 1).depth = 1 + tour.countP fun a => a.Above o

theorem isTour_tour (e : Expr) : e.IsTour e.tour where
  exprs _ _ := mem_tour_expr
  tags _ _ := mem_tour_tag
  once := e.nodup_tour
  ordered := e.pairwise_tour
  outerFirst := by
    intro before o after htour o' ho' habove
    have hordered := e.pairwise_tour
    rw [htour] at hordered
    have hprecedes := (List.pairwise_append.1 hordered).2.2 o' ho' o List.mem_cons_self
    exact Occurrence.Precedes.irrefl o (habove.precedes.trans hprecedes)
  directly _ _ _ _ _ := tag_directly_before
  depths _ := depth_of_mem_tour

end Expr

end FormulaLang
