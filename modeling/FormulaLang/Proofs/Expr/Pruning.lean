import FormulaLang.Proofs.Expr.Tour

/-!
# `Expr.Pruning` — a walk with skips is a pruned tour

Whatever a visitor answers, the walk shows it occurrences of the tour, in the order of the tour and
at their depths. Missing are those that lie inside an expression at which it has answered to skip,
and no others; an answer at a tag has no effect. The visitor may keep a state and answer differently
at equal nodes, so its answers are noted as the walk goes on (`Visitor.noting`), and the pruning is
by these notes.

Parts of an expression do not lie inside one another, so each part is pruned by its own notes
(`Pruned.append`). The proof follows the parts.

- **`Visitor.expr_prunes`**: the notes of a walk are a pruned tour.
- **`walk_prunes_tour`**: and what the tour is.
-/

namespace FormulaLang

/-! ## Walks by parts -/

namespace Visitor

variable {α : Type}

/-- Visits the tag of a part and then its expression. -/
def part (visit : Visitor α) (depth : Nat) (a : α) (part : Part) : α :=
  let a := part.tag.elim a fun tag => (visit depth tag a).2
  part.expr.elim a fun e => Visitor.expr visit depth e a

theorem operands_eq_parts (visit : Visitor α) (depth : Nat) (os : Operands) (a : α) :
    Visitor.operands visit depth os a = os.parts.foldl (visit.part depth) a := by
  cases os with
  | one op e => rfl
  | more op e os =>
      rw [Visitor.operands, operands_eq_parts]
      rfl

theorem args_eq_parts (visit : Visitor α) (depth : Nat) (es : List Expr) (a : α) :
    Visitor.args visit depth es a =
      (es.map fun e => Part.mk none (some e)).foldl (visit.part depth) a := by
  induction es generalizing a with
  | nil => rfl
  | cons e es ih => exact ih _

/-- **A visitor that does not skip an expression goes through its parts.** -/
theorem expr_eq_parts (visit : Visitor α) (depth : Nat) (e : Expr) (a : α) :
    Visitor.expr visit depth e a =
      match visit depth (.expr e) a with
      | (.skip, a) => a
      | (.descend, a) => e.parts.foldl (visit.part (depth + 1)) a := by
  rw [Visitor.expr.eq_def]
  rcases visit depth (.expr e) a with ⟨_ | _, a⟩
  · cases e with
    | empty | number | string | «variable» | unary | group => rfl
    | binary left p os => exact operands_eq_parts visit (depth + 1) os _
    | call name es =>
        cases es with
        | nil => rfl
        | cons e es => exact args_eq_parts visit (depth + 1) es _
  · rfl

end Visitor

/-! ## Pruned tours -/

/-- The occurrence lies inside an expression that was skipped. -/
def Occurrence.Hidden (kept : List (Occurrence × Control)) (o : Occurrence) : Prop :=
  ∃ k ∈ kept, k.2 = .skip ∧ k.1.Above o

instance (kept : List (Occurrence × Control)) (o : Occurrence) : Decidable (o.Hidden kept) :=
  inferInstanceAs (Decidable (∃ k ∈ kept, k.2 = .skip ∧ k.1.Above o))

/-- What is kept of the tour, with the answers, is what is not inside a kept expression with the
    answer to skip. -/
def Pruned (tour : List Occurrence) (kept : List (Occurrence × Control)) : Prop :=
  kept.map Prod.fst = tour.filter fun o => ¬ o.Hidden kept

namespace Pruned

variable {xs ys : List Occurrence} {ks ls : List (Occurrence × Control)} {o : Occurrence}

theorem mem (h : Pruned xs ks) {k : Occurrence × Control} (hk : k ∈ ks) : k.1 ∈ xs := by
  have hmem : k.1 ∈ ks.map Prod.fst := List.mem_map_of_mem hk
  rw [h] at hmem
  exact (List.mem_filter.1 hmem).1

theorem hidden_append : o.Hidden (ks ++ ls) ↔ o.Hidden ks ∨ o.Hidden ls := by
  simp [Occurrence.Hidden, List.mem_append, or_and_right, exists_or]

/-- Tours none of which has anything to hide of the other are pruned one by one. -/
theorem append (h : Pruned xs ks) (h' : Pruned ys ls) (hxs : ∀ x ∈ xs, ¬ x.Hidden ls)
    (hys : ∀ y ∈ ys, ¬ y.Hidden ks) : Pruned (xs ++ ys) (ks ++ ls) := by
  rw [Pruned, List.map_append, List.filter_append, h, h']
  congr 1
  · refine List.filter_congr fun x hx => ?_
    simp [hidden_append, hxs x hx]
  · refine List.filter_congr fun y hy => ?_
    simp [hidden_append, hys y hy]

theorem hidden_under {i : Nat} :
    (o.under i).Hidden (ks.map fun k => (k.1.under i, k.2)) ↔ o.Hidden ks := by
  simp [Occurrence.Hidden, Occurrence.above_under]

/-- A tour is pruned in the same way wherever it begins. -/
theorem under (h : Pruned xs ks) (i : Nat) :
    Pruned (xs.map (Occurrence.under i)) (ks.map fun k => (k.1.under i, k.2)) := by
  have hmap : (ks.map fun k => (k.1.under i, k.2)).map Prod.fst =
      (ks.map Prod.fst).map (Occurrence.under i) := by
    rw [List.map_map, List.map_map]
    rfl
  rw [Pruned, hmap, h, List.filter_map]
  congr 1
  refine List.filter_congr fun x _ => ?_
  simp [hidden_under]

/-- Nothing is inside itself. -/
theorem not_hidden_self (o : Occurrence) (answer : Control) : ¬ o.Hidden [(o, answer)] := by
  rintro ⟨k, hk, -, -, -, hne⟩
  obtain rfl := List.mem_singleton.1 hk
  exact hne rfl

theorem singleton (o : Occurrence) (answer : Control) : Pruned [o] [(o, answer)] := by
  simp [Pruned, not_hidden_self o answer]

/-- A skipped expression hides all that is inside. -/
theorem skipped (hxs : ∀ x ∈ xs, o.Above x) : Pruned (o :: xs) [(o, .skip)] := by
  have hfilter : (xs.filter fun x => ¬ x.Hidden [(o, .skip)]) = [] := by
    refine List.filter_eq_nil_iff.2 fun x hx => ?_
    have hhidden : x.Hidden [(o, .skip)] := ⟨_, List.mem_singleton_self _, rfl, hxs x hx⟩
    simp [hhidden]
  rw [Pruned, List.filter_cons_of_pos (by simp [not_hidden_self o .skip]), hfilter]
  rfl

/-- What does not skip hides nothing. -/
theorem not_hidden_descend (o' : Occurrence) : ¬ o'.Hidden [(o, .descend)] := by
  rintro ⟨k, hk, hskip, -⟩
  obtain rfl := List.mem_singleton.1 hk
  cases hskip

end Pruned

/-! ## Notes of a walk -/

/-- Visits, each with the answer that was given. -/
abbrev Notes := List (Visit × Control)

/-- The notes of what is kept of a tour, if its root is at the given depth. -/
def notes (depth : Nat) (kept : List (Occurrence × Control)) : Notes :=
  kept.map fun k => (k.1.visit depth, k.2)

theorem notes_append (depth : Nat) (ks ls : List (Occurrence × Control)) :
    notes depth (ks ++ ls) = notes depth ks ++ notes depth ls :=
  List.map_append

theorem notes_under (depth i : Nat) (ks : List (Occurrence × Control)) :
    notes depth (ks.map fun k => (k.1.under i, k.2)) = notes (depth + 1) ks := by
  simp [notes, Occurrence.visit_under]

namespace Visitor

variable {α : Type}

/-- The visitor that does the same and notes every visit with its answer. -/
def noting (visit : Visitor α) : Visitor (α × Notes) := fun depth node state =>
  ((visit depth node state.1).1, (visit depth node state.1).2,
    state.2 ++ [(⟨depth, node⟩, (visit depth node state.1).1)])

/-- The first step notes the pruned tour and else does what the second one does. -/
def Prunes (depth : Nat) (tour : List Occurrence) (noting : α × Notes → α × Notes)
    (plain : α → α) : Prop :=
  ∀ a noted, ∃ kept, noting (a, noted) = (plain a, noted ++ notes depth kept) ∧ Pruned tour kept

variable {visit : Visitor α} {depth i : Nat} {xs ys : List Occurrence}
variable {f f' : α × Notes → α × Notes} {g g' : α → α}

/-- Nothing happens where nothing is to be seen. -/
theorem Prunes.nil : Prunes depth [] (id : α × Notes → α × Notes) id :=
  fun a noted => ⟨[], by simp [notes], rfl⟩

/-- One walk after the other, if neither has an expression above what the other one sees. -/
theorem Prunes.append (h : Prunes depth xs f g) (h' : Prunes depth ys f' g')
    (hxs : ∀ x ∈ xs, ∀ y ∈ ys, ¬ y.Above x) (hys : ∀ x ∈ xs, ∀ y ∈ ys, ¬ x.Above y) :
    Prunes depth (xs ++ ys) (fun s => f' (f s)) (fun a => g' (g a)) := by
  intro a noted
  obtain ⟨ks, hf, hks⟩ := h a noted
  obtain ⟨ls, hf', hls⟩ := h' (g a) (noted ++ notes depth ks)
  refine ⟨ks ++ ls, ?_, hks.append hls ?_ ?_⟩
  · show f' (f (a, noted)) = (g' (g a), _)
    rw [hf, hf', notes_append, List.append_assoc]
  · rintro x hx ⟨l, hl, -, habove⟩
    exact hxs x hx l.1 (hls.mem hl) habove
  · rintro y hy ⟨k, hk, -, habove⟩
    exact hys k.1 (hks.mem hk) y hy habove

theorem Prunes.under (h : Prunes (depth + 1) xs f g) (i : Nat) :
    Prunes depth (xs.map (Occurrence.under i)) f g := by
  intro a noted
  obtain ⟨ks, hf, hks⟩ := h a noted
  refine ⟨_, ?_, hks.under i⟩
  rw [hf, notes_under]

/-- The answer at a tag has no effect. -/
theorem tag_prunes (visit : Visitor α) (depth i : Nat) (tag : Node) :
    Prunes depth [⟨[i], tag⟩] (fun s => (visit.noting (depth + 1) tag s).2)
      (fun a => (visit (depth + 1) tag a).2) :=
  fun a _ => ⟨[(⟨[i], tag⟩, (visit (depth + 1) tag a).1)], rfl, .singleton _ _⟩

section
variable {part : Part} {parts : List Part}

theorem part_prunes (htag : ∀ tag, part.tag = some tag → tag.isExpr = false)
    (hchild : ∀ child, part.expr = some child → ∀ depth, Prunes depth child.tour
      (Visitor.expr visit.noting depth child) (Visitor.expr visit depth child)) :
    Prunes depth (part.tour i) (fun s => visit.noting.part (depth + 1) s part)
      (fun a => visit.part (depth + 1) a part) := by
  obtain ⟨tag, child⟩ := part
  have hinside : Prunes depth (child.elim [] fun e => e.tour.map (Occurrence.under i))
      (fun s => child.elim s fun e => Visitor.expr visit.noting (depth + 1) e s)
      (fun a => child.elim a fun e => Visitor.expr visit (depth + 1) e a) := by
    cases child with
    | none => exact .nil
    | some child => exact (hchild child rfl (depth + 1)).under i
  cases tag with
  | none => exact hinside
  | some tag =>
      refine (tag_prunes visit depth i tag).append hinside ?_ ?_
      · rintro x hx y hy ⟨-, hbegins, hne⟩
        obtain rfl := List.mem_singleton.1 hx
        have hmem : y ∈ Part.tour i ⟨none, child⟩ := hy
        obtain ⟨place, hplace⟩ := Part.place_of_mem_tour hmem
        rw [hplace] at hbegins hne
        obtain ⟨-, hnil⟩ := List.cons_prefix_cons.1 hbegins
        rw [List.prefix_nil.1 hnil] at hne
        exact hne rfl
      · rintro x hx y - ⟨hexpr, -⟩
        obtain rfl := List.mem_singleton.1 hx
        rw [htag tag rfl] at hexpr
        cases hexpr

theorem parts_prunes (htag : ∀ part ∈ parts, ∀ tag, part.tag = some tag → tag.isExpr = false)
    (hchild : ∀ part ∈ parts, ∀ child, part.expr = some child → ∀ depth, Prunes depth child.tour
      (Visitor.expr visit.noting depth child) (Visitor.expr visit depth child)) :
    Prunes depth (Part.tours i parts) (fun s => parts.foldl (visit.noting.part (depth + 1)) s)
      (fun a => parts.foldl (visit.part (depth + 1)) a) := by
  induction parts generalizing i with
  | nil => exact .nil
  | cons part parts ih =>
      obtain ⟨htag, htags⟩ := List.forall_mem_cons.1 htag
      obtain ⟨hchild, hchildren⟩ := List.forall_mem_cons.1 hchild
      -- one part is not inside another
      have hapart : ∀ x ∈ part.tour i, ∀ y ∈ Part.tours (i + 1) parts,
          ¬ x.place <+: y.place ∧ ¬ y.place <+: x.place := by
        intro x hx y hy
        obtain ⟨place, hplace⟩ := Part.place_of_mem_tour hx
        obtain ⟨k, place', hk, hplace'⟩ := Part.place_of_mem_tours hy
        rw [hplace, hplace', List.cons_prefix_cons, List.cons_prefix_cons]
        omega
      refine (part_prunes htag hchild).append (ih htags hchildren) ?_ ?_
      · rintro x hx y hy ⟨-, hbegins, -⟩
        exact (hapart x hx y hy).2 hbegins
      · rintro x hx y hy ⟨-, hbegins, -⟩
        exact (hapart x hx y hy).1 hbegins

end

/-- **The notes of a walk are the tour, pruned by them.** -/
theorem expr_prunes (visit : Visitor α) (depth : Nat) (e : Expr) :
    Prunes depth e.tour (Visitor.expr visit.noting depth e) (Visitor.expr visit depth e) := by
  induction e using Expr.parts_induction generalizing depth with
  | step e ih =>
      have hinside : ∀ x ∈ Part.tours 0 e.parts, ∃ k place, x.place = k :: place := by
        intro x hx
        obtain ⟨k, place, -, hplace⟩ := Part.place_of_mem_tours hx
        exact ⟨k, place, hplace⟩
      intro a noted
      rw [expr_eq_parts, expr_eq_parts, Expr.tour_eq]
      simp only [noting]
      rcases visit depth (.expr e) a with ⟨_ | _, a'⟩
      · have hparts : Prunes depth (Part.tours 0 e.parts)
            (fun s => e.parts.foldl (visit.noting.part (depth + 1)) s)
            (fun a => e.parts.foldl (visit.part (depth + 1)) a) :=
          parts_prunes (fun part hpart tag htag => Expr.isExpr_tag hpart htag)
            (fun part hpart child hchild depth => ih part hpart child hchild depth)
        obtain ⟨kept, hkept, hpruned⟩ :=
          hparts a' (noted ++ [(⟨depth, .expr e⟩, .descend)])
        refine ⟨(⟨[], .expr e⟩, .descend) :: kept, ?_, ?_⟩
        · refine hkept.trans ?_
          simp [notes, Occurrence.visit]
        · refine (Pruned.singleton ⟨[], .expr e⟩ .descend).append hpruned ?_ ?_
          · rintro x hx ⟨k, hk, -, -, hbegins, hne⟩
            obtain rfl := List.mem_singleton.1 hx
            exact hne (List.prefix_nil.1 hbegins)
          · exact fun y _ => Pruned.not_hidden_descend y
      · refine ⟨[(⟨[], .expr e⟩, .skip)], rfl, .skipped fun x hx => ?_⟩
        obtain ⟨k, place, hplace⟩ := hinside x hx
        refine ⟨rfl, List.nil_prefix, ?_⟩
        rw [hplace]
        exact List.cons_ne_nil k place |>.symm

/-! ## Walks that skip nothing -/

/-- The visitor that does the same but never skips. -/
def descending (visit : Visitor α) : Visitor α := fun depth node a =>
  (.descend, (visit depth node a).2)

/-- Visits one after the other leave a note each. -/
theorem foldl_step_noting (visit : Visitor α) (visits : List Visit) (a : α) (noted : Notes) :
    visits.foldl visit.descending.noting.step (a, noted) =
      (visits.foldl visit.step a, noted ++ visits.map fun v => (v, .descend)) := by
  induction visits generalizing a noted with
  | nil => simp
  | cons v visits ih =>
      rw [List.foldl_cons, List.foldl_cons, List.map_cons, List.append_cons]
      exact ih _ _

/-- **A walk that skips nothing makes the whole tour.** -/
theorem walk_noting_descending (visit : Visitor α) (e : Expr) (a : α) :
    (walk visit.descending.noting e (a, [])).2 = e.tour.map fun o => (o.visit 1, .descend) := by
  rw [walk, expr_eq_foldl fun _ _ _ => rfl, foldl_step_noting, Expr.visits_eq, List.nil_append,
    List.map_map]
  rfl

end Visitor

/-- **Walking with skips is pruning of the tour.** Whatever a visitor answers, from whatever state
    it carries along, the visits that it gets are those of the tour that do not lie inside an
    expression where it has answered to skip: in the same order, and at the same depths. A visitor
    that never skips gets the whole tour. This has every expression of the tree once, before all
    that it has inside, at a depth of one more than there are expressions above it, and every
    operator, sign and name of a function directly before its operand or first argument, at the
    same depth. So the depth of a tree is its height, that of its deepest expression. -/
theorem walk_prunes_tour (e : Expr) :
    (∀ (α : Type) (visit : Visitor α) (a : α), ∃ kept : List (Occurrence × Control),
      walk visit.noting e (a, []) = (walk visit e a, notes 1 kept) ∧
      kept.map Prod.fst = e.tour.filter fun o => ¬ o.Hidden kept) ∧
    (∀ (α : Type) (visit : Visitor α) (a : α),
      (walk visit.descending.noting e (a, [])).2 = e.tour.map fun o => (o.visit 1, .descend)) ∧
    e.IsTour e.tour ∧ e.depth = e.height ∧
    IsGreatest {depth | ∃ place t, e.at? place = some t ∧ depth = place.length + 1} e.depth := by
  refine ⟨fun α visit a => ?_, fun α visit a => visit.walk_noting_descending e a, e.isTour_tour,
    e.depth_eq_height, e.isGreatest_depth⟩
  obtain ⟨kept, hwalk, hpruned⟩ := visit.expr_prunes 1 e a []
  exact ⟨kept, hwalk, hpruned⟩

/-- The visitor that does not look into calls sees nothing of the argument of `f(a) - (b)`. -/
example :
    (walk (Visitor.noting fun _ node (_ : Unit) =>
        match node with
        | .expr (.call _ _) => (.skip, ())
        | _ => (.descend, ()))
      (.binary (.call "f" [.variable "a"]) .additive (.one .sub (.group (.variable "b"))))
      ((), [])).2.map (fun note => (note.1.depth, note.2)) =
    [(1, .descend), (2, .skip), (2, .descend), (2, .descend), (3, .descend)] := by
  decide

end FormulaLang
