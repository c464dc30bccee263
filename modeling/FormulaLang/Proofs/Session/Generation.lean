import FormulaLang.Proofs.Session.Currency
import FormulaLang.Proofs.Session.Transcript

/-!
# `Session.Generation` — the generation tells which registry there is

What a registry holds at a moment can be told from the changes before it alone (`replayed`), and
the generation counts these changes. A line that tells of no change leaves both as they were. So
moments of one generation have one registry, and with them all moments between the two. Compiling
relies on that: it reads the generation when folding begins and again before it stores the tree, and
if the two are the same, nothing has changed for as long as folding took, whatever its functions
have done.

- **`generation_identifies_registry`**: what the generation tells of the registry, at every moment
  of any run.
-/

namespace FormulaLang

variable {σ β : Type} {start : Vm β} {past journal : List (Line β)} {line : Line β}

/-- The function of the given name once what the journal tells of has happened, `initial` being the
    functions before. -/
def replayed (initial : Registry β) : List (Line β) → String → Option (Function β)
  | [], name => initial.get? name
  | line :: past, name =>
    match line.event with
    | .registered f => if f.name = name then some f else replayed initial past name
    | .removed removed => if removed = name then none else replayed initial past name
    | _ => replayed initial past name

/-! ## Changes -/

/-- A change adds a function of a free name or takes one away, and nothing else is a change. -/
theorem Happens.registry_replayed (h : Happens start past line)
    (hpast : ∀ name, (vmAt start past).registry.get? name = replayed start.registry past name)
    (name : String) :
    line.vm.registry.get? name = replayed start.registry (line :: past) name := by
  cases h with
  | called | returned | cleared | found | parsed | folded => exact hpast name
  | registered h =>
      obtain ⟨registry, hregister, rfl⟩ := Vm.register_eq_ok h
      rw [replayed, ← hpast]
      exact Registry.get?_register hregister name
  | @removed removed h =>
      rw [replayed, ← hpast, Vm.remove_of_contains h]
      exact Registry.get?_remove _ removed name

/-- **The registry is the one that the changes lead to.** -/
theorem Valid.registry_replayed (h : Valid start journal) (name : String) :
    (vmAt start journal).registry.get? name = replayed start.registry journal name := by
  induction h generalizing name with
  | nil => rfl
  | cons happens _ ih => exact happens.registry_replayed ih name

/-- A change is possible if it adds a name that is free or removes one that is taken. -/
def Event.IsPossible (registry : Registry β) : Event β → Prop
  | .registered f => registry.get? f.name = none
  | .removed name => ∃ f, registry.get? name = some f
  | _ => True

theorem Happens.isPossible (h : Happens start past line) :
    line.event.IsPossible (vmAt start past).registry := by
  cases h with
  | called | returned | cleared | found | parsed | folded => trivial
  | registered h =>
      obtain ⟨registry, hregister, -⟩ := Vm.register_eq_ok h
      exact (Registry.register_eq_ok hregister).1
  | removed h => exact Option.isSome_iff_exists.1 h

/-- As long as the counter has not wrapped, the generation is the number of changes. -/
theorem Valid.toNat_generation (h : Valid start journal) (hstart : start.generation = 0)
    (hchanges : changes journal < UInt64.size) :
    (vmAt start journal).generation.toNat = changes journal := by
  rw [h.generation, hstart, UInt64.zero_add, UInt64.toNat_ofNat_of_lt' hchanges]

/-- Moments of one generation have one registry, whichever of them is the earlier. -/
theorem Valid.registry_eq {now now' : List (Line β)} (h : Valid start journal)
    (hchanges : changes journal < UInt64.size) (hnow : now <:+ journal)
    (hnow' : now' <:+ journal)
    (hgeneration : (vmAt start now).generation = (vmAt start now').generation) :
    (vmAt start now).registry = (vmAt start now').registry := by
  have hfew {later : List (Line β)} (hlater : later <:+ journal) :
      changes later < UInt64.size :=
    Nat.lt_of_le_of_lt hlater.sublist.countP_le hchanges
  rcases List.suffix_or_suffix_of_suffix hnow hnow' with ⟨since, rfl⟩ | ⟨since, rfl⟩
  · exact ((h.of_suffix hnow').registry_of_generation (hfew hnow') hgeneration.symm _
      (List.suffix_append _ _) List.suffix_rfl).symm
  · exact (h.of_suffix hnow).registry_of_generation (hfew hnow) hgeneration _
      (List.suffix_append _ _) List.suffix_rfl

/-! ## Trees that were folded -/

/-- The tree was folded against this registry, which has not changed since folding began: it is what
    the source spells, with calls replaced by what functions of the registry have returned. -/
def FoldedAgainst (start : Vm β) (past : List (Line β)) (source : String) (tree : Expr)
    (against : Registry β) : Prop :=
  ∃ before e, before <:+ past ∧
    (∀ now, before <:+ now → now <:+ past → (vmAt start now).registry = against) ∧
    parse source start.config.maxDepth = .ok e ∧ e.Folded (callsSince start before past) tree

/-- Only a source that has no tree gets one. -/
theorem Vm.store_of_new {vm : Vm β} {source : String} {tree : Expr} {entry : Entry}
    (hentry : entry ∈ (vm.store source tree).2.cache.entries) (hnew : entry ∉ vm.cache.entries) :
    entry = (vm.store source tree).1 ∧ entry.source = source ∧ entry.tree = tree := by
  change entry ∈ (vm.cache.store source tree).2.entries at hentry
  show entry = (vm.cache.store source tree).1 ∧ _
  cases hfind : vm.cache.find? source with
  | some kept =>
      rw [Cache.store_of_find?_eq_some tree hfind] at hentry
      exact absurd hentry hnew
  | none =>
      rw [Cache.store_of_find?_eq_none tree hfind] at hentry ⊢
      rcases List.mem_cons.1 hentry with rfl | hold
      · exact ⟨rfl, rfl, rfl⟩
      · exact absurd hold hnew

/-- **A tree that is folded is stored under the registry that it was folded against.** -/
theorem Happens.stored (h : Happens start past line) (hvalid : Valid start past)
    (hchanges : changes past < UInt64.size) (hoptimize : start.config.optimize = true)
    {entry : Entry} (hentry : entry ∈ line.vm.cache.entries)
    (hnew : entry ∉ (vmAt start past).cache.entries) :
    line.event = .compiled entry.source entry.tree (some line.vm.registry) ∧
      FoldedAgainst start past entry.source entry.tree line.vm.registry := by
  cases h with
  | called | returned | found => exact absurd hentry hnew
  | registered h =>
      obtain ⟨registry, -, rfl⟩ := Vm.register_eq_ok h
      exact absurd hentry hnew
  | removed h =>
      rw [Vm.remove_of_contains h] at hentry
      cases hentry
  | cleared => cases hentry
  | parsed _ hplain => exact absurd hoptimize (hplain ▸ Bool.false_ne_true)
  | @folded source e t before parsed _ suffix generation folded =>
      obtain ⟨since, rfl⟩ := suffix
      have hsame := hvalid.registry_of_generation hchanges generation
      have hnow : (vmAt start (since ++ before)).registry = (vmAt start before).registry :=
        hsame _ (List.suffix_append _ _) List.suffix_rfl
      obtain ⟨hstored, rfl, rfl⟩ := Vm.store_of_new hentry hnew
      rw [← hstored]
      show Event.compiled entry.source entry.tree _ = .compiled _ _
        (some (vmAt start (since ++ before)).registry) ∧
        FoldedAgainst start _ _ _ (vmAt start (since ++ before)).registry
      rw [hnow]
      exact ⟨rfl, before, e, List.suffix_append _ _, hsame, parsed, folded⟩

/-! ## Every moment -/

/-- What the generation tells of the registry, at every moment of the journal. -/
structure GenerationTells (start : Vm β) (journal : List (Line β)) : Prop where
  /-- A line that tells of a change counts it, and no other does. -/
  counts : ∀ line past, line :: past <:+ journal → line.vm.generation.toNat =
    (vmAt start past).generation.toNat + (if line.event.isChange then 1 else 0)
  possible : ∀ line past, line :: past <:+ journal →
    line.event.IsPossible (vmAt start past).registry
  /-- The registry is the one that the changes lead to. -/
  replays : ∀ now, now <:+ journal → ∀ name,
    (vmAt start now).registry.get? name = replayed start.registry now name
  identifies : ∀ now now', now <:+ journal → now' <:+ journal →
    (vmAt start now).generation = (vmAt start now').generation →
      (vmAt start now).registry = (vmAt start now').registry
  /-- A folded tree is stored while the registry is the one that it was folded against. -/
  snapshots : start.config.optimize = true → ∀ line past, line :: past <:+ journal →
    ∀ entry ∈ line.vm.cache.entries, entry ∉ (vmAt start past).cache.entries →
      line.event = .compiled entry.source entry.tree (some line.vm.registry) ∧
        FoldedAgainst start past entry.source entry.tree line.vm.registry

theorem Valid.generationTells (h : Valid start journal) (hstart : start.generation = 0)
    (hchanges : changes journal < UInt64.size) : GenerationTells start journal := by
  have hfew {past : List (Line β)} (hpast : past <:+ journal) : changes past < UInt64.size :=
    Nat.lt_of_le_of_lt hpast.sublist.countP_le hchanges
  have hearlier {line : Line β} {past : List (Line β)} (hpast : line :: past <:+ journal) :
      past <:+ journal := (List.suffix_cons line past).trans hpast
  constructor
  case counts =>
    intro line past hpast
    have hcount := (h.of_suffix hpast).toNat_generation hstart (hfew hpast)
    have hbefore :=
      (h.of_suffix (hearlier hpast)).toNat_generation hstart (hfew (hearlier hpast))
    rw [vmAt_cons, changes_cons, ← hbefore] at hcount
    exact hcount
  case possible =>
    intro line past hpast
    cases h.of_suffix hpast with
    | cons happens _ => exact happens.isPossible
  case replays =>
    intro now hnow
    exact (h.of_suffix hnow).registry_replayed
  case identifies =>
    intro now now'
    exact h.registry_eq hchanges
  case snapshots =>
    intro hoptimize line past hpast entry hentry hnew
    cases h.of_suffix hpast with
    | cons happens valid =>
        exact happens.stored valid (hfew (hearlier hpast)) hoptimize hentry hnew

namespace Host
open Run

/-- **The generation identifies the registry.** Let an evaluator be driven by any script, with
    functions that may turn to the evaluator themselves, whether or not the fuel lasts, and let the
    registry change less than `2 ^ 64` times. The evaluator was, at every moment, as the journal of
    the run has it, and the journal of a run that ends is the transcript of its requests and of
    those made in calls. The generation grows by one with every change and with nothing else; a
    function is registered under a name that is free and removed under one that is taken, and the
    registry is at every moment the one that the changes lead to. So moments of one generation have
    one registry, and a tree that was folded is stored while the registry is the one that it was
    folded against. The changes are the registrations that succeed and the removals that find a
    function, each a line of its own; others do nothing. -/
theorem generation_identifies_registry (host : Host σ β) (fuel : Nat) (script : Script σ β)
    (registry : Registry β) (config : Config) (state : σ) :
    let start := Vm.new registry config
    let run := script.run (host.perform fuel)
    let s := run.after ⟨start, state, []⟩
    changes s.journal < UInt64.size →
      s.vm = vmAt start s.journal ∧
      (∀ r, (run.result ⟨start, state, []⟩).1 = some r → Transcript s.journal) ∧
      GenerationTells start s.journal ∧
      ∀ fuel' (t t' : Session σ β),
        (∀ f r, (host.perform fuel' (.register f)).run t = some (r, t') →
          (r = .ok () ∧ t'.vm.generation = t.vm.generation + 1 ∧
            t'.journal = ⟨.registered f, t'.vm⟩ :: t.journal) ∨
          ∃ error, r = .error error ∧ t' = t) ∧
        ∀ name found, (host.perform fuel' (.remove name)).run t = some (found, t') →
          (found = true ∧ t'.vm.generation = t.vm.generation + 1 ∧
            t'.journal = ⟨.removed name, t'.vm⟩ :: t.journal) ∨
          (found = false ∧ t' = t) := by
  intro start run s hchanges
  have hs : s.Follows start := host.follows_after fuel script start state
  refine ⟨hs.vm, fun r hr => host.transcript_journal fuel script start state hr,
    hs.valid.generationTells rfl hchanges, fun fuel' t t' => ⟨?_, ?_⟩⟩
  · intro f r hrun
    rcases Session.register_outcome hrun with ⟨hr, hvm, hjournal⟩ | ⟨error, -, hr, hsame⟩
    · obtain ⟨registry, -, hregistered⟩ := Vm.register_eq_ok hvm
      exact .inl ⟨hr, by rw [hregistered], hjournal⟩
    · exact .inr ⟨error, hr, hsame⟩
  · intro name found hrun
    obtain ⟨hfound, ⟨hr, hvm, hjournal⟩ | ⟨hr, hsame⟩⟩ := Session.remove_outcome hrun
    · rw [Vm.remove_of_contains (hfound.symm.trans hr)] at hvm
      exact .inl ⟨hr, by rw [hvm], hjournal⟩
    · exact .inr ⟨hr, hsame⟩

/-- The function that meddles is registered, removes itself while its call is folded and registers
    itself again. After these three changes it is registered as it was. -/
theorem generation_identifies_registry_meddling :
    changes meddled.journal = 3 ∧ GenerationTells folding meddled.journal ∧
      meddled.vm.generation = 3 ∧ meddled.vm.registry.get? "meddle" = some meddle := by
  have hchanges : changes meddled.journal = 3 := by decide +kernel
  have hfew : changes meddled.journal < UInt64.size := by
    rw [hchanges]
    decide
  obtain ⟨hvm, -, htells, -⟩ :=
    generation_identifies_registry meddling 3 meddleFolded .empty ⟨1, true⟩ 0 hfew
  have hvm' : meddled.vm = vmAt folding meddled.journal := hvm
  have hregistry : (vmAt folding meddled.journal).registry.get? "meddle" =
      replayed .empty meddled.journal "meddle" :=
    htells.replays meddled.journal List.suffix_rfl "meddle"
  rw [← hvm'] at hregistry
  exact ⟨hchanges, htells, by decide +kernel, hregistry.trans (by decide +kernel)⟩

end Host

end FormulaLang
