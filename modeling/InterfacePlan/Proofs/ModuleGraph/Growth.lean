import InterfacePlan.Proofs.ModuleGraph.Contents
/-!
# How graphs grow

What a graph gains when modules are created in it and placeholders are declared: these entries under
names that were free, and nothing else. Unlike what a graph holds, this can be told of any graph,
whatever stands in it and under which names.

## Main definitions

* `ModuleGraph.Gains`: a graph that has some more entries than another one

## Main results

* `ModuleGraph.gains_create`, `ModuleGraph.gains_declare`: what one change gains
* `ModuleGraph.Gains.trans`: what several changes gain
-/

namespace InterfacePlan.ModuleGraph

variable {g h k : ModuleGraph} {m : Module} {p : Placeholder} {ms ns : List Module}
  {is js : List (String × Implementation)} {name : String}

/-- **A graph that gained some modules and implementations.** They stand under different names, all
of which were free, and everything else is as it was. -/
structure Gains (g h : ModuleGraph) (ms : List Module) (is : List (String × Implementation)) :
    Prop where
  module?_iff : ∀ name m, h.module? name = some m ↔ g.module? name = some m ∨ m ∈ ms ∧ m.name = name
  state?_iff : ∀ name i, h.state? name = some i ↔ g.state? name = some i ∨ (name, i) ∈ is
  free : ∀ name ∈ usedNames ms is, g.uses name = false
  nodup : (usedNames ms is).Nodup

/-- Nothing stands under a name that is free. -/
theorem uses_eq_false_iff_forall : g.uses name = false ↔
    (∀ m, g.module? name ≠ some m) ∧ ∀ i, g.state? name ≠ some i := by
  rw [← Bool.not_eq_true, uses_iff_exists, not_or, not_exists, not_exists]

/-! ## One change -/

theorem gains_create (hc : g.create m = .ok h) : g.Gains h [m] [] := by
  obtain ⟨hfree, rfl⟩ := create_eq_ok_iff.1 hc
  have hnone := (uses_eq_false_iff_forall.1 hfree).1
  refine ⟨fun name n => ?_, fun name i => by simp [state?], by simpa [usedNames] using hfree,
    by simp [usedNames]⟩
  have hlook := SortedMap.get?_insert g.modules m.name name m
  rw [module?, hlook]
  split
  case isTrue heq =>
    subst heq
    grind
  case isFalse hne =>
    rw [module?]
    grind

/-- The name of the library that a placeholder awaits is free, too. -/
theorem gains_declare (hd : g.declare p = .ok h) :
    g.Gains h [] [(p.name, .declared p)] ∧ g.uses p.library.name = false := by
  obtain ⟨hfree, hlibrary, rfl⟩ := declare_eq_ok_iff.1 hd
  have hnone := (uses_eq_false_iff_forall.1 hfree).2
  refine ⟨⟨fun name n => by simp [module?], fun name i => ?_, by simpa [usedNames] using hfree,
    by simp [usedNames]⟩, hlibrary⟩
  have hlook := SortedMap.get?_insert g.implementations p.name name (.declared p)
  rw [state?, hlook]
  split
  case isTrue heq =>
    subst heq
    grind
  case isFalse hne =>
    rw [state?]
    grind

/-! ## Several changes -/

namespace Gains

/-- The names that a graph uses after it grew. -/
theorem uses_iff (gains : g.Gains h ms is) :
    h.uses name = true ↔ g.uses name = true ∨ name ∈ usedNames ms is := by
  have hmodule : (∃ m, h.module? name = some m) ↔
      (∃ m, g.module? name = some m) ∨ name ∈ ms.map (·.name) := by
    simp only [gains.module?_iff, exists_or, List.mem_map]
  have hstate : (∃ i, h.state? name = some i) ↔
      (∃ i, g.state? name = some i) ∨ name ∈ is.map (·.1) := by
    simp [gains.state?_iff, exists_or]
  rw [uses_iff_exists, uses_iff_exists, hmodule, hstate, usedNames, List.mem_append]
  tauto

theorem free_of_free (gains : g.Gains h ms is) (hfree : h.uses name = false) :
    g.uses name = false ∧ name ∉ usedNames ms is := by
  rw [← Bool.not_eq_true, gains.uses_iff, not_or, Bool.not_eq_true] at hfree
  exact hfree

/-- **What several changes gain** is what the first ones and what the later ones gain. -/
theorem trans (hgh : g.Gains h ms is) (hhk : h.Gains k ns js) :
    g.Gains k (ns ++ ms) (js ++ is) where
  module?_iff name m := by
    rw [hhk.module?_iff, hgh.module?_iff, List.mem_append]
    tauto
  state?_iff name i := by
    rw [hhk.state?_iff, hgh.state?_iff, List.mem_append]
    tauto
  free name hname := by
    rcases List.mem_append.1 (usedNames_append_perm.mem_iff.1 hname) with hnew | hold
    · exact (hgh.free_of_free (hhk.free name hnew)).1
    · exact hgh.free name hold
  nodup := by
    rw [usedNames_append_perm.nodup_iff, List.nodup_append]
    refine ⟨hhk.nodup, hgh.nodup, ?_⟩
    -- What is gained then stands under names that were still free when the first was gained.
    rintro name hnew _ hold rfl
    exact (hgh.free_of_free (hhk.free name hnew)).2 hold

end Gains

end InterfacePlan.ModuleGraph
