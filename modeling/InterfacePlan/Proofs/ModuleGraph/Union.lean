import InterfacePlan.Proofs.ModuleGraph.Integrity
import InterfacePlan.Proofs.ModuleGraph.Persistence
/-!
# Merging as disjoint union

A merge that succeeds leaves the disjoint union of two graphs, and a disjoint union is determined by
its parts. So it does not matter into which of two graphs the other one is merged, nor in which
order three graphs are put together, as long as all the merges succeed.

A merge that fails leaves a part of the union: all of the first graph, and of the second one either
some modules or all of them and some implementations. It stops at an entry of the second graph whose
name the first one uses, or at a placeholder that awaits a library for which there is no room.

## Main definitions

* `ModuleGraph.IsUnion`: the disjoint union of two graphs
* `ModuleGraph.IsPartOfUnion`: what a merge has moved when it stops
* `ModuleGraph.Collides`: the names at which a merge stops

## Main results

* `ModuleGraph.IsUnion.eq`, `ModuleGraph.IsUnion.symm`, `ModuleGraph.IsUnion.assoc`: disjoint unions
  are unique, and do not depend on the order of their parts
* `ModuleGraph.isUnion_of_merge`, `ModuleGraph.isPartOfUnion_of_merge`: what a merge leaves
* `ModuleGraph.exists_collides_of_merge`: why a merge fails
* `ModuleGraph.merge_outcome`: all that can become of a merge
-/

namespace InterfacePlan.ModuleGraph

variable {a b c ab bc g h k : ModuleGraph} {name : String} {e : PlanError} {ms ns : List Module}
  {is js : List (String × Implementation)}

/-! ## Disjoint unions -/

/-- **A graph that is the disjoint union of two others**: it holds the entries of both, unchanged,
and no name is used in both. -/
structure IsUnion (h a b : ModuleGraph) : Prop where
  module?_iff : ∀ name m, h.module? name = some m ↔
    a.module? name = some m ∨ b.module? name = some m
  state?_iff : ∀ name i, h.state? name = some i ↔ a.state? name = some i ∨ b.state? name = some i
  disjoint : ∀ name, a.uses name = true → b.uses name = false

namespace IsUnion

/-- A disjoint union is determined by its parts. -/
theorem eq (union : h.IsUnion a b) (union' : k.IsUnion a b) : h = k := by
  refine ext_lookups (fun name => Option.ext fun m => ?_) fun name => Option.ext fun i => ?_
  · exact (union.module?_iff name m).trans (union'.module?_iff name m).symm
  · exact (union.state?_iff name i).trans (union'.state?_iff name i).symm

theorem symm (union : h.IsUnion a b) : h.IsUnion b a where
  module?_iff name m := (union.module?_iff name m).trans or_comm
  state?_iff name i := (union.state?_iff name i).trans or_comm
  disjoint name hb := by
    rw [← Bool.not_eq_true]
    intro ha
    rw [union.disjoint name ha] at hb
    cases hb

theorem uses_iff (union : h.IsUnion a b) :
    h.uses name = true ↔ a.uses name = true ∨ b.uses name = true := by
  simp only [uses_iff_exists, union.module?_iff, union.state?_iff, exists_or]
  tauto

/-- **The parts of a union may be put together in another way.** -/
theorem assoc (hab : ab.IsUnion a b) (union : h.IsUnion ab c) (hbc : bc.IsUnion b c) :
    h.IsUnion a bc where
  module?_iff name m := by rw [union.module?_iff, hab.module?_iff, hbc.module?_iff, or_assoc]
  state?_iff name i := by rw [union.state?_iff, hab.state?_iff, hbc.state?_iff, or_assoc]
  disjoint name ha := by
    have hb : b.uses name = false := hab.disjoint name ha
    have hc : c.uses name = false := union.disjoint name (hab.uses_iff.2 (.inl ha))
    rw [← Bool.not_eq_true, hbc.uses_iff, hb, hc]
    simp

end IsUnion

/-! ## Merges that succeed -/

theorem WellFormed.merge {outcome : Except PlanError Unit} (ha : a.WellFormed) (hb : b.WellFormed)
    (hm : a.merge b = (h, outcome)) : h.WellFormed := by
  have hstep := ha.apply (.merge b) fun other heq => Change.merge.inj heq ▸ hb
  rwa [ModuleGraph.apply, hm] at hstep

/-- What is held in addition to the contents of a graph stands under names that were free in it. -/
theorem Holds.free_of_holds_append (hold : g.Holds ms is) (hmore : h.Holds (ns ++ ms) (js ++ is)) :
    ∀ name ∈ usedNames ns js, g.uses name = false := by
  intro name hname
  obtain ⟨-, -, hdisjoint⟩ := List.nodup_append.1 (usedNames_append_perm.nodup_iff.1 hmore.nodup)
  exact hold.uses_eq_false_iff.2 fun hused => hdisjoint name hname name hused rfl

/-- **A merge that succeeds leaves the disjoint union.** -/
theorem isUnion_of_merge (ha : a.WellFormed) (hb : b.WellFormed) (hm : a.merge b = (h, .ok ())) :
    h.IsUnion a b := by
  obtain ⟨ms, is, hold, -⟩ := ha
  obtain ⟨ns, js, hother, -⟩ := hb
  have hmerged := hold.merge hother hm
  refine ⟨fun name m => ?_, fun name i => ?_, fun name hused => ?_⟩
  · rw [hmerged.module?_iff, hold.module?_iff, hother.module?_iff, List.mem_append]
    tauto
  · rw [hmerged.state?_iff, hold.state?_iff, hother.state?_iff, List.mem_append]
    tauto
  · rw [hother.uses_eq_false_iff]
    intro hname
    rw [hold.free_of_holds_append hmerged name hname] at hused
    cases hused

/-! ## Merges that stop half-way -/

/-- **A graph that a merge has left when it stops**: the first graph, with some entries of the
second one. -/
structure IsPartOfUnion (h a b : ModuleGraph) : Prop where
  /-- The first graph is still there, unchanged. -/
  keeps : a.Extends h
  /-- All other modules are those of the second graph. -/
  modules : ∀ name m, h.module? name = some m →
    a.module? name = some m ∨ a.uses name = false ∧ b.module? name = some m
  /-- All other implementations are those of the second graph. -/
  states : ∀ name i, h.state? name = some i →
    a.state? name = some i ∨ a.uses name = false ∧ b.state? name = some i
  /-- There are no other implementations before all modules of the second graph were moved. -/
  modules_first : ∀ name i, h.state? name = some i → a.state? name = none →
    ∀ other m, b.module? other = some m → a.uses other = false ∧ h.module? other = some m

/-- **A merge leaves a part of the union**, also when it fails. -/
theorem isPartOfUnion_of_merge (ha : a.WellFormed) (hb : b.WellFormed) :
    (a.merge b).1.IsPartOfUnion a b := by
  obtain ⟨ms, is, hold, -⟩ := ha
  obtain ⟨ns, js, hother, -⟩ := hb
  obtain ⟨ns', js', moved, hmoved, -⟩ := hold.exists_moved hother
  have hfree := hold.free_of_holds_append hmoved
  have hmodule : ∀ m ∈ ns', a.uses m.name = false := fun m hm =>
    hfree m.name (List.mem_append_left _ (List.mem_map.2 ⟨m, hm, rfl⟩))
  refine ⟨extends_merge a b, ?modules, ?states, ?modules_first⟩
  case modules =>
    intro name m hm
    obtain ⟨hmem, rfl⟩ := (hmoved.module?_iff _ _).1 hm
    rcases List.mem_append.1 hmem with hnew | hmem
    · refine .inr ⟨hmodule m hnew, (hother.module?_iff _ _).2 ⟨?_, rfl⟩⟩
      exact moved.modules.subset hnew
    · exact .inl ((hold.module?_iff _ _).2 ⟨hmem, rfl⟩)
  case states =>
    intro name i hi
    rcases List.mem_append.1 ((hmoved.state?_iff _ _).1 hi) with hnew | hmem
    · refine .inr ⟨hfree name ?_, (hother.state?_iff _ _).2 (moved.implementations.subset hnew)⟩
      exact List.mem_append_right _ (List.mem_map.2 ⟨_, hnew, rfl⟩)
    · exact .inl ((hold.state?_iff _ _).2 hmem)
  case modules_first =>
    intro name i hi hnone other m hm
    -- The implementation was moved, so all modules were moved before it.
    have hnew : (name, i) ∈ js' := by
      refine (List.mem_append.1 ((hmoved.state?_iff _ _).1 hi)).resolve_right fun hmem => ?_
      rw [(hold.state?_iff _ _).2 hmem] at hnone
      cases hnone
    have hall : ns' = ns := moved.modules_first.resolve_left (List.ne_nil_of_mem hnew)
    subst hall
    obtain ⟨hmem, rfl⟩ := (hother.module?_iff _ _).1 hm
    exact ⟨hmodule m hmem, (hmoved.module?_iff _ _).2 ⟨List.mem_append_left _ hmem, rfl⟩⟩

/-! ## Where merges stop -/

theorem requireRoom_eq_error_iff {i : Implementation} : g.requireRoom name i = .error e ↔
    (g.uses name = true ∧ e = .duplicateModule name)
      ∨ g.uses name = false ∧ ∃ library, i.awaited? = some library ∧ g.uses library = true
          ∧ e = .duplicateModule library := by
  rw [requireRoom, Outcome.bind_eq_error_iff, requireUnused_eq_error_iff]
  cases i.awaited? <;> simp [requireUnused_eq_ok_iff, requireUnused_eq_error_iff]

/-- Modules with different names are moved up to one whose name was used before. -/
theorem Holds.exists_used_of_moveModules (hold : g.Holds ms is) (hn : (ns.map (·.name)).Nodup)
    (hm : g.moveModules (ns.map fun m => (m.name, m)) = (h, .error e)) :
    ∃ n ∈ ns, n.name ∈ usedNames ms is ∧ e = .duplicateModule n.name := by
  induction ns generalizing g ms with
  | nil => cases hm
  | cons n ns ih =>
    obtain ⟨hne, hn'⟩ := List.nodup_cons.1 hn
    rw [List.map_cons, moveModules] at hm
    split at hm
    case h_1 e' hu =>
      obtain rfl : e' = e := Except.error.inj (Prod.mk.inj hm).2
      obtain ⟨hused, rfl⟩ := requireUnused_eq_error_iff.1 hu
      exact ⟨n, List.mem_cons_self .., hold.uses_iff.1 hused, rfl⟩
    case h_2 hu =>
      have hfree := hold.uses_eq_false_iff.1 (requireUnused_eq_ok_iff.1 hu)
      obtain ⟨n', hn'mem, hused, rfl⟩ := ih (hold.insertModule hfree) hn' hm
      refine ⟨n', List.mem_cons_of_mem _ hn'mem, ?_, rfl⟩
      refine (List.mem_cons.1 hused).resolve_left fun heq => hne ?_
      exact List.mem_map.2 ⟨n', hn'mem, heq⟩

/-- Implementations with different names are moved up to one whose name was used before, or to a
placeholder that awaits a library whose name is used by then. -/
theorem Holds.exists_used_of_moveImplementations (hold : g.Holds ms is)
    (hn : (js.map (·.1)).Nodup) (hm : g.moveImplementations js = (h, .error e)) :
    ∃ j ∈ js, (j.1 ∈ usedNames ms is ∧ e = .duplicateModule j.1)
      ∨ h.uses j.1 = false ∧ ∃ library, j.2.awaited? = some library ∧ h.uses library = true
          ∧ e = .duplicateModule library := by
  induction js generalizing g is with
  | nil => cases hm
  | cons j js ih =>
    obtain ⟨hne, hn'⟩ := List.nodup_cons.1 hn
    rw [moveImplementations] at hm
    split at hm
    case h_1 e' hr =>
      obtain ⟨rfl, he⟩ := Prod.mk.inj hm
      obtain rfl : e' = e := Except.error.inj he
      refine ⟨j, List.mem_cons_self .., ?_⟩
      rw [← hold.uses_iff]
      exact requireRoom_eq_error_iff.1 hr
    case h_2 hr =>
      have hfree := hold.uses_eq_false_iff.1 (requireRoom_eq_ok_iff.1 hr).1
      obtain ⟨j', hj', hcollides⟩ := ih (hold.insertImplementation j.2 hfree) hn' hm
      refine ⟨j', List.mem_cons_of_mem _ hj', hcollides.imp_left (And.imp_left fun hused => ?_)⟩
      refine (List.mem_cons.1 (usedNames_cons_right.mem_iff.1 hused)).resolve_left fun heq => hne ?_
      exact List.mem_map.2 ⟨j', hj', heq⟩

/-- **The names at which a merge stops**, when it leaves the graph `h`. -/
inductive Collides (a b h : ModuleGraph) : String → Prop
  /-- Both graphs use the name. -/
  | taken {name : String} (first : a.uses name = true) (second : b.uses name = true) :
    Collides a b h name
  /-- A placeholder of the second graph is not moved, because the library that it awaits has the
  name of something that is there. -/
  | awaited {name : String} {p : Placeholder} (waits : b.state? name = some (.declared p))
    (left : h.uses name = false) (there : h.uses p.library.name = true) :
    Collides a b h p.library.name

/-- **Why a merge fails.** -/
theorem exists_collides_of_merge (ha : a.WellFormed) (hb : b.WellFormed)
    (hm : a.merge b = (h, .error e)) : ∃ name, Collides a b h name ∧ e = .duplicateModule name := by
  obtain ⟨ms, is, hold, -⟩ := ha
  obtain ⟨ns, js, hother, -⟩ := hb
  obtain ⟨ns', hlist, hns⟩ := exists_eq_map_of_perm hother.modules_perm
  replace hother : b.Holds ns' b.implementations.toList :=
    hother.perm hns.symm hother.implementations_perm.symm
  obtain ⟨hmodules, himplementations, hdisjoint⟩ := List.nodup_append.1 hother.nodup
  rw [merge, hlist] at hm
  split at hm
  case h_1 k e' hk =>
    obtain ⟨rfl, he⟩ := Prod.mk.inj hm
    obtain rfl : e' = e := Except.error.inj he
    obtain ⟨n, hn, hused, rfl⟩ := hold.exists_used_of_moveModules hmodules hk
    refine ⟨n.name, .taken (hold.uses_iff.2 hused) (hother.uses_iff.2 ?_), rfl⟩
    exact List.mem_append_left _ (List.mem_map.2 ⟨n, hn, rfl⟩)
  case h_2 k hk =>
    obtain ⟨moved, -, hmoved, hall⟩ := hold.exists_movedModules ns'
    rw [hk] at hmoved hall
    obtain rfl : moved = ns' := hall rfl
    obtain ⟨j, hj, hcollides⟩ := hmoved.exists_used_of_moveImplementations himplementations hm
    have hname : j.1 ∈ b.implementations.toList.map (·.1) := List.mem_map.2 ⟨j, hj, rfl⟩
    rcases hcollides with ⟨hused, rfl⟩ | ⟨hleft, library, hawaited, hthere, rfl⟩
    · refine ⟨j.1, .taken (hold.uses_iff.2 ?_) (hother.uses_iff.2 ?_), rfl⟩
      · rw [usedNames, List.map_append, List.append_assoc] at hused
        refine (List.mem_append.1 hused).resolve_left fun hmodule => ?_
        exact hdisjoint _ hmodule _ hname rfl
      · exact List.mem_append_right _ hname
    · obtain ⟨p, hp, rfl⟩ := Implementation.awaited?_eq_some_iff.1 hawaited
      refine ⟨_, .awaited ((hother.state?_iff j.1 (.declared p)).2 ?_) hleft hthere, rfl⟩
      rw [← hp]
      exact hj

/-! ## All merges -/

/-- **What can become of a merge.** If it succeeds, it leaves the disjoint union. If it fails, it
leaves a part of the union, and the error tells the name at which it stopped. Merges that succeed
give the same graph in both directions, and three graphs can be put together in both ways. -/
theorem merge_outcome (ha : a.Reachable) (hb : b.Reachable) :
    (∀ h, a.merge b = (h, .ok ()) → h.IsUnion a b)
      ∧ (∀ h e, a.merge b = (h, .error e) → h.IsPartOfUnion a b
          ∧ ∃ name, Collides a b h name ∧ e = .duplicateModule name)
      ∧ (∀ h k, a.merge b = (h, .ok ()) → b.merge a = (k, .ok ()) → h = k)
      ∧ ∀ c, c.Reachable → ∀ ab bc h k, a.merge b = (ab, .ok ()) → ab.merge c = (h, .ok ()) →
          b.merge c = (bc, .ok ()) → a.merge bc = (k, .ok ()) → h = k := by
  have ha' : a.WellFormed := .of_reachableBy ha
  have hb' : b.WellFormed := .of_reachableBy hb
  refine ⟨fun h => isUnion_of_merge ha' hb', fun h e hm => ⟨?_, ?_⟩, fun h k hm hm' => ?_, ?_⟩
  · have hpart := isPartOfUnion_of_merge ha' hb'
    rw [hm] at hpart
    exact hpart
  · exact exists_collides_of_merge ha' hb' hm
  · exact (isUnion_of_merge ha' hb' hm).eq (isUnion_of_merge hb' ha' hm').symm
  · intro c hc ab bc h k hab hh hbc hk
    have hc' : c.WellFormed := .of_reachableBy hc
    have hleft : h.IsUnion ab c := isUnion_of_merge (ha'.merge hb' hab) hc' hh
    have hright : k.IsUnion a bc := isUnion_of_merge ha' (hb'.merge hc' hbc) hk
    have hregrouped : h.IsUnion a bc :=
      (isUnion_of_merge ha' hb' hab).assoc hleft (isUnion_of_merge hb' hc' hbc)
    exact hregrouped.eq hright

/-- A graph with a library that no other graph knows. -/
def quxGraph : ModuleGraph := applyAll ∅ [.create (plainLibrary "qux-cpp")]

theorem merges_with_foo :
    (∃ h, fooGraph.merge barGraph = (h, .error (.duplicateModule "foo-V1-cpp-generator"))
        ∧ h.IsPartOfUnion fooGraph barGraph
        ∧ h.state? "bar-cpp-generator" = some (.finished "bar-cpp"))
      ∧ ∃ h, fooGraph.merge quxGraph = (h, .ok ()) ∧ quxGraph.merge fooGraph = (h, .ok ())
        ∧ h.IsUnion fooGraph quxGraph := by
  have hfoo : fooGraph.Reachable := Reachable.applyAll .empty (by simp)
  have hbar : barGraph.Reachable := Reachable.applyAll .empty (by simp)
  have hqux : quxGraph.Reachable := Reachable.applyAll .empty (by simp)
  constructor
  · obtain ⟨-, hfailed, -, -⟩ := merge_outcome hfoo hbar
    have herror : fooGraph.merge barGraph = ((fooGraph.merge barGraph).1,
        .error (.duplicateModule "foo-V1-cpp-generator")) := Prod.ext rfl (by decide +kernel)
    exact ⟨_, herror, (hfailed _ _ herror).1, by decide +kernel⟩
  · obtain ⟨hunion, -, hcomm, -⟩ := merge_outcome hfoo hqux
    have hok : fooGraph.merge quxGraph = ((fooGraph.merge quxGraph).1, .ok ()) :=
      Prod.ext rfl (by decide +kernel)
    have hok' : quxGraph.merge fooGraph = ((quxGraph.merge fooGraph).1, .ok ()) :=
      Prod.ext rfl (by decide +kernel)
    refine ⟨_, hok, ?_, hunion _ hok⟩
    rw [hcomm _ _ hok hok']
    exact hok'

end InterfacePlan.ModuleGraph
