import InterfacePlan.Proofs.ModuleGraph.Integrity
/-!
# Names that placeholders wait for

When a placeholder is declared, the name of its library has to be free. The name is not reserved: a
later change may take it for a module or for another placeholder, and then the placeholder cannot be
finished under it any more. It stays free exactly as long as no change takes it.

## Main definitions

* `ModuleGraph.Awaits`: the names that the placeholders of a graph wait for
* `ModuleGraph.KeepsRoom`: a graph in which all these names are free
* `ModuleGraph.Spares`: the changes that take none of these names
* `ModuleGraph.LeavesRoom`: the changes that take none of them unless they have no effect

## Main results

* `ModuleGraph.WellFormed.keepsRoom_apply_iff`: a change that succeeds keeps all these names free
  exactly when it takes none of them
* `ModuleGraph.awaited_names_stay_free`: what follows for sequences of changes
* `ModuleGraph.awaited_name_taken`: a placeholder whose name was taken
-/

namespace InterfacePlan.ModuleGraph

variable {g h other : ModuleGraph} {m : Module} {p : Placeholder} {ms ns ns' : List Module}
  {is js js' : List (String × Implementation)}

/-- A placeholder of the graph waits to become the library of a name. -/
def Awaits (g : ModuleGraph) (library : String) : Prop :=
  ∃ name p, g.state? name = some (.declared p) ∧ p.library.name = library

/-- **A graph in which the names that placeholders wait for are free.** -/
def KeepsRoom (g : ModuleGraph) : Prop := ∀ library, g.Awaits library → g.uses library = false

/-- **A change that takes none of the names that placeholders wait for**, unless it is for the
placeholder itself that it takes it. -/
def Spares (g : ModuleGraph) : Change → Prop
  | .create m => ¬g.Awaits m.name
  | .declare p => ¬g.Awaits p.name ∧ p.library.name ≠ p.name
  | .finish name m => ∀ other p, g.state? other = some (.declared p) → p.library.name = m.name →
      other = name
  | .merge other => ∀ name, other.uses name = true → ¬g.Awaits name

/-- **A change that leaves room**: if it takes effect, be it half-way, it takes none of these
names. -/
def LeavesRoom (g : ModuleGraph) (c : Change) : Prop :=
  (g.apply c).2 = .ok () ∨ (∃ other, c = .merge other) → g.Spares c

/-! ## Awaited names of contents -/

/-- The names that implementations wait for. -/
def awaitedNames (is : List (String × Implementation)) : List String :=
  is.filterMap fun e => e.2.awaited?

theorem mem_awaitedNames {library : String} : library ∈ awaitedNames is ↔
    ∃ name p, (name, .declared p) ∈ is ∧ p.library.name = library := by
  rw [awaitedNames, List.mem_filterMap]
  constructor
  · rintro ⟨⟨name, i⟩, he, hlibrary⟩
    obtain ⟨p, rfl, hp⟩ := Implementation.awaited?_eq_some_iff.1 hlibrary
    exact ⟨name, p, he, hp⟩
  · rintro ⟨name, p, he, rfl⟩
    exact ⟨(name, .declared p), he, rfl⟩

theorem awaitedNames_append : awaitedNames (is ++ js) = awaitedNames is ++ awaitedNames js :=
  List.filterMap_append

theorem usedNames_subset (hns : ns' ⊆ ns) (hjs : js' ⊆ js) :
    usedNames ns' js' ⊆ usedNames ns js := by
  intro name hname
  rcases List.mem_append.1 hname with hmodule | hentry
  · exact List.mem_append_left _ (List.map_subset _ hns hmodule)
  · exact List.mem_append_right _ (List.map_subset _ hjs hentry)

theorem awaitedNames_subset (hjs : js' ⊆ js) : awaitedNames js' ⊆ awaitedNames js :=
  List.filterMap_subset _ hjs

namespace Holds

variable (hold : g.Holds ms is)
include hold

theorem awaits_iff {library : String} : g.Awaits library ↔ library ∈ awaitedNames is := by
  simp only [mem_awaitedNames, Awaits, hold.state?_iff]

theorem keepsRoom_iff : g.KeepsRoom ↔ (awaitedNames is).Disjoint (usedNames ms is) := by
  simp only [KeepsRoom, hold.awaits_iff, hold.uses_eq_false_iff]
  rfl

/-- What a graph with more contents keeps free, given that it held the names of what was there. -/
theorem keepsRoom_moved {k : ModuleGraph} (room : g.KeepsRoom) (moved : Moved ms ns is js ns' js')
    (hk : k.Holds (ns' ++ ms) (js' ++ is)) : k.KeepsRoom ↔
      (awaitedNames js').Disjoint (usedNames ns' js')
        ∧ (awaitedNames is).Disjoint (usedNames ns' js') := by
  have hold_room := hold.keepsRoom_iff.1 room
  -- There was room for the new placeholders, so only the new names matter.
  have hmoved : (awaitedNames js').Disjoint (usedNames ms is) := by
    intro library hawaited hused
    obtain ⟨name, p, hp, rfl⟩ := mem_awaitedNames.1 hawaited
    exact moved.room _ hp _ rfl hused
  rw [hk.keepsRoom_iff, awaitedNames_append, List.disjoint_append_left,
    usedNames_append_perm.disjoint_right, usedNames_append_perm.disjoint_right,
    List.disjoint_append_right, List.disjoint_append_right, and_iff_left hmoved,
    and_iff_left hold_room]

end Holds

/-! ## Changes that take names -/

section Steps

variable (room : g.KeepsRoom)
include room

theorem keepsRoom_create_iff (hold : g.Holds ms is) (hc : g.create m = .ok h) :
    h.KeepsRoom ↔ g.Spares (.create m) := by
  rw [(hold.create hc).keepsRoom_iff, usedNames_cons_left, List.disjoint_cons_right,
    and_iff_left (hold.keepsRoom_iff.1 room), ← hold.awaits_iff]
  rfl

theorem keepsRoom_declare_iff (hold : g.Holds ms is) (hd : g.declare p = .ok h) :
    h.KeepsRoom ↔ g.Spares (.declare p) := by
  obtain ⟨-, hfree, -⟩ := declare_eq_ok_iff.1 hd
  have hlibrary : p.library.name ∉ usedNames ms is := hold.uses_eq_false_iff.1 hfree
  have hawaited : awaitedNames ((p.name, .declared p) :: is)
      = p.library.name :: awaitedNames is := rfl
  -- The name of the library is free, so it can only be taken by the placeholder itself.
  rw [(hold.declare hd).keepsRoom_iff, hawaited, usedNames_cons_right.disjoint_right,
    List.disjoint_cons_right, List.disjoint_cons_left, and_iff_right hlibrary,
    and_iff_left (hold.keepsRoom_iff.1 room), List.mem_cons, not_or, ← hold.awaits_iff,
    and_comm, Spares, ne_comm]

theorem keepsRoom_finish_iff (hold : g.Holds ms ((p.name, .declared p) :: is))
    (hf : g.finish p.name m = .ok h) : h.KeepsRoom ↔ g.Spares (.finish p.name m) := by
  have hroom : (awaitedNames is).Disjoint (usedNames ms ((p.name, .finished m.name) :: is)) :=
    (List.disjoint_cons_left.1 (hold.keepsRoom_iff.1 room)).2
  have hawaited : awaitedNames ((p.name, .finished m.name) :: is) = awaitedNames is := rfl
  rw [(hold.finish hf).keepsRoom_iff, hawaited, usedNames_cons_left, List.disjoint_cons_right,
    and_iff_left hroom, mem_awaitedNames]
  constructor
  · intro hnone name q hq hlibrary
    rcases List.mem_cons.1 ((hold.state?_iff _ _).1 hq) with heq | hq
    · exact (Prod.mk.inj heq).1
    · exact absurd ⟨name, q, hq, hlibrary⟩ hnone
  · rintro hspares ⟨name, q, hq, hlibrary⟩
    have hfresh := (List.nodup_cons.1 (usedNames_cons_right.nodup_iff.1 hold.nodup)).1
    obtain rfl := hspares name q ((hold.state?_iff _ _).2 (List.mem_cons_of_mem _ hq)) hlibrary
    exact hfresh (List.mem_append_right _ (List.mem_map.2 ⟨_, hq, rfl⟩))

omit room in
theorem spares_merge_iff (hold : g.Holds ms is) (hother : other.Holds ns js) :
    g.Spares (.merge other) ↔ (awaitedNames is).Disjoint (usedNames ns js) := by
  simp only [Spares, hold.awaits_iff, hother.uses_iff]
  exact List.disjoint_comm

end Steps

namespace WellFormed

variable {c : Change} (hg : g.WellFormed) (room : g.KeepsRoom)
  (hothers : ∀ other, c = .merge other → other.WellFormed ∧ other.KeepsRoom)
include hg room hothers

/-- **A change that succeeds keeps all awaited names free exactly when it takes none of them.** -/
theorem keepsRoom_apply_iff (hok : (g.apply c).2 = .ok ()) :
    (g.apply c).1.KeepsRoom ↔ g.Spares c := by
  cases c with
  | create m =>
    obtain ⟨h, hc, heq⟩ := exists_afterStep_of_ok hok
    obtain ⟨ms, is, hold, -⟩ := hg
    rw [heq]
    exact keepsRoom_create_iff room hold hc
  | declare p =>
    obtain ⟨h, hd, heq⟩ := exists_afterStep_of_ok hok
    obtain ⟨ms, is, hold, -⟩ := hg
    rw [heq]
    exact keepsRoom_declare_iff room hold hd
  | finish name m =>
    obtain ⟨h, hf, heq⟩ := exists_afterStep_of_ok hok
    obtain ⟨p, hp⟩ := exists_declared_of_finish hf
    obtain ⟨rfl, ms, is, hold, -⟩ := hg.exists_holds_of_declared hp
    rw [heq]
    exact keepsRoom_finish_iff room hold hf
  | merge other =>
    obtain ⟨⟨ns, js, hother, -⟩, hroom⟩ := hothers other rfl
    obtain ⟨ms, is, hold, -⟩ := hg
    obtain ⟨ns', js', moved, hk, hall⟩ := hold.exists_moved hother
    obtain ⟨rfl, rfl⟩ := hall hok
    rw [ModuleGraph.apply, hold.keepsRoom_moved room moved hk, spares_merge_iff hold hother]
    exact and_iff_right (hother.keepsRoom_iff.1 hroom)

/-- A change that leaves room keeps all awaited names free, also when it fails. -/
theorem keepsRoom_apply (hleaves : g.LeavesRoom c) : (g.apply c).1.KeepsRoom := by
  by_cases hok : (g.apply c).2 = .ok ()
  · exact (hg.keepsRoom_apply_iff room hothers hok).2 (hleaves (.inl hok))
  cases c with
  | create m | declare p | finish name m =>
    rw [apply_eq_of_ne_ok (fun other => Change.noConfusion) hok]
    exact room
  | merge other =>
    obtain ⟨⟨ns, js, hother, -⟩, hroom⟩ := hothers other rfl
    obtain ⟨ms, is, hold, -⟩ := hg
    obtain ⟨ns', js', moved, hk, -⟩ := hold.exists_moved hother
    have hspares := (spares_merge_iff hold hother).1 (hleaves (.inr ⟨other, rfl⟩))
    -- What was moved is a part of the other graph, which keeps its own names free.
    have hused := usedNames_subset moved.modules.subset moved.implementations.subset
    have hawaited := awaitedNames_subset moved.implementations.subset
    refine (hold.keepsRoom_moved room moved hk).2 ⟨?_, ?_⟩
    · intro library hl hu
      exact hother.keepsRoom_iff.1 hroom (hawaited hl) (hused hu)
    · intro library hl hu
      exact hspares hl (hused hu)

end WellFormed

/-! ## Sequences of changes -/

theorem ReachableBy.keepsRoom (hg : g.ReachableBy LeavesRoom) : g.KeepsRoom := by
  induction hg with
  | empty =>
    rintro library ⟨name, p, hp, -⟩
    cases hp
  | change hg hothers hleaves room hrooms =>
    refine (WellFormed.of_reachableBy hg).keepsRoom_apply room (fun other hmerge => ?_) hleaves
    exact ⟨.of_reachableBy (hothers other hmerge), hrooms other hmerge⟩

/-- **As long as no change takes a name that a placeholder waits for, these names stay free**, and
every placeholder can be finished under its own. The condition is exact: a change that succeeds and
takes such a name leaves a placeholder without room. -/
theorem awaited_names_stay_free (hg : g.ReachableBy LeavesRoom) :
    (∀ name p, g.state? name = some (.declared p) → g.uses p.library.name = false
        ∧ ∀ m, m.name = p.library.name → ∃ h, g.finish name m = .ok h)
      ∧ ∀ c, (∀ other, c = .merge other → other.ReachableBy LeavesRoom) →
          (g.apply c).2 = .ok () → ((g.apply c).1.KeepsRoom ↔ g.Spares c) := by
  have room := hg.keepsRoom
  constructor
  · intro name p hp
    have hfree := room p.library.name ⟨name, p, hp, rfl⟩
    refine ⟨hfree, fun m hm => exists_finish_of_declared hp ?_⟩
    rw [hm]
    exact hfree
  · intro c hothers hok
    refine (WellFormed.of_reachableBy hg).keepsRoom_apply_iff room (fun other hmerge => ?_) hok
    exact ⟨.of_reachableBy (hothers other hmerge), (hothers other hmerge).keepsRoom⟩

theorem fooGraph_holds : fooGraph.Holds []
    [("foo-V1-cpp-generator", .declared (plainPlaceholder "foo" "foo-V1-cpp"))] :=
  Holds.empty.declare (p := plainPlaceholder "foo" "foo-V1-cpp") rfl

theorem foo_stays_free :
    (fooGraph.apply (.create (plainLibrary "bar-cpp"))).1.ReachableBy LeavesRoom
      ∧ (fooGraph.apply (.create (plainLibrary "bar-cpp"))).1.uses "foo-V1-cpp" = false
      ∧ ∃ h, (fooGraph.apply (.create (plainLibrary "bar-cpp"))).1.finish "foo-V1-cpp-generator"
          (plainLibrary "foo-V1-cpp") = .ok h := by
  have hnone : ∀ name, ¬(∅ : ModuleGraph).Awaits name := by
    rintro name ⟨other, p, hp, -⟩
    cases hp
  have hfoo : fooGraph.ReachableBy LeavesRoom :=
    .change .empty (by simp) fun _ => ⟨hnone _, by decide⟩
  have hbar : ¬fooGraph.Awaits "bar-cpp" := by
    rw [fooGraph_holds.awaits_iff]
    decide
  have hreach : (fooGraph.apply (.create (plainLibrary "bar-cpp"))).1.ReachableBy LeavesRoom :=
    .change hfoo (by simp) fun _ => hbar
  have hstate : (fooGraph.apply (.create (plainLibrary "bar-cpp"))).1.state? "foo-V1-cpp-generator"
      = some (.declared (plainPlaceholder "foo" "foo-V1-cpp")) := by
    decide +kernel
  obtain ⟨hfree, hfinish⟩ := (awaited_names_stay_free hreach).1 _ _ hstate
  exact ⟨hreach, hfree, hfinish (plainLibrary "foo-V1-cpp") rfl⟩

/-- **The name of a declared library is not reserved**: a module may take it, and then the
placeholder cannot be finished under it. -/
theorem awaited_name_taken :
    (fooGraph.apply (.create (plainLibrary "foo-V1-cpp"))).1.Reachable
      ∧ (fooGraph.apply (.create (plainLibrary "foo-V1-cpp"))).2 = .ok ()
      ∧ (fooGraph.apply (.create (plainLibrary "foo-V1-cpp"))).1.state? "foo-V1-cpp-generator"
          = some (.declared (plainPlaceholder "foo" "foo-V1-cpp"))
      ∧ (fooGraph.apply (.create (plainLibrary "foo-V1-cpp"))).1.uses "foo-V1-cpp" = true
      ∧ ¬∃ h, (fooGraph.apply (.create (plainLibrary "foo-V1-cpp"))).1.finish
          "foo-V1-cpp-generator" (plainLibrary "foo-V1-cpp") = .ok h := by
  have hfoo : fooGraph.Reachable := Reachable.applyAll .empty (by simp)
  refine ⟨.change hfoo (by simp) trivial, by decide +kernel, by decide +kernel,
    by decide +kernel, ?_⟩
  have hfails : ((fooGraph.apply (.create (plainLibrary "foo-V1-cpp"))).1.finish
      "foo-V1-cpp-generator" (plainLibrary "foo-V1-cpp")).isOk = false := by
    decide +kernel
  rintro ⟨h, hh⟩
  rw [hh] at hfails
  cases hfails

end InterfacePlan.ModuleGraph
