import Mathlib.Data.List.Pairwise
import Mathlib.Data.List.Perm.Subperm
import InterfacePlan.Proofs.ModuleGraph.Changes
/-!
# Integrity of module graphs

Whatever changes lead to a graph, and whichever of them fail, its names are consistent: modules and
placeholders stand under their own names, no name is that of a module and of an implementation, and
every finished implementation names a module that no other one names.

A merge that fails half-way is the delicate case. It keeps this up because implementations are moved
only once all modules are: the libraries that they name are in the graph by then.

## Main definitions

* `ModuleGraph.Consistent`: a graph whose names are consistent
* `ModuleGraph.Linked`: implementations whose libraries are among some modules, each of them once

## Main results

* `ModuleGraph.WellFormed.apply`: every change keeps a graph well formed
* `ModuleGraph.consistent_of_reachable`: the names of every graph are consistent
-/

namespace InterfacePlan

/-- The library that an implementation has become. -/
def Implementation.library? : Implementation → Option String
  | declared _ => none
  | finished library => some library

namespace ModuleGraph

variable {g h other : ModuleGraph} {m : Module} {p : Placeholder} {ms ns ns' : List Module}
  {is js js' : List (String × Implementation)}

/-- **A graph whose names are consistent.** -/
structure Consistent (g : ModuleGraph) : Prop where
  /-- Every module stands under its own name. -/
  module_name : ∀ name m, g.module? name = some m → m.name = name
  /-- Every placeholder stands under its own name. -/
  placeholder_name : ∀ name p, g.state? name = some (.declared p) → p.name = name
  /-- No name is that of a module and of an implementation. -/
  disjoint : ∀ name m i, g.module? name = some m → g.state? name ≠ some i
  /-- Every finished implementation names a module. -/
  finished_exists : ∀ name library, g.state? name = some (.finished library) →
    ∃ m, g.module? library = some m
  /-- No two finished implementations name the same module. -/
  finished_unique : ∀ name name' library, g.state? name = some (.finished library) →
    g.state? name' = some (.finished library) → name = name'

/-! ## Implementations and their libraries -/

/-- The libraries that implementations have become. -/
def finishedLibraries (is : List (String × Implementation)) : List String :=
  is.filterMap fun e => e.2.library?

theorem mem_finishedLibraries {library : String} :
    library ∈ finishedLibraries is ↔ ∃ name, (name, .finished library) ∈ is := by
  rw [finishedLibraries, List.mem_filterMap]
  constructor
  · rintro ⟨⟨name, i⟩, he, hlibrary⟩
    cases i with
    | declared p => cases hlibrary
    | finished l =>
      obtain rfl : l = library := Option.some.inj hlibrary
      exact ⟨name, he⟩
  · rintro ⟨name, he⟩
    exact ⟨(name, .finished library), he, rfl⟩

theorem finishedLibraries_subperm (h : js'.Subperm js) :
    (finishedLibraries js').Subperm (finishedLibraries js) := by
  obtain ⟨listed, hperm, hsub⟩ := h
  exact ⟨finishedLibraries listed, hperm.filterMap _, hsub.filterMap _⟩

/-- **Implementations whose libraries are among some modules**, each of them once. Placeholders
stand under their own names. -/
structure Linked (ms : List Module) (is : List (String × Implementation)) : Prop where
  placeholder_name : ∀ name p, (name, .declared p) ∈ is → p.name = name
  libraries : (finishedLibraries is).Subperm (ms.map (·.name))

namespace Linked

theorem nil : Linked [] [] where
  placeholder_name _ _ h := absurd h List.not_mem_nil
  libraries := List.nil_subperm

theorem perm (hlinked : Linked ms is) (his : is.Perm js) : Linked ms js where
  placeholder_name name p h := hlinked.placeholder_name name p (his.mem_iff.2 h)
  libraries := (his.symm.filterMap _).subperm.trans hlinked.libraries

theorem create (hlinked : Linked ms is) : Linked (m :: ms) is where
  placeholder_name := hlinked.placeholder_name
  libraries := hlinked.libraries.trans (List.sublist_cons_self ..).subperm

theorem declare (hlinked : Linked ms is) : Linked ms ((p.name, .declared p) :: is) where
  placeholder_name name q h := by
    rcases List.mem_cons.1 h with heq | h
    · obtain ⟨rfl, hq⟩ := Prod.mk.inj heq
      rw [Implementation.declared.inj hq]
    · exact hlinked.placeholder_name name q h
  libraries := hlinked.libraries

/-- A placeholder that is finished becomes the library that is created with it. -/
theorem finish {name : String} (hlinked : Linked ms ((name, .declared p) :: is)) :
    Linked (m :: ms) ((name, .finished m.name) :: is) where
  placeholder_name other q h := by
    rcases List.mem_cons.1 h with heq | h
    · cases (Prod.mk.inj heq).2
    · exact hlinked.placeholder_name other q (List.mem_cons_of_mem _ h)
  libraries := (List.subperm_cons m.name).2 hlinked.libraries

/-- What a merge has moved stays linked: before the first implementation there are only more
modules, and after that the libraries of all implementations are there. -/
theorem merge (hlinked : Linked ms is) (hother : Linked ns js) (moved : Moved ms ns is js ns' js') :
    Linked (ns' ++ ms) (js' ++ is) where
  placeholder_name name p h := by
    rcases List.mem_append.1 h with h | h
    · exact hother.placeholder_name name p (moved.implementations.subset h)
    · exact hlinked.placeholder_name name p h
  libraries := by
    have hmoved : (finishedLibraries js').Subperm (ns'.map (·.name)) := by
      rcases moved.modules_first with rfl | rfl
      · exact List.nil_subperm
      · exact (finishedLibraries_subperm moved.implementations).trans hother.libraries
    rw [finishedLibraries, List.filterMap_append, List.map_append]
    exact List.Subperm.append hmoved hlinked.libraries

/-- Finished implementations of the same library are the same. -/
theorem eq_of_finished (hlinked : Linked ms is) (hn : (ms.map (·.name)).Nodup)
    {name name' library : String} (h : (name, .finished library) ∈ is)
    (h' : (name', .finished library) ∈ is) : name = name' := by
  have hnodup : (finishedLibraries is).Nodup := by
    obtain ⟨libraries, hperm, hsub⟩ := hlinked.libraries
    exact hperm.nodup_iff.1 (hn.sublist hsub)
  rw [finishedLibraries, List.Nodup, List.pairwise_filterMap] at hnodup
  have hsymm : Std.Symm fun e e' : String × Implementation => ∀ l, e.2.library? = some l →
      ∀ l', e'.2.library? = some l' → l ≠ l' :=
    ⟨fun _ _ hne l hl l' hl' => (hne l' hl' l hl).symm⟩
  -- Different entries have become different libraries, so these two are the same.
  by_contra hne
  exact hnodup.forall h h' (fun heq => hne (Prod.mk.inj heq).1) library rfl library rfl rfl

end Linked

/-! ## Well-formed graphs -/

/-- **A well-formed graph** holds modules and implementations that are linked. -/
def WellFormed (g : ModuleGraph) : Prop := ∃ ms is, g.Holds ms is ∧ Linked ms is

namespace WellFormed

theorem empty : (∅ : ModuleGraph).WellFormed := ⟨[], [], .empty, .nil⟩

/-- A graph with a placeholder under some name holds it under its own. -/
theorem exists_holds_of_declared (hg : g.WellFormed) {name : String}
    (hp : g.state? name = some (.declared p)) :
    p.name = name ∧ ∃ ms is, g.Holds ms ((p.name, .declared p) :: is)
      ∧ Linked ms ((p.name, .declared p) :: is) := by
  obtain ⟨ms, is, hold, hlinked⟩ := hg
  obtain rfl := hlinked.placeholder_name name p ((hold.state?_iff _ _).1 hp)
  obtain ⟨rest, hrest⟩ := hold.exists_perm_of_state? hp
  exact ⟨rfl, ms, rest, hold.perm (.refl _) hrest, hlinked.perm hrest⟩

/-- **Every change keeps a graph well formed.** -/
theorem apply (hg : g.WellFormed) (c : Change)
    (hothers : ∀ other, c = .merge other → other.WellFormed) : (g.apply c).1.WellFormed := by
  refine apply_preserves hg ?create ?declare ?finish ?merge
  case create =>
    intro m h _ hc
    obtain ⟨ms, is, hold, hlinked⟩ := hg
    exact ⟨_, _, hold.create hc, hlinked.create⟩
  case declare =>
    intro p h _ hd
    obtain ⟨ms, is, hold, hlinked⟩ := hg
    exact ⟨_, _, hold.declare hd, hlinked.declare⟩
  case finish =>
    intro name m h _ hf
    obtain ⟨p, hp⟩ := exists_declared_of_finish hf
    obtain ⟨rfl, ms, is, hold, hlinked⟩ := hg.exists_holds_of_declared hp
    exact ⟨_, _, hold.finish hf, hlinked.finish⟩
  case merge =>
    intro other hmerge
    obtain ⟨ms, is, hold, hlinked⟩ := hg
    obtain ⟨ns, js, hother, hlinked'⟩ := hothers other hmerge
    obtain ⟨ns', js', moved, hmoved, -⟩ := hold.exists_moved hother
    exact ⟨_, _, hmoved, hlinked.merge hlinked' moved⟩

theorem of_reachableBy {rule : ModuleGraph → Change → Prop} (hg : g.ReachableBy rule) :
    g.WellFormed := by
  induction hg with
  | empty => exact empty
  | change _ _ _ hg hothers => exact hg.apply _ hothers

theorem consistent (hg : g.WellFormed) : g.Consistent := by
  obtain ⟨ms, is, hold, hlinked⟩ := hg
  refine ⟨?_, ?_, ?_, ?_, ?_⟩
  · intro name m hm
    exact ((hold.module?_iff name m).1 hm).2
  · intro name p hp
    exact hlinked.placeholder_name name p ((hold.state?_iff _ _).1 hp)
  · intro name m i hm hi
    obtain ⟨hmem, rfl⟩ := (hold.module?_iff name m).1 hm
    have himpl := (hold.state?_iff _ _).1 hi
    obtain ⟨-, -, hdisjoint⟩ := List.nodup_append.1 hold.nodup
    exact hdisjoint m.name (List.mem_map.2 ⟨m, hmem, rfl⟩) m.name
      (List.mem_map.2 ⟨_, himpl, rfl⟩) rfl
  · intro name library hi
    have hlibrary := mem_finishedLibraries.2 ⟨name, (hold.state?_iff _ _).1 hi⟩
    obtain ⟨m, hm, rfl⟩ := List.mem_map.1 (hlinked.libraries.subset hlibrary)
    exact ⟨m, (hold.module?_iff _ _).2 ⟨hm, rfl⟩⟩
  · intro name name' library hi hi'
    exact hlinked.eq_of_finished (List.nodup_append.1 hold.nodup).1 ((hold.state?_iff _ _).1 hi)
      ((hold.state?_iff _ _).1 hi')

end WellFormed

/-- **The names of every graph are consistent**, whatever changes lead to it, and whichever of them
fail. -/
theorem consistent_of_reachable (hg : g.Reachable) : g.Consistent :=
  (WellFormed.of_reachableBy hg).consistent

/-! ## A merge that fails half-way -/

/-- A library without any properties. -/
def plainLibrary (name : String) : Module := ⟨name, .nativeLibrary {}⟩

/-- The placeholder of a library without any properties, as in examples. -/
def plainPlaceholder (interface library : String) : Placeholder :=
  .ofLibrary .cpp interface "1" (plainLibrary library)

/-- A graph with a single placeholder. -/
def fooGraph : ModuleGraph := applyAll ∅ [.declare (plainPlaceholder "foo" "foo-V1-cpp")]

/-- A graph with a finished library, which has the placeholder of `fooGraph` as well. -/
def barGraph : ModuleGraph := applyAll ∅ [
  .declare (plainPlaceholder "bar" "bar-cpp"),
  .finish "bar-cpp-generator" (plainLibrary "bar-cpp"),
  .declare (plainPlaceholder "foo" "foo-V1-cpp")]

theorem consistent_after_failed_merge :
    (fooGraph.apply (.merge barGraph)).2 = .error (.duplicateModule "foo-V1-cpp-generator")
      ∧ (fooGraph.apply (.merge barGraph)).1.state? "bar-cpp-generator"
          = some (.finished "bar-cpp")
      ∧ (fooGraph.apply (.merge barGraph)).1.Consistent := by
  have hfoo : fooGraph.Reachable := Reachable.applyAll .empty (by simp)
  have hbar : barGraph.Reachable := Reachable.applyAll .empty (by simp)
  refine ⟨by decide +kernel, by decide +kernel, consistent_of_reachable (.change hfoo ?_ trivial)⟩
  intro other hmerge
  rw [← Change.merge.inj hmerge]
  exact hbar

end ModuleGraph

end InterfacePlan
