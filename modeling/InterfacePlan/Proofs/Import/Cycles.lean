import InterfacePlan.Import.Cycle
import InterfacePlan.Proofs.Digraph.Reachability
import InterfacePlan.Proofs.Import.Resolution
/-!
# Import cycles

The check for cycles refuses exactly the registries in which an import names an unregistered
interface, or in which a versioned name reaches itself through imports.

## Main definitions

* `Import.Imports`, `Import.ImportsAt`: the import relation on versioned names
* `Import.AllRegistered`: every import of a version that can be built names a registered interface

## Main results

* `Import.edge_graph`: the import graph has exactly the imports as its edges
* `Import.checkCycles_eq_ok_iff`: which registries pass the check
* `Import.checkCycles_outcome`: what the check reports for every registry
-/

namespace InterfacePlan.Import

open Relation (TransGen)

variable {r : Registry}

/-- The imports of one version of an interface, as a relation on versioned names. -/
def ImportsAt (r : Registry) (i : Interface) (version source target : String) : Prop :=
  source = i.versionedName version
    ∧ ∃ imports, resolveAll r i version = .ok imports ∧ ∃ x ∈ imports, target = x.name

/-- **The import relation** of a registry. It leads from each version that can be built to the names
that its imports stand for. -/
def Imports (r : Registry) (source target : String) : Prop :=
  ∃ i ∈ r.interfaces, ∃ version ∈ i.buildVersions, ImportsAt r i version source target

/-- Every import of a version that can be built names a registered interface. -/
def AllRegistered (r : Registry) : Prop :=
  ∀ i ∈ r.interfaces, ∀ version ∈ i.buildVersions, ∀ reference ∈ i.importsFor version,
    IsRegistered r reference

/-! ## The graph of the imports -/

/-- A graph that a relation was added to, given the graph before. -/
def Extends (R : String → String → Prop) (g h : Digraph) : Prop :=
  h.Closed ∧ ∀ m n, h.Edge m n ↔ g.Edge m n ∨ R m n

/-- Steps that each add a relation to a graph together add all of them. -/
theorem extends_foldlM {α : Type} {step : Digraph → α → Except PlanError Digraph}
    {R : α → String → String → Prop}
    (hstep : ∀ x g h, g.Closed → step g x = .ok h → Extends (R x) g h) {xs : List α} {g h : Digraph}
    (hg : g.Closed) (hrun : xs.foldlM step g = .ok h) :
    Extends (fun m n => ∃ x ∈ xs, R x m n) g h := by
  -- Induction on the steps; every step keeps the graph closed for the next one.
  induction xs generalizing g with
  | nil =>
    obtain rfl := Except.ok.inj hrun
    exact ⟨hg, by simp⟩
  | cons x xs ih =>
    rw [List.foldlM_cons] at hrun
    obtain ⟨k, hk, hrun⟩ := Outcome.bind_eq_ok_iff.1 hrun
    obtain ⟨hkc, hke⟩ := hstep x g k hg hk
    obtain ⟨hc, he⟩ := ih hkc hrun
    refine ⟨hc, fun m n => ?_⟩
    rw [he, hke, or_assoc]
    simp

theorem extends_addVersion {i : Interface} {version : String} {g h : Digraph} (hg : g.Closed)
    (hstep : addVersion r i g version = .ok h) : Extends (ImportsAt r i version) g h := by
  obtain ⟨targets, htargets, rfl⟩ := Outcome.map_eq_ok_iff.1 hstep
  obtain ⟨imports, himports, rfl⟩ := Outcome.map_eq_ok_iff.1 htargets
  obtain ⟨hc, he⟩ := Digraph.linkAll_spec hg
  refine ⟨hc, fun m n => (he m n).trans ?_⟩
  simp only [ImportsAt, himports, Except.ok.injEq, exists_eq_left', List.mem_map, eq_comm]

theorem extends_addInterface {i : Interface} {g h : Digraph} (hg : g.Closed)
    (hstep : addInterface r g i = .ok h) :
    Extends (fun m n => ∃ version ∈ i.buildVersions, ImportsAt r i version m n) g h :=
  extends_foldlM (fun _ _ _ hg hstep => extends_addVersion hg hstep) hg hstep

/-- The edges of the import graph are the imports. -/
theorem edge_graph {g : Digraph} (h : graph r = .ok g) :
    g.Closed ∧ ∀ m n, g.Edge m n ↔ Imports r m n := by
  have hempty : ({} : Digraph).Closed := fun m n h => by simp [Digraph.Edge] at h
  obtain ⟨hc, he⟩ := extends_foldlM (fun _ _ _ hg hstep => extends_addInterface hg hstep) hempty h
  refine ⟨hc, fun m n => (he m n).trans ?_⟩
  simp [Digraph.Edge, Imports]

theorem allRegistered_of_graph {g : Digraph} (h : graph r = .ok g) : AllRegistered r := by
  intro i hi version hversion
  obtain ⟨_, _, hadd⟩ := Outcome.exists_step_of_foldlM_eq_ok h hi
  obtain ⟨_, _, hadd⟩ := Outcome.exists_step_of_foldlM_eq_ok hadd hversion
  obtain ⟨_, hnames, -⟩ := Outcome.map_eq_ok_iff.1 hadd
  obtain ⟨imports, himports, -⟩ := Outcome.map_eq_ok_iff.1 hnames
  exact (exists_resolveAll_iff (Interface.mem_allVersions_of_mem_buildVersions hversion)).1
    ⟨imports, himports⟩

/-- The only reason for having no graph is an import of an unregistered interface. -/
theorem graph_eq_error {e : PlanError} (h : graph r = .error e) :
    ∃ i ∈ r.interfaces, ∃ version ∈ i.buildVersions, ∃ reference ∈ i.importsFor version,
      ¬IsRegistered r reference ∧ e = .unknownInterface i.name (split reference).1 := by
  obtain ⟨i, hi, _, hadd⟩ := Outcome.exists_step_of_foldlM_eq_error h
  obtain ⟨version, hversion, _, hadd⟩ := Outcome.exists_step_of_foldlM_eq_error hadd
  have hresolve := Outcome.map_eq_error_iff.1 (Outcome.map_eq_error_iff.1 hadd)
  obtain ⟨before, reference, after, hsplit, -, hunregistered, he⟩ :=
    (resolveAll_eq_error_iff (Interface.mem_allVersions_of_mem_buildVersions hversion)).1 hresolve
  exact ⟨i, hi, version, hversion, reference, by simp [hsplit], hunregistered, he⟩

theorem exists_graph_eq_ok_iff : (∃ g, graph r = .ok g) ↔ AllRegistered r := by
  constructor
  · rintro ⟨g, h⟩
    exact allRegistered_of_graph h
  · intro hall
    rcases Outcome.eq_ok_or_eq_error (graph r) with h | ⟨e, he⟩
    · exact h
    · obtain ⟨i, hi, version, hversion, reference, hreference, hunregistered, -⟩ :=
        graph_eq_error he
      exact absurd (hall i hi version hversion reference hreference) hunregistered

/-! ## The check -/

theorem transGen_edge_iff {g : Digraph} (h : graph r = .ok g) {m n : String} :
    TransGen g.Edge m n ↔ TransGen (Imports r) m n := by
  have hedge : g.Edge = Imports r := by
    ext a b
    exact (edge_graph h).2 a b
  rw [hedge]

theorem checkCycles_of_graph {g : Digraph} (h : graph r = .ok g) :
    checkCycles r = match g.innermostCycle? with
      | some component => .error (.importCycle (cycleReport component))
      | none => .ok () := by
  rw [checkCycles, h]
  change (match g.innermostCycle? with
    | some component => throw (PlanError.importCycle (cycleReport component))
    | none => pure ()) = _
  cases g.innermostCycle? <;> rfl

theorem checkCycles_of_graph_eq_error {e : PlanError} (h : graph r = .error e) :
    checkCycles r = .error e := by
  rw [checkCycles, h]
  rfl

/-- A cycle is reported exactly when some name reaches itself. -/
theorem exists_checkCycles_eq_importCycle_iff (hall : AllRegistered r) :
    (∃ names, checkCycles r = .error (.importCycle names)) ↔
      ∃ name, TransGen (Imports r) name name := by
  obtain ⟨g, hg⟩ := exists_graph_eq_ok_iff.2 hall
  have hcycle := Digraph.isSome_innermostCycle?_iff (edge_graph hg).1
  simp only [transGen_edge_iff hg] at hcycle
  rw [← hcycle, checkCycles_of_graph hg]
  cases g.innermostCycle? <;> simp

/-- A registry whose imports are all registered passes the check, or a cycle is reported. -/
theorem checkCycles_of_allRegistered (hall : AllRegistered r) :
    checkCycles r = .ok () ∨ ∃ names, checkCycles r = .error (.importCycle names) := by
  obtain ⟨g, hg⟩ := exists_graph_eq_ok_iff.2 hall
  rw [checkCycles_of_graph hg]
  cases g.innermostCycle? with
  | none => exact .inl rfl
  | some component => exact .inr ⟨_, rfl⟩

/-- An import of an unregistered interface is reported before any cycle. -/
theorem checkCycles_of_not_allRegistered (hall : ¬AllRegistered r) :
    ∃ i ∈ r.interfaces, ∃ version ∈ i.buildVersions, ∃ reference ∈ i.importsFor version,
      ¬IsRegistered r reference
        ∧ checkCycles r = .error (.unknownInterface i.name (split reference).1) := by
  rcases Outcome.eq_ok_or_eq_error (graph r) with ⟨g, hg⟩ | ⟨e, he⟩
  · exact absurd (allRegistered_of_graph hg) hall
  · obtain ⟨i, hi, version, hversion, reference, hreference, hunregistered, rfl⟩ :=
      graph_eq_error he
    exact ⟨i, hi, version, hversion, reference, hreference, hunregistered,
      checkCycles_of_graph_eq_error he⟩

/-- **The registries that pass the check** are those without unregistered imports and cycles. -/
theorem checkCycles_eq_ok_iff : checkCycles r = .ok () ↔
    AllRegistered r ∧ ¬∃ name, TransGen (Imports r) name name := by
  by_cases hall : AllRegistered r
  · rw [and_iff_right hall, ← exists_checkCycles_eq_importCycle_iff hall]
    rcases checkCycles_of_allRegistered hall with h | ⟨names, h⟩ <;> simp [h]
  · obtain ⟨i, -, _, -, reference, -, -, h⟩ := checkCycles_of_not_allRegistered hall
    simp [h, hall]

/-- **What the check reports for every registry**: an unregistered interface if some import of a
version that can be built names one, and otherwise a cycle if some name reaches itself through one
or more imports. There is no other error. -/
theorem checkCycles_outcome (r : Registry) :
    ((∃ importer imported, checkCycles r = .error (.unknownInterface importer imported)) ↔
        ∃ i ∈ r.interfaces, ∃ version ∈ i.buildVersions, ∃ reference ∈ i.importsFor version,
          r.get? (split reference).1 = none)
      ∧ (AllRegistered r →
          ((∃ names, checkCycles r = .error (.importCycle names)) ↔
              ∃ name, TransGen (Imports r) name name)
            ∧ (checkCycles r = .ok () ↔ ¬∃ name, TransGen (Imports r) name name))
      ∧ ∀ e, checkCycles r = .error e →
          (∃ importer imported, e = .unknownInterface importer imported)
            ∨ ∃ names, e = .importCycle names := by
  have hnone : (∃ i ∈ r.interfaces, ∃ version ∈ i.buildVersions,
      ∃ reference ∈ i.importsFor version, r.get? (split reference).1 = none) ↔
        ¬AllRegistered r := by
    simp [AllRegistered, IsRegistered, Option.eq_none_iff_forall_ne_some]
  rw [hnone]
  by_cases hall : AllRegistered r
  · -- All imports are registered: there is a graph, and the search decides.
    refine ⟨?_, fun _ => ⟨exists_checkCycles_eq_importCycle_iff hall, ?_⟩, ?_⟩
    · rcases checkCycles_of_allRegistered hall with h | ⟨names, h⟩ <;> simp [h, hall]
    · rw [checkCycles_eq_ok_iff, and_iff_right hall]
    · intro e he
      rcases checkCycles_of_allRegistered hall with h | ⟨names, h⟩
      · rw [h] at he
        cases he
      · rw [h] at he
        exact .inr ⟨names, (Except.error.inj he).symm⟩
  · -- Some import is not registered: there is no graph to search.
    obtain ⟨i, -, _, -, reference, -, -, h⟩ := checkCycles_of_not_allRegistered hall
    refine ⟨iff_of_true ⟨_, _, h⟩ hall, fun h => absurd h hall, ?_⟩
    intro e he
    rw [h] at he
    exact .inl ⟨_, _, (Except.error.inj he).symm⟩

end InterfacePlan.Import
