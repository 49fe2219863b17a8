import Mathlib.Data.List.Chain
import InterfacePlan.Proofs.Collection.StrictOrder
import InterfacePlan.Proofs.Digraph.FinishOrder
import InterfacePlan.Proofs.Import.Cycles
/-!
# What the report of a cycle says

The check reports a whole component of the import relation: all names that import each other,
directly or through other ones, in their order as texts. So of two names that follow each other in
the report, the first one reaches the second one along imports. It need not import it: the order of
the names is not that of the imports, and for three names or more the two may differ.

## Main definitions

* `Import.IsInnermostComponent`: components with a cycle from which no other cycle is reached

## Main results

* `Import.reported_component`: what the reported names are
* `Import.report_steps`: what holds of names that follow each other in a report
* `Import.report_leaves_imports`: a report that does not follow the imports
-/

namespace InterfacePlan.Import

open Relation (TransGen)

variable {r : Registry}

/-! ## The names of a report -/

/-- **A component with a cycle from which no other cycle is reached**: its names are those that
reach each other in one or more steps, and whatever cycle is reached from them is among them. -/
structure IsInnermostComponent (R : String → String → Prop) (names : List String) : Prop where
  nonempty : names ≠ []
  mem_iff : ∀ m ∈ names, ∀ n, n ∈ names ↔ TransGen R m n ∧ TransGen R n m
  innermost : ∀ m ∈ names, ∀ n, TransGen R m n → TransGen R n n → n ∈ names

/-- The names of the component of a node on a cycle, if every cycle behind it is in there. -/
theorem IsInnermostComponent.of_node {R : String → String → Prop} {names : List String}
    {start : String} (hcycle : TransGen R start start)
    (hmem : ∀ n, n ∈ names ↔ TransGen R start n ∧ TransGen R n start)
    (hinner : ∀ n, TransGen R start n → TransGen R n n → TransGen R n start) :
    IsInnermostComponent R names where
  nonempty := List.ne_nil_of_mem ((hmem start).2 ⟨hcycle, hcycle⟩)
  mem_iff := by
    intro m hm n
    obtain ⟨hsm, hms⟩ := (hmem m).1 hm
    rw [hmem]
    constructor
    · rintro ⟨hsn, hns⟩
      exact ⟨hms.trans hsn, hns.trans hsm⟩
    · rintro ⟨hmn, hnm⟩
      exact ⟨hsm.trans hmn, hnm.trans hms⟩
  innermost := by
    intro m hm n hmn hnn
    have hsn : TransGen R start n := ((hmem m).1 hm).1.trans hmn
    exact (hmem n).2 ⟨hsn, hinner n hsn hnn⟩

/-- The import graph mentions every name once. -/
theorem nodup_nodes_graph {g : Digraph} (h : graph r = .ok g) : g.nodes.Nodup := by
  refine Outcome.of_foldlM_eq_ok (P := fun g : Digraph => g.nodes.Nodup) ?_ List.nodup_nil h
  intro g hg i _ g' hinterface
  refine Outcome.of_foldlM_eq_ok (P := fun g : Digraph => g.nodes.Nodup) ?_ hg hinterface
  intro g hg version _ g' hversion
  obtain ⟨targets, -, rfl⟩ := Outcome.map_eq_ok_iff.1 hversion
  exact Digraph.nodup_nodes_linkAll hg

/-- Texts without repetitions are strictly ordered once they are sorted. -/
theorem pairwise_lt_mergeSort {names : List String} (h : names.Nodup) :
    (names.mergeSort fun a b => (compare a b).isLE).Pairwise fun a b => compare a b = .lt := by
  let le (a b : String) : Bool := (compare a b).isLE
  have htrans : ∀ a b c, le a b = true → le b c = true → le a c = true := fun _ _ _ =>
    Std.TransCmp.isLE_trans
  have htotal : ∀ a b, (le a b || le b a) = true := by
    intro a b
    show ((compare a b).isLE || (compare b a).isLE) = true
    cases hab : compare a b with
    | lt => rfl
    | eq => rfl
    | gt => simp [Std.OrientedCmp.lt_of_gt hab]
  have hsorted := List.pairwise_mergeSort htrans htotal names
  have hdistinct := (List.mergeSort_perm names le).nodup_iff.2 h
  refine hsorted.imp₂ ?_ hdistinct
  intro a b hle hne
  cases hab : compare a b with
  | lt => rfl
  | eq => exact absurd (Std.LawfulEqCmp.eq_of_compare hab) hne
  | gt => simp [le, hab] at hle

/-- A report lists a component in order, and its first name again. -/
theorem exists_component_of_report {cycle : List String}
    (h : checkCycles r = .error (.importCycle cycle)) :
    ∃ names, cycle = names ++ names.head?.toList
      ∧ names.Pairwise (fun a b => compare a b = .lt) ∧ IsInnermostComponent (Imports r) names := by
  rcases Outcome.eq_ok_or_eq_error (graph r) with ⟨g, hg⟩ | ⟨e, he⟩
  case inr =>
    obtain ⟨i, -, _, -, reference, -, -, rfl⟩ := graph_eq_error he
    rw [checkCycles_of_graph_eq_error he] at h
    cases h
  rw [checkCycles_of_graph hg] at h
  cases hfound : g.innermostCycle? with
  | none =>
    rw [hfound] at h
    cases h
  | some component =>
    rw [hfound] at h
    obtain rfl : cycleReport component = cycle := PlanError.importCycle.inj (Except.error.inj h)
    obtain ⟨hclosed, hedge⟩ := edge_graph hg
    obtain ⟨start, hcycle, rfl, hinner⟩ := Digraph.innermostCycle?_eq_some hclosed hfound
    have hnodup : (g.component start).Nodup := (nodup_nodes_graph hg).filter _
    refine ⟨_, rfl, pairwise_lt_mergeSort hnodup, ?_⟩
    simp only [transGen_edge_iff hg] at hcycle hinner
    refine .of_node hcycle (fun n => ?_) hinner
    rw [List.mem_mergeSort, Digraph.mem_component hclosed, transGen_edge_iff hg,
      transGen_edge_iff hg]

/-- A component is reported by the strictly ordered list of its names. -/
theorem cycleReport_eq {component names : List String}
    (hnames : names.Pairwise fun a b => compare a b = .lt) (hperm : component.Perm names) :
    cycleReport component = names ++ names.head?.toList := by
  have hsorted := pairwise_lt_mergeSort (hperm.nodup_iff.2 (StrictOrder.nodup hnames))
  have heq := StrictOrder.eq_of_perm hsorted hnames ((List.mergeSort_perm component _).trans hperm)
  simp only [cycleReport, heq]

/-- The report of a registry whose first component with a cycle is known. -/
theorem checkCycles_of_component (component names : List String)
    (h : (graph r).map Digraph.innermostCycle? = .ok (some component))
    (hnames : names.Pairwise fun a b => compare a b = .lt) (hperm : component.Perm names) :
    checkCycles r = .error (.importCycle (names ++ names.head?.toList)) := by
  obtain ⟨g, hg, hfound⟩ := Outcome.map_eq_ok_iff.1 h
  rw [checkCycles_of_graph hg, hfound]
  simp only [cycleReport_eq hnames hperm]

/-- **What the check reports as a cycle**: all names of a component of the import relation, strictly
ordered as texts, and the first of them again. They reach each other along imports, no other name
is on a cycle with one of them, and from them no other cycle is reached. -/
theorem reported_component {cycle : List String}
    (h : checkCycles r = .error (.importCycle cycle)) :
    ∃ first others, cycle = first :: others ++ [first]
      ∧ (first :: others).Pairwise (fun a b => compare a b = .lt)
      ∧ IsInnermostComponent (Imports r) (first :: others) := by
  obtain ⟨names, rfl, hsorted, hcomponent⟩ := exists_component_of_report h
  cases names with
  | nil => exact absurd rfl hcomponent.nonempty
  | cons first others => exact ⟨first, others, rfl, hsorted, hcomponent⟩

/-- Two interfaces that import each other, and behind them two more. -/
def cycleBehindCycle : Registry := (Registry.ofList [
  { name := "a", unstable := true, imports := ["b"] },
  { name := "b", unstable := true, imports := ["a", "y"] },
  { name := "x", imports := ["y"] },
  { name := "y", unstable := true, imports := ["x", "z-V2"] },
  { name := "z", versions := ["1", "2", "3"] }]).toOption.getD ∅

theorem checkCycles_cycleBehindCycle :
    checkCycles cycleBehindCycle = .error (.importCycle ["x-V1", "y", "x-V1"]) :=
  checkCycles_of_component ["y", "x-V1"] ["x-V1", "y"] (by decide +kernel) (by decide) (by decide)

theorem inner_cycle_is_reported :
    checkCycles cycleBehindCycle = .error (.importCycle ["x-V1", "y", "x-V1"])
      ∧ IsInnermostComponent (Imports cycleBehindCycle) ["x-V1", "y"] := by
  refine ⟨checkCycles_cycleBehindCycle, ?_⟩
  obtain ⟨first, others, hcycle, -, hcomponent⟩ := reported_component checkCycles_cycleBehindCycle
  obtain ⟨rfl, hothers⟩ := List.cons.inj hcycle
  obtain rfl : ["y"] = others := List.append_cancel_right hothers
  exact hcomponent

/-! ## Steps of a report -/

namespace IsInnermostComponent

variable {R : String → String → Prop} {names : List String} {m n : String}

theorem transGen (h : IsInnermostComponent R names) (hm : m ∈ names) (hn : n ∈ names) :
    TransGen R m n :=
  ((h.mem_iff m hm n).1 hn).1

/-- In a component of at most two names, each one leads to the other in a single step. -/
theorem step_of_forall_eq (h : IsInnermostComponent R names) (hm : m ∈ names) (hn : n ∈ names)
    (hall : ∀ k ∈ names, k = m ∨ k = n) : R m n := by
  -- Induction on the way from its end: it starts at `m` until it steps on `n`.
  suffices hway : ∀ a, TransGen R a n → a = m → R m n from hway m (h.transGen hm hn) rfl
  intro a ha
  induction ha using TransGen.head_induction_on with
  | single hstep =>
    rintro rfl
    exact hstep
  | head hstep hway ih =>
    rintro rfl
    have hk := (h.mem_iff _ hm _).2 ⟨.single hstep, hway.trans (h.transGen hn hm)⟩
    rcases hall _ hk with heq | rfl
    · exact ih heq
    · exact hstep

end IsInnermostComponent

/-- **What holds of names that follow each other in a report**: the first one reaches the second one
along imports, and it imports it if the report names at most two versions. All of them are names of
versions that can be built, and the last is the first. -/
theorem report_steps {cycle : List String} (h : checkCycles r = .error (.importCycle cycle)) :
    cycle.head? = cycle.getLast?
      ∧ (∀ name ∈ cycle, ∃ i ∈ r.interfaces, ∃ version ∈ i.buildVersions,
          name = i.versionedName version)
      ∧ cycle.IsChain (TransGen (Imports r))
      ∧ (cycle.length ≤ 3 → cycle.IsChain (Imports r)) := by
  obtain ⟨first, others, rfl, -, hcomponent⟩ := reported_component h
  have hmem : ∀ name ∈ first :: others ++ [first], name ∈ first :: others := by
    simp [or_comm]
  refine ⟨List.getLast?_concat.symm, ?_, ?_, ?_⟩
  · intro name hname
    have hcycle := hcomponent.transGen (hmem name hname) (hmem name hname)
    obtain ⟨_, ⟨i, hi, version, hversion, hsource, -⟩, -⟩ := TransGen.head'_iff.1 hcycle
    exact ⟨i, hi, version, hversion, hsource⟩
  · exact (List.pairwise_of_forall_mem_list fun m hm n hn =>
      hcomponent.transGen (hmem m hm) (hmem n hn)).isChain
  · intro hlength
    match others with
    | [] =>
      have hself : Imports r first first :=
        hcomponent.step_of_forall_eq (by simp) (by simp) (by simp)
      simpa using hself
    | [second] =>
      have hthere : Imports r first second :=
        hcomponent.step_of_forall_eq (by simp) (by simp) (by simp)
      have hback : Imports r second first :=
        hcomponent.step_of_forall_eq (by simp) (by simp) (by simp [or_comm])
      simpa using ⟨hthere, hback⟩
    | _ :: _ :: _ =>
      simp only [List.length_append, List.length_cons, List.length_nil] at hlength
      omega

theorem inner_cycle_follows_imports :
    checkCycles cycleBehindCycle = .error (.importCycle ["x-V1", "y", "x-V1"])
      ∧ ["x-V1", "y", "x-V1"].IsChain (Imports cycleBehindCycle) :=
  ⟨checkCycles_cycleBehindCycle,
    (report_steps checkCycles_cycleBehindCycle).2.2.2 (by decide)⟩

/-- Three interfaces that import each other in turn, against the order of their names. -/
def turningBack : Registry := (Registry.ofList [
  { name := "a", unstable := true, imports := ["c"] },
  { name := "b", unstable := true, imports := ["a"] },
  { name := "c", unstable := true, imports := ["b"] }]).toOption.getD ∅

/-- **A report need not follow the imports**: `b` is named behind `a`, which imports only `c`. -/
theorem report_leaves_imports :
    checkCycles turningBack = .error (.importCycle ["a", "b", "c", "a"])
      ∧ ¬["a", "b", "c", "a"].IsChain (Imports turningBack) := by
  have hsteps : ∀ i ∈ turningBack.interfaces, ∀ version ∈ i.buildVersions,
      i.versionedName version = "a" → names turningBack i version = .ok ["c"] := by decide +kernel
  refine ⟨checkCycles_of_component ["a", "c", "b"] ["a", "b", "c"] (by decide +kernel)
    (by decide) (by decide), ?_⟩
  intro hchain
  obtain ⟨i, hi, version, hversion, hsource, imports, himports, x, hx, hname⟩ :=
    List.rel_of_isChain_cons_cons hchain
  have hnames : imports.map (·.name) = ["c"] := by
    have hstep := hsteps i hi version hversion hsource.symm
    rw [names, himports] at hstep
    exact Except.ok.inj hstep
  have hmem : x.name ∈ imports.map (·.name) := List.mem_map_of_mem hx
  rw [hnames, ← hname] at hmem
  simp at hmem

end InterfacePlan.Import
