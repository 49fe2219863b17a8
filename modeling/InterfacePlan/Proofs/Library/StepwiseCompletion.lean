import InterfacePlan.Proofs.Collection.StrictOrder
import InterfacePlan.Proofs.Library.Completion
import InterfacePlan.Proofs.ModuleGraph.Growth
/-!
# Completing placeholders one after the other

Placeholders are completed in name order, up to the first that fails. The list of their names is
made before the first of them is completed, and stays right: completing one placeholder neither adds
a pending one nor takes another one away. So at any time the graph is the old one with the libraries
of a first part of the list, and the rest of the list is still pending.

## Main definitions

* `ModuleGraph.Becomes`: the library that the placeholder of a name becomes
* `ModuleGraph.Completes`: a graph in which some placeholders of another one were completed
* `ModuleGraph.NamesPlaceholders`: a graph whose placeholders are named after their libraries

## Main results

* `ModuleGraph.Completes.trans`: completing more placeholders
* `ModuleGraph.exists_completes`: what is completed before a failure
* `ModuleGraph.Completes.pending_eq`: what is pending then
* `ModuleGraph.completeAll_outcome`: what becomes of all placeholders of a graph
-/

namespace InterfacePlan.ModuleGraph

variable {r : Registry} {g h k : ModuleGraph} {m : Module} {p : Placeholder} {name : String}
  {e : PlanError} {done more : List (String × Module)} {rest : List String}

/-! ## One placeholder -/

/-- **The library that the placeholder of a name becomes.** -/
def Becomes (r : Registry) (g : ModuleGraph) (name : String) (m : Module) : Prop :=
  ∃ p, g.state? name = some (.declared p) ∧ p.completed r = .ok m

theorem placeholder?_eq_some_iff : g.placeholder? name = some p ↔
    g.state? name = some (.declared p) := by
  unfold placeholder?
  split
  case h_1 q hq => simp [hq]
  case h_2 hnone => simpa using hnone p

/-- **Why a placeholder cannot be completed**: because of its imports or its kind, or because the
name of its library is used. -/
theorem complete_eq_error_iff (hp : g.state? name = some (.declared p)) :
    g.complete r name = .error e ↔ p.completed r = .error e
      ∨ ∃ m, p.completed r = .ok m ∧ g.uses m.name = true ∧ e = .duplicateModule m.name := by
  rw [complete_eq_bind (placeholder?_eq_some_iff.2 hp)]
  simp only [Outcome.bind_eq_error_iff, Outcome.map_eq_error_iff, finish_of_declared hp,
    create_eq_error_iff]

/-! ## Completed placeholders -/

/-- **A graph in which some placeholders of another one were completed**, listed by their names with
the libraries that they became. Everything else is as it was. -/
structure Completes (r : Registry) (g h : ModuleGraph) (done : List (String × Module)) :
    Prop where
  /-- What was completed are placeholders and their libraries. -/
  becomes : ∀ d ∈ done, g.Becomes r d.1 d.2
  /-- The libraries have different names, which were free. -/
  free : ∀ d ∈ done, g.uses d.2.name = false
  nodup : (done.map (·.2.name)).Nodup
  /-- The modules are those that were there, and the libraries. -/
  module?_iff : ∀ name m, h.module? name = some m ↔
    g.module? name = some m ∨ ∃ d ∈ done, d.2 = m ∧ m.name = name
  finished : ∀ d ∈ done, h.state? d.1 = some (.finished d.2.name)
  others : ∀ name, name ∉ done.map (·.1) → h.state? name = g.state? name

namespace Completes

theorem nil : g.Completes r g [] where
  becomes _ hd := absurd hd List.not_mem_nil
  free _ hd := absurd hd List.not_mem_nil
  nodup := .nil
  module?_iff name m := by simp
  finished _ hd := absurd hd List.not_mem_nil
  others _ _ := rfl

section Names

variable (completes : g.Completes r h done)
include completes

/-- What is still a placeholder was not completed, and is as it was. -/
theorem state?_of_declared (hp : h.state? name = some (.declared p)) :
    name ∉ done.map (·.1) ∧ g.state? name = some (.declared p) := by
  have hopen : name ∉ done.map (·.1) := by
    intro hname
    obtain ⟨d, hd, rfl⟩ := List.mem_map.1 hname
    rw [completes.finished d hd] at hp
    cases hp
  exact ⟨hopen, completes.others name hopen ▸ hp⟩

/-- The names that are used after completion: the libraries are new, and no other name is. -/
theorem uses_iff : h.uses name = true ↔ g.uses name = true ∨ name ∈ done.map (·.2.name) := by
  have hmodule : (∃ m, h.module? name = some m) ↔
      (∃ m, g.module? name = some m) ∨ name ∈ done.map (·.2.name) := by
    simp only [completes.module?_iff, exists_or, List.mem_map]
    grind
  have hstate : (∃ i, h.state? name = some i) ↔ ∃ i, g.state? name = some i := by
    by_cases hname : name ∈ done.map (·.1)
    · obtain ⟨d, hd, rfl⟩ := List.mem_map.1 hname
      obtain ⟨p, hp, -⟩ := completes.becomes d hd
      exact iff_of_true ⟨_, completes.finished d hd⟩ ⟨_, hp⟩
    · rw [completes.others name hname]
  rw [uses_iff_exists, uses_iff_exists, hmodule, hstate]
  tauto

theorem free_of_free (hfree : h.uses name = false) :
    g.uses name = false ∧ name ∉ done.map (·.2.name) := by
  rw [← Bool.not_eq_true, completes.uses_iff, not_or, Bool.not_eq_true] at hfree
  exact hfree

/-- **Completing more placeholders.** -/
theorem trans (further : h.Completes r k more) : g.Completes r k (done ++ more) where
  becomes d hd := by
    rcases List.mem_append.1 hd with hd | hd
    · exact completes.becomes d hd
    · obtain ⟨p, hp, hm⟩ := further.becomes d hd
      exact ⟨p, (completes.state?_of_declared hp).2, hm⟩
  free d hd := by
    rcases List.mem_append.1 hd with hd | hd
    · exact completes.free d hd
    · exact (completes.free_of_free (further.free d hd)).1
  nodup := by
    rw [List.map_append, List.nodup_append]
    refine ⟨completes.nodup, further.nodup, ?_⟩
    -- The names of later libraries were still free when the first libraries were there.
    rintro library hdone _ hmore rfl
    obtain ⟨d, hd, rfl⟩ := List.mem_map.1 hmore
    exact (completes.free_of_free (further.free d hd)).2 hdone
  module?_iff name m := by
    rw [further.module?_iff, completes.module?_iff]
    simp only [List.mem_append]
    grind
  finished d hd := by
    rcases List.mem_append.1 hd with hd | hd
    · -- What is finished is not completed again, because it is no placeholder any more.
      have hopen : d.1 ∉ more.map (·.1) := by
        intro hmore
        obtain ⟨d', hd', heq⟩ := List.mem_map.1 hmore
        obtain ⟨p, hp, -⟩ := further.becomes d' hd'
        rw [heq, completes.finished d hd] at hp
        cases hp
      rw [further.others d.1 hopen]
      exact completes.finished d hd
    · exact further.finished d hd
  others name hname := by
    rw [List.map_append, List.mem_append, not_or] at hname
    rw [further.others name hname.2, completes.others name hname.1]

end Names

end Completes

/-- **Completing one placeholder.** -/
theorem exists_completes_of_complete {library : String}
    (hc : g.complete r name = .ok (h, library)) :
    ∃ m, m.name = library ∧ g.Completes r h [(name, m)] := by
  obtain ⟨p, m, hp, hm, hf, hlibrary⟩ := complete_eq_ok_iff.1 hc
  rw [placeholder?_eq_some_iff] at hp
  rw [finish_of_declared hp, Outcome.map_eq_ok_iff] at hf
  obtain ⟨k, hk, rfl⟩ := hf
  have gains := gains_create hk
  have hlook := fun other => SortedMap.get?_insert k.implementations name other
    (.finished m.name)
  refine ⟨m, hlibrary, ?_⟩
  refine ⟨by simpa using ⟨p, hp, hm⟩, ?_, by simp, ?_, ?_, ?_⟩
  · simpa using gains.free m.name (List.mem_cons_self ..)
  · intro other n
    refine (gains.module?_iff other n).trans ?_
    simp [eq_comm]
  · simp [state?]
  · intro other hother
    rw [state?, hlook, if_neg (by simpa [eq_comm] using hother)]
    exact Option.ext fun i => (gains.state?_iff other i).trans (by simp)

/-! ## One placeholder after the other -/

/-- **What is completed before a failure**: the placeholders of a first part of the names. The error
is that of the next one, in the graph as it is then. -/
theorem exists_completes (r : Registry) (g : ModuleGraph) (names : List String) :
    ∃ done rest, names = done.map (·.1) ++ rest
      ∧ g.Completes r (g.completeEach r names).graph done
      ∧ (g.completeEach r names).libraries = done.map (·.2.name)
      ∧ ((rest = [] ∧ (g.completeEach r names).failure? = none)
        ∨ ∃ name after e, rest = name :: after ∧ (g.completeEach r names).failure? = some e
            ∧ (g.completeEach r names).graph.complete r name = .error e) := by
  -- Induction on the names: what the first one leaves, the others go on from.
  induction names generalizing g with
  | nil => exact ⟨[], [], rfl, .nil, rfl, .inl ⟨rfl, rfl⟩⟩
  | cons name names ih =>
    rw [completeEach_cons]
    cases hc : g.complete r name with
    | error e => exact ⟨[], name :: names, rfl, .nil, rfl, .inr ⟨name, names, e, rfl, rfl, hc⟩⟩
    | ok result =>
      obtain ⟨h, library⟩ := result
      obtain ⟨m, rfl, first⟩ := exists_completes_of_complete hc
      obtain ⟨done, rest, hnames, others, hlibraries, hend⟩ := ih h
      refine ⟨(name, m) :: done, rest, ?_, first.trans others, ?_, hend⟩
      · rw [hnames]
        rfl
      · rw [List.map_cons, ← hlibraries]

/-! ## Pending placeholders -/

theorem mem_pending_iff : name ∈ g.pending ↔ ∃ p, g.state? name = some (.declared p) := by
  simp only [pending, List.mem_map, List.mem_filter, Prod.exists]
  constructor
  · rintro ⟨_, i, ⟨hi, hopen⟩, rfl⟩
    cases i with
    | declared p => exact ⟨p, SortedMap.mem_toList_iff.1 hi⟩
    | finished library => cases hopen
  · rintro ⟨p, hp⟩
    exact ⟨name, .declared p, ⟨SortedMap.mem_toList_iff.2 hp, rfl⟩, rfl⟩

theorem pairwise_pending (g : ModuleGraph) : g.pending.Pairwise fun a b => compare a b = .lt := by
  rw [pending, List.pairwise_map]
  exact g.implementations.sorted.filter _

/-- A graph is complete when nothing is pending. -/
theorem isComplete_iff : g.isComplete = true ↔ g.pending = [] := by
  simp [isComplete, pending, SortedMap.values, List.filter_eq_nil_iff]

/-- **What is pending after a first part of the pending placeholders was completed**: the rest. -/
theorem Completes.pending_eq (completes : g.Completes r h done)
    (hpending : g.pending = done.map (·.1) ++ rest) : h.pending = rest := by
  have hsorted := g.pairwise_pending
  rw [hpending] at hsorted
  obtain ⟨-, hrest, -⟩ := List.pairwise_append.1 hsorted
  obtain ⟨-, -, hdisjoint⟩ := List.nodup_append.1 (StrictOrder.nodup hsorted)
  refine StrictOrder.eq_of_mem_iff h.pairwise_pending hrest fun name => ?_
  rw [mem_pending_iff]
  constructor
  · rintro ⟨p, hp⟩
    obtain ⟨hopen, hold⟩ := completes.state?_of_declared hp
    have hname : name ∈ g.pending := mem_pending_iff.2 ⟨p, hold⟩
    rw [hpending, List.mem_append] at hname
    exact hname.resolve_left hopen
  · intro hname
    have hopen : name ∉ done.map (·.1) := fun hdone => hdisjoint name hdone name hname rfl
    rw [completes.others name hopen, ← mem_pending_iff, hpending]
    exact List.mem_append_right _ hname

/-! ## Errors and earlier completions -/

/-- **A graph whose placeholders are named after their libraries.** -/
def NamesPlaceholders (g : ModuleGraph) : Prop :=
  ∀ name p, g.state? name = some (.declared p) → name = p.library.name ++ "-generator"

/-- Where placeholders are named after their libraries, a placeholder fails after others were
completed for no other reason than before. -/
theorem Completes.complete_eq_error_iff (completes : g.Completes r h done)
    (named : g.NamesPlaceholders) (hp : h.state? name = some (.declared p)) :
    h.complete r name = .error e ↔ g.complete r name = .error e := by
  obtain ⟨hopen, hold⟩ := completes.state?_of_declared hp
  rw [ModuleGraph.complete_eq_error_iff hp, ModuleGraph.complete_eq_error_iff hold]
  refine or_congr_right (exists_congr fun m => and_congr_right fun hm => and_congr_left fun _ => ?_)
  rw [completes.uses_iff, or_iff_left]
  -- A library of the same name would have belonged to a placeholder of the same name.
  intro hlibrary
  obtain ⟨d, hd, heq⟩ := List.mem_map.1 hlibrary
  obtain ⟨q, hq, hq'⟩ := completes.becomes d hd
  apply hopen
  rw [List.mem_map]
  refine ⟨d, hd, ?_⟩
  rw [named _ q hq, named _ p hold, ← Placeholder.name_of_completed hq',
    ← Placeholder.name_of_completed hm, heq]

/-- Where placeholders are named after their libraries, completing all of them fails like one of
them alone. -/
theorem exists_complete_eq_error (named : g.NamesPlaceholders)
    (hfailure : (g.completeAll r).failure? = some e) :
    ∃ name p, g.state? name = some (.declared p) ∧ g.complete r name = .error e := by
  obtain ⟨done, rest, hpending, completes, -, hend⟩ := exists_completes r g g.pending
  rcases hend with ⟨-, hnone⟩ | ⟨name, after, e', rfl, hsome, herror⟩
  · rw [completeAll, hnone] at hfailure
    cases hfailure
  · obtain rfl := Option.some.inj (hsome.symm.trans hfailure)
    have hname : name ∈ (g.completeEach r g.pending).graph.pending := by
      rw [completes.pending_eq hpending]
      exact List.mem_cons_self ..
    obtain ⟨p, hp⟩ := mem_pending_iff.1 hname
    exact ⟨name, p, (completes.state?_of_declared hp).2,
      (completes.complete_eq_error_iff named hp).1 herror⟩

/-! ## All placeholders -/

/-- **What becomes of the placeholders of a graph.** The pending ones are those that are declared,
in strict name order. The placeholders of a first part of them are completed: their libraries are
added, they are finished with them, and everything else is as it was, so the rest is still pending.
Either there is no rest, and the graph is complete, or the error is that of the first placeholder of
the rest. A placeholder that cannot be completed leaves the graph as it is. -/
theorem completeAll_outcome (r : Registry) (g : ModuleGraph) :
    (∀ name, name ∈ g.pending ↔ ∃ p, g.state? name = some (.declared p))
      ∧ g.pending.Pairwise (fun a b => compare a b = .lt)
      ∧ (∃ done rest, g.pending = done.map (·.1) ++ rest
        ∧ g.Completes r (g.completeAll r).graph done
        ∧ (g.completeAll r).libraries = done.map (·.2.name)
        ∧ (g.completeAll r).graph.pending = rest
        ∧ ((rest = [] ∧ (g.completeAll r).failure? = none
            ∧ (g.completeAll r).graph.isComplete = true)
          ∨ ∃ name after e, rest = name :: after ∧ (g.completeAll r).failure? = some e
              ∧ (g.completeAll r).graph.complete r name = .error e
              ∧ (g.NamesPlaceholders → g.complete r name = .error e)))
      ∧ ∀ name e, g.complete r name = .error e →
          g.completeEach r [name] = { graph := g, failure? := some e } := by
  refine ⟨fun name => mem_pending_iff, g.pairwise_pending, ?_, ?_⟩
  · obtain ⟨done, rest, hpending, completes, hlibraries, hend⟩ := exists_completes r g g.pending
    have hrest := completes.pending_eq hpending
    refine ⟨done, rest, hpending, completes, hlibraries, hrest, ?_⟩
    rcases hend with ⟨rfl, hnone⟩ | ⟨name, after, e, rfl, hsome, herror⟩
    · exact .inl ⟨rfl, hnone, isComplete_iff.2 hrest⟩
    · refine .inr ⟨name, after, e, rfl, hsome, herror, fun named => ?_⟩
      obtain ⟨p, hp⟩ := mem_pending_iff.1 (hrest ▸ List.mem_cons_self ..)
      exact (completes.complete_eq_error_iff named hp).1 herror
  · intro name e herror
    rw [completeEach_cons, herror]

end InterfacePlan.ModuleGraph
