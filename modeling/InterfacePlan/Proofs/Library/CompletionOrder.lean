import InterfacePlan.Proofs.Library.StepwiseCompletion
import InterfacePlan.Proofs.ModuleGraph.Integrity
/-!
# The order of completing placeholders

Placeholders are completed in name order, but any other order would do. A library is a new module,
against which later ones are checked, so this takes more than that each placeholder is completed by
itself: a placeholder that is named after its library stands for a library of its own, and all
placeholders of a graph are, whatever changes lead to it, if they are when they are declared.

## Main definitions

* `ModuleGraph.awaited?`: the name of the library that the placeholder of a name awaits
* `ModuleGraph.DeclaresNamed`: the changes whose placeholders are named after their libraries

## Main results

* `ModuleGraph.ReachableBy.namesPlaceholders`: the placeholders of the graphs that they lead to
* `ModuleGraph.Completes.eq`: completing the same placeholders gives the same graph
* `ModuleGraph.completeEach_perm`: the order of completing placeholders is of no importance
-/

namespace InterfacePlan.ModuleGraph

variable {r : Registry} {g h h' : ModuleGraph} {m m' : Module} {name : String}
  {names names' : List String} {done done' : List (String × Module)}

/-! ## Placeholders named after their libraries -/

/-- **A change whose placeholder, if it declares one, is named after its library.** -/
def DeclaresNamed (_ : ModuleGraph) (c : Change) : Prop :=
  ∀ p, c = .declare p → ∃ backend interface version library,
    p = .ofLibrary backend interface version library

/-- What a change keeps. Merged graphs have to be like this, too. -/
theorem NamesPlaceholders.apply {c : Change} (named : g.NamesPlaceholders) (hg : g.WellFormed)
    (hc : g.DeclaresNamed c)
    (hothers : ∀ other, c = .merge other → other.WellFormed ∧ other.NamesPlaceholders) :
    (g.apply c).1.NamesPlaceholders := by
  refine apply_preserves named ?create ?declare ?finish ?merge
  case create =>
    intro m h _ hcreate name p hp
    refine named name p ?_
    simpa using ((gains_create hcreate).state?_iff name _).1 hp
  case declare =>
    intro p h hdeclared hdeclare name q hq
    rcases ((gains_declare hdeclare).1.state?_iff name _).1 hq with hq | hnew
    · exact named name q hq
    · obtain ⟨rfl, heq⟩ := Prod.mk.inj (List.mem_singleton.1 hnew)
      obtain rfl := Implementation.declared.inj heq
      obtain ⟨backend, interface, version, library, rfl⟩ := hc q hdeclared
      rfl
  case finish =>
    intro name m h _ hf other p hp
    obtain ⟨q, hq⟩ := exists_declared_of_finish hf
    obtain ⟨rfl, ms, is, hold, -⟩ := hg.exists_holds_of_declared hq
    rcases List.mem_cons.1 (((hold.finish hf).state?_iff other _).1 hp) with heq | hp
    · cases (Prod.mk.inj heq).2
    · exact named other p ((hold.state?_iff _ _).2 (List.mem_cons_of_mem _ hp))
  case merge =>
    intro other hmerge name p hp
    obtain ⟨⟨ns, js, hother, -⟩, hnamed⟩ := hothers other hmerge
    obtain ⟨ms, is, hold, -⟩ := hg
    obtain ⟨ns', js', moved, hmoved, -⟩ := hold.exists_moved hother
    rcases List.mem_append.1 ((hmoved.state?_iff name _).1 hp) with hp | hp
    · exact hnamed name p ((hother.state?_iff _ _).2 (moved.implementations.subset hp))
    · exact named name p ((hold.state?_iff _ _).2 hp)

theorem ReachableBy.namesPlaceholders (hg : g.ReachableBy DeclaresNamed) :
    g.NamesPlaceholders := by
  induction hg with
  | empty =>
    intro name p hp
    cases hp
  | change hg hothers hc named hnamed =>
    refine named.apply (.of_reachableBy hg) hc fun other hmerge => ?_
    exact ⟨.of_reachableBy (hothers other hmerge), hnamed other hmerge⟩

/-! ## Completing the same placeholders -/

/-- The library that a placeholder becomes depends on the placeholder alone. -/
theorem Becomes.eq (hm : g.Becomes r name m) (hm' : g.Becomes r name m') : m = m' := by
  obtain ⟨p, hp, hcompleted⟩ := hm
  obtain ⟨p', hp', hcompleted'⟩ := hm'
  obtain rfl := Implementation.declared.inj (Option.some.inj (hp.symm.trans hp'))
  exact Except.ok.inj (hcompleted.symm.trans hcompleted')

/-- The name of the library that the placeholder of a name awaits. -/
def awaited? (g : ModuleGraph) (name : String) : Option String :=
  (g.placeholder? name).map (·.library.name)

theorem Becomes.awaited? (hm : g.Becomes r name m) : g.awaited? name = some m.name := by
  obtain ⟨p, hp, hcompleted⟩ := hm
  rw [ModuleGraph.awaited?, placeholder?_eq_some_iff.2 hp, Option.map_some,
    Placeholder.name_of_completed hcompleted]

namespace Completes

variable (completes : g.Completes r h done)
include completes

/-- The libraries of completed placeholders are those that they awaited. -/
theorem map_awaited? : (done.map (·.1)).map g.awaited? = (done.map (·.2.name)).map some := by
  rw [List.map_map, List.map_map]
  apply List.map_congr_left
  intro d hd
  exact (completes.becomes d hd).awaited?

/-- A placeholder that was completed after others could have been completed first. -/
theorem complete_ne_error {d : String × Module} (hd : d ∈ done) (e : PlanError) :
    g.complete r d.1 ≠ .error e := by
  obtain ⟨p, hp, hcompleted⟩ := completes.becomes d hd
  have hfree := completes.free d hd
  intro herror
  rcases (ModuleGraph.complete_eq_error_iff hp).1 herror with herror | ⟨m, hm, hused, -⟩
  · rw [hcompleted] at herror
    cases herror
  · obtain rfl := Except.ok.inj (hcompleted.symm.trans hm)
    rw [hfree] at hused
    cases hused

theorem subset_of_subset (completes' : g.Completes r h' done')
    (hnames : done.map (·.1) ⊆ done'.map (·.1)) : done ⊆ done' := by
  intro d hd
  obtain ⟨d', hd', hname⟩ := List.mem_map.1 (hnames (List.mem_map.2 ⟨d, hd, rfl⟩))
  have hbecomes := completes'.becomes d' hd'
  rw [hname] at hbecomes
  rwa [Prod.ext hname.symm ((completes.becomes d hd).eq hbecomes)]

/-- **Completing the same placeholders gives the same graph.** -/
theorem eq (completes' : g.Completes r h' done')
    (hnames : ∀ name, name ∈ done.map (·.1) ↔ name ∈ done'.map (·.1)) : h = h' := by
  have hsubset := completes.subset_of_subset completes' fun name => (hnames name).1
  have hsubset' := completes'.subset_of_subset completes fun name => (hnames name).2
  have hdone : ∀ d, d ∈ done ↔ d ∈ done' := fun d => ⟨fun hd => hsubset hd, fun hd => hsubset' hd⟩
  refine ext_lookups (fun name => Option.ext fun m => ?_) fun name => ?_
  · rw [completes.module?_iff, completes'.module?_iff]
    simp only [hdone]
  · by_cases hname : name ∈ done.map (·.1)
    · obtain ⟨d, hd, rfl⟩ := List.mem_map.1 hname
      rw [completes.finished d hd, completes'.finished d ((hdone d).1 hd)]
    · rw [completes.others name hname, completes'.others name (mt (hnames name).2 hname)]

end Completes

/-! ## Orders -/

/-- When placeholders are completed one after the other, and none of them fails at first, then none
of them fails. -/
theorem completeEach_failure? (named : g.NamesPlaceholders) (hn : names.Nodup)
    (hnames : ∀ name ∈ names, name ∈ g.pending)
    (hok : ∀ name ∈ names, ∀ e, g.complete r name ≠ .error e) :
    (g.completeEach r names).failure? = none := by
  obtain ⟨done, rest, rfl, completes, -, hend⟩ := exists_completes r g names
  rcases hend with ⟨-, hnone⟩ | ⟨name, after, e, rfl, -, herror⟩
  · exact hnone
  · -- The first one that fails was not completed before, so it would have failed at first.
    have hname : name ∈ done.map (·.1) ++ name :: after := by simp
    have hopen : name ∉ done.map (·.1) := by
      intro hdone
      exact (List.nodup_append.1 hn).2.2 name hdone name (List.mem_cons_self ..) rfl
    obtain ⟨p, hp⟩ := mem_pending_iff.1 (hnames name hname)
    rw [← completes.others name hopen] at hp
    exact absurd ((completes.complete_eq_error_iff named hp).1 herror) (hok name hname e)

/-- What is completed without a failure: all placeholders of the names. -/
theorem exists_completes_of_failure? (hok : (g.completeEach r names).failure? = none) :
    ∃ done, names = done.map (·.1) ∧ g.Completes r (g.completeEach r names).graph done
      ∧ (g.completeEach r names).libraries = done.map (·.2.name) := by
  obtain ⟨done, rest, hnames, completes, hlibraries, ⟨rfl, -⟩ | ⟨_, _, e, -, hsome, -⟩⟩ :=
    exists_completes r g names
  · exact ⟨done, by rw [hnames, List.append_nil], completes, hlibraries⟩
  · rw [hok] at hsome
    cases hsome

/-- **The order of completing placeholders is of no importance.** If all pending placeholders of a
graph can be completed in one order, then they can in any other one, each becomes the same library,
namely the one that it awaits, and the graph is the same in the end. -/
theorem completeEach_perm (hg : g.ReachableBy DeclaresNamed) (hnames : names.Perm g.pending)
    (hnames' : names'.Perm g.pending) (hok : (g.completeEach r names).failure? = none) :
    (g.completeEach r names').failure? = none
      ∧ (g.completeEach r names').graph = (g.completeEach r names).graph
      ∧ names.map g.awaited? = (g.completeEach r names).libraries.map some
      ∧ names'.map g.awaited? = (g.completeEach r names').libraries.map some := by
  have hperm : names'.Perm names := hnames'.trans hnames.symm
  obtain ⟨done, hdone, completes, hlibraries⟩ := exists_completes_of_failure? hok
  have hok' : (g.completeEach r names').failure? = none := by
    refine completeEach_failure? hg.namesPlaceholders ?_ (fun name => hnames'.mem_iff.1) ?_
    · exact hnames'.nodup_iff.2 (StrictOrder.nodup g.pairwise_pending)
    · intro name hname e
      rw [hperm.mem_iff, hdone] at hname
      obtain ⟨d, hd, rfl⟩ := List.mem_map.1 hname
      exact completes.complete_ne_error hd e
  obtain ⟨done', hdone', completes', hlibraries'⟩ := exists_completes_of_failure? hok'
  refine ⟨hok', completes'.eq completes fun name => ?_, ?_, ?_⟩
  · rw [← hdone, ← hdone', hperm.mem_iff]
  · rw [hlibraries, ← completes.map_awaited?, ← hdone]
  · rw [hlibraries', ← completes'.map_awaited?, ← hdone']

/-- Two interfaces of which one imports the other. -/
def pairRegistry : Registry :=
  (Registry.ofList [{ name := "bar" }, { name := "foo", imports := ["bar"] }]).toOption.getD ∅

/-- The placeholders of a library and of the one that it links. -/
def pairGraph : ModuleGraph :=
  (fooGraph.apply (.declare (plainPlaceholder "bar" "bar-V1-cpp"))).1

/-- A library may be completed before the one that it links. -/
theorem linked_library_completed_last :
    pairGraph.pending.reverse = ["foo-V1-cpp-generator", "bar-V1-cpp-generator"]
      ∧ (pairGraph.completeEach pairRegistry pairGraph.pending.reverse).failure? = none
      ∧ (pairGraph.completeEach pairRegistry pairGraph.pending.reverse).graph
          = (pairGraph.completeAll pairRegistry).graph
      ∧ ["foo-V1-cpp-generator", "bar-V1-cpp-generator"].map pairGraph.awaited?
          = (pairGraph.completeEach pairRegistry pairGraph.pending.reverse).libraries.map some := by
  have hnamed : ∀ (g : ModuleGraph) (interface library : String),
      g.DeclaresNamed (.declare (plainPlaceholder interface library)) := by
    intro g interface library p hp
    exact ⟨_, _, _, _, (Change.declare.inj hp).symm⟩
  have hfoo : fooGraph.ReachableBy DeclaresNamed := .change .empty (by simp) (hnamed _ _ _)
  have hpair : pairGraph.ReachableBy DeclaresNamed := .change hfoo (by simp) (hnamed _ _ _)
  have hpending : pairGraph.pending.reverse
      = ["foo-V1-cpp-generator", "bar-V1-cpp-generator"] := by
    decide +kernel
  have hok : (pairGraph.completeEach pairRegistry pairGraph.pending).failure? = none := by
    decide +kernel
  obtain ⟨hok', hgraph, -, hlibraries⟩ :=
    completeEach_perm hpair (.refl _) (List.reverse_perm _) hok
  exact ⟨hpending, hok', hgraph, by rw [← hlibraries, hpending]⟩

end InterfacePlan.ModuleGraph
