import InterfacePlan.Proofs.Import.Resolution
import InterfacePlan.Proofs.Library.Answers
/-!
# Completed libraries

A placeholder becomes the library that was declared with it, with its imports linked. Completing all
placeholders of a graph succeeds when each of them can be completed by itself and the names of the
libraries are free; then the graph holds the libraries, and all implementations are finished.

## Main definitions

* `Placeholder.completedModules`: the library that a placeholder becomes
* `Placeholder.finishedEntry`: its implementation when it was finished
* `Request.LinksFor`: the library that stands for an import

## Main results

* `Request.exists_importedLibraries_iff`: which imports can be linked
* `ModuleGraph.Holds.completeAll`: what a graph holds when its placeholders are completed
* `ModuleGraph.Holds.completeAll_failure?`: when all placeholders can be completed
-/

namespace InterfacePlan

namespace Placeholder

variable {p : Placeholder} {r : Registry} {m : Module}

/-- What a graph holds for a placeholder that is finished. -/
def finishedEntry (p : Placeholder) : String × Implementation := (p.name, .finished p.library.name)

/-- The library that a placeholder becomes, unless there is an error. -/
def completedModules (r : Registry) (p : Placeholder) : List Module :=
  match p.completed r with
  | .ok m => [m]
  | .error _ => []

theorem completedModules_eq (h : p.completed r = .ok m) : p.completedModules r = [m] := by
  rw [completedModules, h]

theorem completed_eq_ok_iff : p.completed r = .ok m ↔
    ∃ libraries kind, p.importedLibraries r = .ok libraries
      ∧ p.library.kind.linking? libraries = some kind ∧ m = ⟨p.library.name, kind⟩ := by
  unfold completed
  cases p.importedLibraries r with
  | error e => simp
  | ok libraries =>
    cases hkind : p.library.kind.linking? libraries <;> simp [hkind, @eq_comm _ m]

/-- Why a placeholder becomes no library: because of its imports, or because it holds none. -/
theorem completed_eq_error_iff {e : PlanError} : p.completed r = .error e ↔
    (∃ cause, p.importedLibraries r = .error cause
        ∧ e = cause.inRequest p.interface p.version p.backend)
      ∨ ∃ libraries, p.importedLibraries r = .ok libraries
        ∧ p.library.kind.linking? libraries = none ∧ e = .notAPlaceholder p.library.name := by
  unfold completed
  cases p.importedLibraries r with
  | error cause => simp [eq_comm]
  | ok libraries =>
    cases hkind : p.library.kind.linking? libraries <;> simp [hkind, eq_comm]

theorem name_of_completed (h : p.completed r = .ok m) : m.name = p.library.name := by
  obtain ⟨libraries, kind, -, -, rfl⟩ := completed_eq_ok_iff.1 h
  rfl

end Placeholder

/-! ## The libraries of imports -/

theorem importedLibrary_eq_ok_iff {owner : Interface} {backend : Backend} {x : Import.Resolved}
    {library : String} : importedLibrary owner backend x = .ok library ↔
      x.interface.enables backend = true ∧ x.name ++ "-" ++ backend.text = library := by
  unfold importedLibrary
  split
  case isTrue h => simp [h]
  case isFalse h => simp [h]

theorem importedLibrary_eq_error_iff {owner : Interface} {backend : Backend}
    {x : Import.Resolved} {e : PlanError} : importedLibrary owner backend x = .error e ↔
      x.interface.enables backend = false
        ∧ e = .importBackendDisabled owner.name x.interface.name backend := by
  unfold importedLibrary
  split
  case isTrue h => simp [h]
  case isFalse h => simp [h, eq_comm]

/-- **The library that stands for an import** of a request: of the version that the import stands
for, and for the same backend. -/
def Request.LinksFor (r : Registry) (q : Request) (reference library : String) : Prop :=
  ∃ imported, r.get? (Import.split reference).1 = some imported
    ∧ imported.enables q.backend = true
    ∧ library = Import.standsFor q.interface q.version imported reference ++ "-" ++ q.backend.text

namespace Request

variable {r : Registry} {q : Request} {kind : ModuleKind} {libraries : List String}
  (hi : q.interface ∈ r.interfaces) (hv : q.version ∈ q.interface.allVersions)
include hi hv

/-- The imports of a library are resolved first, and then named. -/
theorem importedLibraries_eq : (q.placeholder kind).importedLibraries r
    = (q.interface.importsFor q.version).mapM (Import.resolveOne r q.interface q.version)
        >>= List.mapM (importedLibrary q.interface q.backend) := by
  have howner : r.imported (q.placeholder kind).name (q.placeholder kind).interface
      = .ok q.interface :=
    Registry.imported_eq_ok_iff.2 (Registry.mem_interfaces_iff.1 hi)
  rw [← Import.resolveAll_of_mem hv, Placeholder.importedLibraries, howner]
  rfl

theorem importedLibraries_eq_ok_iff_mapM :
    (q.placeholder kind).importedLibraries r = .ok libraries ↔
      (q.interface.importsFor q.version).mapM (fun reference =>
        Import.resolveOne r q.interface q.version reference
          >>= importedLibrary q.interface q.backend) = .ok libraries := by
  rw [importedLibraries_eq hi hv, Outcome.mapM_bind_eq_ok_iff]

omit hi hv in
theorem linksFor_iff {reference library : String} :
    (Import.resolveOne r q.interface q.version reference
      >>= importedLibrary q.interface q.backend) = .ok library ↔
        q.LinksFor r reference library := by
  rw [Outcome.bind_eq_ok_iff, LinksFor]
  constructor
  · rintro ⟨x, hx, hlibrary⟩
    obtain ⟨imported, himported, rfl⟩ := Import.resolveOne_eq_ok_iff.1 hx
    obtain ⟨henables, rfl⟩ := importedLibrary_eq_ok_iff.1 hlibrary
    exact ⟨imported, himported, henables, rfl⟩
  · rintro ⟨imported, himported, henables, rfl⟩
    exact ⟨_, Import.resolveOne_eq_ok_iff.2 ⟨imported, himported, rfl⟩,
      importedLibrary_eq_ok_iff.2 ⟨henables, rfl⟩⟩

/-- **The libraries that a library links for its imports**, in the order of the imports. -/
theorem importedLibraries_eq_ok_iff :
    (q.placeholder kind).importedLibraries r = .ok libraries ↔
      List.Forall₂ (q.LinksFor r) (q.interface.importsFor q.version) libraries := by
  rw [importedLibraries_eq_ok_iff_mapM hi hv, Outcome.mapM_eq_ok_iff]
  simp only [linksFor_iff]

/-- **Which imports can be linked**: those of registered interfaces that enable the backend. -/
theorem exists_importedLibraries_iff :
    (∃ libraries, (q.placeholder kind).importedLibraries r = .ok libraries) ↔
      ∀ reference ∈ q.interface.importsFor q.version,
        ∃ imported, r.get? (Import.split reference).1 = some imported
          ∧ imported.enables q.backend = true := by
  simp only [importedLibraries_eq_ok_iff_mapM hi hv, Outcome.exists_mapM_eq_ok_iff, linksFor_iff,
    LinksFor]
  simp

end Request

namespace ModuleGraph

variable {g h : ModuleGraph} {r : Registry} {p : Placeholder} {ps : List Placeholder}
  {ms : List Module} {is : List (String × Implementation)}

/-- Completing a placeholder: the library is made first, and then the placeholder is finished. -/
theorem complete_eq_bind {name : String} (hp : g.placeholder? name = some p) :
    g.complete r name = p.completed r >>= fun m => (g.finish name m).map fun h => (h, m.name) := by
  rw [complete, tryComplete, hp]
  dsimp only
  cases p.completed r with
  | error e => rfl
  | ok m =>
    rw [Outcome.ok_bind, finish]
    dsimp only
    obtain ⟨h, e | ⟨⟩⟩ := g.tryFinish name m <;> rfl

/-- **Completing a placeholder is atomic.** -/
theorem isAtomic_tryComplete (r : Registry) (g : ModuleGraph) (name : String) :
    g.IsAtomic (g.tryComplete r name) := by
  unfold IsAtomic tryComplete
  cases g.placeholder? name with
  | none => simp
  | some p =>
    dsimp only
    cases p.completed r with
    | error e => simp
    | ok m =>
      rcases (g.isAtomic_tryFinish name m).cases with ⟨h, ⟨⟩, hf⟩ | ⟨e, hf⟩ <;> simp [hf]

theorem complete_cases (r : Registry) (g : ModuleGraph) (name : String) :
    (∃ h library, g.complete r name = .ok (h, library)
        ∧ g.tryComplete r name = (h, .ok library))
      ∨ ∃ e, g.complete r name = .error e ∧ g.tryComplete r name = (g, .error e) := by
  rcases (isAtomic_tryComplete r g name).cases with ⟨h, library, hc⟩ | ⟨e, hc⟩
  · exact .inl ⟨h, library, by rw [complete, hc], hc⟩
  · exact .inr ⟨e, by rw [complete, hc], hc⟩

theorem completeEach_cons {name : String} {names : List String} :
    g.completeEach r (name :: names) = match g.complete r name with
      | .error e => { graph := g, failure? := some e }
      | .ok (h, library) =>
        { h.completeEach r names with
          libraries := library :: (h.completeEach r names).libraries } := by
  rw [completeEach]
  rcases g.complete_cases r name with ⟨h, library, hc, htry⟩ | ⟨e, hc, htry⟩ <;> rw [hc, htry]

theorem complete_eq_ok_iff {name library : String} : g.complete r name = .ok (h, library) ↔
    ∃ p m, g.placeholder? name = some p ∧ p.completed r = .ok m ∧ g.finish name m = .ok h
      ∧ m.name = library := by
  cases hp : g.placeholder? name with
  | none => simp [complete, tryComplete, hp]
  | some p =>
    rw [complete_eq_bind hp]
    simp [Outcome.bind_eq_ok_iff, Outcome.map_eq_ok_iff]

namespace Holds

theorem placeholder?_of_declared (hold : g.Holds ms (p.declaredEntry :: is)) :
    g.placeholder? p.name = some p := by
  rw [placeholder?, hold.state?_of_declared]

theorem complete (hold : g.Holds ms (p.declaredEntry :: is)) {library : String}
    (hc : g.complete r p.name = .ok (h, library)) :
    ∃ m, p.completed r = .ok m ∧ h.Holds (m :: ms) (p.finishedEntry :: is) := by
  obtain ⟨p', m, hp', hm, hf, -⟩ := complete_eq_ok_iff.1 hc
  obtain rfl : p = p' := Option.some.inj (hold.placeholder?_of_declared.symm.trans hp')
  refine ⟨m, hm, ?_⟩
  rw [Placeholder.finishedEntry, ← Placeholder.name_of_completed hm]
  exact hold.finish hf

theorem exists_complete (hold : g.Holds ms (p.declaredEntry :: is)) {m : Module}
    (hm : p.completed r = .ok m)
    (hfree : p.library.name ∉ usedNames ms (p.declaredEntry :: is)) :
    ∃ h library, g.complete r p.name = .ok (h, library) := by
  rw [← Placeholder.name_of_completed hm] at hfree
  obtain ⟨h, hf⟩ := hold.exists_finish_iff.2 hfree
  exact ⟨h, m.name, complete_eq_ok_iff.2 ⟨p, m, hold.placeholder?_of_declared, hm, hf, rfl⟩⟩

theorem completeEach (hold : g.Holds ms (ps.map Placeholder.declaredEntry ++ is))
    (hrun : (g.completeEach r (ps.map (·.name))).failure? = none) :
    (∀ p ∈ ps, ∃ m, p.completed r = .ok m)
      ∧ (g.completeEach r (ps.map (·.name))).graph.Holds
          (ps.flatMap (Placeholder.completedModules r) ++ ms)
          (ps.map Placeholder.finishedEntry ++ is) := by
  -- Induction on the placeholders: those that were completed go behind the ones still waiting.
  induction ps generalizing g ms is with
  | nil => exact ⟨by simp, hold⟩
  | cons p ps ih =>
    rw [List.map_cons, completeEach_cons] at hrun ⊢
    cases hc : g.complete r p.name with
    | error e => simp [hc] at hrun
    | ok result =>
      obtain ⟨h, library⟩ := result
      simp only [hc] at hrun ⊢
      obtain ⟨m, hm, hh⟩ := hold.complete hc
      obtain ⟨hall, hend⟩ := ih (hh.perm (.refl _) List.perm_middle.symm) hrun
      refine ⟨?_, hend.perm ?_ List.perm_middle⟩
      · intro p' hp'
        rcases List.mem_cons.1 hp' with rfl | hp'
        · exact ⟨m, hm⟩
        · exact hall p' hp'
      · rw [List.flatMap_cons, Placeholder.completedModules_eq hm]
        exact List.perm_middle

/-- Several placeholders can be completed if each of them can be completed by itself, and the names
of their libraries are different and free. -/
theorem completeEach_failure? (hold : g.Holds ms (ps.map Placeholder.declaredEntry ++ is))
    (hps : ∀ p ∈ ps, ∃ m, p.completed r = .ok m)
    (hn : (ps.map (·.library.name)
      ++ usedNames ms (ps.map Placeholder.declaredEntry ++ is)).Nodup) :
    (g.completeEach r (ps.map (·.name))).failure? = none := by
  induction ps generalizing g ms is with
  | nil => rfl
  | cons p ps ih =>
    obtain ⟨m, hm⟩ := hps p (List.mem_cons_self ..)
    have hfree : p.library.name ∉ usedNames ms (p.declaredEntry :: (ps.map _ ++ is)) :=
      fun hmem => (List.nodup_cons.1 hn).1 (List.mem_append_right _ hmem)
    obtain ⟨h, library, hc⟩ := hold.exists_complete hm hfree
    obtain ⟨m', hm', hh⟩ := hold.complete hc
    obtain rfl : m = m' := Except.ok.inj (hm.symm.trans hm')
    have hh' := hh.perm (.refl _) List.perm_middle.symm
    rw [List.map_cons, completeEach_cons, hc]
    apply ih hh' (fun p' hp' => hps p' (List.mem_cons_of_mem _ hp'))
    -- The library is a module now, and was only awaited before, so no name is new.
    have hused : (usedNames ms (ps.map Placeholder.declaredEntry ++ p.finishedEntry :: is)).Perm
        (usedNames ms (p.finishedEntry :: (ps.map Placeholder.declaredEntry ++ is))) :=
      usedNames_perm (.refl _) List.perm_middle
    rw [usedNames_cons_left, Placeholder.name_of_completed hm]
    exact (List.perm_middle.trans ((hused.append_left _).cons _)).nodup_iff.2 hn

/-- The placeholders of a graph are pending, in name order. -/
theorem exists_pending (hold : g.Holds ms (ps.map Placeholder.declaredEntry)) :
    ∃ qs : List Placeholder, g.pending = qs.map (·.name) ∧ qs.Perm ps
      ∧ g.Holds ms (qs.map Placeholder.declaredEntry ++ []) := by
  obtain ⟨qs, hlist, hqs⟩ := exists_eq_map_of_perm hold.implementations_perm
  refine ⟨qs, ?_, hqs, ?_⟩
  · rw [pending, hlist, List.filter_eq_self.2, List.map_map]
    · rfl
    · intro e he
      obtain ⟨p, -, rfl⟩ := List.mem_map.1 he
      rfl
  · rw [List.append_nil]
    exact hold.perm (.refl _) (hqs.symm.map _)

/-- **What a graph holds when its placeholders are completed.** -/
theorem completeAll (hold : g.Holds ms (ps.map Placeholder.declaredEntry))
    (hrun : (g.completeAll r).failure? = none) :
    (∀ p ∈ ps, ∃ m, p.completed r = .ok m)
      ∧ (g.completeAll r).graph.Holds (ps.flatMap (Placeholder.completedModules r) ++ ms)
          (ps.map Placeholder.finishedEntry) := by
  obtain ⟨qs, hpending, hqs, hold'⟩ := hold.exists_pending
  rw [ModuleGraph.completeAll, hpending] at hrun ⊢
  obtain ⟨hall, hend⟩ := hold'.completeEach hrun
  rw [List.append_nil] at hend
  refine ⟨fun p hp => hall p (hqs.mem_iff.2 hp), ?_⟩
  exact hend.perm ((hqs.flatMap_right _).append_right _) (hqs.map _)

/-- **When all placeholders of a graph can be completed.** -/
theorem completeAll_failure? (hold : g.Holds ms (ps.map Placeholder.declaredEntry))
    (hps : ∀ p ∈ ps, ∃ m, p.completed r = .ok m)
    (hn : (ps.map (·.library.name) ++ usedNames ms (ps.map Placeholder.declaredEntry)).Nodup) :
    (g.completeAll r).failure? = none := by
  obtain ⟨qs, hpending, hqs, hold'⟩ := hold.exists_pending
  have hused : (usedNames ms (qs.map Placeholder.declaredEntry ++ [])).Perm
      (usedNames ms (ps.map Placeholder.declaredEntry)) := by
    rw [List.append_nil]
    exact usedNames_perm (.refl _) (hqs.map _)
  rw [ModuleGraph.completeAll, hpending]
  refine hold'.completeEach_failure? (fun p hp => hps p (hqs.mem_iff.1 hp)) ?_
  exact (((hqs.map _).append hused).nodup_iff).2 hn

end Holds

end ModuleGraph

end InterfacePlan
