import InterfacePlan.Proofs.Library.StepwiseCompletion
import InterfacePlan.Proofs.ModuleGraph.Reservations
import InterfacePlan.Proofs.Plan.Feasibility
import InterfacePlan.Proofs.Plan.MergeOrder
/-!
# How completion fails

Once the drafts are gathered and cycles are refused, planning can still fail, but in one way only: a
library imports an interface that does not enable its backend. All other errors of completion have
been made impossible by then. The check for cycles has found every import registered, requests are
made of versions that can be built, the placeholders of answers hold libraries, and the names of
these libraries are free.

## Main definitions

* `Request.StopsAt`: the import at which linking the library of a request stops

## Main results

* `Request.importedLibraries_eq_error_iff`: why the imports of a request cannot be linked
* `AccountsFor.keepsRoom`: the names of the libraries that answers await are free
* `Plan.completion_fails_over_disabled_imports_only`: when and how completion fails
-/

namespace InterfacePlan

variable {settings : Settings} {w : WorkingTree} {r : Registry}

/-! ## Imports that cannot be linked -/

namespace Request

variable {q : Request} {kind : ModuleKind} {imported : Interface} {e : PlanError}

/-- **The import at which linking the library of a request stops**: the first one, in the order of
their declaration, whose interface does not enable the backend. -/
def StopsAt (r : Registry) (q : Request) (imported : Interface) : Prop :=
  ∃ before reference after, q.interface.importsFor q.version = before ++ reference :: after
    ∧ (∀ other ∈ before, ∃ library, q.LinksFor r other library)
    ∧ r.get? (Import.split reference).1 = some imported ∧ imported.enables q.backend = false

variable (hi : q.interface ∈ r.interfaces) (hv : q.version ∈ q.interface.allVersions)
  (hregistered : ∀ reference ∈ q.interface.importsFor q.version, Import.IsRegistered r reference)
include hi hv hregistered

/-- Registered imports are resolved and named one by one. -/
theorem importedLibraries_eq_mapM : (q.placeholder kind).importedLibraries r
    = (q.interface.importsFor q.version).mapM fun reference =>
        Import.resolveOne r q.interface q.version reference
          >>= importedLibrary q.interface q.backend := by
  obtain ⟨imports, himports⟩ := (Import.exists_resolveAll_iff hv).2 hregistered
  rw [Import.resolveAll_of_mem hv] at himports
  rw [importedLibraries_eq hi hv, himports, Outcome.ok_bind]
  exact (Outcome.mapM_bind_of_eq_ok himports).symm

/-- **Why the imports of a request cannot be linked**, if all of them are registered. -/
theorem importedLibraries_eq_error_iff : (q.placeholder kind).importedLibraries r = .error e ↔
    ∃ imported, q.StopsAt r imported
      ∧ e = .importBackendDisabled q.interface.name imported.name q.backend := by
  rw [importedLibraries_eq_mapM hi hv hregistered, Outcome.mapM_eq_error_iff]
  simp only [linksFor_iff]
  constructor
  · rintro ⟨before, reference, after, hsplit, hbefore, herror⟩
    rcases Outcome.bind_eq_error_iff.1 herror with hunresolved | ⟨x, hx, hdisabled⟩
    · obtain ⟨hunregistered, -⟩ := Import.resolveOne_eq_error_iff.1 hunresolved
      exact absurd (hregistered reference (by simp [hsplit])) hunregistered
    · obtain ⟨imported, himported, rfl⟩ := Import.resolveOne_eq_ok_iff.1 hx
      obtain ⟨hdisables, rfl⟩ := importedLibrary_eq_error_iff.1 hdisabled
      exact ⟨imported, ⟨before, reference, after, hsplit, hbefore, himported, hdisables⟩, rfl⟩
  · rintro ⟨imported, ⟨before, reference, after, hsplit, hbefore, himported, hdisables⟩, rfl⟩
    refine ⟨before, reference, after, hsplit, hbefore, Outcome.bind_eq_error_iff.2 (.inr ?_)⟩
    exact ⟨_, Import.resolveOne_eq_ok_iff.2 ⟨imported, himported, rfl⟩,
      importedLibrary_eq_error_iff.2 ⟨hdisables, rfl⟩⟩

/-- The placeholder of an answer fails over its imports only. -/
theorem completed_eq_error_of_answer {a : Answer} (ha : q.answer settings w = .ok (some a))
    {p : Placeholder} (hp : p ∈ a.placeholders) (herror : p.completed r = .error e) :
    q.backend ≠ .analyzer ∧ ∃ imported, q.StopsAt r imported
      ∧ e = .request q.interface.name q.version q.backend
          (.importBackendDisabled q.interface.name imported.name q.backend) := by
  obtain ⟨hb, -⟩ := placeholder_of_answer ha hp
  obtain ⟨kind, hproduct, hsuits, -⟩ := library_of_answer ha hb
  simp only [Answer.placeholders, hproduct, List.mem_singleton] at hp
  subst hp
  refine ⟨hb, ?_⟩
  rcases Placeholder.completed_eq_error_iff.1 herror with
    ⟨cause, hcause, rfl⟩ | ⟨libraries, -, hnone, -⟩
  · obtain ⟨imported, hstops, rfl⟩ :=
      (importedLibraries_eq_error_iff hi hv hregistered).1 hcause
    exact ⟨imported, hstops, rfl⟩
  · have hlinks : ∃ linked, (q.placeholder kind).library.kind.linking? libraries = some linked :=
      ModuleKind.exists_linking? hsuits hb
    rw [hnone] at hlinks
    simp at hlinks

end Request

/-! ## Placeholders of answers -/

namespace AccountsFor

variable {qs : List Request} {g : ModuleGraph} {skipped : List SkippedRequest} {name : String}
  {p : Placeholder} (acc : AccountsFor settings w qs g skipped)
include acc

/-- Every placeholder belongs to the answer to a request. -/
theorem exists_answer_of_declared (hp : g.state? name = some (.declared p)) :
    p.name = name ∧ ∃ q ∈ qs, ∃ a, q.answer settings w = .ok (some a) ∧ p ∈ a.placeholders := by
  have hentry := (acc.holds.state?_iff _ _).1 hp
  rw [flatMap_implementations_eq] at hentry
  obtain ⟨p', hp', heq⟩ := List.mem_map.1 hentry
  obtain ⟨rfl, hdeclared⟩ := Prod.mk.inj heq
  obtain rfl := Implementation.declared.inj hdeclared
  obtain ⟨a, ha, hpa⟩ := List.mem_flatMap.1 hp'
  obtain ⟨q, hq, ha⟩ := mem_answersTo_iff.1 ha
  exact ⟨rfl, q, hq, a, ha, hpa⟩

theorem namesPlaceholders : g.NamesPlaceholders := by
  intro name p hp
  obtain ⟨rfl, q, -, a, ha, hpa⟩ := acc.exists_answer_of_declared hp
  exact (Request.placeholder_of_answer ha hpa).2.2

/-- **The names of the libraries that answers await are free**: they are different from all names
that the answers enter. -/
theorem keepsRoom : g.KeepsRoom := by
  rintro _ ⟨name, p, hp, rfl⟩
  obtain ⟨-, q, hq, a, ha, hpa⟩ := acc.exists_answer_of_declared hp
  have hnames := acc.nodup_namesFor
  rw [namesFor, (Answer.flatMap_names_perm _).nodup_iff, List.nodup_append] at hnames
  obtain ⟨-, -, hdisjoint⟩ := hnames
  refine acc.holds.uses_eq_false_iff.2 fun hused => hdisjoint _ ?_ _ hused rfl
  exact List.mem_map.2 ⟨p, List.mem_flatMap.2 ⟨a, mem_answersTo_iff.2 ⟨q, hq, ha⟩, hpa⟩, rfl⟩

end AccountsFor

namespace Plan

/-! ## Completion -/

section Gathered

variable {d : Plan} (hd : gatherAcyclic r (drafts settings w r) = .ok d)
include hd

/-- The check for cycles has found the imports of every request registered. -/
theorem isRegistered_of_gatherAcyclic {q : Request} (hq : q ∈ r.requests settings) :
    ∀ reference ∈ q.interface.importsFor q.version, Import.IsRegistered r reference := by
  obtain ⟨-, hcycles⟩ := gatherAcyclic_eq_ok_iff.1 hd
  obtain ⟨hi, -⟩ := Registry.mem_requests_iff.1 hq
  have hversion := Registry.version_mem_of_mem_requests hq
  rw [← Interface.buildVersions_eq_allVersions (Registry.validateVersions_of_mem hi)] at hversion
  exact (Import.checkCycles_eq_ok_iff.1 hcycles).1 q.interface hi q.version hversion

/-- How completion fails. -/
theorem exists_stopsAt_of_failure? {e : PlanError}
    (hfailure : (d.graph.completeAll r).failure? = some e) :
    ∃ q ∈ r.emitted settings w, q.backend ≠ .analyzer ∧ ∃ imported, q.StopsAt r imported
      ∧ e = .request q.interface.name q.version q.backend
          (.importBackendDisabled q.interface.name imported.name q.backend) := by
  obtain ⟨hgather, -⟩ := gatherAcyclic_eq_ok_iff.1 hd
  have acc := AccountsFor.gather hgather
  obtain ⟨name, p, hp, herror⟩ :=
    ModuleGraph.exists_complete_eq_error acc.namesPlaceholders hfailure
  obtain ⟨-, q, hq, a, ha, hpa⟩ := acc.exists_answer_of_declared hp
  refine ⟨q, Registry.mem_emitted_of_answer hq ha, ?_⟩
  rcases (ModuleGraph.complete_eq_error_iff hp).1 herror with herror | ⟨m, hm, hused, -⟩
  · exact Request.completed_eq_error_of_answer (Registry.mem_requests_iff.1 hq).1
      (Registry.version_mem_of_mem_requests hq) (isRegistered_of_gatherAcyclic hd hq) ha hpa herror
  · rw [Placeholder.name_of_completed hm, acc.keepsRoom _ ⟨name, p, hp, rfl⟩] at hused
    cases hused

/-- **When and how completion fails** after the drafts were gathered and cycles were refused. It
succeeds exactly when the interfaces that answered requests import enable their backends. Otherwise
the error is that of such a request, and names an interface that it imports and that does not enable
its backend. There is no other error. -/
theorem completion_fails_over_disabled_imports_only :
    ((d.graph.completeAll r).failure? = none ↔
        ∀ q ∈ r.emitted settings w, q.backend ≠ .analyzer →
          ∀ reference ∈ q.interface.importsFor q.version,
            ∃ imported, r.get? (Import.split reference).1 = some imported
              ∧ imported.enables q.backend = true)
      ∧ ∀ e, (d.graph.completeAll r).failure? = some e →
          ∃ q ∈ r.emitted settings w, q.backend ≠ .analyzer ∧ ∃ imported, q.StopsAt r imported
            ∧ e = .request q.interface.name q.version q.backend
                (.importBackendDisabled q.interface.name imported.name q.backend) := by
  obtain ⟨hgather, -⟩ := gatherAcyclic_eq_ok_iff.1 hd
  have acc := AccountsFor.gather hgather
  refine ⟨⟨fun hnone q hq => ?_, fun henabled => ?_⟩, fun e => exists_stopsAt_of_failure? hd⟩
  · obtain ⟨hr, a, ha⟩ := Registry.exists_answer_of_emitted acc.answered hq
    refine (completed_iff hr ha).1 fun p hp => ?_
    have hold := acc.holds
    rw [flatMap_implementations_eq] at hold
    refine (hold.completeAll hnone).1 p (List.mem_flatMap.2 ⟨a, ?_, hp⟩)
    exact mem_answersTo_iff.2 ⟨q, hr, ha⟩
  · cases hfailure : (d.graph.completeAll r).failure? with
    | none => rfl
    | some e =>
      obtain ⟨q, hq, hb, imported, hstops, -⟩ := exists_stopsAt_of_failure? hd hfailure
      obtain ⟨before, reference, after, hsplit, -, himported, hdisabled⟩ := hstops
      obtain ⟨other, hother, henables⟩ := henabled q hq hb reference (by simp [hsplit])
      obtain rfl := Option.some.inj (himported.symm.trans hother)
      rw [hdisabled] at henables
      cases henables

end Gathered

/-- Options under which no backend is enabled. -/
def noBackends : BackendOptions := { cppOnly with cpp := { common := { enabled := some false } } }

/-- An interface that imports one without any backend. -/
def disabledInterfaces : List Interface := [
  { name := "foo", unstable := true, imports := ["bar"], srcs := ["Foo.aidl"], backend := cppOnly },
  { name := "bar", unstable := true, srcs := ["Bar.aidl"], backend := noBackends }]

theorem disabled_import_fails :
    ∃ d, gatherAcyclic (registryOf disabledInterfaces)
        (drafts {} ⟨∅, []⟩ (registryOf disabledInterfaces)) = .ok d
      ∧ (d.graph.completeAll (registryOf disabledInterfaces)).failure?
          = some (.request "foo" "" .cpp (.importBackendDisabled "foo" "bar" .cpp))
      ∧ ∃ q ∈ (registryOf disabledInterfaces).emitted {} ⟨∅, []⟩, q.interface.name = "foo"
          ∧ ∃ imported, q.StopsAt (registryOf disabledInterfaces) imported
            ∧ imported.name = "bar" := by
  have hgathered : (gatherAcyclic (registryOf disabledInterfaces)
      (drafts {} ⟨∅, []⟩ (registryOf disabledInterfaces))).map
        (fun d => (d.graph.completeAll (registryOf disabledInterfaces)).failure?)
      = .ok (some (.request "foo" "" .cpp (.importBackendDisabled "foo" "bar" .cpp))) := by
    decide +kernel
  obtain ⟨d, hd, hfailure⟩ := Outcome.map_eq_ok_iff.1 hgathered
  obtain ⟨q, hq, -, imported, hstops, he⟩ :=
    (completion_fails_over_disabled_imports_only hd).2 _ hfailure
  injection he with hname _ _ hcause
  injection hcause with _ himported _
  exact ⟨d, hd, hfailure, q, hq, hname.symm, imported, hstops, himported.symm⟩

end Plan

end InterfacePlan
