import InterfacePlan.Proofs.Plan.Accounting
/-!
# Links between libraries

A library that is completed links one library for each of its imports. The linked library is in the
plan, or its request was skipped, as long as the import does not name a version that is never built:
an import that names a version is used as written, so it may link a library that does not exist.

## Main definitions

* `Plan.Provides`: a library that is in the plan, or was skipped
* `Request.Injects`: the libraries that a library links for its imports
* `Import.NamesBuild`: an import that names no version but one that is built

## Main results

* `Plan.injected_links`: what libraries link for their imports, and which of it is provided
* `Plan.pinned_link_dangles`: an import of a version that is never built links a library that does
  not exist
-/

namespace InterfacePlan

/-- **A library that is in the plan**, or whose request was skipped. -/
def Plan.Provides (p : Plan) (library : String) : Prop :=
  (∃ m, p.graph.module? library = some m) ∨ ∃ s ∈ p.skipped, s.library = library

/-- **The libraries that the library of a request links for its imports**: all that it links behind
the libraries of its blueprint. -/
def Request.Injects (settings : Settings) (w : WorkingTree) (g : ModuleGraph) (q : Request)
    (injected : List String) : Prop :=
  ∃ (a : Answer) (declared : Placeholder) (kind : ModuleKind),
    q.answer settings w = .ok (some a) ∧ a.product = .library declared
      ∧ g.module? q.libraryName = some ⟨q.libraryName, kind⟩
      ∧ kind.dependencies = declared.library.kind.declaredDependencies ++ injected

/-- An import that names a version names one that is built. -/
def Import.NamesBuild (r : Registry) (reference : String) : Prop :=
  ∀ version, (split reference).2 = some version →
    ∃ imported, r.get? (split reference).1 = some imported ∧ version ∈ imported.buildVersions

namespace Plan

variable {settings : Settings} {w : WorkingTree} {r : Registry} {p : Plan}

/-! ## Provided libraries -/

/-- Every library of a version that is built is provided, for the backends that are enabled. -/
theorem Realizes.provides (real : Realizes settings w r p) {i : Interface} (hi : i ∈ r.interfaces)
    {version : String} (hv : version ∈ i.buildVersions) {backend : Backend}
    (hb : backend ≠ .analyzer) (henables : i.enables backend = true) :
    p.Provides (i.versionedName version ++ "-" ++ backend.text) := by
  have hgenerates : i.generates version backend = true := by
    simp [Interface.generates, henables, hb]
  have hq : i.request settings version backend ∈ r.requests settings :=
    Registry.mem_requests_iff.2
      ⟨hi, Interface.mem_requests.2 ⟨version, backend, hv, hgenerates, rfl⟩⟩
  by_cases hsources : (i.request settings version backend).lacksSources settings w = true
  · right
    refine ⟨(i.request settings version backend).skipped, ?_, rfl⟩
    rw [real.skipped_eq]
    exact List.mem_map.2 ⟨_, List.mem_filter.2 ⟨hq, hsources⟩, rfl⟩
  · left
    have hemitted : i.request settings version backend ∈ r.emitted settings w :=
      List.mem_filter.2 ⟨hq, by simpa using hsources⟩
    obtain ⟨s, kind, -, -, hlibrary, -⟩ := real.isBuiltIn hemitted
    rw [Request.moduleName_of_ne hb] at hlibrary
    exact ⟨_, hlibrary⟩

/-- An import links a library of a version that is built, unless it names another version. -/
theorem exists_version_of_linksFor {q : Request} {reference dependency : String}
    (hlink : q.LinksFor r reference dependency) (hbuild : Import.NamesBuild r reference) :
    ∃ imported ∈ r.interfaces, ∃ version ∈ imported.buildVersions,
      imported.enables q.backend = true
        ∧ dependency = imported.versionedName version ++ "-" ++ q.backend.text := by
  obtain ⟨imported, himported, henables, rfl⟩ := hlink
  have hmem := Registry.mem_interfaces_of_get? himported
  unfold Import.standsFor Import.hasVersion
  cases hsplit : (Import.split reference).2 with
  | none =>
    exact ⟨imported, hmem, _, Import.impliedVersion_mem_buildVersions, henables, rfl⟩
  | some version =>
    obtain ⟨other, hother, hversion⟩ := hbuild version hsplit
    obtain rfl := Option.some.inj (himported.symm.trans hother)
    obtain ⟨heq, hne, -⟩ := Import.eq_of_split_eq (Prod.ext rfl hsplit)
    have hname : imported.versionedName version = reference := by
      rw [Interface.versionedName_of_ne hne, (r.sound _ _ himported).1, ← heq]
    exact ⟨imported, hmem, version, hversion, henables, by rw [hname]; rfl⟩

/-! ## Injected libraries -/

/-- How the library of an emitted request was completed. It stands in the graph under the name that
it was declared with, and links a library for each of its imports. -/
theorem Realizes.exists_completed (real : Realizes settings w r p) {q : Request}
    (hq : q ∈ r.emitted settings w) (hb : q.backend ≠ .analyzer) :
    ∃ (a : Answer) (kind linked : ModuleKind) (injected : List String),
      q.answer settings w = .ok (some a) ∧ a.product = .library (q.placeholder kind)
        ∧ kind.suits q.backend = true ∧ kind.linking? injected = some linked
        ∧ p.graph.module? q.libraryName = some ⟨q.libraryName, linked⟩
        ∧ List.Forall₂ (q.LinksFor r) (q.interface.importsFor q.version) injected := by
  obtain ⟨hr, a, ha⟩ := real.exists_answer_of_emitted hq
  have hmem : a ∈ answersTo settings w (r.requests settings) := mem_answersTo_iff.2 ⟨q, hr, ha⟩
  obtain ⟨kind, hproduct, hsuits, -⟩ := Request.library_of_answer ha hb
  have hplaceholder : q.placeholder kind ∈ a.placeholders := by
    simp [Answer.placeholders, hproduct]
  obtain ⟨m, hm⟩ := real.completed a hmem _ hplaceholder
  obtain ⟨injected, linked, hinjected, hlinked, rfl⟩ := Placeholder.completed_eq_ok_iff.1 hm
  refine ⟨a, kind, linked, injected, ha, hproduct, hsuits, hlinked, ?_, ?_⟩
  · refine (real.holds.module?_iff _ _).2 ⟨List.mem_flatMap.2 ⟨a, hmem, ?_⟩, rfl⟩
    refine List.mem_append_left _ (List.mem_flatMap.2 ⟨_, hplaceholder, ?_⟩)
    rw [Placeholder.completedModules_eq hm]
    exact List.mem_singleton.2 rfl
  · exact (Request.importedLibraries_eq_ok_iff (Registry.mem_requests_iff.1 hr).1
      (Registry.version_mem_of_mem_requests hr)).1 hinjected

/-- What the library of an emitted request links for its imports. -/
theorem Realizes.exists_injected (real : Realizes settings w r p) {q : Request}
    (hq : q ∈ r.emitted settings w) (hb : q.backend ≠ .analyzer) :
    ∃ injected, q.Injects settings w p.graph injected
      ∧ List.Forall₂ (q.LinksFor r) (q.interface.importsFor q.version) injected := by
  obtain ⟨a, kind, linked, injected, ha, hproduct, -, hlinked, hlibrary, hlinks⟩ :=
    real.exists_completed hq hb
  exact ⟨injected, ⟨a, q.placeholder kind, linked, ha, hproduct, hlibrary,
    ModuleKind.dependencies_of_linking? hlinked⟩, hlinks⟩

/-- **What libraries link for their imports.** Every finished library links, behind the libraries of
its blueprint, one library for each of its imports, in their order; and this library is provided
if the import names no version, or one that is built. -/
theorem injected_links (hp : ofRegistry settings w r = .ok p) :
    ∀ name library, p.graph.state? name = some (.finished library) →
      ∃ q ∈ r.emitted settings w, q.libraryName = library ∧ ∃ injected,
        q.Injects settings w p.graph injected
          ∧ List.Forall₂
              (fun reference dependency => q.LinksFor r reference dependency
                ∧ (Import.NamesBuild r reference → p.Provides dependency))
              (q.interface.importsFor q.version) injected := by
  intro name library hstate
  have real := realizes hp
  obtain ⟨q, hq, hb, rfl, hlibrary⟩ := real.state?_iff.1 hstate
  obtain ⟨injected, hinjects, hlinks⟩ := real.exists_injected hq hb
  refine ⟨q, hq, (Implementation.finished.inj hlibrary).symm, injected, hinjects, ?_⟩
  refine hlinks.imp fun reference dependency hlink => ⟨hlink, fun hbuild => ?_⟩
  obtain ⟨imported, hi, version, hv, henables, rfl⟩ := exists_version_of_linksFor hlink hbuild
  exact real.provides hi hv hb henables

theorem injected_links_of_sample :
    ∃ p, ofRegistry {} sampleTree (registryOf sampleInterfaces) = .ok p
      ∧ ∃ q ∈ (registryOf sampleInterfaces).emitted {} sampleTree, q.libraryName = "foo-V2-cpp"
        ∧ ∃ dependency, q.Injects {} sampleTree p.graph [dependency]
          ∧ q.LinksFor (registryOf sampleInterfaces) "bar" dependency ∧ p.Provides dependency := by
  have hok : (ofRegistry {} sampleTree (registryOf sampleInterfaces)).isOk = true := by
    decide +kernel
  obtain ⟨p, hp⟩ := Outcome.exists_ok_of_isOk hok
  have hstate : p.graph.state? "foo-V2-cpp-generator" = some (.finished "foo-V2-cpp") := by
    rw [(realizes hp).state?_iff]
    decide +kernel
  have himports : ∀ q ∈ (registryOf sampleInterfaces).emitted {} sampleTree,
      q.libraryName = "foo-V2-cpp" → q.interface.importsFor q.version = ["bar"] := by
    decide +kernel
  obtain ⟨q, hq, hlibrary, injected, hinjects, hlinks⟩ := injected_links hp _ _ hstate
  rw [himports q hq hlibrary, List.forall₂_cons_left_iff] at hlinks
  obtain ⟨dependency, rest, ⟨hlink, hprovides⟩, hrest, rfl⟩ := hlinks
  obtain rfl := List.forall₂_nil_left_iff.1 hrest
  have hbuild : Import.NamesBuild (registryOf sampleInterfaces) "bar" := by
    intro version hversion
    have hbare : (Import.split "bar").2 = none := by decide
    rw [hbare] at hversion
    cases hversion
  exact ⟨p, hp, q, hq, hlibrary, dependency, hinjects, hlink, hprovides hbuild⟩

/-! ## An import of a version that is never built -/

/-- An interface which imports a version of another one that is never built. -/
def pinnedInterfaces : List Interface := [
  { name := "foo", unstable := true, imports := ["baz-V9"], srcs := ["Foo.aidl"]
    backend := cppOnly },
  { name := "baz", unstable := true, srcs := ["Baz.aidl"], backend := cppOnly }]

/-- **An import that names a version is used as written**, so it may link a library that is neither
planned nor skipped. -/
theorem pinned_link_dangles :
    ∃ p, ofRegistry {} ⟨∅, []⟩ (registryOf pinnedInterfaces) = .ok p
      ∧ p.graph.state? "foo-cpp-generator" = some (.finished "foo-cpp")
      ∧ (∃ q ∈ (registryOf pinnedInterfaces).emitted {} ⟨∅, []⟩, q.libraryName = "foo-cpp"
          ∧ q.Injects {} ⟨∅, []⟩ p.graph ["baz-V9-cpp"])
      ∧ ¬p.Provides "baz-V9-cpp" := by
  have hok : (ofRegistry {} ⟨∅, []⟩ (registryOf pinnedInterfaces)).isOk = true := by
    decide +kernel
  obtain ⟨p, hp⟩ := Outcome.exists_ok_of_isOk hok
  have real := realizes hp
  refine ⟨p, hp, ?_, ?_, ?_⟩
  · rw [real.state?_iff]
    decide +kernel
  · have hfoo : ∃ q ∈ (registryOf pinnedInterfaces).emitted {} ⟨∅, []⟩,
        q.libraryName = "foo-cpp" ∧ q.backend = .cpp
          ∧ q.interface.importsFor q.version = ["baz-V9"] := by
      decide +kernel
    obtain ⟨q, hq, hlibrary, hbackend, himports⟩ := hfoo
    obtain ⟨injected, hinjects, hlinks⟩ := real.exists_injected hq (by simp [hbackend])
    rw [himports, List.forall₂_cons_left_iff] at hlinks
    obtain ⟨_, rest, ⟨imported, -, -, rfl⟩, hrest, rfl⟩ := hlinks
    obtain rfl := List.forall₂_nil_left_iff.1 hrest
    have hpinned : Import.hasVersion "baz-V9" = true := by decide
    rw [Import.standsFor, if_pos hpinned, hbackend] at hinjects
    exact ⟨q, hq, hlibrary, hinjects⟩
  · rintro (⟨m, hm⟩ | ⟨s, hs, hlibrary⟩)
    · have hkey : "baz-V9-cpp" ∈ p.graph.modules.keys :=
        List.mem_map.2 ⟨(_, m), SortedMap.mem_toList_iff.2 hm, rfl⟩
      have hunplanned : "baz-V9-cpp" ∉ ((registryOf pinnedInterfaces).emitted {} ⟨∅, []⟩).flatMap
          fun q => [q.generatorName, q.moduleName] := by
        decide +kernel
      exact hunplanned (real.keys_perm.mem_iff.1 hkey)
    · have hnone : ((registryOf pinnedInterfaces).requests {}).filter
          (Request.lacksSources {} ⟨∅, []⟩) = [] := by
        decide +kernel
      rw [real.skipped_eq, hnone] at hs
      cases hs

end Plan

end InterfacePlan
