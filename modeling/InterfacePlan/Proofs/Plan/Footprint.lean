import InterfacePlan.Proofs.Plan.Links
/-!
# The footprint of an interface

Planning merges the modules of all interfaces into one graph, refuses cycles among all of them, and
completes all libraries together. Still, what a plan holds for an interface depends on little: on
its own declaration, and of every interface that it imports on the flag `unstable` and the frozen
versions. Nothing else in the registry has a part in it.

## Main definitions

* `Plan.AgreesOn`: plans that hold the same for a request
* `Request.Alike`: requests that are answered and completed alike
* `Registry.SameFootprint`: registries that do not differ in what an interface depends on

## Main results

* `Plan.Realizes.agreesOn`: plans hold the same for requests that are alike
* `Plan.agreesOn_of_sameFootprint`: the footprint of an interface determines what plans hold for it
-/

namespace InterfacePlan

/-- **What an import stands for depends on versions alone**, of the importing interface and of the
imported one. -/
theorem Import.standsFor_congr {owner owner' imported imported' : Interface}
    (howner : owner.SameVersions owner') (himported : imported.SameVersions imported')
    (version reference : String) :
    standsFor owner version imported reference = standsFor owner' version imported' reference := by
  unfold standsFor impliedVersion
  rw [howner.isNextVersion, howner.hasVersion, himported.hasVersion, himported.nextVersion,
    himported.latestFrozen, himported.versionedName]

/-! ## Plans that hold the same for a request -/

/-- **Plans that hold the same for a request.** Both skip it, or both have the same source generator
for it, the same library, and the same implementation. Names of a skipped request have no meaning:
they are free, so another interface may use them. -/
def Plan.AgreesOn (p p' : Plan) (q : Request) : Prop :=
  (q.skipped ∈ p.skipped ∧ q.skipped ∈ p'.skipped)
    ∨ (q.skipped ∉ p.skipped ∧ q.skipped ∉ p'.skipped
        ∧ (∃ source, p.graph.module? q.generatorName = some source
            ∧ p'.graph.module? q.generatorName = some source)
        ∧ (∃ library, p.graph.module? q.moduleName = some library
            ∧ p'.graph.module? q.moduleName = some library)
        ∧ p.graph.state? (q.moduleName ++ "-generator")
            = p'.graph.state? (q.moduleName ++ "-generator"))

/-- **Requests that are answered and completed alike**, each with its own settings and in its own
registry: their answers are the same, and so are their imports and the versions that matter for
what these stand for. -/
structure Request.Alike (settings settings' : Settings) (w : WorkingTree) (r r' : Registry)
    (q q' : Request) : Prop where
  answer_eq : q.answer settings w = q'.answer settings' w
  interface : q.interface.SameVersions q'.interface
  version_eq : q.version = q'.version
  backend_eq : q.backend = q'.backend
  importsFor_eq : q.interface.importsFor q.version = q'.interface.importsFor q'.version
  imported : ∀ reference ∈ q.interface.importsFor q.version, ∀ j j',
    r.get? (Import.split reference).1 = some j → r'.get? (Import.split reference).1 = some j' →
      j.SameVersions j'

variable {settings settings' : Settings} {w : WorkingTree} {r r' : Registry} {q q' : Request}
  {p p' : Plan}

namespace Request

/-- What stands behind the name of a library in the name of its implementation. -/
theorem nameOf_placeholder (q : Request) :
    q.nameOf .placeholder = q.moduleName ++ "-generator" := by
  simp [moduleName_eq, nameOf, Role.ending, Role.suffix, String.append_assoc]

namespace Alike

variable (alike : Alike settings settings' w r r' q q')
include alike

theorem libraryName_eq : q.libraryName = q'.libraryName := by
  rw [libraryName, libraryName, alike.interface.versionedName, alike.version_eq, alike.backend_eq]

theorem skipped_eq : q.skipped = q'.skipped := by
  rw [skipped, skipped, alike.interface.name, alike.version_eq, alike.backend_eq,
    alike.libraryName_eq]

theorem nameOf_eq (role : Role) : q.nameOf role = q'.nameOf role := by
  rw [nameOf, nameOf, stem, stem, alike.interface.name, alike.interface.versionedName,
    alike.version_eq, alike.backend_eq]

theorem generatorName_eq : q.generatorName = q'.generatorName := by
  rw [Request.generatorName_eq, Request.generatorName_eq, alike.nameOf_eq]

theorem moduleName_eq : q.moduleName = q'.moduleName := by
  rw [Request.moduleName_eq, Request.moduleName_eq, alike.nameOf_eq]

/-- Both requests link the same libraries for their imports. -/
theorem links_eq {libraries libraries' : List String}
    (h : List.Forall₂ (q.LinksFor r) (q.interface.importsFor q.version) libraries)
    (h' : List.Forall₂ (q'.LinksFor r') (q'.interface.importsFor q'.version) libraries') :
    libraries = libraries' := by
  rw [← alike.importsFor_eq] at h'
  refine Outcome.eq_of_forall₂ ?_ h h'
  rintro reference hreference _ _ ⟨j, hj, -, rfl⟩ ⟨j', hj', -, rfl⟩
  rw [Import.standsFor_congr alike.interface (alike.imported reference hreference j j' hj hj'),
    alike.version_eq, alike.backend_eq]

end Alike

end Request

/-! ## What a plan holds for one request -/

namespace Plan

namespace Realizes

theorem mem_skipped_iff (real : Realizes settings w r p) (hq : q ∈ r.requests settings) :
    q.skipped ∈ p.skipped ↔ q.answer settings w = .ok none := by
  rw [real.skipped_eq, List.mem_map, ← Request.lacksSources_iff]
  constructor
  · rintro ⟨other, hother, heq⟩
    obtain ⟨hother, hlacks⟩ := List.mem_filter.1 hother
    obtain rfl := Request.skipped_inj hother hq heq
    exact hlacks
  · intro hlacks
    exact ⟨q, List.mem_filter.2 ⟨hq, hlacks⟩, rfl⟩

/-- The implementation of an emitted request. The tool for the analyzer has none. -/
theorem state?_of_emitted (real : Realizes settings w r p) (hq : q ∈ r.emitted settings w) :
    p.graph.state? (q.moduleName ++ "-generator")
      = if q.backend = .analyzer then none else some (.finished q.moduleName) := by
  split
  case isTrue hb =>
    rw [Option.eq_none_iff_forall_ne_some]
    intro state hstate
    obtain ⟨other, -, hother, hname, -⟩ := real.state?_iff.1 hstate
    rw [← Request.moduleName_of_ne hother, ← Request.nameOf_placeholder,
      ← Request.nameOf_placeholder] at hname
    obtain ⟨-, hbackend, -⟩ := Request.nameOf_inj.1 hname
    exact hother (hbackend.symm.trans hb)
  case isFalse hb =>
    rw [Request.moduleName_of_ne hb]
    exact real.state?_iff.2 ⟨q, hq, hb, rfl, rfl⟩

/-! ## Requests that are alike -/

variable {a : Answer}

/-- Requests that are alike have the same library in their plans. -/
theorem exists_library (real : Realizes settings w r p) (real' : Realizes settings' w r' p')
    (hq : q ∈ r.requests settings) (hq' : q' ∈ r'.requests settings')
    (alike : q.Alike settings settings' w r r' q') (ha : q.answer settings w = .ok (some a)) :
    ∃ library, p.graph.module? q.moduleName = some library
      ∧ p'.graph.module? q.moduleName = some library := by
  have ha' : q'.answer settings' w = .ok (some a) := alike.answer_eq.symm.trans ha
  by_cases hb : q.backend = .analyzer
  · obtain ⟨kind, hproduct, -⟩ := Request.tool_of_answer ha hb
    have hm : (⟨q.nameOf .library, kind⟩ : Module) ∈ a.modules := by
      simp [Answer.modules, hproduct]
    rw [Request.moduleName_eq]
    exact ⟨_, real.module?_of_answer hq ha hm, real'.module?_of_answer hq' ha' hm⟩
  · have hb' : q'.backend ≠ .analyzer := alike.backend_eq ▸ hb
    obtain ⟨b, kind, linked, injected, hanswer, hproduct, -, hlinked, hlibrary, hlinks⟩ :=
      real.exists_completed (Registry.mem_emitted_of_answer hq ha) hb
    obtain ⟨b', kind', linked', injected', hanswer', hproduct', -, hlinked', hlibrary', hlinks'⟩ :=
      real'.exists_completed (Registry.mem_emitted_of_answer hq' ha') hb'
    obtain rfl : b = b' :=
      Option.some.inj (Except.ok.inj (hanswer.symm.trans (alike.answer_eq.trans hanswer')))
    obtain rfl : kind = kind' := Request.kind_of_product_eq (hproduct.symm.trans hproduct')
    obtain rfl := alike.links_eq hlinks hlinks'
    obtain rfl := Option.some.inj (hlinked.symm.trans hlinked')
    rw [← alike.libraryName_eq] at hlibrary'
    rw [Request.moduleName_of_ne hb]
    exact ⟨_, hlibrary, hlibrary'⟩

/-- **Plans hold the same for requests that are alike.** -/
theorem agreesOn (real : Realizes settings w r p) (real' : Realizes settings' w r' p')
    (hq : q ∈ r.requests settings) (hq' : q' ∈ r'.requests settings')
    (alike : q.Alike settings settings' w r r' q') : p.AgreesOn p' q := by
  have hskipped := real.mem_skipped_iff hq
  have hskipped' := real'.mem_skipped_iff hq'
  rw [← alike.skipped_eq, ← alike.answer_eq] at hskipped'
  obtain ⟨_ | a, ha⟩ := real.answered q hq
  · exact .inl ⟨hskipped.2 ha, hskipped'.2 ha⟩
  · right
    have ha' : q'.answer settings' w = .ok (some a) := alike.answer_eq.symm.trans ha
    refine ⟨by simp [hskipped, ha], by simp [hskipped', ha],
      ⟨a.source, real.generator_of_answer hq ha, ?_⟩, real.exists_library real' hq hq' alike ha, ?_⟩
    · rw [alike.generatorName_eq]
      exact real'.generator_of_answer hq' ha'
    · rw [real.state?_of_emitted (Registry.mem_emitted_of_answer hq ha), alike.moduleName_eq,
        alike.backend_eq, real'.state?_of_emitted (Registry.mem_emitted_of_answer hq' ha')]

end Realizes

end Plan

/-! ## Footprints -/

/-- **Registries that do not differ in what an interface depends on.** Both have the interface, and
every interface that is named by any of its imports, current or recorded, has the same versions in
both. -/
structure Registry.SameFootprint (r r' : Registry) (i : Interface) : Prop where
  mem : i ∈ r.interfaces
  mem' : i ∈ r'.interfaces
  imported : ∀ reference ∈ i.declaredImports, ∀ j j',
    r.get? (Import.split reference).1 = some j → r'.get? (Import.split reference).1 = some j' →
      j.unstable = j'.unstable ∧ j.frozenVersions = j'.frozenVersions

/-- The requests for an interface are alike in registries with the same footprint. -/
theorem Registry.SameFootprint.alike {i : Interface} (same : r.SameFootprint r' i)
    (hq : q ∈ i.requests settings) : q.Alike settings settings w r r' q where
  answer_eq := rfl
  interface := ⟨rfl, rfl, rfl⟩
  version_eq := rfl
  backend_eq := rfl
  importsFor_eq := rfl
  imported := by
    intro reference hreference j j' hj hj'
    obtain rfl := Interface.interface_of_mem_requests hq
    obtain ⟨hunstable, hfrozen⟩ := same.imported reference
      (Interface.importsFor_subset _ _ hreference) j j' hj hj'
    exact ⟨(r.sound _ j hj).1.trans (r'.sound _ j' hj').1.symm, hunstable, hfrozen⟩

namespace Plan

/-- **The footprint of an interface determines what plans hold for it**: the source generators, the
libraries, the implementations and the skipped requests, whatever else the registries hold. -/
theorem agreesOn_of_sameFootprint {i : Interface} (hp : ofRegistry settings w r = .ok p)
    (hp' : ofRegistry settings w r' = .ok p') (same : r.SameFootprint r' i) :
    ∀ q ∈ i.requests settings, p.AgreesOn p' q := by
  intro q hq
  have hinterface := Interface.interface_of_mem_requests hq
  have hrequest : q ∈ r.requests settings :=
    Registry.mem_requests_iff.2 (by rw [hinterface]; exact ⟨same.mem, hq⟩)
  have hrequest' : q ∈ r'.requests settings :=
    Registry.mem_requests_iff.2 (by rw [hinterface]; exact ⟨same.mem', hq⟩)
  exact (realizes hp).agreesOn (realizes hp') hrequest hrequest' (same.alike hq)

/-- The interfaces of the sample, where the imported one is declared differently and imports a third
one. -/
def extendedInterfaces : List Interface := [
  sampleInterfaces[0],
  { name := "bar", unstable := true, srcs := ["Bar.aidl", "Baz.aidl"], imports := ["baz"]
    stability := some "vintf", backend := { cppOnly with cpp := {} } },
  { name := "baz", srcs := ["Baz.aidl"], backend := cppOnly }]

theorem extended_sample_agrees :
    ∃ p p', ofRegistry {} sampleTree (registryOf sampleInterfaces) = .ok p
      ∧ ofRegistry {} sampleTree (registryOf extendedInterfaces) = .ok p'
      ∧ ∀ q ∈ sampleInterfaces[0].requests {}, p.AgreesOn p' q := by
  have hok : (ofRegistry {} sampleTree (registryOf sampleInterfaces)).isOk = true := by
    decide +kernel
  have hok' : (ofRegistry {} sampleTree (registryOf extendedInterfaces)).isOk = true := by
    decide +kernel
  obtain ⟨p, hp⟩ := Outcome.exists_ok_of_isOk hok
  obtain ⟨p', hp'⟩ := Outcome.exists_ok_of_isOk hok'
  have himports : sampleInterfaces[0].declaredImports = ["bar"] := by decide
  have hbar : (registryOf sampleInterfaces).get? (Import.split "bar").1
      = some sampleInterfaces[1] := by
    decide +kernel
  have hbar' : (registryOf extendedInterfaces).get? (Import.split "bar").1
      = some extendedInterfaces[1] := by
    decide +kernel
  refine ⟨p, p', hp, hp', agreesOn_of_sameFootprint hp hp' ⟨?_, ?_, ?_⟩⟩
  · decide +kernel
  · decide +kernel
  · rw [himports]
    intro reference hreference j j' hj hj'
    obtain rfl := List.mem_singleton.1 hreference
    obtain rfl := Option.some.inj (hbar.symm.trans hj)
    obtain rfl := Option.some.inj (hbar'.symm.trans hj')
    decide

end Plan

end InterfacePlan
