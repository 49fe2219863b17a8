import InterfacePlan.Proofs.Plan.Links
import InterfacePlan.Proofs.Plan.SkippedNames
/-!
# What analyzers link

The tool for the analyzer links the cpp library of the version in development. The link is written
when the tool is created: by name, and before the library exists. The library is requested whenever
the tool is, from the same sources, so the two are skipped together. Every plan that has the tool
therefore also has the library.

## Main definitions

* `Request.IsFinishedNative`: a native library that the placeholder of a request became

## Main results

* `Plan.Realizes.exists_request_of_analyzer`: where the tools of a plan come from
* `Registry.emitted_cpp_of_analyzer`: the library is requested whenever the tool is
* `Plan.analyzer_links_library`: every tool links a library of the plan
-/

namespace InterfacePlan

/-! ## Requests for tools and for their libraries -/

namespace Request

variable {settings : Settings} {w : WorkingTree} {q : Request} {a : Answer}

/-- The answer to a request for the analyzer, with all properties of the tool. -/
theorem analyzer_of_answer (ha : q.answer settings w = .ok (some a)) (hb : q.backend = .analyzer) :
    a.product = .tool ⟨Native.analyzerName q.interface, .analyzerBinary
      (Native.analyzerProperties settings q (Native.analyzerSourceName q.interface))⟩ := by
  obtain ⟨sources, -, -, -, hproduct⟩ := answer_eq_some_iff.1 ha
  simp only [blueprint, hb, Native.analyzer, Except.ok.injEq] at hproduct
  exact hproduct.symm

/-- **A native library that the placeholder of a request became**, in a graph in which the
placeholder is finished. -/
def IsFinishedNative (settings : Settings) (w : WorkingTree) (r : Registry) (g : ModuleGraph)
    (q : Request) (library : String) : Prop :=
  ∃ (a : Answer) (declared : Placeholder) (properties : NativeBinary),
    q.answer settings w = .ok (some a) ∧ a.product = .library declared
      ∧ declared.interface = q.interface.name ∧ declared.version = q.version
      ∧ declared.completed r = .ok ⟨library, .nativeLibrary properties⟩
      ∧ g.state? declared.name = some (.finished library)
      ∧ g.module? library = some ⟨library, .nativeLibrary properties⟩

end Request

theorem Interface.enables_cpp_of_analyzer {i : Interface} (h : i.enables .analyzer = true) :
    i.enables .cpp = true :=
  (Bool.and_eq_true_iff.1 h).1

theorem ModuleKind.exists_nativeLibrary_of_suits {kind : ModuleKind}
    (hs : kind.suits .cpp = true) : ∃ properties, kind = .nativeLibrary properties := by
  cases kind with
  | nativeLibrary properties => exact ⟨properties, rfl⟩
  | _ => cases hs

/-- **The library is requested whenever the tool is**, and neither of them is skipped alone. -/
theorem Registry.emitted_cpp_of_analyzer {settings : Settings} {w : WorkingTree} {r : Registry}
    {q : Request} (hq : q ∈ r.emitted settings w) (hb : q.backend = .analyzer) :
    q.interface ∈ r.interfaces ∧ q.interface.enables .cpp = true
      ∧ q.version = q.interface.nextVersion
      ∧ q.interface.request settings q.version .cpp ∈ r.emitted settings w := by
  obtain ⟨hr, hsources⟩ := List.mem_filter.1 hq
  obtain ⟨hi, hr⟩ := Registry.mem_requests_iff.1 hr
  obtain ⟨version, backend, hv, hgenerates, heq⟩ := Interface.mem_requests.1 hr
  obtain rfl : version = q.version := (congrArg Request.version heq).symm
  obtain rfl : backend = .analyzer := (congrArg Request.backend heq).symm.trans hb
  obtain ⟨henables, hnext⟩ := Interface.generates_analyzer_iff.1 hgenerates
  have hcpp := Interface.enables_cpp_of_analyzer henables
  have hlibrary : q.interface.generates q.version .cpp = true := by
    simp [Interface.generates, hcpp]
  refine ⟨hi, hcpp, hnext, List.mem_filter.2 ⟨?_, ?_⟩⟩
  · exact Registry.mem_requests_iff.2 ⟨hi, Interface.mem_requests.2 ⟨_, _, hv, hlibrary, rfl⟩⟩
  · exact hsources

namespace Plan

variable {settings : Settings} {w : WorkingTree} {r : Registry} {p : Plan} {name : String}
  {m : Module} {properties : NativeBinary}

/-! ## The tools of a plan -/

/-- **Where the tools of a plan come from**: each is the answer to a request for the analyzer. -/
theorem Realizes.exists_request_of_analyzer (real : Realizes settings w r p)
    (hm : p.graph.module? name = some m) (hkind : m.kind = .analyzerBinary properties) :
    ∃ q ∈ r.emitted settings w, q.backend = .analyzer ∧ name = Native.analyzerName q.interface
      ∧ properties
        = Native.analyzerProperties settings q (Native.analyzerSourceName q.interface) := by
  obtain ⟨q, hq, rfl, hsuits⟩ := real.exists_request_of_module hm (by simp [hkind])
  have hb : q.backend = .analyzer := ModuleKind.suits_analyzerBinary_iff.1 (hkind ▸ hsuits)
  obtain ⟨hr, a, ha⟩ := real.exists_answer_of_emitted hq
  have htool := real.module?_of_answer hr ha (m := ⟨Native.analyzerName q.interface,
    .analyzerBinary (Native.analyzerProperties settings q (Native.analyzerSourceName q.interface))⟩)
    (by simp [Answer.modules, Request.analyzer_of_answer ha hb])
  have hname : q.moduleName = Native.analyzerName q.interface := if_pos hb
  rw [← hname] at htool
  obtain rfl := Option.some.inj (hm.symm.trans htool)
  exact ⟨q, hq, hb, hname, (ModuleKind.analyzerBinary.inj hkind).symm⟩

/-- The native library of an emitted request is finished. -/
theorem Realizes.isFinishedNative (real : Realizes settings w r p) {q : Request}
    (hq : q ∈ r.emitted settings w) (hb : q.backend = .cpp) :
    q.IsFinishedNative settings w r p.graph q.libraryName := by
  have hne : q.backend ≠ .analyzer := by simp [hb]
  obtain ⟨a, kind, linked, injected, ha, hproduct, hsuits, hlinked, hmodule, hlinks⟩ :=
    real.exists_completed hq hne
  obtain ⟨hr, -⟩ := List.mem_filter.1 hq
  have himports : (q.placeholder kind).importedLibraries r = .ok injected :=
    (Request.importedLibraries_eq_ok_iff (Registry.mem_requests_iff.1 hr).1
      (Registry.version_mem_of_mem_requests hr)).2 hlinks
  obtain ⟨properties, rfl⟩ := ModuleKind.exists_nativeLibrary_of_suits
    (hb ▸ ModuleKind.suits_of_linking? hlinked hsuits)
  refine ⟨a, q.placeholder kind, properties, ha, hproduct, rfl, rfl, ?_, ?_, hmodule⟩
  · exact Placeholder.completed_eq_ok_iff.2 ⟨injected, _, himports, hlinked, rfl⟩
  · exact real.state?_iff.2 ⟨q, hq, hne, rfl, rfl⟩

/-- **Every tool links a library of the plan.** The tool belongs to an interface that enables the
cpp backend, and is named after it. The last library that it links is the cpp library of the version
in development, which is a native library of the plan: the placeholder of this interface and version
is finished with it. -/
theorem analyzer_links_library (hp : ofRegistry settings w r = .ok p)
    (hm : p.graph.module? name = some m) (hkind : m.kind = .analyzerBinary properties) :
    ∃ i ∈ r.interfaces, i.enables .cpp = true ∧ name = i.name ++ "-cpp-analyzer"
      ∧ properties.sharedLibs.getLast? = some (i.versionedName i.nextVersion ++ "-cpp")
      ∧ (i.request settings i.nextVersion .cpp).IsFinishedNative settings w r p.graph
          (i.versionedName i.nextVersion ++ "-cpp") := by
  have real := realizes hp
  obtain ⟨q, hq, hb, rfl, rfl⟩ := real.exists_request_of_analyzer hm hkind
  obtain ⟨hi, hcpp, hnext, hemitted⟩ := Registry.emitted_cpp_of_analyzer hq hb
  rw [hnext] at hemitted
  have hlibrary : (q.interface.request settings q.interface.nextVersion .cpp).libraryName
      = q.interface.versionedName q.interface.nextVersion ++ "-cpp" := String.append_assoc ..
  refine ⟨q.interface, hi, hcpp, ?_, ?_, hlibrary ▸ real.isFinishedNative hemitted rfl⟩
  · rw [Native.analyzerName, Interface.versionedName_unversioned, String.append_assoc]
    rfl
  · rw [Native.analyzerProperties, List.getLast?_append, ← hlibrary, hnext]
    rfl

theorem analyzer_links_library_of_sample :
    ∃ p, ofRegistry {} sampleTree (registryOf sampleInterfaces) = .ok p
      ∧ ∃ m properties, p.graph.module? "foo-cpp-analyzer" = some m
        ∧ m.kind = .analyzerBinary properties
        ∧ properties.sharedLibs.getLast? = some "foo-V2-cpp"
        ∧ ∃ library,
            p.graph.module? "foo-V2-cpp" = some ⟨"foo-V2-cpp", .nativeLibrary library⟩ := by
  have hok : (ofRegistry {} sampleTree (registryOf sampleInterfaces)).isOk = true := by
    decide +kernel
  obtain ⟨p, hp⟩ := Outcome.exists_ok_of_isOk hok
  have hemitted : ∃ q ∈ (registryOf sampleInterfaces).emitted {} sampleTree,
      q.moduleName = "foo-cpp-analyzer" ∧ q.backend = .analyzer := by decide +kernel
  have hfoo : ∀ i ∈ (registryOf sampleInterfaces).interfaces,
      "foo-cpp-analyzer" = i.name ++ "-cpp-analyzer" →
        i.versionedName i.nextVersion ++ "-cpp" = "foo-V2-cpp" := by decide +kernel
  obtain ⟨q, hq, hname, hb⟩ := hemitted
  obtain ⟨-, kind, -, -, hm, hsuits, -⟩ := (realizes hp).isBuiltIn hq
  rw [hb] at hsuits
  obtain ⟨properties, rfl⟩ := Request.exists_analyzerBinary_of_suits hsuits
  rw [hname] at hm
  obtain ⟨i, hi, -, hi', hlast, _, _, library, -, -, -, -, -, -, hlibrary⟩ :=
    analyzer_links_library hp hm rfl
  rw [hfoo i hi hi'] at hlast hlibrary
  exact ⟨p, hp, _, properties, hm, rfl, hlast, library, hlibrary⟩

end Plan

end InterfacePlan
