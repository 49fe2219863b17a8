import InterfacePlan.Proofs.ModuleGraph.Growth
import InterfacePlan.Proofs.Plan.Accounting
/-!
# Names of skipped requests

A request without sources is listed under a library name, so that links to the missing library can
be told from other ones. The name is made up from the versioned name, as those of libraries are. The
tool for the analyzer has no version in its name, though, so for a stable interface the list names a
tool that would not have been built under this name.

## Main definitions

* `Request.Creates`: a request created a library or tool of some name

## Main results

* `Request.creates_iff`: the name that a request creates, whatever its sources
* `Draft.library_of_skipped`: whether the listed name is the one that would have been created
* `Draft.misnamed_analyzer`: a tool that is listed under another name
-/

namespace InterfacePlan

namespace Request

variable {settings : Settings} {q : Request} {sources : Sources} {g h : ModuleGraph}
  {product library : String}

/-- **A request created a library or tool**: the tool stands in the graph, or a placeholder that
waits to become the library. -/
def Creates (q : Request) (g : ModuleGraph) (product library : String) : Prop :=
  if q.backend = .analyzer then
    product = library ∧ ∃ properties, g.module? library = some ⟨library, .analyzerBinary properties⟩
  else ∃ p : Placeholder, g.state? product = some (.declared p) ∧ p.library.name = library

theorem exists_analyzerBinary_of_suits {kind : ModuleKind} (hs : kind.suits .analyzer = true) :
    ∃ properties, kind = .analyzerBinary properties := by
  cases kind with
  | analyzerBinary properties => exact ⟨properties, rfl⟩
  | _ => cases hs

/-- **The name that a request creates**, whatever the sources and the graph that it is entered
in. -/
theorem creates_iff (hi : g.install (q.blueprint settings sources) = (h, .ok product)) :
    q.Creates h product library ↔ library = q.moduleName := by
  obtain ⟨whole, hproduct, henter, rfl⟩ := ModuleGraph.install_eq_ok_iff.1 hi
  obtain ⟨k, -, hadd⟩ := Outcome.bind_eq_ok_iff.1 henter
  unfold Creates
  by_cases hb : q.backend = .analyzer
  · obtain ⟨kind, rfl, hsuits, -⟩ := tool_of_product hb hproduct
    rw [hb] at hsuits
    obtain ⟨properties, rfl⟩ := exists_analyzerBinary_of_suits hsuits
    have htool := ((ModuleGraph.gains_create hadd).module?_iff (q.nameOf .library)
      ⟨q.nameOf .library, .analyzerBinary properties⟩).2 (.inr ⟨List.mem_singleton.2 rfl, rfl⟩)
    rw [if_pos hb, moduleName_eq]
    constructor
    · rintro ⟨rfl, -⟩
      rfl
    · rintro rfl
      exact ⟨rfl, properties, htool⟩
  · obtain ⟨kind, rfl, -⟩ := library_of_product hb hproduct
    have hplaceholder := ((ModuleGraph.gains_declare hadd).1.state?_iff (q.placeholder kind).name
      (.declared (q.placeholder kind))).2 (.inr (List.mem_singleton.2 rfl))
    rw [if_neg hb, moduleName_of_ne hb]
    constructor
    · rintro ⟨p, hp, rfl⟩
      rw [Product.name, hplaceholder] at hp
      cases hp
      rfl
    · rintro rfl
      exact ⟨_, hplaceholder, rfl⟩

/-- A request creates something in an empty graph, unless it is for a native library and the version
for the VNDK is not known. -/
theorem exists_install (hvndk : q.backend = .cpp ∨ q.backend = .ndk →
    ∃ selected, q.interface.isForVndk q.version = .ok selected) :
    ∃ h product, ModuleGraph.install ∅ (q.blueprint settings sources) = (h, .ok product) := by
  obtain ⟨whole, hproduct⟩ := exists_product_iff.2 hvndk
  obtain ⟨h, hh⟩ := ModuleGraph.Holds.empty.exists_enter (nodup_names_of_product hproduct)
    fun name _ => List.not_mem_nil
  exact ⟨h, whole.name, ModuleGraph.install_eq_ok_iff.2 ⟨whole, hproduct, hh, rfl⟩⟩

/-- **Whether the name made up for a request is the one that it creates.** The analyzer is requested
for the version in development, which is part of the name that is made up unless the interface is
unstable. -/
theorem libraryName_eq_moduleName_iff {i : Interface} (hq : q ∈ i.requests settings) :
    q.libraryName = q.moduleName ↔ q.backend ≠ .analyzer ∨ i.unstable = true := by
  by_cases hb : q.backend = .analyzer
  · have hversion : q.version = i.nextVersion := by
      obtain ⟨version, backend, -, hgenerates, rfl⟩ := Interface.mem_requests.1 hq
      obtain rfl : backend = .analyzer := hb
      exact (Interface.generates_analyzer_iff.1 hgenerates).2
    rw [moduleName, if_pos hb, libraryName, Native.analyzerName, hb, String.append_left_inj,
      String.append_left_inj, Interface.interface_of_mem_requests hq, hversion,
      (Interface.versionedName_injective i).eq_iff, Interface.nextVersion_eq_unversioned_iff]
    simp
  · simp [moduleName_of_ne hb, hb]

end Request

namespace Draft

variable {settings : Settings} {w : WorkingTree} {i : Interface} {d : Draft} {s : SkippedRequest}

/-- **Whether the listed name is the one that would have been created.** Every entry of the list is
a request without sources. From any sources it would have created a single library or tool, and the
entry has its name, unless this is the tool for the analyzer of a stable interface. -/
theorem library_of_skipped (hd : ofInterface settings w i = (d, .ok ())) (hs : s ∈ d.skipped) :
    ∃ q ∈ i.requests settings, s = q.skipped ∧ q.lacksSources settings w = true
      ∧ ∀ sources,
        ((q.backend = .cpp ∨ q.backend = .ndk →
            ∃ selected, i.isForVndk q.version = .ok selected) →
          ∃ h product,
            ModuleGraph.install ∅ (q.blueprint settings sources) = (h, .ok product))
        ∧ ∀ g h product, ModuleGraph.install g (q.blueprint settings sources) = (h, .ok product) →
          (∃! library, q.Creates h product library)
            ∧ (q.Creates h product s.library ↔ s.backend ≠ .analyzer ∨ i.unstable = true) := by
  rw [(AccountsFor.ofInterface hd).skipped_eq, List.mem_map] at hs
  obtain ⟨q, hq, rfl⟩ := hs
  obtain ⟨hq, hlacks⟩ := List.mem_filter.1 hq
  refine ⟨q, hq, rfl, hlacks, fun sources => ⟨fun hvndk => ?_, fun g h product hi => ⟨?_, ?_⟩⟩⟩
  · rw [← Interface.interface_of_mem_requests hq] at hvndk
    exact Request.exists_install hvndk
  · exact ⟨q.moduleName, (Request.creates_iff hi).2 rfl,
      fun library hlibrary => (Request.creates_iff hi).1 hlibrary⟩
  · rw [Request.creates_iff hi]
    exact Request.libraryName_eq_moduleName_iff hq

/-- A stable interface that was never frozen, for which a library and the analyzer are built. There
are no sources for them yet. -/
def analyzed : Interface := { name := "foo", backend := Plan.cppOnly }

/-- The draft of the interface lists both requests as skipped. -/
theorem skipped_of_analyzed : ∃ d, ofInterface {} ⟨∅, []⟩ analyzed = (d, .ok ())
    ∧ d.skipped = [⟨"foo", "1", .cpp, "foo-V1-cpp"⟩,
        ⟨"foo", "1", .analyzer, "foo-V1-cpp-analyzer"⟩] := by
  have hok : (ofInterface {} ⟨∅, []⟩ analyzed).2 = .ok () := by decide +kernel
  exact ⟨_, Prod.ext rfl hok, by decide +kernel⟩

theorem library_of_skipped_cpp : ∃ q ∈ analyzed.requests {}, q.backend = .cpp ∧ ∀ sources,
    ∃ h product, ModuleGraph.install ∅ (q.blueprint {} sources) = (h, .ok product)
      ∧ q.Creates h product "foo-V1-cpp" := by
  obtain ⟨d, hd, hskipped⟩ := skipped_of_analyzed
  have hs : ⟨"foo", "1", .cpp, "foo-V1-cpp"⟩ ∈ d.skipped := by simp [hskipped]
  obtain ⟨q, hq, heq, -, hcreates⟩ := library_of_skipped hd hs
  have hb : q.backend = .cpp := (congrArg SkippedRequest.backend heq).symm
  have hversion : q.version = "1" := (congrArg SkippedRequest.version heq).symm
  have hvndk : analyzed.isForVndk "1" = .ok true := by decide +kernel
  refine ⟨q, hq, hb, fun sources => ?_⟩
  obtain ⟨hexists, hname⟩ := hcreates sources
  obtain ⟨h, product, hi⟩ := hexists fun _ => ⟨true, by rw [hversion, hvndk]⟩
  exact ⟨h, product, hi, (hname ∅ h product hi).2.2 (.inl (by decide))⟩

/-- **The tool for the analyzer of a stable interface is listed under another name** than it would
have been created with. -/
theorem misnamed_analyzer : (Registry.ofList [analyzed]).isOk = true
    ∧ ∃ d, ofInterface {} ⟨∅, []⟩ analyzed = (d, .ok ())
    ∧ ∃ q ∈ analyzed.requests {}, q.skipped ∈ d.skipped ∧ ∀ sources,
        ∃ h product, ModuleGraph.install ∅ (q.blueprint {} sources) = (h, .ok product)
          ∧ q.Creates h product "foo-cpp-analyzer"
          ∧ ¬q.Creates h product q.skipped.library := by
  obtain ⟨d, hd, hskipped⟩ := skipped_of_analyzed
  refine ⟨by decide +kernel, d, hd, analyzed.request {} "1" .analyzer, by decide +kernel, ?_,
    fun sources => ?_⟩
  · rw [hskipped]
    decide +kernel
  · obtain ⟨h, product, hi⟩ : ∃ h product, ModuleGraph.install ∅
        ((analyzed.request {} "1" .analyzer).blueprint {} sources) = (h, .ok product) :=
      Request.exists_install (by rintro (hb | hb) <;> cases hb)
    refine ⟨h, product, hi, (Request.creates_iff hi).2 (by decide +kernel), ?_⟩
    rw [Request.creates_iff hi]
    decide +kernel

end Draft

end InterfacePlan
