import InterfacePlan.Proofs.Plan.Links
/-!
# The imports of a request

The imports of an interface version are used twice. The source generator gets them as they are
declared, when the request is answered. The library links what they stand for, when all interfaces
are known. Both times they are those of the version that was requested: the current ones for the
version in development, and the recorded ones for a frozen version.

## Main definitions

* `Request.Declares`: the library as its backend declares it
* `Request.ResolvesTo`: the library that an import is resolved to
* `Backend.Finishes`: what a library links once it is finished

## Main results

* `Plan.imports_of_requests`: what the source generator and the library of a request make of its
  imports
-/

namespace InterfacePlan

/-- **The library as its backend declares it**, in answer to a request. -/
def Request.Declares (settings : Settings) (w : WorkingTree) (q : Request)
    (declared : Placeholder) : Prop :=
  ∃ sources, Sources.select settings w q.interface q.version = .ok sources
    ∧ (q.blueprint settings sources).product = .ok (.library declared)

/-- **The library that an import of a request is resolved to**: the versioned name that it has at
the requested version, with the backend behind it. -/
def Request.ResolvesTo (r : Registry) (q : Request) (reference dependency : String) : Prop :=
  ∃ imported name, r.get? (Import.split reference).1 = some imported
    ∧ Import.resolve q.interface q.version imported reference = .ok name
    ∧ dependency = name ++ "-" ++ q.backend.text

/-- **What a library links once it is finished**, given its declaration and the libraries for its
imports. Native libraries link these behind the declared ones, export them alike, and stay on their
side of the boundary between system and vendor. Other libraries link nothing else. -/
def Backend.Finishes (injected : List String) (declared finished : ModuleKind) : Backend → Prop
  | .cpp | .ndk => ∃ d f, declared = .nativeLibrary d ∧ finished = .nativeLibrary f
      ∧ f.sharedLibs = d.sharedLibs ++ injected
      ∧ f.exportSharedLibHeaders = d.exportSharedLibHeaders ++ injected
      ∧ f.mustUseVendorVariant = true
  | .java => ∃ d f, declared = .managedLibrary d ∧ finished = .managedLibrary f
      ∧ f.staticLibs = injected
  | .rust => ∃ d f, declared = .memorySafeLibrary d ∧ finished = .memorySafeLibrary f
      ∧ f.rustlibs = injected
  | .analyzer => False

variable {settings : Settings} {w : WorkingTree} {r : Registry} {q : Request} {p : Plan}

theorem Backend.finishes_of_linking? {kind linked : ModuleKind} {backend : Backend}
    {injected : List String} (hsuits : kind.suits backend = true) (hb : backend ≠ .analyzer)
    (hlinked : kind.linking? injected = some linked) :
    backend.Finishes injected kind linked := by
  cases backend with
  | analyzer => contradiction
  | cpp | ndk =>
    cases kind with
    | nativeLibrary d =>
      cases hlinked
      exact ⟨d, _, rfl, rfl, rfl, rfl, rfl⟩
    | _ => cases hsuits
  | java =>
    cases kind with
    | managedLibrary d =>
      cases hlinked
      exact ⟨d, _, rfl, rfl, rfl⟩
    | _ => cases hsuits
  | rust =>
    cases kind with
    | memorySafeLibrary d =>
      cases hlinked
      exact ⟨d, _, rfl, rfl, rfl⟩
    | _ => cases hsuits

namespace Request

/-- What an answer consists of is what the backend declares. -/
theorem declares_of_answer {a : Answer} {declared : Placeholder}
    (ha : q.answer settings w = .ok (some a)) (hproduct : a.product = .library declared) :
    q.Declares settings w declared := by
  obtain ⟨sources, hsources, -, -, hblueprint⟩ := answer_eq_some_iff.1 ha
  exact ⟨sources, hsources, hblueprint.trans (congrArg Except.ok hproduct)⟩

/-- An import is linked by the library that it is resolved to. -/
theorem LinksFor.resolvesTo {reference dependency : String}
    (h : q.LinksFor r reference dependency) : q.ResolvesTo r reference dependency := by
  obtain ⟨imported, himported, -, rfl⟩ := h
  exact ⟨imported, _, himported, Import.resolve_eq, rfl⟩

end Request

namespace Plan

/-- The source generator of an emitted request gets the imports as they are declared. -/
theorem Realizes.exists_source (real : Realizes settings w r p) (hq : q ∈ r.emitted settings w) :
    ∃ source : SourceGenerator,
      p.graph.module? q.generatorName = some ⟨q.generatorName, .sourceGenerator source⟩
        ∧ source.imports = q.interface.importsFor q.version := by
  obtain ⟨hr, a, ha⟩ := real.exists_answer_of_emitted hq
  obtain ⟨source, hsource, -, himports⟩ := Request.source_of_answer ha
  rw [← Request.generatorName_eq] at hsource
  exact ⟨source, by rw [real.generator_of_answer hr ha, hsource], himports⟩

/-- **What becomes of the imports of a request.** The source generator gets them as they are
declared for the requested version. The finished library links, beside what its backend declared for
it, the libraries that they are resolved to at this version, in the same order and as often. -/
theorem imports_of_requests (hp : ofRegistry settings w r = .ok p) :
    ∀ q ∈ r.emitted settings w, q.backend ≠ .analyzer →
      (∃ source : SourceGenerator,
        p.graph.module? q.sourceName = some ⟨q.sourceName, .sourceGenerator source⟩
          ∧ source.imports = q.interface.importsFor q.version)
      ∧ ∃ declared finished injected,
          q.Declares settings w declared
            ∧ p.graph.state? (q.libraryName ++ "-generator") = some (.finished q.libraryName)
            ∧ p.graph.module? q.libraryName = some ⟨q.libraryName, finished⟩
            ∧ q.backend.Finishes injected declared.library.kind finished
            ∧ List.Forall₂ (q.ResolvesTo r) (q.interface.importsFor q.version) injected := by
  intro q hq hb
  have real := realizes hp
  constructor
  · have hname : q.generatorName = q.sourceName := if_neg hb
    rw [← hname]
    exact real.exists_source hq
  · obtain ⟨a, kind, linked, injected, ha, hproduct, hsuits, hlinked, hlibrary, hlinks⟩ :=
      real.exists_completed hq hb
    exact ⟨q.placeholder kind, linked, injected, Request.declares_of_answer ha hproduct,
      real.state?_iff.2 ⟨q, hq, hb, rfl, rfl⟩, hlibrary,
      Backend.finishes_of_linking? hsuits hb hlinked,
      hlinks.imp fun _ _ hlink => hlink.resolvesTo⟩

/-- An interface with an import that is recorded twice for the frozen version, and that is not among
the current ones any more. -/
def recordedInterfaces : List Interface := [
  { name := "foo", versionsWithInfo := [{ version := "1", imports := ["baz", "baz"] }]
    srcs := ["Foo.aidl"], backend := { cppOnly with cpp := {} } },
  { name := "baz", versionsWithInfo := [{ version := "1" }]
    srcs := ["Baz.aidl"], backend := { cppOnly with cpp := {} } }]

/-- A file tree with a definition in the snapshot of the importing interface. -/
def recordedTree : WorkingTree :=
  ⟨(FileTree.addFile ∅ ["aidl_api", "foo", "1", "Foo.aidl"] "").addDirectory
    ["aidl_api", "baz", "1"], []⟩

/-- The request for the frozen version. -/
def recordedRequest : Request := recordedInterfaces[0].request {} "1" .cpp

theorem imports_of_recorded_request :
    ∃ p, ofRegistry {} recordedTree (registryOf recordedInterfaces) = .ok p
      ∧ (∃ source : SourceGenerator,
          p.graph.module? "foo-V1-cpp-source" = some ⟨"foo-V1-cpp-source", .sourceGenerator source⟩
            ∧ source.imports = ["baz", "baz"])
      ∧ ∃ finished : NativeBinary,
          p.graph.module? "foo-V1-cpp" = some ⟨"foo-V1-cpp", .nativeLibrary finished⟩
            ∧ finished.sharedLibs = ["libbinder", "libutils", "baz-V1-cpp", "baz-V1-cpp"]
            ∧ finished.exportSharedLibHeaders
                = ["libbinder", "libutils", "baz-V1-cpp", "baz-V1-cpp"]
            ∧ finished.mustUseVendorVariant = true := by
  have hok : (ofRegistry {} recordedTree (registryOf recordedInterfaces)).isOk = true := by
    decide +kernel
  obtain ⟨p, hp⟩ := Outcome.exists_ok_of_isOk hok
  have hrequest : recordedRequest ∈ (registryOf recordedInterfaces).emitted {} recordedTree := by
    decide +kernel
  obtain ⟨⟨source, hsource, himports⟩, declared, finished, injected, hdeclared, -, hlibrary,
    hfinishes, hresolved⟩ := imports_of_requests hp _ hrequest (by decide)
  have hrecorded : recordedRequest.interface.importsFor recordedRequest.version
      = ["baz", "baz"] := by
    decide +kernel
  rw [hrecorded] at himports hresolved
  refine ⟨p, hp, ⟨source, hsource, himports⟩, ?_⟩
  have hbaz : ∀ dependency, recordedRequest.ResolvesTo (registryOf recordedInterfaces) "baz"
      dependency → dependency = "baz-V1-cpp" := by
    rintro dependency ⟨imported, name, himported, hname, rfl⟩
    have hget : (registryOf recordedInterfaces).get? (Import.split "baz").1
        = some recordedInterfaces[1] := by
      decide +kernel
    obtain rfl := Option.some.inj (hget.symm.trans himported)
    have hfrozen : Import.resolve recordedInterfaces[0] "1" recordedInterfaces[1] "baz"
        = .ok "baz-V1" := by
      decide +kernel
    obtain rfl := Except.ok.inj (hfrozen.symm.trans hname)
    rfl
  obtain _ | ⟨hfirst, _ | ⟨hsecond, _ | _⟩⟩ := hresolved
  obtain rfl := hbaz _ hfirst
  obtain rfl := hbaz _ hsecond
  obtain ⟨d, f, hd, rfl, hshared, hexported, hvendor⟩ := hfinishes
  obtain ⟨sources, -, hproduct⟩ := hdeclared
  change (Native.cpp {} recordedRequest sources).product = _ at hproduct
  simp only [Native.cpp, Outcome.map_eq_ok_iff] at hproduct
  obtain ⟨layer, -, hproduct⟩ := hproduct
  obtain rfl := Product.library.inj hproduct
  obtain rfl := ModuleKind.nativeLibrary.inj hd
  exact ⟨f, hlibrary, hshared, hexported, hvendor⟩

end Plan

end InterfacePlan
