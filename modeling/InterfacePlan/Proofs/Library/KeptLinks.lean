import InterfacePlan.Proofs.Library.StepwiseCompletion
/-!
# What completion keeps of a library

A placeholder holds the library that it becomes, and completion links the imported libraries. All
other properties of the library stay. A native library keeps its own links, in front of those to the
imported libraries; the links of any other library are replaced by them. The answers to requests
declare such libraries without links, so in a plan nothing is lost.

## Main definitions

* `ModuleKind.SameButLinks`: libraries that differ in their links only
* `ModuleKind.exportedHeaders`: the libraries whose headers a module exports

## Main results

* `ModuleKind.dependencies_of_linking?_iff`: which libraries keep their own links
* `ModuleGraph.kept_of_complete`: what is kept of the library of any placeholder
* `ModuleGraph.lost_link`: a library that loses a link
* `Request.keeps_links_of_answer`: the libraries of answers keep their links
-/

namespace InterfacePlan

namespace ModuleKind

/-! ## Linking imports -/

/-- Whether a module is a native library. -/
def isNative : ModuleKind → Bool
  | nativeLibrary _ => true
  | _ => false

/-- The libraries whose headers a module exports. -/
def exportedHeaders : ModuleKind → List String
  | nativeLibrary p | analyzerBinary p => p.exportSharedLibHeaders
  | sourceGenerator _ | managedLibrary _ | memorySafeLibrary _ => []

/-- **Libraries that differ in their links only.** The second one of two native libraries is built
on its own side of the boundary between system and vendor. -/
inductive SameButLinks : ModuleKind → ModuleKind → Prop
  | native (p : NativeBinary) (links headers : List String) :
    SameButLinks (nativeLibrary p) (nativeLibrary { p with
      sharedLibs := links, exportSharedLibHeaders := headers, mustUseVendorVariant := true })
  | managed (p : ManagedLibrary) (links : List String) :
    SameButLinks (managedLibrary p) (managedLibrary { p with staticLibs := links })
  | memorySafe (p : MemorySafeLibrary) (links : List String) :
    SameButLinks (memorySafeLibrary p) (memorySafeLibrary { p with rustlibs := links })

variable {kind linked : ModuleKind} {imports : List String}

theorem sameButLinks_of_linking? (hl : kind.linking? imports = some linked) :
    kind.SameButLinks linked := by
  cases kind with
  | nativeLibrary p =>
    obtain rfl := Option.some.inj hl
    exact .native p _ _
  | managedLibrary p =>
    obtain rfl := Option.some.inj hl
    exact .managed p _
  | memorySafeLibrary p =>
    obtain rfl := Option.some.inj hl
    exact .memorySafe p _
  | sourceGenerator p => cases hl
  | analyzerBinary p => cases hl

theorem exportedHeaders_of_linking? (hl : kind.linking? imports = some linked) :
    linked.exportedHeaders = kind.exportedHeaders ++ if kind.isNative then imports else [] := by
  cases kind <;> cases hl <;> rfl

/-- Of the kinds that link imports, only native libraries keep their own links. -/
theorem declaredDependencies_of_linking? (hl : kind.linking? imports = some linked) :
    kind.declaredDependencies = if kind.isNative then kind.dependencies else [] := by
  cases kind <;> cases hl <;> rfl

/-- **Which libraries keep their own links**: native ones, and those that have none. -/
theorem dependencies_of_linking?_iff (hl : kind.linking? imports = some linked) :
    linked.dependencies = kind.dependencies ++ imports ↔
      kind.isNative = true ∨ kind.dependencies = [] := by
  rw [dependencies_of_linking? hl, List.append_left_inj, declaredDependencies_of_linking? hl]
  split
  case isTrue hnative => simp [hnative]
  case isFalse hnative => rw [or_iff_right hnative, eq_comm]

end ModuleKind

/-! ## Completing any placeholder -/

namespace ModuleGraph

variable {r : Registry} {g h : ModuleGraph} {p : Placeholder} {name library : String}

/-- The library that a completed placeholder became is in the graph. -/
theorem exists_linking?_of_complete (hp : g.state? name = some (.declared p))
    (hc : g.complete r name = .ok (h, library)) :
    ∃ imports kind, p.importedLibraries r = .ok imports
      ∧ p.library.kind.linking? imports = some kind ∧ library = p.library.name
      ∧ h.module? library = some ⟨library, kind⟩ := by
  obtain ⟨m, hname, completes⟩ := exists_completes_of_complete hc
  obtain ⟨p', hp', hm⟩ := completes.becomes _ (List.mem_singleton.2 rfl)
  obtain rfl : p = p' := by simpa [hp] using hp'
  obtain ⟨imports, kind, himports, hlinked, rfl⟩ := Placeholder.completed_eq_ok_iff.1 hm
  subst hname
  refine ⟨imports, kind, himports, hlinked, rfl, (completes.module?_iff _ _).2 (.inr ?_)⟩
  exact ⟨_, List.mem_singleton.2 rfl, rfl, rfl⟩

/-- **What is kept of the library of a placeholder.** The library that is entered in the graph is
the one that was declared, apart from its links. The imported libraries are the last ones that it
links; a native library also exports their headers, behind those that it exported before. Of the
links that were declared, a native library keeps all and any other one keeps none. So the links are
the declared ones and then the imported ones exactly if the library is native or was declared
without links. -/
theorem kept_of_complete (hp : g.state? name = some (.declared p))
    (hc : g.complete r name = .ok (h, library)) :
    library = p.library.name ∧ ∃ imports kind, p.importedLibraries r = .ok imports
      ∧ h.module? library = some ⟨library, kind⟩
      ∧ p.library.kind.SameButLinks kind
      ∧ kind.exportedHeaders
          = p.library.kind.exportedHeaders ++ (if p.library.kind.isNative then imports else [])
      ∧ kind.dependencies
          = (if p.library.kind.isNative then p.library.kind.dependencies else []) ++ imports
      ∧ (kind.dependencies = p.library.kind.dependencies ++ imports ↔
          p.library.kind.isNative = true ∨ p.library.kind.dependencies = []) := by
  obtain ⟨imports, kind, himports, hlinked, hname, hmodule⟩ := exists_linking?_of_complete hp hc
  refine ⟨hname, imports, kind, himports, hmodule, ModuleKind.sameButLinks_of_linking? hlinked,
    ModuleKind.exportedHeaders_of_linking? hlinked, ?_,
    ModuleKind.dependencies_of_linking?_iff hlinked⟩
  rw [ModuleKind.dependencies_of_linking? hlinked,
    ModuleKind.declaredDependencies_of_linking? hlinked]

/-- Two interfaces of which one imports the other. -/
def importedPair : Registry := (Registry.ofList [
  { name := "foo", unstable := true, imports := ["bar"] },
  { name := "bar", unstable := true }]).toOption.getD ∅

/-- A native library with a link of its own, as the importing interface may declare it. -/
def ownNative : Placeholder :=
  .ofLibrary .cpp "foo" unversioned ⟨"foo-cpp", .nativeLibrary { sharedLibs := ["own"] }⟩

/-- A managed library with a link of its own. -/
def ownManaged : Placeholder :=
  .ofLibrary .java "foo" unversioned ⟨"foo-java", .managedLibrary { staticLibs := ["own"] }⟩

/-- A graph with a single placeholder. -/
def waiting (p : Placeholder) : ModuleGraph := (declare ∅ p).toOption.getD ∅

theorem kept_of_native_library :
    ∃ h kind, (waiting ownNative).complete importedPair "foo-cpp-generator" = .ok (h, "foo-cpp")
      ∧ h.module? "foo-cpp" = some ⟨"foo-cpp", kind⟩ ∧ kind.dependencies = ["own", "bar-cpp"]
      ∧ kind.exportedHeaders = ["bar-cpp"] := by
  have hstate : (waiting ownNative).state? "foo-cpp-generator" = some (.declared ownNative) := by
    decide +kernel
  have hok : ((waiting ownNative).complete importedPair "foo-cpp-generator").isOk = true := by
    decide +kernel
  have hbar : ownNative.importedLibraries importedPair = .ok ["bar-cpp"] := by decide +kernel
  obtain ⟨⟨h, library⟩, hc⟩ := Outcome.exists_ok_of_isOk hok
  obtain ⟨rfl, imports, kind, himports, hmodule, -, hheaders, hlinks, -⟩ :=
    kept_of_complete hstate hc
  obtain rfl := Except.ok.inj (himports.symm.trans hbar)
  exact ⟨h, kind, hc, hmodule, hlinks, hheaders⟩

/-- **A managed library loses a link**: it was declared with a link of its own, and is completed
without it. -/
theorem lost_link :
    (waiting ownManaged).state? "foo-java-generator" = some (.declared ownManaged)
      ∧ ownManaged.library.kind.dependencies = ["own"]
      ∧ ownManaged.importedLibraries importedPair = .ok ["bar-java"]
      ∧ ((waiting ownManaged).complete importedPair "foo-java-generator").map
            (fun completed => (completed.1.module? "foo-java").map (·.kind.dependencies))
          = .ok (some ["bar-java"])
      ∧ ["bar-java"] ≠ ["own"] ++ ["bar-java"] := by
  decide +kernel

end ModuleGraph

/-! ## Completing the placeholders of answers -/

/-- **The libraries of answers keep their links**: those that would lose them have none. -/
theorem Request.keeps_links_of_answer {settings : Settings} {w : WorkingTree} {q : Request}
    {a : Answer} {p : Placeholder} {r : Registry} {m : Module}
    (ha : q.answer settings w = .ok (some a)) (hp : a.product = .library p)
    (hm : p.completed r = .ok m) :
    ∃ imports, p.importedLibraries r = .ok imports
      ∧ m.kind.dependencies = p.library.kind.dependencies ++ imports := by
  obtain ⟨imports, kind, himports, hlinked, rfl⟩ := Placeholder.completed_eq_ok_iff.1 hm
  refine ⟨imports, himports, (ModuleKind.dependencies_of_linking?_iff hlinked).2 ?_⟩
  obtain ⟨sources, -, -, -, hproduct⟩ := Request.answer_eq_some_iff.1 ha
  rw [hp] at hproduct
  unfold Request.blueprint at hproduct
  cases hq : q.backend with
  | analyzer => simp [hq, Native.analyzer] at hproduct
  | cpp =>
    simp only [hq, Native.cpp, Outcome.map_eq_ok_iff, Product.library.injEq] at hproduct
    obtain ⟨layer, -, rfl⟩ := hproduct
    exact .inl rfl
  | ndk =>
    simp only [hq, Native.ndk, Outcome.map_eq_ok_iff, Product.library.injEq] at hproduct
    obtain ⟨layer, -, rfl⟩ := hproduct
    exact .inl rfl
  | java =>
    simp only [hq, Managed.java, Except.ok.injEq, Product.library.injEq] at hproduct
    obtain rfl := hproduct
    exact .inr rfl
  | rust =>
    simp only [hq, MemorySafe.rust, Except.ok.injEq, Product.library.injEq] at hproduct
    obtain rfl := hproduct
    exact .inr rfl

end InterfacePlan
