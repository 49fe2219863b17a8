import InterfacePlan.Proofs.Plan.Links
/-!
# Libraries in the VNDK

At most one version of an interface is in the VNDK, the same one for both native backends. Whether a
library is, is declared in layers: for the interface, for the backend, and for the version. The
layer of the version lies on top and takes every version but one out of the VNDK, whatever the
layers below say. It has no say about the one version that is left.

## Main definitions

* `Request.nativeOptions?`: the options of the native backends
* `Request.FollowsChoice`: the VNDK properties of a finished library, given the version for the VNDK
* `Plan.InVndk`: a finished library that is not taken out of the VNDK

## Main results

* `Request.native_of_answer`: how the layers for the VNDK add up
* `Plan.one_version_in_vndk`: at most one version of an interface is in the VNDK
-/

namespace InterfacePlan

/-- The options that a request for a native library is answered with. -/
def Request.nativeOptions? (q : Request) : Option NativeOptions :=
  match q.backend with
  | .cpp => some q.interface.backend.cpp.common
  | .ndk => some q.interface.backend.ndk.common
  | .analyzer | .java | .rust => none

/-- **The VNDK properties of a finished library**, given the version that was chosen for the VNDK.
The library of this version has what is declared for the interface and the backend, and every other
one is taken out of the VNDK. -/
def Request.FollowsChoice (chosen : String) (q : Request) (options : NativeOptions)
    (library : NativeBinary) : Prop :=
  (q.version = chosen →
      library.vndk.enabled = (q.interface.vndk.merged options.vndk).enabled
        ∧ library.vndk.supportSystemProcess
            = (q.interface.vndk.merged options.vndk).supportSystemProcess)
    ∧ (q.version ≠ chosen →
        library.vndk.enabled = some false ∧ library.vndk.supportSystemProcess = some false)

/-- **A finished library that is not taken out of the VNDK.** -/
def Plan.InVndk (p : Plan) (q : Request) : Prop :=
  ∃ library : NativeBinary, p.graph.module? q.libraryName
      = some ⟨q.libraryName, .nativeLibrary library⟩
    ∧ library.vndk.enabled ≠ some false

variable {settings : Settings} {w : WorkingTree} {r : Registry} {q : Request} {p : Plan}
  {options : NativeOptions}

namespace Request

/-! ## Layers -/

theorem isForVndk_of_vndkOverride {layer : VndkProperties}
    (hlayer : Native.vndkOverride q.interface q.version = .ok layer) (version : String) :
    q.interface.isForVndk version = .ok (decide (version = q.interface.vndkVersion)) := by
  obtain ⟨selected, hselected, -⟩ := Outcome.map_eq_ok_iff.1 hlayer
  exact Interface.isForVndk_eq_ok hselected version

/-- With the layer of the version on top, the declared layers count for the chosen version only. -/
theorem followsChoice_of_layer {layer : VndkProperties} {library : NativeBinary}
    (hlayer : Native.vndkOverride q.interface q.version = .ok layer)
    (henabled : library.vndk.enabled
      = layer.enabled.or (q.interface.vndk.merged options.vndk).enabled)
    (hsupport : library.vndk.supportSystemProcess
      = layer.supportSystemProcess.or
          (q.interface.vndk.merged options.vndk).supportSystemProcess) :
    q.FollowsChoice q.interface.vndkVersion options library := by
  have hchosen := isForVndk_of_vndkOverride hlayer q.version
  rw [Native.vndkOverride, hchosen] at hlayer
  obtain rfl := Except.ok.inj hlayer
  constructor
  · intro hv
    simp [henabled, hsupport, hv]
  · intro hv
    simp [henabled, hsupport, hv]

/-- **How the layers for the VNDK add up** in a library as its backend declares it. -/
theorem native_of_answer {a : Answer} (ha : q.answer settings w = .ok (some a))
    (hoptions : q.nativeOptions? = some options) :
    ∃ (layer : VndkProperties) (library : NativeBinary),
      Native.vndkOverride q.interface q.version = .ok layer
        ∧ a.product = .library (q.placeholder (.nativeLibrary library))
        ∧ q.FollowsChoice q.interface.vndkVersion options library := by
  obtain ⟨sources, -, -, -, hproduct⟩ := answer_eq_some_iff.1 ha
  unfold blueprint at hproduct
  unfold nativeOptions? at hoptions
  cases hq : q.backend with
  | cpp =>
    simp only [hq, Native.cpp, Outcome.map_eq_ok_iff, Option.some.injEq] at hproduct hoptions
    obtain ⟨layer, hlayer, hproduct⟩ := hproduct
    obtain rfl := hoptions
    refine ⟨layer, _, hlayer, hproduct.symm, followsChoice_of_layer hlayer ?_ ?_⟩
    -- The strict stability mode only adds to the layer that the library is private.
    all_goals
      by_cases hvintf : q.interface.isVintf = true <;>
        simp [Native.cppProperties, VndkProperties.merged, hvintf]
  | ndk =>
    simp only [hq, Native.ndk, Outcome.map_eq_ok_iff, Option.some.injEq] at hproduct hoptions
    obtain ⟨layer, hlayer, hproduct⟩ := hproduct
    obtain rfl := hoptions
    exact ⟨layer, _, hlayer, hproduct.symm, followsChoice_of_layer hlayer rfl rfl⟩
  | analyzer | java | rust => simp [hq] at hoptions

theorem backend_ne_of_nativeOptions? (hoptions : q.nativeOptions? = some options) :
    q.backend ≠ .analyzer := by
  intro hb
  simp [nativeOptions?, hb] at hoptions

end Request

/-! ## Finished libraries -/

namespace Plan

/-- Finishing a native library leaves its VNDK properties as they are. -/
theorem Realizes.exists_native (real : Realizes settings w r p) (hq : q ∈ r.emitted settings w)
    (hoptions : q.nativeOptions? = some options) :
    ∃ (layer : VndkProperties) (library : NativeBinary),
      Native.vndkOverride q.interface q.version = .ok layer
        ∧ p.graph.module? q.libraryName = some ⟨q.libraryName, .nativeLibrary library⟩
        ∧ q.FollowsChoice q.interface.vndkVersion options library := by
  obtain ⟨a, kind, linked, injected, ha, hproduct, -, hlinked, hlibrary, -⟩ :=
    real.exists_completed hq (Request.backend_ne_of_nativeOptions? hoptions)
  obtain ⟨layer, library, hlayer, hnative, hfollows⟩ := Request.native_of_answer ha hoptions
  obtain rfl : kind = .nativeLibrary library :=
    Request.kind_of_product_eq (hproduct.symm.trans hnative)
  obtain rfl := Option.some.inj hlinked
  exact ⟨layer, _, hlayer, hlibrary, hfollows⟩

/-- The version of a library that is in the VNDK is the chosen one. -/
theorem InVndk.version_eq {chosen : String} {library : NativeBinary} (h : p.InVndk q)
    (hlibrary : p.graph.module? q.libraryName = some ⟨q.libraryName, .nativeLibrary library⟩)
    (hfollows : q.FollowsChoice chosen options library) : q.version = chosen := by
  obtain ⟨other, hother, henabled⟩ := h
  obtain rfl : library = other :=
    ModuleKind.nativeLibrary.inj
      (congrArg Module.kind (Option.some.inj (hlibrary.symm.trans hother)))
  by_contra hne
  exact henabled (hfollows.2 hne).1

/-- **At most one version of an interface is in the VNDK**, the one for which this is declared, for
both native backends alike. Its libraries have the VNDK properties that are declared for them, and
those of every other version are taken out of the VNDK. -/
theorem one_version_in_vndk (hp : ofRegistry settings w r = .ok p) :
    ∀ i ∈ r.interfaces, ∃ chosen, ∀ q ∈ r.emitted settings w, q.interface = i →
      ∀ options, q.nativeOptions? = some options →
        chosen ∈ i.allVersions
          ∧ (∀ version, i.isForVndk version = .ok (decide (version = chosen)))
          ∧ (∃ library : NativeBinary,
              p.graph.module? q.libraryName = some ⟨q.libraryName, .nativeLibrary library⟩
                ∧ q.FollowsChoice chosen options library)
          ∧ (p.InVndk q → q.version = chosen
              ∧ ∀ q' ∈ r.emitted settings w, q'.interface = i → q'.backend = q.backend →
                  p.InVndk q' → q' = q) := by
  intro i _
  refine ⟨i.vndkVersion, ?_⟩
  rintro q hq rfl options hoptions
  have real := realizes hp
  obtain ⟨layer, library, hlayer, hlibrary, hfollows⟩ := real.exists_native hq hoptions
  have hchosen := Request.isForVndk_of_vndkOverride hlayer
  refine ⟨Interface.vndkVersion_mem_allVersions (hchosen q.version), hchosen,
    ⟨library, hlibrary, hfollows⟩, ?_⟩
  intro hin
  have hversion := hin.version_eq hlibrary hfollows
  refine ⟨hversion, ?_⟩
  intro q' hq' hinterface hbackend hin'
  have hoptions' : q'.nativeOptions? = some options := by
    rw [← hoptions, Request.nativeOptions?, Request.nativeOptions?, hinterface, hbackend]
  obtain ⟨layer', library', hlayer', hlibrary', hfollows'⟩ := real.exists_native hq' hoptions'
  rw [hinterface] at hfollows'
  have hversion' := hin'.version_eq hlibrary' hfollows'
  obtain ⟨hr, -⟩ := real.exists_answer_of_emitted hq
  obtain ⟨hr', -⟩ := real.exists_answer_of_emitted hq'
  obtain ⟨-, hr⟩ := Registry.mem_requests_iff.1 hr
  obtain ⟨-, hr'⟩ := Registry.mem_requests_iff.1 hr'
  rw [hinterface] at hr'
  refine Interface.eq_of_stem_eq hr' hr ?_ hbackend
  rw [Request.stem, Request.stem, hinterface, hbackend, hversion, hversion']

/-- An interface with two frozen versions, which is declared to be in the VNDK as a whole, and for
each backend again, while its first version is selected. -/
def layeredInterfaces : List Interface := [
  { name := "foo", versionsWithInfo := [{ version := "1" }, { version := "2" }]
    vndkUseVersion := some "1", srcs := ["Foo.aidl"]
    vndk := { enabled := some true, supportSystemProcess := some true }
    backend := { cpp := { common := { vndk := { enabled := some true } } }
                 ndk := { common := { vndk := { enabled := some true } } }
                 java := { enabled := some false } } }]

/-- A file tree with the definition in both snapshots. -/
def layeredTree : WorkingTree :=
  ⟨(FileTree.addFile ∅ ["aidl_api", "foo", "1", "Foo.aidl"] "").addFile
    ["aidl_api", "foo", "2", "Foo.aidl"] "", []⟩

theorem first_version_of_layered_in_vndk :
    ∃ p, ofRegistry {} layeredTree (registryOf layeredInterfaces) = .ok p
      ∧ (∀ backend ∈ [Backend.cpp, Backend.ndk], ∀ version ∈ ["1", "2", "3"],
          p.InVndk (layeredInterfaces[0].request {} version backend) ↔ version = "1")
      ∧ ∃ library : NativeBinary, p.graph.module? "foo-V2-ndk"
            = some ⟨"foo-V2-ndk", .nativeLibrary library⟩
          ∧ library.vndk.enabled = some false
          ∧ library.vndk.supportSystemProcess = some false := by
  have hok : (ofRegistry {} layeredTree (registryOf layeredInterfaces)).isOk = true := by
    decide +kernel
  obtain ⟨p, hp⟩ := Outcome.exists_ok_of_isOk hok
  have hfoo : layeredInterfaces[0] ∈ (registryOf layeredInterfaces).interfaces := by
    decide +kernel
  obtain ⟨chosen, hall⟩ := one_version_in_vndk hp _ hfoo
  have hemitted : ∀ backend ∈ [Backend.cpp, Backend.ndk], ∀ version ∈ ["1", "2", "3"],
      layeredInterfaces[0].request {} version backend
        ∈ (registryOf layeredInterfaces).emitted {} layeredTree := by
    decide +kernel
  have hoptions : ∀ backend ∈ [Backend.cpp, Backend.ndk], ∀ version ∈ ["1", "2", "3"],
      (layeredInterfaces[0].request {} version backend).nativeOptions?
        = some { vndk := { enabled := some true } } := by
    decide +kernel
  have hselected : layeredInterfaces[0].isForVndk "1" = .ok true := by decide +kernel
  obtain rfl : "1" = chosen := by
    obtain ⟨-, hchosen, -⟩ := hall _ (hemitted .cpp (by decide) "1" (by decide)) rfl _
      (hoptions .cpp (by decide) "1" (by decide))
    simpa using (hchosen "1").symm.trans hselected
  refine ⟨p, hp, ?_, ?_⟩
  · intro backend hbackend version hversion
    obtain ⟨-, -, ⟨library, hlibrary, hfirst, -⟩, hin⟩ :=
      hall _ (hemitted backend hbackend version hversion) rfl _
        (hoptions backend hbackend version hversion)
    refine ⟨fun h => (hin h).1, ?_⟩
    intro h
    refine ⟨library, hlibrary, ?_⟩
    rw [(hfirst h).1]
    change (layeredInterfaces[0].vndk.merged { enabled := some true }).enabled ≠ _
    decide
  · obtain ⟨-, -, ⟨library, hlibrary, -, hrest⟩, -⟩ :=
      hall _ (hemitted .ndk (by decide) "2" (by decide)) rfl _
        (hoptions .ndk (by decide) "2" (by decide))
    exact ⟨library, hlibrary, hrest (by decide)⟩

end Plan

end InterfacePlan
