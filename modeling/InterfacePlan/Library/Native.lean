import InterfacePlan.Library.Request
/-!
# Native libraries

The modules of the cpp and ndk backends, and the analyzer tool on top of cpp.

## Main definitions

* `Native.cflags`, `Native.tidyChecks`: policies for generated native code
* `Native.vndkOverride`: only one version of an interface is in the VNDK
* `Native.cpp`, `Native.ndk`, `Native.analyzer`: the answers to requests
-/

namespace InterfacePlan.Native

/-- The warnings that native libraries are compiled with. -/
def warningFlags : List String := ["-Wextra", "-Wall", "-Werror", "-Wextra-semi"]

/-- The module that native libraries have their defaults from. -/
def defaultsModule : String := "aidl-cpp-module-defaults"

/-- Compiler flags: those of the backend, and the warnings. -/
def cflags (own : List String) : List String := own ++ warningFlags

/-- The checks whose findings are errors: all, apart from some that generated code does not pass.
Only the analyzer may use deprecated declarations. -/
def tidyChecks (backend : Backend) : List String :=
  ["*"]
    ++ (if backend = .analyzer then ["-clang-diagnostic-deprecated-declarations"] else [])
    ++ ["-clang-analyzer-deadcode.DeadStores", "-clang-analyzer-cplusplus.NewDeleteLeaks",
      "-clang-analyzer-optin.performance.Padding"]

/-- Flags that restrict the checks to generated headers. -/
def tidyFlags (settings : Settings) : List String := ["--header-filter=" ++ settings.outDir ++ ".*"]

/-- **The VNDK layer of a version**: every version but one is taken out of the VNDK. -/
def vndkOverride (i : Interface) (version : String) : Except PlanError VndkProperties :=
  (i.isForVndk version).map fun selected =>
    if selected then {} else { enabled := some false, supportSystemProcess := some false }

/-- What native modules of all backends have in common, given the name of their sources. -/
def base (settings : Settings) (r : Request) (source : String) : NativeBinary where
  availability := r.interface.availability
  hostSupported := r.interface.hostSupported
  defaults := [defaultsModule]
  doubleLoadable := r.interface.doubleLoadable
  generatedSources := [source]
  generatedHeaders := [source]
  exportGeneratedHeaders := [source]
  minSdkVersion := r.interface.minSdkFor r.backend
  target := { disabledHostOs := some settings.disabledHostOs }
  tidy := true
  tidyFlags := tidyFlags settings
  tidyChecksAsErrors := tidyChecks r.backend

/-! ## The cpp backend -/

/-- The libraries that every cpp library links and exports. -/
def cppLibraries : List String := ["libbinder", "libutils"]

/-- The properties of a cpp library, given its own VNDK layer. It is not available to products, and
private if the interface is stable across the boundary between system and vendor, because the
library is not. -/
def cppProperties (settings : Settings) (r : Request) (layer : VndkProperties) : NativeBinary :=
  let i := r.interface
  let options := i.backend.cpp.common
  -- The uppermost layer decides, so nothing that is declared makes such a library public.
  let layer := if i.isVintf then { layer with isPrivate := some true } else layer
  { base settings r r.sourceName with
    availability := { i.availability with product := none }
    sharedLibs := cppLibraries ++ options.additionalSharedLibraries
      ++ (if i.genTrace .cpp then ["libcutils"] else [])
    exportSharedLibHeaders := cppLibraries
    cflags := cflags options.cflags
    apexAvailable := options.apexAvailable
    includeBuildDirectory := some false
    vndk := (i.vndk.merged options.vndk).merged layer }

/-- **The cpp library of an interface version.** -/
def cpp (settings : Settings) (r : Request) (sources : Sources) : Blueprint where
  source := ⟨r.sourceName, .sourceGenerator { r.sourceGenerator sources with
    genLog := r.interface.backend.cpp.common.genLog
    genTrace := r.interface.genTrace .cpp }⟩
  product := (vndkOverride r.interface r.version).map fun layer =>
    .library (r.placeholder (.nativeLibrary (cppProperties settings r layer)))

/-! ## The ndk backend -/

/-- The libraries that every ndk library links and exports. -/
def ndkLibraries : List String := ["libbinder_ndk"]

/-- What holds outside of apps, where tracing goes through another library. -/
def imageOverrides (genTrace : Bool) : ImageOverrides where
  cflags := ["-DBINDER_STABILITY_SUPPORT"]
  excludeSharedLibs := if genTrace then ["libandroid"] else []
  headerLibs := if genTrace then ["libandroid_aidltrace"] else []
  sharedLibs := if genTrace then ["libcutils"] else []

/-- The properties of an ndk library, given its own VNDK layer. A library with a variant for apps
names an SDK version and the standard library of apps. -/
def ndkProperties (settings : Settings) (r : Request) (layer : VndkProperties) : NativeBinary :=
  let i := r.interface
  let options := i.backend.ndk.common
  let image := imageOverrides (i.genTrace .ndk)
  { base settings r r.sourceName with
    sharedLibs := ndkLibraries ++ options.additionalSharedLibraries
      ++ (if i.genTrace .ndk then ["libandroid"] else [])
    exportSharedLibHeaders := ndkLibraries
    sdkVersion :=
      if i.generatesAppNdk then some (i.backend.ndk.sdkVersion.getD "current") else none
    stl := if i.generatesAppNdk then some "c++_shared" else none
    cflags := cflags options.cflags
    apexAvailable := options.apexAvailable
    target := { disabledHostOs := some settings.disabledHostOs
                platform := some image
                vendor := some image
                product := some image }
    includeBuildDirectory := some false
    vndk := (i.vndk.merged options.vndk).merged layer }

/-- **The ndk library of an interface version.** -/
def ndk (settings : Settings) (r : Request) (sources : Sources) : Blueprint where
  source := ⟨r.sourceName, .sourceGenerator { r.sourceGenerator sources with
    genLog := r.interface.backend.ndk.common.genLog
    genTrace := r.interface.genTrace .ndk }⟩
  product := (vndkOverride r.interface r.version).map fun layer =>
    .library (r.placeholder (.nativeLibrary (ndkProperties settings r layer)))

/-! ## The analyzer -/

/-- The name of the analyzer tool of an interface, which has no version in it. -/
def analyzerName (i : Interface) : String :=
  i.versionedName unversioned ++ "-" ++ Backend.analyzer.text

/-- The name of the source generator of the analyzer. -/
def analyzerSourceName (i : Interface) : String := analyzerName i ++ "-source"

/-- The properties of an analyzer tool. It links the cpp library of the version that it was
requested for, and does not take over the flags of the backend. -/
def analyzerProperties (settings : Settings) (r : Request) (source : String) : NativeBinary :=
  { base settings r source with
    availability := { r.interface.availability with product := none }
    installable := some true
    sharedLibs := cppLibraries
      ++ [r.interface.versionedName r.version ++ "-" ++ Backend.cpp.text]
    staticLibs := ["aidl-analyzer-main"]
    exportSharedLibHeaders := cppLibraries
    -- The tool does not take over the flags of the backend.
    cflags := cflags []
    minSdkVersion := r.interface.minSdkFor .cpp
    tidyChecksAsErrors := tidyChecks .analyzer }

/-- **The analyzer tool of an interface.** -/
def analyzer (settings : Settings) (r : Request) (sources : Sources) : Blueprint :=
  let source := analyzerSourceName r.interface
  { source := ⟨source, .sourceGenerator { r.sourceGenerator sources with
      headers := []
      minSdkVersion := r.interface.minSdkFor .cpp }⟩
    product := .ok (.tool
      ⟨analyzerName r.interface, .analyzerBinary (analyzerProperties settings r source)⟩) }

end InterfacePlan.Native
