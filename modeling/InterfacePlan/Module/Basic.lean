import InterfacePlan.Interface.Basic
/-!
# Modules

What planning hands to the build system: source generators, libraries of several kinds, and analyzer
tools. A library whose imports are not known yet stands in a placeholder.

## Main definitions

* `SourceGenerator`, `NativeBinary`, `ManagedLibrary`, `MemorySafeLibrary`: properties of modules
* `Module`, `ModuleKind`: a module
* `Placeholder`: a library that waits for its imports
-/

namespace InterfacePlan

/-- A rule that runs the interface compiler for one language. -/
structure SourceGenerator where
  srcs : List String := []
  root : String := ""
  /-- The imports as they are declared for the version. -/
  imports : List String := []
  headers : List String := []
  stability : Option String := none
  minSdkVersion : Option String := none
  platformApis : Bool := false
  lang : Option Backend := none
  baseName : String := ""
  genLog : Bool := false
  genRpc : Bool := false
  genTrace : Bool := false
  version : String := ""
  unstable : Bool := false
  notFrozen : Bool := false
  requireFrozenReason : String := ""
  flags : List String := []
  deriving DecidableEq, Inhabited

/-- Properties that hold for one image only. -/
structure ImageOverrides where
  cflags : List String := []
  excludeSharedLibs : List String := []
  headerLibs : List String := []
  sharedLibs : List String := []
  deriving DecidableEq, Inhabited

/-- Properties of a native module that hold for some targets only. -/
structure TargetOverrides where
  disabledHostOs : Option String := none
  platform : Option ImageOverrides := none
  vendor : Option ImageOverrides := none
  product : Option ImageOverrides := none
  deriving DecidableEq, Inhabited

/-- A native library or tool. -/
structure NativeBinary where
  availability : Availability := {}
  hostSupported : Option Bool := none
  defaults : List String := []
  doubleLoadable : Option Bool := none
  installable : Option Bool := none
  generatedSources : List String := []
  generatedHeaders : List String := []
  exportGeneratedHeaders : List String := []
  sharedLibs : List String := []
  staticLibs : List String := []
  headerLibs : List String := []
  exportSharedLibHeaders : List String := []
  sdkVersion : Option String := none
  stl : Option String := none
  cflags : List String := []
  apexAvailable : List String := []
  minSdkVersion : Option String := none
  target : TargetOverrides := {}
  tidy : Bool := false
  tidyFlags : List String := []
  tidyChecksAsErrors : List String := []
  includeBuildDirectory : Option Bool := none
  vndk : VndkProperties := {}
  /-- Set on finished libraries: generated native code stays on its side of the boundary between
  system and vendor. -/
  mustUseVendorVariant : Bool := false
  deriving DecidableEq, Inhabited

/-- A library for the java backend. -/
structure ManagedLibrary where
  installable : Bool := false
  defaults : List String := []
  sdkVersion : Option String := none
  platformApis : Bool := false
  srcs : List String := []
  staticLibs : List String := []
  apexAvailable : List String := []
  minSdkVersion : Option String := none
  lint : LintOptions := {}
  deriving DecidableEq, Inhabited

/-- A library for the rust backend. -/
structure MemorySafeLibrary where
  crateName : String := ""
  stem : String := ""
  sourceStem : String := ""
  sourceGen : String := ""
  defaults : List String := []
  hostSupported : Option Bool := none
  vendorAvailable : Option Bool := none
  productAvailable : Option Bool := none
  apexAvailable : List String := []
  minSdkVersion : Option String := none
  disabledHostOs : Option String := none
  rustlibs : List String := []
  deriving DecidableEq, Inhabited

/-- What a module is, with the properties that are meaningful for it. -/
inductive ModuleKind where
  | sourceGenerator (p : SourceGenerator)
  | nativeLibrary (p : NativeBinary)
  | managedLibrary (p : ManagedLibrary)
  | memorySafeLibrary (p : MemorySafeLibrary)
  | analyzerBinary (p : NativeBinary)
  deriving DecidableEq, Inhabited

namespace ModuleKind

/-- The word for a kind of module. -/
def tag : ModuleKind → String
  | sourceGenerator _ => "source_generator"
  | nativeLibrary _ => "native_library"
  | managedLibrary _ => "managed_library"
  | memorySafeLibrary _ => "memory_safe_library"
  | analyzerBinary _ => "analyzer_binary"

/-- **The libraries that a module links**; a source generator links none. -/
def dependencies : ModuleKind → List String
  | sourceGenerator _ => []
  | nativeLibrary p | analyzerBinary p => p.sharedLibs
  | managedLibrary p => p.staticLibs
  | memorySafeLibrary p => p.rustlibs

end ModuleKind

/-- **A module**, whose name is its identity in the build graph. -/
structure Module where
  name : String
  kind : ModuleKind
  deriving DecidableEq, Inhabited

/-- **A library that waits for its imports.** -/
structure Placeholder where
  name : String
  backend : Backend
  interface : String
  /-- The version that the library was requested for. -/
  version : String
  library : Module
  deriving DecidableEq, Inhabited

/-- The placeholder of a library, named after it. -/
def Placeholder.ofLibrary (backend : Backend) (interface version : String) (library : Module) :
    Placeholder where
  name := library.name ++ "-generator"
  backend := backend
  interface := interface
  version := version
  library := library

end InterfacePlan
