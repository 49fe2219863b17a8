import InterfacePlan.Backend
import InterfacePlan.Path.Basic
/-!
# Interface declarations

An interface declares its sources, the versions that were frozen, the interfaces it imports, and how
libraries are built from it for each backend.

## Main definitions

* `Interface`: a declaration
* `VndkProperties.merged`: later layers of VNDK properties over earlier ones
* `Interface.enables`: whether libraries are generated for a backend
* `Interface.minSdkFor`: the platform version that a backend needs at least
-/

namespace InterfacePlan

/-- A frozen version, together with the imports that it was frozen against. -/
structure FrozenVersion where
  version : String
  imports : List String := []
  deriving DecidableEq, Inhabited

/-- Where a native library is available, if that is declared. -/
structure Availability where
  vendor : Option Bool := none
  odm : Option Bool := none
  product : Option Bool := none
  recovery : Option Bool := none
  deriving DecidableEq, Inhabited

/-- How a native library takes part in the VNDK. -/
structure VndkProperties where
  enabled : Option Bool := none
  supportSystemProcess : Option Bool := none
  isPrivate : Option Bool := none
  deriving DecidableEq, Inhabited

namespace VndkProperties

/-- **Layering.** What the upper layer says wins; what it leaves open is as in the lower layer. -/
def merged (lower upper : VndkProperties) : VndkProperties where
  enabled := upper.enabled.or lower.enabled
  supportSystemProcess := upper.supportSystemProcess.or lower.supportSystemProcess
  isPrivate := upper.isPrivate.or lower.isPrivate

/-- Whether nothing is declared for the VNDK. -/
def isEmpty (v : VndkProperties) : Bool :=
  v.enabled.isNone && v.supportSystemProcess.isNone && v.isPrivate.isNone

@[simp] theorem merged_empty (v : VndkProperties) : v.merged {} = v := rfl

@[simp] theorem empty_merged (v : VndkProperties) : merged {} v = v := by
  simp [merged]

theorem isEmpty_iff {v : VndkProperties} : v.isEmpty = true ↔ v = {} := by
  obtain ⟨a, b, c⟩ := v
  simp [isEmpty, and_assoc]

end VndkProperties

/-- Options that both native backends have. -/
structure NativeOptions where
  enabled : Option Bool := none
  genLog : Bool := false
  genTrace : Bool := false
  additionalSharedLibraries : List String := []
  cflags : List String := []
  apexAvailable : List String := []
  minSdkVersion : Option String := none
  vndk : VndkProperties := {}
  deriving DecidableEq, Inhabited

/-- What an interface declares for the cpp backend. -/
structure CppOptions where
  common : NativeOptions := {}
  /-- Also build the analyzer tool. -/
  analyzer : Bool := false
  deriving DecidableEq, Inhabited

/-- What an interface declares for the ndk backend. -/
structure NdkOptions where
  common : NativeOptions := {}
  /-- Build the variant for apps, which is the default. -/
  appsEnabled : Option Bool := none
  sdkVersion : Option String := none
  deriving DecidableEq, Inhabited

/-- Lint options, passed on to managed libraries. -/
structure LintOptions where
  strictUpdatabilityLinting : Option Bool := none
  baselineFilename : Option String := none
  deriving DecidableEq, Inhabited

/-- What an interface declares for the java backend. -/
structure JavaOptions where
  enabled : Option Bool := none
  platformApis : Bool := false
  sdkVersion : Option String := none
  genRpc : Bool := false
  genTrace : Bool := false
  apexAvailable : List String := []
  minSdkVersion : Option String := none
  lint : LintOptions := {}
  deriving DecidableEq, Inhabited

/-- What an interface declares for the rust backend. -/
structure RustOptions where
  enabled : Option Bool := none
  apexAvailable : List String := []
  minSdkVersion : Option String := none
  deriving DecidableEq, Inhabited

/-- The options of all backends. The analyzer has its options among those of cpp. -/
structure BackendOptions where
  cpp : CppOptions := {}
  ndk : NdkOptions := {}
  java : JavaOptions := {}
  rust : RustOptions := {}
  deriving DecidableEq, Inhabited

/-- A list that is held in memory has fewer entries than this. -/
def listBound : Nat := Nat.pow 2 63

/-- Lists that a declaration leaves out are within the bound. -/
theorem empty_lists_numbered :
    ([] : List String).length < listBound ∧ ([] : List FrozenVersion).length < listBound := by
  decide

/-- **An interface declaration.** A stable interface has frozen versions and one in development; an
unstable interface has no versions and a single build. -/
structure Interface where
  name : String := ""
  /-- The directory of the declaration. Snapshots of frozen versions stand below it. -/
  moduleDir : Path := ""
  /-- The sources in development, as seen from `moduleDir`. -/
  srcs : List String := []
  localIncludeDir : String := ""
  /-- The frozen versions, oldest first. -/
  versions : List String := []
  /-- The frozen versions with their imports. Counts instead of `versions` unless it is empty. -/
  versionsWithInfo : List FrozenVersion := []
  /-- The imports of the version in development. -/
  imports : List String := []
  /-- Whether the interface is never versioned. -/
  unstable : Bool := false
  stability : Option String := none
  vndkUseVersion : Option String := none
  /-- Whether the version in development is the same as the latest frozen one. -/
  frozen : Option Bool := none
  headers : List String := []
  /-- Further flags of the source generator. -/
  flags : List String := []
  minSdkVersion : Option String := none
  hostSupported : Option Bool := none
  doubleLoadable : Option Bool := none
  availability : Availability := {}
  vndk : VndkProperties := {}
  backend : BackendOptions := {}
  /-- The version lists are held in memory, so a 64-bit word numbers their entries and the version
  in development behind them. -/
  numbered : versions.length < listBound ∧ versionsWithInfo.length < listBound := by
    first
    | exact empty_lists_numbered
    | exact ⟨Nat.le_of_ble_eq_true rfl, Nat.le_of_ble_eq_true rfl⟩
  deriving DecidableEq

namespace Interface

instance : Inhabited Interface := ⟨{}⟩

/-- Whether the interface has the strict stability mode, which keeps its cpp libraries private. -/
def isVintf (i : Interface) : Bool := i.stability = some "vintf"

/-- **Whether libraries are generated for a backend.** The cpp, ndk and java backends are on unless
they are disabled, rust has to be enabled, and the analyzer has to be asked for and needs cpp. -/
def enables (i : Interface) : Backend → Bool
  | .cpp => i.backend.cpp.common.enabled.getD true
  | .ndk => i.backend.ndk.common.enabled.getD true
  | .java => i.backend.java.enabled.getD true
  | .rust => i.backend.rust.enabled.getD false
  | .analyzer => i.backend.cpp.common.enabled.getD true && i.backend.cpp.analyzer

/-- Whether the ndk backend also builds the variant for apps. -/
def generatesAppNdk (i : Interface) : Bool :=
  i.enables .ndk && i.backend.ndk.appsEnabled.getD true

/-- Whether the code of a backend traces calls. -/
def genTrace (i : Interface) : Backend → Bool
  | .cpp => i.backend.cpp.common.genTrace
  | .ndk => i.backend.ndk.common.genTrace
  | .java => i.backend.java.genTrace
  | .rust | .analyzer => false

/-- The platform version that libraries of a backend need at least: that of the backend, or else
that of the interface. -/
def minSdkFor (i : Interface) : Backend → Option String
  | .cpp | .analyzer => i.backend.cpp.common.minSdkVersion.or i.minSdkVersion
  | .ndk => i.backend.ndk.common.minSdkVersion.or i.minSdkVersion
  | .java => i.backend.java.minSdkVersion.or i.minSdkVersion
  | .rust => i.backend.rust.minSdkVersion.or i.minSdkVersion

end Interface

end InterfacePlan
