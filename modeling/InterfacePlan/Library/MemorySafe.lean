import InterfacePlan.Library.Request
/-!
# Memory-safe libraries

The modules of the rust backend.

## Main definitions

* `MemorySafe.crateName`: the crate that a module name stands for
* `MemorySafe.rust`: the answer to a request
-/

namespace InterfacePlan.MemorySafe

/-- **The crate of a module name**: hyphens and dots become underscores. -/
def crateName (name : String) : String :=
  String.ofList (name.toList.map fun c => if c = '-' || c = '.' then '_' else c)

/-- **The memory-safe library of an interface version.** -/
def rust (settings : Settings) (r : Request) (sources : Sources) : Blueprint :=
  let i := r.interface
  let stem := crateName (i.versionedName r.version)
  { source := ⟨r.sourceName, .sourceGenerator (r.sourceGenerator sources)⟩
    product := .ok (.library (r.placeholder (.memorySafeLibrary {
      crateName := crateName i.name
      stem := "lib" ++ stem
      sourceStem := stem
      sourceGen := r.sourceName
      defaults := ["aidl-rust-module-defaults"]
      hostSupported := i.hostSupported
      vendorAvailable := i.availability.vendor
      productAvailable := i.availability.product
      apexAvailable := i.backend.rust.apexAvailable
      minSdkVersion := i.minSdkFor .rust
      disabledHostOs := some settings.disabledHostOs }))) }

end InterfacePlan.MemorySafe
