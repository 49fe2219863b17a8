import InterfacePlan.Library.Request
/-!
# Managed libraries

The modules of the java backend.

## Main definitions

* `Managed.apiLevel`: the platform level that an SDK name stands for
* `Managed.java`: the answer to a request
-/

namespace InterfacePlan.Managed

/-- **The platform level of an SDK**: the part of its name behind the last underscore. No name means
the level in development. -/
def apiLevel (sdk : String) : String :=
  let level := (sdk.toList.reverse.takeWhile (· ≠ '_')).reverse
  if level.isEmpty then "current" else String.ofList level

/-- The SDK of a library: the requested one, or the default unless platform interfaces are used. -/
def sdkVersion (options : JavaOptions) : Option String :=
  options.sdkVersion.or (if options.platformApis then none else some "system_current")

/-- **The managed library of an interface version.** Its source generator is told the version in any
case, and the level of the SDK where no platform version is declared. -/
def java (r : Request) (sources : Sources) : Blueprint :=
  let i := r.interface
  let options := i.backend.java
  { source := ⟨r.sourceName, .sourceGenerator { r.sourceGenerator sources with
      minSdkVersion := (i.minSdkFor .java).or ((sdkVersion options).map apiLevel)
      platformApis := options.platformApis
      genRpc := options.genRpc
      genTrace := i.genTrace .java
      -- Other backends are told no version before the first freeze.
      version := r.version }⟩
    product := .ok (.library (r.placeholder (.managedLibrary {
      installable := true
      defaults := ["aidl-java-module-defaults"]
      sdkVersion := sdkVersion options
      platformApis := options.platformApis
      srcs := [":" ++ r.sourceName]
      apexAvailable := options.apexAvailable
      minSdkVersion := i.minSdkFor .java
      lint := options.lint }))) }

end InterfacePlan.Managed
