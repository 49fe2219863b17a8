import InterfacePlan.Interface.Record
import InterfacePlan.Module.Basic
/-!
# Modules as records

The structured form of modules. A module is one flat record with its name and its kind; properties
that are empty or not set are left out where the build system has a default for them.

## Main definitions

* `Module.toData`, `Placeholder.fields`: the records of a module and of a placeholder
-/

namespace InterfacePlan

open Data (optionalField textsField)

/-- The fields of a source generator. -/
def SourceGenerator.fields (p : SourceGenerator) : List (String × Data) :=
  [("srcs", .texts p.srcs), ("aidl_root", .text p.root), ("imports", .texts p.imports)]
    ++ textsField "headers" p.headers
    ++ optionalField "stability" .text p.stability
    ++ optionalField "min_sdk_version" .text p.minSdkVersion
    ++ [("platform_apis", .bool p.platformApis),
      ("lang", .optional (fun b => .text b.tag) p.lang), ("base_name", .text p.baseName),
      ("gen_log", .bool p.genLog), ("gen_rpc", .bool p.genRpc), ("gen_trace", .bool p.genTrace),
      ("version", .text p.version), ("unstable", .bool p.unstable),
      ("not_frozen", .bool p.notFrozen), ("require_frozen_reason", .text p.requireFrozenReason),
      ("flags", .texts p.flags)]

/-- The record of what differs for one image. -/
def ImageOverrides.toData (p : ImageOverrides) : Data :=
  .record (textsField "cflags" p.cflags
    ++ textsField "exclude_shared_libs" p.excludeSharedLibs
    ++ textsField "header_libs" p.headerLibs
    ++ textsField "shared_libs" p.sharedLibs)

/-- The record of what differs for some targets. -/
def TargetOverrides.toData (p : TargetOverrides) : Data :=
  .record (optionalField "disabled_host_os" .text p.disabledHostOs
    ++ optionalField "platform" ImageOverrides.toData p.platform
    ++ optionalField "vendor" ImageOverrides.toData p.vendor
    ++ optionalField "product" ImageOverrides.toData p.product)

/-- The fields of a native library or tool. -/
def NativeBinary.fields (p : NativeBinary) : List (String × Data) :=
  p.availability.fields
    ++ optionalField "host_supported" .bool p.hostSupported
    ++ [("defaults", .texts p.defaults)]
    ++ optionalField "double_loadable" .bool p.doubleLoadable
    ++ optionalField "installable" .bool p.installable
    ++ [("generated_sources", .texts p.generatedSources),
      ("generated_headers", .texts p.generatedHeaders),
      ("export_generated_headers", .texts p.exportGeneratedHeaders),
      ("shared_libs", .texts p.sharedLibs)]
    ++ textsField "static_libs" p.staticLibs
    ++ textsField "header_libs" p.headerLibs
    ++ [("export_shared_lib_headers", .texts p.exportSharedLibHeaders)]
    ++ optionalField "sdk_version" .text p.sdkVersion
    ++ optionalField "stl" .text p.stl
    ++ [("cflags", .texts p.cflags)]
    ++ textsField "apex_available" p.apexAvailable
    ++ optionalField "min_sdk_version" .text p.minSdkVersion
    ++ [("target", p.target.toData), ("tidy", .bool p.tidy), ("tidy_flags", .texts p.tidyFlags),
      ("tidy_checks_as_errors", .texts p.tidyChecksAsErrors)]
    ++ optionalField "include_build_directory" .bool p.includeBuildDirectory
    ++ (if p.vndk.isEmpty then [] else [("vndk", p.vndk.toData)])
    ++ [("must_use_vendor_variant", .bool p.mustUseVendorVariant)]

/-- The fields of a managed library. -/
def ManagedLibrary.fields (p : ManagedLibrary) : List (String × Data) :=
  [("installable", .bool p.installable), ("defaults", .texts p.defaults)]
    ++ optionalField "sdk_version" .text p.sdkVersion
    ++ [("platform_apis", .bool p.platformApis), ("srcs", .texts p.srcs),
      ("static_libs", .texts p.staticLibs)]
    ++ textsField "apex_available" p.apexAvailable
    ++ optionalField "min_sdk_version" .text p.minSdkVersion
    ++ [("lint", p.lint.toData)]

/-- The fields of a memory-safe library. -/
def MemorySafeLibrary.fields (p : MemorySafeLibrary) : List (String × Data) :=
  [("crate_name", .text p.crateName), ("stem", .text p.stem),
    ("source_stem", .text p.sourceStem), ("source_gen", .text p.sourceGen),
    ("defaults", .texts p.defaults)]
    ++ optionalField "host_supported" .bool p.hostSupported
    ++ optionalField "vendor_available" .bool p.vendorAvailable
    ++ optionalField "product_available" .bool p.productAvailable
    ++ textsField "apex_available" p.apexAvailable
    ++ optionalField "min_sdk_version" .text p.minSdkVersion
    ++ optionalField "disabled_host_os" .text p.disabledHostOs
    ++ [("rustlibs", .texts p.rustlibs)]

/-- The fields of a module, by its kind. -/
def ModuleKind.fields : ModuleKind → List (String × Data)
  | sourceGenerator p => p.fields
  | nativeLibrary p | analyzerBinary p => p.fields
  | managedLibrary p => p.fields
  | memorySafeLibrary p => p.fields

/-- **The record of a module.** -/
def Module.toData (m : Module) : Data :=
  .record ([("name", .text m.name), ("kind", .text m.kind.tag)] ++ m.kind.fields)

/-- The fields of a placeholder. -/
def Placeholder.fields (p : Placeholder) : List (String × Data) :=
  [("name", .text p.name), ("backend", .text p.backend.tag), ("interface", .text p.interface),
    ("version", .text p.version), ("library", p.library.toData)]

/-- The record of a placeholder. -/
def Placeholder.toData (p : Placeholder) : Data := .record p.fields

end InterfacePlan
