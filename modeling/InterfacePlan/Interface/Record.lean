import InterfacePlan.Data.Decode
import InterfacePlan.Interface.Basic
/-!
# Interface declarations as records

The structured form of a declaration. It has a field for every property, and the availability flags
and the options that both native backends share stand beside the other fields. When a declaration
is read, every field may be left out, and fields with other names are ignored. Most of its parts may
be written as lists of their leading fields; whether longer lists are read is up to the reader.

## Main definitions

* `Interface.toData`, `Interface.ofData`: writing and reading a declaration
* the same for each of its parts
-/

namespace InterfacePlan

open Data (Surplus read require anyFieldsOf fieldsOf asText asBool asTexts asList asOptional)

namespace FrozenVersion

/-- The record of a frozen version. -/
def toData (v : FrozenVersion) : Data :=
  .record [("version", .text v.version), ("imports", .texts v.imports)]

/-- Reading a frozen version, whose `version` is required. -/
def ofData (surplus : Surplus) (d : Data) : Except DecodeError FrozenVersion := do
  let fs ← anyFieldsOf surplus ["version", "imports"] d
  return {
    version := ← require fs "version" asText
    imports := ← read fs "imports" asTexts [] }

end FrozenVersion

namespace Availability

/-- The fields of an availability, which stand among those of what is available. -/
def fields (a : Availability) : List (String × Data) :=
  [("vendor_available", .optional .bool a.vendor), ("odm_available", .optional .bool a.odm),
    ("product_available", .optional .bool a.product),
    ("recovery_available", .optional .bool a.recovery)]

/-- Reading an availability from among other fields. -/
def ofFields (fs : List (String × Data)) : Except DecodeError Availability := do
  return {
    vendor := ← read fs "vendor_available" (asOptional asBool) none
    odm := ← read fs "odm_available" (asOptional asBool) none
    product := ← read fs "product_available" (asOptional asBool) none
    recovery := ← read fs "recovery_available" (asOptional asBool) none }

end Availability

namespace VndkProperties

/-- The record of the properties for the VNDK. -/
def toData (v : VndkProperties) : Data :=
  .record [("enabled", .optional .bool v.enabled),
    ("support_system_process", .optional .bool v.supportSystemProcess),
    ("private", .optional .bool v.isPrivate)]

/-- Reading the properties for the VNDK. -/
def ofData (surplus : Surplus) (d : Data) : Except DecodeError VndkProperties := do
  let fs ← anyFieldsOf surplus ["enabled", "support_system_process", "private"] d
  return {
    enabled := ← read fs "enabled" (asOptional asBool) none
    supportSystemProcess := ← read fs "support_system_process" (asOptional asBool) none
    isPrivate := ← read fs "private" (asOptional asBool) none }

end VndkProperties

namespace NativeOptions

/-- The fields of native options, which stand among those of a backend. -/
def fields (o : NativeOptions) : List (String × Data) :=
  [("enabled", .optional .bool o.enabled), ("gen_log", .bool o.genLog),
    ("gen_trace", .bool o.genTrace),
    ("additional_shared_libraries", .texts o.additionalSharedLibraries),
    ("cflags", .texts o.cflags), ("apex_available", .texts o.apexAvailable),
    ("min_sdk_version", .optional .text o.minSdkVersion), ("vndk", o.vndk.toData)]

/-- The options that stand among the fields of a record. A list among them is never longer than the
record it stands for. -/
def ofFields (fs : List (String × Data)) : Except DecodeError NativeOptions := do
  return {
    enabled := ← read fs "enabled" (asOptional asBool) none
    genLog := ← read fs "gen_log" asBool false
    genTrace := ← read fs "gen_trace" asBool false
    additionalSharedLibraries := ← read fs "additional_shared_libraries" asTexts []
    cflags := ← read fs "cflags" asTexts []
    apexAvailable := ← read fs "apex_available" asTexts []
    minSdkVersion := ← read fs "min_sdk_version" (asOptional asText) none
    vndk := ← read fs "vndk" (VndkProperties.ofData .refused) {} }

end NativeOptions

namespace CppOptions

/-- The record of the options for cpp. -/
def toData (o : CppOptions) : Data := .record (o.common.fields ++ [("analyzer", .bool o.analyzer)])

/-- Reading the options for cpp. Other fields are passed over, whatever the rule for them is. -/
def ofData (d : Data) : Except DecodeError CppOptions := do
  let fs ← fieldsOf d
  return {
    common := ← NativeOptions.ofFields fs
    analyzer := ← read fs "analyzer" asBool false }

end CppOptions

namespace NdkOptions

/-- The record of the options for ndk. -/
def toData (o : NdkOptions) : Data :=
  .record (o.common.fields ++ [("apps_enabled", .optional .bool o.appsEnabled),
    ("sdk_version", .optional .text o.sdkVersion)])

/-- Reading the options for ndk, as those for cpp. -/
def ofData (d : Data) : Except DecodeError NdkOptions := do
  let fs ← fieldsOf d
  return {
    common := ← NativeOptions.ofFields fs
    appsEnabled := ← read fs "apps_enabled" (asOptional asBool) none
    sdkVersion := ← read fs "sdk_version" (asOptional asText) none }

end NdkOptions

namespace LintOptions

/-- The record of the options for lint. -/
def toData (o : LintOptions) : Data :=
  .record [("strict_updatability_linting", .optional .bool o.strictUpdatabilityLinting),
    ("baseline_filename", .optional .text o.baselineFilename)]

/-- Reading the options for lint. -/
def ofData (surplus : Surplus) (d : Data) : Except DecodeError LintOptions := do
  let fs ← anyFieldsOf surplus ["strict_updatability_linting", "baseline_filename"] d
  return {
    strictUpdatabilityLinting := ← read fs "strict_updatability_linting" (asOptional asBool) none
    baselineFilename := ← read fs "baseline_filename" (asOptional asText) none }

end LintOptions

namespace JavaOptions

/-- The record of the options for java. -/
def toData (o : JavaOptions) : Data :=
  .record [("enabled", .optional .bool o.enabled), ("platform_apis", .bool o.platformApis),
    ("sdk_version", .optional .text o.sdkVersion), ("gen_rpc", .bool o.genRpc),
    ("gen_trace", .bool o.genTrace), ("apex_available", .texts o.apexAvailable),
    ("min_sdk_version", .optional .text o.minSdkVersion), ("lint", o.lint.toData)]

/-- Reading the options for java. -/
def ofData (surplus : Surplus) (d : Data) : Except DecodeError JavaOptions := do
  let fs ← anyFieldsOf surplus ["enabled", "platform_apis", "sdk_version", "gen_rpc", "gen_trace",
    "apex_available", "min_sdk_version", "lint"] d
  return {
    enabled := ← read fs "enabled" (asOptional asBool) none
    platformApis := ← read fs "platform_apis" asBool false
    sdkVersion := ← read fs "sdk_version" (asOptional asText) none
    genRpc := ← read fs "gen_rpc" asBool false
    genTrace := ← read fs "gen_trace" asBool false
    apexAvailable := ← read fs "apex_available" asTexts []
    minSdkVersion := ← read fs "min_sdk_version" (asOptional asText) none
    lint := ← read fs "lint" (LintOptions.ofData surplus) {} }

end JavaOptions

namespace RustOptions

/-- The record of the options for rust. -/
def toData (o : RustOptions) : Data :=
  .record [("enabled", .optional .bool o.enabled), ("apex_available", .texts o.apexAvailable),
    ("min_sdk_version", .optional .text o.minSdkVersion)]

/-- Reading the options for rust. -/
def ofData (surplus : Surplus) (d : Data) : Except DecodeError RustOptions := do
  let fs ← anyFieldsOf surplus ["enabled", "apex_available", "min_sdk_version"] d
  return {
    enabled := ← read fs "enabled" (asOptional asBool) none
    apexAvailable := ← read fs "apex_available" asTexts []
    minSdkVersion := ← read fs "min_sdk_version" (asOptional asText) none }

end RustOptions

namespace BackendOptions

/-- The record of the options for all backends. -/
def toData (o : BackendOptions) : Data :=
  .record [("cpp", o.cpp.toData), ("ndk", o.ndk.toData), ("java", o.java.toData),
    ("rust", o.rust.toData)]

/-- Reading the options for all backends. -/
def ofData (surplus : Surplus) (d : Data) : Except DecodeError BackendOptions := do
  let fs ← anyFieldsOf surplus ["cpp", "ndk", "java", "rust"] d
  return {
    cpp := ← read fs "cpp" CppOptions.ofData {}
    ndk := ← read fs "ndk" NdkOptions.ofData {}
    java := ← read fs "java" (JavaOptions.ofData surplus) {}
    rust := ← read fs "rust" (RustOptions.ofData surplus) {} }

end BackendOptions

namespace Interface

/-- **The record of a declaration.** -/
def toData (i : Interface) : Data :=
  .record ([("name", .text i.name), ("module_dir", .text i.moduleDir), ("srcs", .texts i.srcs),
    ("local_include_dir", .text i.localIncludeDir), ("versions", .texts i.versions),
    ("versions_with_info", .list (i.versionsWithInfo.map FrozenVersion.toData)),
    ("imports", .texts i.imports), ("unstable", .bool i.unstable),
    ("stability", .optional .text i.stability),
    ("vndk_use_version", .optional .text i.vndkUseVersion),
    ("frozen", .optional .bool i.frozen), ("headers", .texts i.headers),
    ("flags", .texts i.flags), ("min_sdk_version", .optional .text i.minSdkVersion),
    ("host_supported", .optional .bool i.hostSupported),
    ("double_loadable", .optional .bool i.doubleLoadable)]
    ++ i.availability.fields ++ [("vndk", i.vndk.toData), ("backend", i.backend.toData)])

/-- **The declaration that a record stands for.** -/
def ofData (surplus : Surplus) (d : Data) : Except DecodeError Interface := do
  let fs ← fieldsOf d
  let name ← read fs "name" asText ""
  let moduleDir ← read fs "module_dir" asText ""
  let srcs ← read fs "srcs" asTexts []
  let localIncludeDir ← read fs "local_include_dir" asText ""
  let versions ← read fs "versions" asTexts []
  let versionsWithInfo ← read fs "versions_with_info" (asList (FrozenVersion.ofData surplus)) []
  if numbered : versions.length < listBound ∧ versionsWithInfo.length < listBound then
    return {
      name, moduleDir, srcs, localIncludeDir, versions, versionsWithInfo, numbered
      imports := ← read fs "imports" asTexts []
      unstable := ← read fs "unstable" asBool false
      stability := ← read fs "stability" (asOptional asText) none
      vndkUseVersion := ← read fs "vndk_use_version" (asOptional asText) none
      frozen := ← read fs "frozen" (asOptional asBool) none
      headers := ← read fs "headers" asTexts []
      flags := ← read fs "flags" asTexts []
      minSdkVersion := ← read fs "min_sdk_version" (asOptional asText) none
      hostSupported := ← read fs "host_supported" (asOptional asBool) none
      doubleLoadable := ← read fs "double_loadable" (asOptional asBool) none
      availability := ← Availability.ofFields fs
      vndk := ← read fs "vndk" (VndkProperties.ofData surplus) {}
      backend := ← read fs "backend" (BackendOptions.ofData surplus) {} }
  else throw (.expected "a shorter array")

end Interface

end InterfacePlan
