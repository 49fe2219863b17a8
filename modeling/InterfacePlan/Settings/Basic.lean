import InterfacePlan.Data.Decode
/-!
# Settings

Settings of a project. They come in layers: what a layer leaves out is as in the layer below it, and
what no layer sets has a default.

## Main definitions

* `Settings`: the settings that planning uses
* `SettingsLayer`: one layer, with every setting optional
* `Settings.merged`: settings with a layer on top
* `SettingsLayer.ofData`, `Settings.toData`: the structured forms
-/

namespace InterfacePlan

open Data (Surplus read anyFieldsOf fieldsOf asText asBool asWord asOptional)

/-- **Settings.** -/
structure Settings where
  /-- The directory of frozen snapshots, as seen from the directory of an interface. -/
  apiDir : String := "aidl_api"
  /-- The extension of interface definitions. -/
  extension : String := "aidl"
  /-- The root of build output, which generated headers stand below. -/
  outDir : String := "out"
  /-- The host system that generated libraries are disabled on. -/
  disabledHostOs : String := "darwin"
  /-- Whether the version in development has to be frozen. -/
  requireFrozen : Bool := false
  /-- Why it has to be frozen. -/
  requireFrozenReason : String := ""
  /-- The number of threads, which has no influence on plans. -/
  jobs : Option Nat := none
  deriving DecidableEq, Inhabited

/-- One layer of settings. -/
structure SettingsLayer where
  apiDir : Option String := none
  extension : Option String := none
  outDir : Option String := none
  disabledHostOs : Option String := none
  requireFrozen : Option Bool := none
  requireFrozenReason : Option String := none
  jobs : Option Nat := none
  deriving DecidableEq, Inhabited

namespace SettingsLayer

/-- The names of all settings. -/
def names : List String :=
  ["api_dir", "extension", "out_dir", "disabled_host_os", "require_frozen",
    "require_frozen_reason", "jobs"]

/-- The layer that a record of settings stands for. -/
def ofData (surplus : Surplus) (d : Data) : Except DecodeError SettingsLayer := do
  let fs ← anyFieldsOf surplus names d
  return {
    apiDir := ← read fs "api_dir" (asOptional asText) none
    extension := ← read fs "extension" (asOptional asText) none
    outDir := ← read fs "out_dir" (asOptional asText) none
    disabledHostOs := ← read fs "disabled_host_os" (asOptional asText) none
    requireFrozen := ← read fs "require_frozen" (asOptional asBool) none
    requireFrozenReason := ← read fs "require_frozen_reason" (asOptional asText) none
    jobs := ← read fs "jobs" (asOptional asWord) none }

/-- The layer of a configuration file, in which the settings are a table of their own. They may be
a list as well, of which only the leading values count. -/
def ofFile (d : Data) : Except DecodeError SettingsLayer := do
  let fs ← fieldsOf d
  read fs "generate" (ofData .ignored) {}

end SettingsLayer

namespace Settings

/-- **Settings with a layer on top.** -/
def merged (lower : Settings) (layer : SettingsLayer) : Settings where
  apiDir := layer.apiDir.getD lower.apiDir
  extension := layer.extension.getD lower.extension
  outDir := layer.outDir.getD lower.outDir
  disabledHostOs := layer.disabledHostOs.getD lower.disabledHostOs
  requireFrozen := layer.requireFrozen.getD lower.requireFrozen
  requireFrozenReason := layer.requireFrozenReason.getD lower.requireFrozenReason
  -- The number of threads has no default, so the lower layer may leave it open as well.
  jobs := layer.jobs.or lower.jobs

/-- The record of settings. -/
def toData (s : Settings) : Data :=
  .record [("api_dir", .text s.apiDir), ("extension", .text s.extension),
    ("out_dir", .text s.outDir), ("disabled_host_os", .text s.disabledHostOs),
    ("require_frozen", .bool s.requireFrozen),
    ("require_frozen_reason", .text s.requireFrozenReason),
    ("jobs", .optional (fun n => .int (n : Nat)) s.jobs)]

/-- The settings that a record stands for, in which every setting may be left out. -/
def ofData (surplus : Surplus) (d : Data) : Except DecodeError Settings := do
  let fs ← anyFieldsOf surplus SettingsLayer.names d
  let default : Settings := {}
  return {
    apiDir := ← read fs "api_dir" asText default.apiDir
    extension := ← read fs "extension" asText default.extension
    outDir := ← read fs "out_dir" asText default.outDir
    disabledHostOs := ← read fs "disabled_host_os" asText default.disabledHostOs
    requireFrozen := ← read fs "require_frozen" asBool default.requireFrozen
    requireFrozenReason := ← read fs "require_frozen_reason" asText default.requireFrozenReason
    jobs := ← read fs "jobs" (asOptional asWord) none }

@[simp] theorem merged_empty (s : Settings) : s.merged {} = s := by
  simp [merged]

end Settings

end InterfacePlan
