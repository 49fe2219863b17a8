import InterfacePlan.Interface.Record
import InterfacePlan.Proofs.Data.Form
/-!
# Declarations are read back

A declaration is read back from its record. The record may be written in other ways as well: fields
that hold their defaults may be left out, at any level, other fields may be added, and fields may
stand in any order. Only the version of a frozen version has no default.

The forms below list the fields of each record with their defaults. That a reader respects its form
says that it looks for these fields at this level and for no others, and that what it takes for a
field that is left out is the default.

## Main definitions

* `Interface.form`: the fields of a declaration and their defaults
* the same for each of its parts

## Main results

* `Interface.ofData_toData`: a declaration is read back from its record
* `Interface.respects_ofData`: reading respects the form
* `Interface.ofData_of_changes`: a declaration is read back from its record after any changes
-/

namespace InterfacePlan

open Data (Surplus require asText asBool asTexts asList asOptional)
open Form (optional flag text texts respects_plain respects_record)
open Relation (ReflTransGen)

/-! ## Values that are read back -/

namespace Data

variable {α : Type} {decode : Data → Except DecodeError α}

/-- A list is read back if its items are. -/
theorem asList_map (encode : α → Data) (h : ∀ a, decode (encode a) = .ok a) (as : List α) :
    asList decode (.list (as.map encode)) = .ok as := by
  change (as.map encode).mapM decode = .ok as
  rw [Outcome.mapM_eq_ok_iff, List.forall₂_map_left_iff]
  exact List.forall₂_same.2 fun a _ => h a

theorem asTexts_texts (ss : List String) : asTexts (texts ss) = .ok ss :=
  asList_map text (fun _ => rfl) ss

theorem asOptional_bool (o : Option Bool) : asOptional asBool (optional .bool o) = .ok o := by
  cases o <;> rfl

theorem asOptional_text (o : Option String) : asOptional asText (optional .text o) = .ok o := by
  cases o <;> rfl

variable {fs : List (String × Data)} {key : String} {d : Data} {a default : α}

/-- A field that is there is read from its value. -/
theorem read_of_field? (h : field? key fs = some d) (hd : decode d = .ok a) :
    Data.read fs key decode default = .ok a := by
  simp [Data.read, h, hd, Except.mapError]

theorem require_of_field? (h : field? key fs = some d) (hd : decode d = .ok a) :
    require fs key decode = .ok a := by
  simp [require, h, hd, Except.mapError]

theorem read_texts {ss others : List String} (h : field? key fs = some (texts ss)) :
    Data.read fs key asTexts others = .ok ss :=
  read_of_field? h (asTexts_texts ss)

theorem read_optional_bool {o other : Option Bool} (h : field? key fs = some (optional .bool o)) :
    Data.read fs key (asOptional asBool) other = .ok o :=
  read_of_field? h (asOptional_bool o)

theorem read_optional_text {o other : Option String}
    (h : field? key fs = some (optional .text o)) :
    Data.read fs key (asOptional asText) other = .ok o :=
  read_of_field? h (asOptional_text o)

end Data

/-! ## Parts of a declaration -/

namespace FrozenVersion

/-- The version is always there, and the imports may be left out. -/
def form : Form := .record [("version", none, .plain), texts "imports"]

theorem ofData_toData (surplus : Surplus) (v : FrozenVersion) :
    ofData surplus v.toData = .ok v := by
  simp only [ofData, Outcome.bind_eq_ok_iff]
  exact ⟨_, rfl, _, Data.require_of_field? rfl rfl, _, Data.read_texts rfl, rfl⟩

theorem respects_ofData (surplus : Surplus) : form.Respects (ofData surplus) :=
  respects_record fun fs fs' h => by
    simp only [ofData, Data.anyFieldsOf_record, Outcome.ok_bind]
    rw [h.require "version" rfl respects_plain, h.readTexts "imports" rfl]

end FrozenVersion

namespace Availability

/-- The fields of an availability, which all have a default. -/
def formFields : Form.Fields :=
  [optional "vendor_available", optional "odm_available", optional "product_available",
    optional "recovery_available"]

variable {fs fs' : List (String × Data)}

theorem ofFields_eq_of_change (h : Form.FieldsChange formFields fs fs') :
    ofFields fs' = ofFields fs := by
  unfold ofFields
  rw [h.readOptional "vendor_available" rfl, h.readOptional "odm_available" rfl,
    h.readOptional "product_available" rfl, h.readOptional "recovery_available" rfl]

/-- The flags are read from wherever they stand. -/
theorem ofFields_eq_ok {a : Availability}
    (hvendor : Data.field? "vendor_available" fs = some (.optional .bool a.vendor))
    (hodm : Data.field? "odm_available" fs = some (.optional .bool a.odm))
    (hproduct : Data.field? "product_available" fs = some (.optional .bool a.product))
    (hrecovery : Data.field? "recovery_available" fs = some (.optional .bool a.recovery)) :
    ofFields fs = .ok a := by
  simp only [ofFields, Outcome.bind_eq_ok_iff]
  exact ⟨_, Data.read_optional_bool hvendor, _, Data.read_optional_bool hodm,
    _, Data.read_optional_bool hproduct, _, Data.read_optional_bool hrecovery, rfl⟩

end Availability

namespace VndkProperties

/-- The form of the properties for the VNDK. -/
def form : Form :=
  .record [optional "enabled", optional "support_system_process", optional "private"]

theorem ofData_toData (surplus : Surplus) (v : VndkProperties) :
    ofData surplus v.toData = .ok v := by
  simp only [ofData, Outcome.bind_eq_ok_iff]
  exact ⟨_, rfl, _, Data.read_optional_bool rfl, _, Data.read_optional_bool rfl,
    _, Data.read_optional_bool rfl, rfl⟩

theorem respects_ofData (surplus : Surplus) : form.Respects (ofData surplus) :=
  respects_record fun fs fs' h => by
    simp only [ofData, Data.anyFieldsOf_record, Outcome.ok_bind]
    rw [h.readOptional "enabled" rfl, h.readOptional "support_system_process" rfl,
      h.readOptional "private" rfl]

end VndkProperties

namespace NativeOptions

/-- The fields of native options, which all have a default. -/
def formFields : Form.Fields :=
  [optional "enabled", flag "gen_log", flag "gen_trace", texts "additional_shared_libraries",
    texts "cflags", texts "apex_available", optional "min_sdk_version",
    ("vndk", some ({} : VndkProperties).toData, VndkProperties.form)]

variable {fs fs' : List (String × Data)}

theorem ofFields_eq_of_change (h : Form.FieldsChange formFields fs fs') :
    ofFields fs' = ofFields fs := by
  unfold ofFields
  rw [h.readOptional "enabled" rfl, h.readFlag "gen_log" rfl, h.readFlag "gen_trace" rfl,
    h.readTexts "additional_shared_libraries" rfl, h.readTexts "cflags" rfl,
    h.readTexts "apex_available" rfl, h.readOptional "min_sdk_version" rfl,
    h.read "vndk" rfl (VndkProperties.respects_ofData _) (VndkProperties.ofData_toData _ {})]

theorem ofFields_append (o : NativeOptions) (others : List (String × Data)) :
    ofFields (o.fields ++ others) = .ok o := by
  simp only [ofFields, Outcome.bind_eq_ok_iff]
  exact ⟨_, Data.read_optional_bool rfl, _, Data.read_of_field? rfl rfl,
    _, Data.read_of_field? rfl rfl, _, Data.read_texts rfl, _, Data.read_texts rfl,
    _, Data.read_texts rfl, _, Data.read_optional_text rfl,
    _, Data.read_of_field? rfl (VndkProperties.ofData_toData _ _), rfl⟩

end NativeOptions

namespace CppOptions

/-- The options that both native backends share stand beside the others. -/
def form : Form := .record (NativeOptions.formFields ++ [flag "analyzer"])

theorem ofData_toData (o : CppOptions) : ofData o.toData = .ok o := by
  simp only [ofData, Outcome.bind_eq_ok_iff]
  exact ⟨_, rfl, _, NativeOptions.ofFields_append _ _, _, Data.read_of_field? rfl rfl, rfl⟩

theorem respects_ofData : form.Respects ofData :=
  respects_record fun fs fs' h => by
    simp only [ofData, Data.fieldsOf_record, Outcome.ok_bind]
    rw [NativeOptions.ofFields_eq_of_change h.left, h.readFlag "analyzer" rfl]

end CppOptions

namespace NdkOptions

/-- The form of the options for ndk. -/
def form : Form :=
  .record (NativeOptions.formFields ++ [optional "apps_enabled", optional "sdk_version"])

theorem ofData_toData (o : NdkOptions) : ofData o.toData = .ok o := by
  simp only [ofData, Outcome.bind_eq_ok_iff]
  exact ⟨_, rfl, _, NativeOptions.ofFields_append _ _, _, Data.read_optional_bool rfl,
    _, Data.read_optional_text rfl, rfl⟩

theorem respects_ofData : form.Respects ofData :=
  respects_record fun fs fs' h => by
    simp only [ofData, Data.fieldsOf_record, Outcome.ok_bind]
    rw [NativeOptions.ofFields_eq_of_change h.left, h.readOptional "apps_enabled" rfl,
      h.readOptional "sdk_version" rfl]

end NdkOptions

namespace LintOptions

/-- The form of the options for lint. -/
def form : Form :=
  .record [optional "strict_updatability_linting", optional "baseline_filename"]

theorem ofData_toData (surplus : Surplus) (o : LintOptions) : ofData surplus o.toData = .ok o := by
  simp only [ofData, Outcome.bind_eq_ok_iff]
  exact ⟨_, rfl, _, Data.read_optional_bool rfl, _, Data.read_optional_text rfl, rfl⟩

theorem respects_ofData (surplus : Surplus) : form.Respects (ofData surplus) :=
  respects_record fun fs fs' h => by
    simp only [ofData, Data.anyFieldsOf_record, Outcome.ok_bind]
    rw [h.readOptional "strict_updatability_linting" rfl, h.readOptional "baseline_filename" rfl]

end LintOptions

namespace JavaOptions

/-- The form of the options for java. -/
def form : Form :=
  .record [optional "enabled", flag "platform_apis", optional "sdk_version", flag "gen_rpc",
    flag "gen_trace", texts "apex_available", optional "min_sdk_version",
    ("lint", some ({} : LintOptions).toData, LintOptions.form)]

theorem ofData_toData (surplus : Surplus) (o : JavaOptions) : ofData surplus o.toData = .ok o := by
  simp only [ofData, Outcome.bind_eq_ok_iff]
  exact ⟨_, rfl, _, Data.read_optional_bool rfl, _, Data.read_of_field? rfl rfl,
    _, Data.read_optional_text rfl, _, Data.read_of_field? rfl rfl, _, Data.read_of_field? rfl rfl,
    _, Data.read_texts rfl, _, Data.read_optional_text rfl,
    _, Data.read_of_field? rfl (LintOptions.ofData_toData _ _), rfl⟩

theorem respects_ofData (surplus : Surplus) : form.Respects (ofData surplus) :=
  respects_record fun fs fs' h => by
    simp only [ofData, Data.anyFieldsOf_record, Outcome.ok_bind]
    rw [h.readOptional "enabled" rfl, h.readFlag "platform_apis" rfl,
      h.readOptional "sdk_version" rfl, h.readFlag "gen_rpc" rfl, h.readFlag "gen_trace" rfl,
      h.readTexts "apex_available" rfl, h.readOptional "min_sdk_version" rfl,
      h.read "lint" rfl (LintOptions.respects_ofData _) (LintOptions.ofData_toData _ {})]

end JavaOptions

namespace RustOptions

/-- The form of the options for rust. -/
def form : Form :=
  .record [optional "enabled", texts "apex_available", optional "min_sdk_version"]

theorem ofData_toData (surplus : Surplus) (o : RustOptions) : ofData surplus o.toData = .ok o := by
  simp only [ofData, Outcome.bind_eq_ok_iff]
  exact ⟨_, rfl, _, Data.read_optional_bool rfl, _, Data.read_texts rfl,
    _, Data.read_optional_text rfl, rfl⟩

theorem respects_ofData (surplus : Surplus) : form.Respects (ofData surplus) :=
  respects_record fun fs fs' h => by
    simp only [ofData, Data.anyFieldsOf_record, Outcome.ok_bind]
    rw [h.readOptional "enabled" rfl, h.readTexts "apex_available" rfl,
      h.readOptional "min_sdk_version" rfl]

end RustOptions

namespace BackendOptions

/-- The form of the options for all backends. -/
def form : Form :=
  .record [("cpp", some ({} : CppOptions).toData, CppOptions.form),
    ("ndk", some ({} : NdkOptions).toData, NdkOptions.form),
    ("java", some ({} : JavaOptions).toData, JavaOptions.form),
    ("rust", some ({} : RustOptions).toData, RustOptions.form)]

theorem ofData_toData (surplus : Surplus) (o : BackendOptions) :
    ofData surplus o.toData = .ok o := by
  simp only [ofData, Outcome.bind_eq_ok_iff]
  exact ⟨_, rfl, _, Data.read_of_field? rfl (CppOptions.ofData_toData _),
    _, Data.read_of_field? rfl (NdkOptions.ofData_toData _),
    _, Data.read_of_field? rfl (JavaOptions.ofData_toData _ _),
    _, Data.read_of_field? rfl (RustOptions.ofData_toData _ _), rfl⟩

theorem respects_ofData (surplus : Surplus) : form.Respects (ofData surplus) :=
  respects_record fun fs fs' h => by
    simp only [ofData, Data.anyFieldsOf_record, Outcome.ok_bind]
    rw [h.read "cpp" rfl CppOptions.respects_ofData (CppOptions.ofData_toData {}),
      h.read "ndk" rfl NdkOptions.respects_ofData (NdkOptions.ofData_toData {}),
      h.read "java" rfl (JavaOptions.respects_ofData _) (JavaOptions.ofData_toData _ {}),
      h.read "rust" rfl (RustOptions.respects_ofData _) (RustOptions.ofData_toData _ {})]

end BackendOptions

/-! ## Declarations -/

namespace Interface

/-- **The fields of a declaration and their defaults.** The availability flags stand beside the
other fields. -/
def form : Form :=
  .record (Availability.formFields ++
    [text "name", text "module_dir", texts "srcs", text "local_include_dir", texts "versions",
      ("versions_with_info", some (.list []), .list FrozenVersion.form), texts "imports",
      flag "unstable", optional "stability", optional "vndk_use_version", optional "frozen",
      texts "headers", texts "flags", optional "min_sdk_version", optional "host_supported",
      optional "double_loadable", ("vndk", some ({} : VndkProperties).toData, VndkProperties.form),
      ("backend", some ({} : BackendOptions).toData, BackendOptions.form)])

/-- A declaration is read back from its record. -/
theorem ofData_toData (surplus : Surplus) (i : Interface) : ofData surplus i.toData = .ok i := by
  simp only [ofData, Outcome.bind_eq_ok_iff]
  refine ⟨_, rfl, _, Data.read_of_field? rfl rfl, _, Data.read_of_field? rfl rfl,
    _, Data.read_texts rfl, _, Data.read_of_field? rfl rfl, _, Data.read_texts rfl,
    _, Data.read_of_field? rfl (Data.asList_map FrozenVersion.toData
      (FrozenVersion.ofData_toData surplus) _), ?_⟩
  rw [dif_pos i.numbered]
  simp only [Outcome.bind_eq_ok_iff]
  exact ⟨_, Data.read_texts rfl, _, Data.read_of_field? rfl rfl, _, Data.read_optional_text rfl,
    _, Data.read_optional_text rfl, _, Data.read_optional_bool rfl, _, Data.read_texts rfl,
    _, Data.read_texts rfl, _, Data.read_optional_text rfl, _, Data.read_optional_bool rfl,
    _, Data.read_optional_bool rfl, _, Availability.ofFields_eq_ok rfl rfl rfl rfl,
    _, Data.read_of_field? rfl (VndkProperties.ofData_toData _ _),
    _, Data.read_of_field? rfl (BackendOptions.ofData_toData _ _), rfl⟩

/-- Reading a declaration respects the form. -/
theorem respects_ofData (surplus : Surplus) : form.Respects (ofData surplus) :=
  respects_record fun fs fs' h => by
    simp only [ofData, Data.fieldsOf_record, Outcome.ok_bind]
    rw [h.readText "name" rfl, h.readText "module_dir" rfl, h.readTexts "srcs" rfl,
      h.readText "local_include_dir" rfl, h.readTexts "versions" rfl,
      h.readList "versions_with_info" rfl (FrozenVersion.respects_ofData surplus),
      h.readTexts "imports" rfl, h.readFlag "unstable" rfl, h.readOptional "stability" rfl,
      h.readOptional "vndk_use_version" rfl, h.readOptional "frozen" rfl,
      h.readTexts "headers" rfl, h.readTexts "flags" rfl, h.readOptional "min_sdk_version" rfl,
      h.readOptional "host_supported" rfl, h.readOptional "double_loadable" rfl,
      Availability.ofFields_eq_of_change h.left,
      h.read "vndk" rfl (VndkProperties.respects_ofData _) (VndkProperties.ofData_toData _ {}),
      h.read "backend" rfl (BackendOptions.respects_ofData _) (BackendOptions.ofData_toData _ {})]

/-- **A declaration is read back from its record**, also after any number of changes: fields that
hold their defaults may be left out, and other fields added, at any level. -/
theorem ofData_of_changes (surplus : Surplus) (i : Interface) {d : Data}
    (h : ReflTransGen form.Change i.toData d) : ofData surplus d = .ok i := by
  rw [(respects_ofData surplus).eq_of_changes h, ofData_toData]

/-- A short declaration of an interface with one frozen version, and a field that nobody reads. -/
theorem short_declaration_is_read :
    ofData .refused (.record [("name", .text "light"),
        ("versions_with_info", .list [.record [("version", .text "1")]]),
        ("owner", .text "lights")]) =
      .ok { name := "light", versionsWithInfo := [{ version := "1", imports := [] }] } := by
  let i : Interface := { name := "light", versionsWithInfo := [{ version := "1", imports := [] }] }
  have hdefaults : ReflTransGen form.Change i.toData (.record [("name", .text "light"),
      ("versions_with_info",
        .list [.record [("version", .text "1"), ("imports", .list [])]])]) := by
    refine Form.leaveOut_filter (fun key => key = "name" ∨ key = "versions_with_info") [] _
      (by decide) (List.forall_iff_forall_mem.1 ⟨.inl rfl, ?_, ?_, ?_, ?_, .inl rfl, ?_⟩)
    repeat' apply And.intro
    all_goals exact .inr ⟨_, rfl⟩
  have himports : form.Change (.record [("name", .text "light"),
        ("versions_with_info", .list [.record [("version", .text "1"), ("imports", .list [])]])])
      (.record [("name", .text "light"),
        ("versions_with_info", .list [.record [("version", .text "1")]])]) :=
    .inField [_] [] rfl (.inItem [] [] (.leaveOut [_] [] rfl (by decide)))
  exact ofData_of_changes .refused i
    ((hdefaults.tail himports).tail (.add [_, _] [] (.text "lights") rfl))

end Interface

end InterfacePlan
