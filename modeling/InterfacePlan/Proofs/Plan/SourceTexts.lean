import InterfacePlan.Proofs.Glob.Below
import InterfacePlan.Proofs.Interface.Numbering
import InterfacePlan.Proofs.Plan.SkippedSnapshots
import InterfacePlan.Project.Manifest
/-!
# Texts of selected sources

The sources of a frozen version are written as seen from the directory of the interface. The root
that they are included from is not computed from a path, but put together from names. So whether the
text of a source goes on from that of the root depends on how the relative path is found. It does
for every directory that does not go on from a dot. For one that does, no source goes on from its
root: the paths that are listed have lost the dot, and the directory still has it.

## Main definitions

* `Sources.HasNamedSnapshots`: interfaces whose snapshots have ordinary names
* `Sources.LeadsToFile`: texts that lead from a directory to a file

## Main results

* `Sources.components_of_liesBelow`: the components of a file below a snapshot
* `Sources.text_of_liesBelow`: the text of a source below the snapshot
* `Sources.texts_of_selected`: whether the texts of sources go on from that of their root
* `Sources.source_beside_root`: a source of a loaded interface that does not
-/

namespace InterfacePlan

/-! ## Names -/

/-- A text that is a single name in a path, and means itself in a pattern. -/
theorem Decimal.isNamePath_text (n : Nat) : Path.IsNamePath (text n) := by
  have hdigit : ∀ c ∈ digits n, c.isDigit = true := fun c => isDigit_of_mem_digits
  have hslash : '/' ∉ digits n := fun h => absurd (hdigit _ h) (by decide)
  rw [Path.IsNamePath, text, String.toList_ofList, Text.splitOn_of_not_mem hslash]
  intro part hpart hdots
  obtain rfl := List.mem_singleton.1 hpart
  rw [List.mem_cons] at hdots
  rcases hdots with hnil | hdots
  · exact digits_ne_nil n hnil
  · have hdot : '.' ∈ digits n := by
      rcases List.mem_pair.1 hdots with h | h <;> rw [h] <;> exact List.mem_cons_self ..
    exact absurd (hdigit _ hdot) (by decide)

theorem Decimal.isPlain_text (n : Nat) : Glob.IsPlain (text n).toList := by
  rw [text, String.toList_ofList]
  intro c hc hwild
  have hnone : ['*', '?', '['].filter Char.isDigit = [] := by decide
  exact List.filter_eq_nil_iff.1 hnone c hwild (isDigit_of_mem_digits hc)

/-- Frozen versions are numbers. -/
theorem Interface.exists_text_of_mem_frozenVersions {i : Interface} {version : String}
    (valid : i.validateVersions = .ok ()) (hv : version ∈ i.frozenVersions) :
    ∃ n, version = Decimal.text n := by
  rcases validateVersions_eq_ok_iff_numbered.1 valid with h | ⟨n, h⟩
  · rw [frozenVersions_eq_nil_iff.2 ⟨h.versions, h.versionsWithInfo⟩] at hv
    cases hv
  · rw [h.frozen] at hv
    obtain ⟨m, -, rfl⟩ := List.mem_map.1 hv
    exact ⟨m, rfl⟩

namespace Sources

variable {settings : Settings} {w : WorkingTree} {i : Interface} {version : String}
  {sources : Sources} {place : Place} {file : Path} {steps : List Path.Component}

/-- **Snapshots with ordinary names**: the snapshot directory and the interface are named by names
only, and there are no wildcards in the path of a snapshot. -/
structure HasNamedSnapshots (settings : Settings) (i : Interface) : Prop where
  api : Path.IsNamePath settings.apiDir
  name : Path.IsNamePath i.name
  plain_api : Glob.IsPlain settings.apiDir.toList
  plain_name : Glob.IsPlain i.name.toList
  plain_directory : Glob.IsPlain i.moduleDir.toList

/-! ## The text of a source -/

/-- **A text that leads to a file**: its parts are the steps that lead there from a place. Unless
there is a slash in the extension that was asked for, they are the names of the file below the
place. -/
structure LeadsToFile (w : WorkingTree) (place : Place) (ext way : String) (found : Place) :
    Prop where
  follow_eq : WorkingTree.follow w.tree place .directory (Text.splitOn '/' way.toList) = .ok found
  isFile : ∃ content, w.tree.node? found = some (.file content)
  names : '/' ∉ ext.toList → ∃ names, way = Text.join "/" names ∧ found = place ++ names

section Snapshot

variable (named : HasNamedSnapshots settings i)
include named

theorem isPlain_snapshotDir (hplain : Glob.IsPlain version.toList) :
    Glob.IsPlain (snapshotDir settings i version).toList :=
  named.plain_directory.join ((named.plain_api.append_slash named.plain_name).append_slash hplain)

variable (hversion : Path.IsNamePath version)
include hversion

theorem isNamePath_snapshotRoot : Path.IsNamePath (snapshotRoot settings i version) :=
  (named.api.append_slash named.name).append_slash hversion

theorem exists_isStep_snapshotDir :
    ∃ c ∈ Path.components (snapshotDir settings i version), c.IsStep := by
  have hroot := isNamePath_snapshotRoot named hversion
  obtain ⟨c, hc⟩ := List.exists_mem_of_ne_nil _ hroot.components_ne_nil
  refine ⟨c, ?_, hroot.isStep_of_mem_components hc⟩
  rw [snapshotDir, hroot.components_join]
  exact List.mem_append_right _ hc

variable (lies : Glob.LiesBelow w (snapshotDir settings i version) place steps file)
include lies

/-- The components of a file below a snapshot are those of the directory of the interface, without a
dot at its start, and then those of the root and of the way. -/
theorem components_of_liesBelow : Path.components file = Path.solid i.moduleDir
    ++ (Path.components (snapshotRoot settings i version) ++ steps) := by
  rw [lies.components_eq, snapshotDir, (isNamePath_snapshotRoot named hversion).solid_join,
    List.append_assoc]

theorem isStep_of_liesBelow :
    ∀ c ∈ Path.components (snapshotRoot settings i version) ++ steps, c.IsStep :=
  List.forall_mem_append.2
    ⟨fun _ => (isNamePath_snapshotRoot named hversion).isStep_of_mem_components, lies.isStep⟩

/-- **The text of a file below a snapshot** goes on from the root, if the directory does not go on
from a dot. -/
theorem text_of_liesBelow (hdot : ¬Path.GoesOnFromDot i.moduleDir) :
    Path.toSlash (Path.relativeTo i.moduleDir file)
      = snapshotRoot settings i version ++ "/"
          ++ Text.join "/" (steps.map Path.Component.text) := by
  rw [Path.toSlash_relativeTo (components_of_liesBelow named hversion lies)
    (isStep_of_liesBelow named hversion lies)
    (List.append_ne_nil_of_right_ne_nil _ lies.ne_nil) hdot]
  exact (isNamePath_snapshotRoot named hversion).join_append lies.ne_nil

/-- For a directory that goes on from a dot, the text does not go on from the root. -/
theorem text_ne_of_liesBelow (hdot : Path.GoesOnFromDot i.moduleDir) (way : String) :
    Path.toSlash (Path.relativeTo i.moduleDir file)
      ≠ snapshotRoot settings i version ++ "/" ++ way := by
  intro heq
  have hparent := Path.parent_mem_relativeTo (components_of_liesBelow named hversion lies)
    (isStep_of_liesBelow named hversion lies)
    (List.append_ne_nil_of_right_ne_nil _ lies.ne_nil) hdot
  -- There are several names in the root, so the step to the parent is not behind it.
  have hlong := (named.api.append_slash named.name).two_le_length_components hversion
  rw [heq] at hparent
  exact (isNamePath_snapshotRoot named hversion).parent_not_mem_append_slash hlong way hparent

end Snapshot

/-! ## Selected sources -/

/-- **Whether the texts of sources go on from that of their root.** For a frozen version, there is a
source for each definition that is listed below the snapshot. If the directory of the interface does
not go on from a dot, its text is that of the root, a slash, and a text that leads from the snapshot
to the file. Otherwise, it never goes on from the root. -/
theorem texts_of_selected (wf : w.tree.WellFormed) (valid : i.validateVersions = .ok ())
    (hv : version ∈ i.frozenVersions) (named : HasNamedSnapshots settings i)
    (hselect : select settings w i version = .ok sources) :
    ∃ place files, w.find (snapshotDir settings i version) = .ok place
      ∧ Glob.files w (snapshotDir settings i version) [definitionPattern settings] = .ok files
      ∧ sources.root = snapshotRoot settings i version
      ∧ (¬Path.GoesOnFromDot i.moduleDir →
          List.Forall₂ (fun file src => ∃ way found, src = sources.root ++ "/" ++ way
            ∧ w.find file = .ok found
            ∧ LeadsToFile w place settings.extension way found) files sources.srcs)
      ∧ (Path.GoesOnFromDot i.moduleDir →
          ∀ src ∈ sources.srcs, ∀ way, src ≠ sources.root ++ "/" ++ way) := by
  rw [select_of_frozen (Interface.isNextVersion_of_mem_frozenVersions valid hv)] at hselect
  obtain ⟨hdirectory, files, hfiles, rfl⟩ := snapshot_eq_ok_iff.1 hselect
  obtain ⟨place, hfind, hnode⟩ := WorkingTree.isDirectory_iff.1 hdirectory
  obtain ⟨n, rfl⟩ := Interface.exists_text_of_mem_frozenVersions valid hv
  have hversion := Decimal.isNamePath_text n
  have hplain := isPlain_snapshotDir named (Decimal.isPlain_text n)
  have hstep := exists_isStep_snapshotDir named hversion
  have hlies : ∀ file ∈ files, ∃ steps,
      Glob.LiesBelow w (snapshotDir settings i (Decimal.text n)) place steps file := fun file =>
    (Glob.exists_liesBelow_of_mem_files wf hfind hnode hplain
      (Glob.definitions_ne_empty _) (Glob.head?_definitions _) hfiles · hstep)
  refine ⟨place, files, hfind, hfiles, rfl, fun hdot => ?_, fun hdot src hsrc way => ?_⟩
  · refine List.forall₂_map_right_iff.2 (List.forall₂_same.2 fun file hfile => ?_)
    obtain ⟨steps, lies⟩ := hlies file hfile
    obtain ⟨found, content, hfound, hcontent, hfollow⟩ := lies.leads
    refine ⟨_, found, text_of_liesBelow named hversion lies hdot, hfound,
      ⟨by rwa [Path.splitOn_join lies.isStep lies.ne_nil], ⟨content, hcontent⟩, fun hslash => ?_⟩⟩
    obtain ⟨names, rfl, hnames⟩ := lies.exists_names wf hfind hnode hplain hslash hstep hfiles hfile
    refine ⟨names, ?_, Except.ok.inj (hfound.symm.trans hnames)⟩
    rw [List.map_map]
    simp [Function.comp_def, Path.Component.text]
  · obtain ⟨file, hfile, rfl⟩ := List.mem_map.1 hsrc
    obtain ⟨steps, lies⟩ := hlies file hfile
    exact text_ne_of_liesBelow named hversion lies hdot way

theorem texts_of_sample : ∃ place way found,
    Plan.snapshotTree.find (snapshotDir {} (Plan.frozenOnce "bar" "1" "hw") "1") = .ok place
      ∧ select {} Plan.snapshotTree (Plan.frozenOnce "bar" "1" "hw") "1"
          = .ok ⟨["aidl_api/bar/1" ++ "/" ++ way], "aidl_api/bar/1"⟩
      ∧ LeadsToFile Plan.snapshotTree place "aidl" way found := by
  have wf : Plan.snapshotTree.tree.WellFormed := ⟨by decide +kernel, by decide +kernel⟩
  have named : HasNamedSnapshots {} (Plan.frozenOnce "bar" "1" "hw") :=
    ⟨by decide, by decide, by decide, by decide, by decide⟩
  have hselect : select {} Plan.snapshotTree (Plan.frozenOnce "bar" "1" "hw") "1"
      = .ok ⟨["aidl_api/bar/1/IBar.aidl"], "aidl_api/bar/1"⟩ := by
    decide +kernel
  obtain ⟨place, files, hfind, -, -, htexts, -⟩ :=
    texts_of_selected wf (by decide +kernel) (by decide +kernel) named hselect
  obtain ⟨file, -, ⟨way, found, hsrc, -, leads⟩, -⟩ :=
    List.forall₂_cons_right_iff.1 (htexts (by decide))
  exact ⟨place, way, found, hfind, hsrc ▸ hselect, leads⟩

/-- A manifest with an interface in another directory, and a snapshot of the interface. -/
def manifestTree : WorkingTree where
  tree := FileTree.addFile
    (FileTree.addFile ∅ ["hardware", "foo", "aidl_api", "foo", "1", "IFoo.aidl"] "")
    ["Interfaces.toml"]
    "[[interface]]\nname = \"foo\"\nmodule_dir = \"hardware/foo\"\nversions = [\"1\"]\n"
  current := []

/-- The interface of that manifest, if the path of the manifest starts with a dot. -/
def loadedFoo : Interface :=
  { Plan.frozenOnce "foo" "1" "./hardware/foo" with srcs := [], backend := {} }

/-- **The sources of a loaded interface may not go on from their root**: if the path of the manifest
starts with a dot, so does the directory of the interface. -/
theorem source_beside_root : manifestTree.tree.WellFormed
    ∧ ∃ r, Registry.load manifestTree "./Interfaces.toml" = .ok r
      ∧ ∃ i ∈ r.interfaces, "1" ∈ i.frozenVersions ∧ HasNamedSnapshots {} i
        ∧ ∃ sources, select {} manifestTree i "1" = .ok sources
          ∧ ∃ src ∈ sources.srcs, ∀ way, src ≠ sources.root ++ "/" ++ way := by
  have hload : (Registry.load manifestTree "./Interfaces.toml").map Registry.interfaces
      = .ok [loadedFoo] := by
    decide +kernel
  obtain ⟨r, hr, hinterfaces⟩ := Outcome.map_eq_ok_iff.1 hload
  have hselect : select {} manifestTree loadedFoo "1"
      = .ok ⟨["hardware/../../foo/aidl_api/foo/1/IFoo.aidl"], "aidl_api/foo/1"⟩ := by
    decide +kernel
  refine ⟨⟨by decide +kernel, by decide +kernel⟩, r, hr, loadedFoo, by simp [hinterfaces],
    by decide, ⟨by decide, by decide, by decide, by decide, by decide⟩, _, hselect, _,
    List.mem_singleton.2 rfl, fun way h => ?_⟩
  have hfirst := congrArg (·.toList.head?) h
  simp [String.toList_append] at hfirst

end Sources

end InterfacePlan
