import InterfacePlan.Proofs.Glob.Listing
import InterfacePlan.Proofs.Plan.Accounting
/-!
# Skipped snapshots

A frozen version is skipped if no sources are selected from its snapshot. Whether the snapshot
exists is decided by its path, but its sources are listed by a pattern that the path becomes a part
of. So the path may mean something else in the pattern: wildcards in it stand for other directories,
and a walk may get lost on it. With a plain path, the only definitions that a skipped snapshot has
are files whose paths are too long.

## Main definitions

* `Sources.IsPlainSnapshot`: snapshots with paths that mean the same in a pattern

## Main results

* `Sources.snapshot_eq_ok_iff`: the sources that are selected from a snapshot
* `Plan.snapshot_contents`: what skipped snapshots do not have, and selected sources are
* `Plan.overlooked_snapshot`: a skipped snapshot with a definition in it
-/

namespace InterfacePlan

namespace Sources

variable {settings : Settings} {w : WorkingTree} {i : Interface} {version : String}
  {sources : Sources}

/-- **A snapshot with a path that means the same in a pattern**: it holds no wildcards, and a walk
does not get lost on it. -/
structure IsPlainSnapshot (settings : Settings) (i : Interface) (version : String) : Prop where
  directory : Glob.IsPlain (snapshotDir settings i version).toList
  extension : Glob.IsPlain settings.extension.toList
  not_lost : ¬Glob.IsLost (snapshotDir settings i version)

/-- The sources that are listed for a snapshot, as seen from the directory of the interface. -/
def ofFiles (settings : Settings) (i : Interface) (version : String) (files : List Path) :
    Sources where
  srcs := files.map fun file => Path.toSlash (Path.relativeTo i.moduleDir file)
  root := snapshotRoot settings i version

/-- **The sources that are selected from a snapshot.** -/
theorem snapshot_eq_ok_iff : snapshot settings w i version = .ok sources ↔
    w.isDirectory (snapshotDir settings i version) = true
      ∧ ∃ files, Glob.files w (snapshotDir settings i version) [definitionPattern settings]
          = .ok files ∧ sources = ofFiles settings i version files := by
  unfold snapshot
  dsimp only
  split
  case isTrue h => simp_all
  case isFalse h =>
    rw [Bool.not_eq_true', Bool.not_eq_false] at h
    rw [and_iff_right h]
    split
    case h_1 e he => simp [he]
    case h_2 files hfiles => simp [hfiles, ofFiles, eq_comm]

theorem select_of_frozen (hnext : i.isNextVersion version = false) :
    select settings w i version = snapshot settings w i version := by
  rw [select, if_neg (by simp [hnext])]

theorem isNextVersion_of_frozen {r : Registry} (hi : i ∈ r.interfaces)
    (hv : version ∈ i.frozenVersions) : i.isNextVersion version = false :=
  Interface.isNextVersion_of_mem_frozenVersions (Registry.validateVersions_of_mem hi) hv

/-- **The files that are listed for a plain snapshot** are its definitions, apart from those whose
paths are too long. -/
theorem isListing_of_snapshot (wf : w.tree.WellFormed)
    (plain : IsPlainSnapshot settings i version) (hslash : '/' ∉ settings.extension.toList)
    (hsources : snapshot settings w i version = .ok sources) :
    ∃ place files, w.find (snapshotDir settings i version) = .ok place
      ∧ sources = ofFiles settings i version files
      ∧ Glob.IsListing w (snapshotDir settings i version) place settings.extension files := by
  obtain ⟨hdirectory, files, hfiles, rfl⟩ := snapshot_eq_ok_iff.1 hsources
  obtain ⟨place, hfind, hnode⟩ := WorkingTree.isDirectory_iff.1 hdirectory
  exact ⟨place, files, hfind, rfl, Glob.isListing_of_files wf hfind hnode plain.directory
    plain.extension hslash plain.not_lost hfiles⟩

/-- No name ends in an extension with a slash in it. -/
theorem slash_not_mem_of_isDefinition {place way : Place} {ext : String} (wf : w.tree.WellFormed)
    (hway : Glob.IsDefinition w place ext way) : '/' ∉ ext.toList := by
  obtain ⟨⟨content, hbelow⟩, name, hname, hsuffix⟩ := hway
  intro hslash
  have hfile := wf.isFileName_of_below hbelow name (List.mem_of_getLast? hname)
  exact hfile.no_slash (hsuffix.subset (List.mem_cons_of_mem _ hslash))

/-- **Nothing is selected from a plain snapshot** only if the paths of all its definitions are too
long. -/
theorem overlong_of_isEmpty (wf : w.tree.WellFormed) (plain : IsPlainSnapshot settings i version)
    (hsources : snapshot settings w i version = .ok sources) (hempty : sources.isEmpty = true) :
    ∃ place, w.find (snapshotDir settings i version) = .ok place
      ∧ ∀ way, Glob.IsDefinition w place settings.extension way →
          WorkingTree.longestPath < (Glob.childPath
            (Glob.spelling (snapshotDir settings i version)) way).utf8ByteSize := by
  obtain ⟨hdirectory, -⟩ := snapshot_eq_ok_iff.1 hsources
  obtain ⟨place, hfind, -⟩ := WorkingTree.isDirectory_iff.1 hdirectory
  refine ⟨place, hfind, fun way hway => ?_⟩
  have hslash := slash_not_mem_of_isDefinition wf hway
  obtain ⟨place', files, hfind', rfl, listing⟩ := isListing_of_snapshot wf plain hslash hsources
  obtain rfl : place = place' := Except.ok.inj (hfind.symm.trans hfind')
  have hfiles : files = [] := by simpa [isEmpty, ofFiles] using hempty
  by_contra hsize
  obtain ⟨file, ⟨hfile, -⟩, -⟩ := listing.complete way hway (Nat.not_lt.1 hsize)
  simp [hfiles] at hfile

/-- **What is selected from a plain snapshot** are definitions in it. -/
theorem isDefinition_of_mem_srcs (wf : w.tree.WellFormed)
    (plain : IsPlainSnapshot settings i version) (hslash : '/' ∉ settings.extension.toList)
    (hsources : snapshot settings w i version = .ok sources) :
    ∃ place, w.find (snapshotDir settings i version) = .ok place
      ∧ ∀ src ∈ sources.srcs, ∃ file way,
          src = Path.toSlash (Path.relativeTo i.moduleDir file)
            ∧ Glob.IsDefinition w place settings.extension way
            ∧ w.find file = .ok (place ++ way) := by
  obtain ⟨place, files, hfind, rfl, listing⟩ := isListing_of_snapshot wf plain hslash hsources
  refine ⟨place, hfind, fun src hsrc => ?_⟩
  obtain ⟨file, hfile, rfl⟩ := List.mem_map.1 hsrc
  obtain ⟨way, hway, hleads⟩ := listing.leads file hfile
  exact ⟨file, way, rfl, hway, hleads⟩

end Sources

namespace Plan

open Sources (snapshotDir IsPlainSnapshot)

variable {settings : Settings} {w : WorkingTree} {r : Registry} {p : Plan}

/-- **What skipped snapshots do not have, and what selected sources are.** If their paths are plain,
a skipped snapshot has no definitions but those whose paths are too long, and the sources that are
selected from a snapshot are definitions in it. -/
theorem snapshot_contents (wf : w.tree.WellFormed) (hp : ofRegistry settings w r = .ok p) :
    (∀ s ∈ p.skipped, ∀ i ∈ r.interfaces, i.name = s.interface → s.version ∈ i.frozenVersions →
        IsPlainSnapshot settings i s.version →
          ∃ place, w.find (snapshotDir settings i s.version) = .ok place
            ∧ ∀ way, Glob.IsDefinition w place settings.extension way →
                WorkingTree.longestPath < (Glob.childPath
                  (Glob.spelling (snapshotDir settings i s.version)) way).utf8ByteSize)
      ∧ ∀ i ∈ r.interfaces, ∀ version ∈ i.frozenVersions, ∀ sources,
          Sources.select settings w i version = .ok sources →
            IsPlainSnapshot settings i version → '/' ∉ settings.extension.toList →
              ∃ place, w.find (snapshotDir settings i version) = .ok place
                ∧ ∀ src ∈ sources.srcs, ∃ file way,
                    src = Path.toSlash (Path.relativeTo i.moduleDir file)
                      ∧ Glob.IsDefinition w place settings.extension way
                      ∧ w.find file = .ok (place ++ way) := by
  constructor
  · intro s hs i hi hname hv plain
    rw [(realizes hp).skipped_eq, List.mem_map] at hs
    obtain ⟨q, hq, rfl⟩ := hs
    obtain ⟨hq, hlacks⟩ := List.mem_filter.1 hq
    have hqi := (Registry.mem_requests_iff.1 hq).1
    obtain rfl : i = q.interface := Registry.eq_of_name_eq hi hqi hname
    obtain ⟨sources, hselect, hempty⟩ :=
      Request.answer_eq_none_iff.1 (Request.lacksSources_iff.1 hlacks)
    have hfrozen : q.version ∈ q.interface.frozenVersions := hv
    rw [Sources.select_of_frozen (Sources.isNextVersion_of_frozen hi hfrozen)] at hselect
    exact Sources.overlong_of_isEmpty wf plain hselect hempty
  · intro i hi version hv sources hselect plain hslash
    rw [Sources.select_of_frozen (Sources.isNextVersion_of_frozen hi hv)] at hselect
    exact Sources.isDefinition_of_mem_srcs wf plain hslash hselect

/-- An interface in some directory with a single frozen version. -/
def frozenOnce (name version : String) (moduleDir : Path) : Interface where
  name := name
  versions := [version]
  moduleDir := moduleDir
  srcs := ["IFoo.aidl"]
  backend := { cppOnly with cpp := {} }

/-- Two such interfaces, the second one with an empty snapshot. -/
def snapshotTree : WorkingTree where
  tree := (FileTree.addFile ∅ ["hw", "aidl_api", "bar", "1", "IBar.aidl"] "").addDirectory
    ["hw", "aidl_api", "foo", "1"]
  current := []

theorem snapshot_contents_of_sample : ∃ p, ofRegistry {} snapshotTree
      (registryOf [frozenOnce "bar" "1" "hw", frozenOnce "foo" "1" "hw"]) = .ok p
    ∧ p.skipped = [⟨"foo", "1", .cpp, "foo-V1-cpp"⟩]
    ∧ (∃ place, snapshotTree.find (snapshotDir {} (frozenOnce "foo" "1" "hw") "1") = .ok place
        ∧ ∀ way, Glob.IsDefinition snapshotTree place "aidl" way →
            WorkingTree.longestPath < (Glob.childPath
              (Glob.spelling (snapshotDir {} (frozenOnce "foo" "1" "hw") "1")) way).utf8ByteSize)
    ∧ ∃ place, snapshotTree.find (snapshotDir {} (frozenOnce "bar" "1" "hw") "1") = .ok place
        ∧ ∃ file way, "aidl_api/bar/1/IBar.aidl" = Path.toSlash (Path.relativeTo "hw" file)
          ∧ Glob.IsDefinition snapshotTree place "aidl" way
          ∧ snapshotTree.find file = .ok (place ++ way) := by
  have hok : (ofRegistry {} snapshotTree
      (registryOf [frozenOnce "bar" "1" "hw", frozenOnce "foo" "1" "hw"])).isOk = true := by
    decide +kernel
  obtain ⟨p, hp⟩ := Outcome.exists_ok_of_isOk hok
  have wf : snapshotTree.tree.WellFormed := ⟨by decide +kernel, by decide +kernel⟩
  have hskipped : p.skipped = [⟨"foo", "1", .cpp, "foo-V1-cpp"⟩] := by
    rw [(realizes hp).skipped_eq]
    decide +kernel
  have hinterfaces : (registryOf [frozenOnce "bar" "1" "hw", frozenOnce "foo" "1" "hw"]).interfaces
      = [frozenOnce "bar" "1" "hw", frozenOnce "foo" "1" "hw"] := by
    decide +kernel
  obtain ⟨hempty, hsources⟩ := snapshot_contents wf hp
  have hselect : Sources.select {} snapshotTree (frozenOnce "bar" "1" "hw") "1"
      = .ok ⟨["aidl_api/bar/1/IBar.aidl"], "aidl_api/bar/1"⟩ := by
    decide +kernel
  have hplain : ∀ name ∈ ["bar", "foo"], IsPlainSnapshot {} (frozenOnce name "1" "hw") "1" := by
    intro name hname
    exact ⟨by revert name; decide +kernel, by decide, by revert name; decide +kernel⟩
  have hfoo := hempty ⟨"foo", "1", .cpp, "foo-V1-cpp"⟩ (by simp [hskipped])
    (frozenOnce "foo" "1" "hw") (by simp [hinterfaces]) rfl (by decide +kernel)
    (hplain "foo" (by simp))
  obtain ⟨place, hfind, hsrcs⟩ := hsources (frozenOnce "bar" "1" "hw") (by simp [hinterfaces]) "1"
    (by decide +kernel) _ hselect (hplain "bar" (by simp)) (by decide)
  exact ⟨p, hp, hskipped, hfoo, place, hfind, hsrcs _ (List.mem_singleton.2 rfl)⟩

/-- A definition in a snapshot, in a directory with brackets in its name. -/
def bracketTree : WorkingTree :=
  ⟨FileTree.addFile ∅ ["hw[1]", "aidl_api", "foo", "1", "IFoo.aidl"] "", []⟩

/-- **A snapshot with a definition in it may be skipped**, if there are wildcards in its path. -/
theorem overlooked_snapshot : bracketTree.tree.WellFormed
    ∧ ∃ p, ofRegistry {} bracketTree (registryOf [frozenOnce "foo" "1" "hw[1]"]) = .ok p
      ∧ p.skipped = [⟨"foo", "1", .cpp, "foo-V1-cpp"⟩]
      ∧ ∃ place, bracketTree.find (snapshotDir {} (frozenOnce "foo" "1" "hw[1]") "1") = .ok place
        ∧ Glob.IsDefinition bracketTree place "aidl" ["IFoo.aidl"] := by
  have hok : (ofRegistry {} bracketTree
      (registryOf [frozenOnce "foo" "1" "hw[1]"])).isOk = true := by
    decide +kernel
  obtain ⟨p, hp⟩ := Outcome.exists_ok_of_isOk hok
  refine ⟨⟨by decide +kernel, by decide +kernel⟩, p, hp, ?_, ["hw[1]", "aidl_api", "foo", "1"],
    by decide +kernel, ⟨"", by decide +kernel⟩, "IFoo.aidl", rfl, by decide⟩
  rw [(realizes hp).skipped_eq]
  decide +kernel

end Plan

end InterfacePlan
