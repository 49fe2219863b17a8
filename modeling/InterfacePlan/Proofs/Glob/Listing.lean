import InterfacePlan.Proofs.Glob.PlainWalk
import InterfacePlan.Proofs.Glob.Repetitions
/-!
# Listing files with an extension

Below a directory with a plain path, the pattern for files with some extension lists every such
file, at any depth and once.

There are two things that it misses. A walk to the directory may get lost, and then nothing is
listed. And a file whose path is too long is not taken for a file, as a directory whose path is too
long cannot be read.

## Main definitions

* `Glob.HasExtension`, `Glob.IsDefinition`: files with some extension, by their way from a directory
* `Glob.IsListing`: lists of the files with some extension below a directory
* `Glob.IsReadable`: directories with nothing below them that cannot be read

## Main results

* `Glob.mem_found_iff`: what the pattern stands for
* `Glob.files_below`: what the listing is
-/

namespace InterfacePlan.Glob

theorem files_singleton_eq_ok_iff {w : WorkingTree} {base : Path} {pattern : String}
    {result : List Path} : files w base [pattern] = .ok result ↔
      ∃ found, filesOf w base pattern = .ok found
        ∧ result = dropRepeats (found.mergeSort Path.le) := by
  rw [files, Outcome.bind_eq_ok_iff]
  simp only [Outcome.mapM_eq_ok_iff, List.forall₂_cons_left_iff, List.forall₂_nil_left_iff]
  constructor
  · rintro ⟨founds, ⟨found, rest, hfound, rfl, rfl⟩, hresult⟩
    exact ⟨found, hfound, by simpa [eq_comm] using hresult⟩
  · rintro ⟨found, hfound, rfl⟩
    exact ⟨[found], ⟨found, [], hfound, rfl, rfl⟩, by simp⟩

/-! ## Files with an extension -/

/-- **A file with some extension**, by its way from a directory. -/
def HasExtension (ext : String) (way : Place) : Prop :=
  ∃ name, way.getLast? = some name ∧ '.' :: ext.toList <:+ name.toList

/-- The files with some extension below a directory. -/
def IsDefinition (w : WorkingTree) (place : Place) (ext : String) (way : Place) : Prop :=
  (∃ content, (way, .file content) ∈ w.tree.below place) ∧ HasExtension ext way

/-- **A directory with nothing below it that cannot be read**: the paths of all directories are
short enough. -/
def IsReadable (w : WorkingTree) (p : Path) (place : Place) : Prop :=
  ∀ way, (way, .directory) ∈ w.tree.below place →
    (childPath p way).utf8ByteSize ≤ WorkingTree.longestPath

section Below

variable {w : WorkingTree} {p dir : Path} {place way : Place} {ext : String}

theorem matches_ending_iff (hway : way ≠ []) :
    (Pattern.ending ext.toList).matches (way.getLast?.getD "") = true ↔ HasExtension ext way := by
  obtain ⟨name, hname⟩ := List.getLast?_isSome.2 hway |> Option.isSome_iff_exists.1
  rw [Pattern.matches_ending, HasExtension, hname]
  simp

/-- **Visiting everything below a directory**, where nothing fails but reading the directories. -/
theorem visitBelow_eq_ok_iff {f : Place × Node → List Path} {paths : List Path}
    (hfind : w.find p = .ok place) : visitBelow w p (fun e => .ok (f e)) = .ok paths ↔
      (∀ e ∈ w.tree.below place, e.2.isDirectory = true →
          ∃ found, w.find (childPath p e.1) = .ok found)
        ∧ paths = (w.tree.below place).flatMap f := by
  have hbelow : w.below p = .ok (w.tree.below place) := by rw [WorkingTree.below, hfind]; rfl
  have hentry : ∀ (e : Place × Node) (found : List Path), (do
      let paths ← (.ok (f e) : Except WalkError (List Path))
      if e.2.isDirectory then
        let path := childPath p e.1
        let _ ← (w.find path).mapError (WalkError.mk path)
      pure paths) = .ok found ↔
        (e.2.isDirectory = true → ∃ q, w.find (childPath p e.1) = .ok q) ∧ f e = found := by
    intro e found
    dsimp only
    cases e.2.isDirectory <;> cases w.find (childPath p e.1) <;>
      simp [bind, Except.bind, Except.mapError]
  rw [visitBelow, hbelow]
  change visitAll (w.tree.below place) _ = .ok paths ↔ _
  rw [visitAll, Outcome.map_eq_ok_iff]
  simp only [Outcome.mapM_eq_ok_iff, hentry, List.forall₂_and_left]
  have hmap : ∀ founds, List.Forall₂ (fun e found => f e = found) (w.tree.below place) founds
      ↔ founds = (w.tree.below place).map f := by
    intro founds
    rw [← List.forall₂_map_left_iff, List.forall₂_eq_eq_eq, eq_comm]
  simp only [hmap]
  constructor
  · rintro ⟨founds, ⟨hread, rfl⟩, rfl⟩
    exact ⟨hread, List.flatMap_def.symm⟩
  · rintro ⟨hread, rfl⟩
    exact ⟨_, ⟨hread, rfl⟩, List.flatMap_def.symm⟩

/-- What a walk finds for a file below a directory, if its name ends as it should. -/
def found (p : Path) (ext : String) (e : Place × Node) : List Path :=
  if (Pattern.ending ext.toList).matches (e.1.getLast?.getD "") then [childPath p e.1] else []

theorem walk_definitions (reaches : Reaches w p place) :
    walk w false [.anyDirectories, .ending ext.toList] (.ofPath w p)
      = visitBelow w p fun e => .ok (found p ext e) := by
  have hliteral : Pattern.anyDirectories.literal? = none := rfl
  have hrecursive : Pattern.anyDirectories.isRecursive = true := by decide
  rw [walk.eq_def]
  simp only [hliteral, hrecursive, Found.ofPath, reaches.isDirectory, Bool.not_true,
    Bool.false_eq_true, if_false, if_true, List.isEmpty_nil]
  congr 1
  funext e
  rw [found]
  split <;> rfl

variable (wf : w.tree.WellFormed)
include wf

theorem isReadable_iff (reaches : Reaches w p place) : IsReadable w p place ↔
    ∀ e ∈ w.tree.below place, e.2.isDirectory = true →
      ∃ found, w.find (childPath p e.1) = .ok found := by
  constructor
  · rintro hread ⟨way, node⟩ he hdirectory
    cases node with
    | directory => exact ⟨_, reaches.find_childPath wf he (hread way he)⟩
    | file => cases hdirectory
  · intro hread way he
    obtain ⟨found, hfound⟩ := hread _ he rfl
    exact ((reaches.find_childPath_eq_ok_iff wf he).1 hfound).1

/-- A path is a file if something below the directory is, and the path is not too long. -/
theorem isFile_childPath_iff (reaches : Reaches w p place) {node : Node}
    (hbelow : (way, node) ∈ w.tree.below place) : w.isFile (childPath p way) = true ↔
      (childPath p way).utf8ByteSize ≤ WorkingTree.longestPath ∧ node.isFile = true := by
  have hnode := (FileTree.mem_below_iff.1 hbelow).2
  rw [WorkingTree.isFile, WorkingTree.node?]
  cases hfind : w.find (childPath p way) with
  | ok q =>
    obtain ⟨hsize, rfl⟩ := (reaches.find_childPath_eq_ok_iff wf hbelow).1 hfind
    simp [hnode, hsize]
  | error e =>
    have hsize : ¬(childPath p way).utf8ByteSize ≤ WorkingTree.longestPath := by
      intro hsize
      simp [reaches.find_childPath wf hbelow hsize] at hfind
    simp [hsize]

section Listed

variable (hfind : w.find dir = .ok place) (hdirectory : w.tree.node? place = some .directory)
  (hplain : IsPlain dir.toList) (hext : IsPlain ext.toList) (hslash : '/' ∉ ext.toList)
include hfind hdirectory hplain hext hslash

theorem paths_below (hlost : ¬IsLost dir) :
    ∃ pattern, PathPattern.parse (Path.join dir ("**/*." ++ ext)) = .ok pattern
      ∧ pattern.paths w = visitBelow w (spelling dir) (fun e => .ok (found (spelling dir) ext e))
      ∧ Reaches w (spelling dir) place := by
  have hparse := PathPattern.parse_below (WorkingTree.ne_empty_of_find hfind) hplain hext hslash
  have hne : [Pattern.anyDirectories, .ending ext.toList] ≠ [] := by simp
  obtain ⟨hwalk, reaches⟩ := walk_to_directory hne false wf hfind hdirectory hlost
  refine ⟨_, hparse, ?_, reaches⟩
  rw [PathPattern.paths, hwalk, walk_definitions reaches]

/-- **What a pattern for files with some extension stands for**, if the directories can be read. -/
theorem filesOf_eq_ok_iff (hlost : ¬IsLost dir) {listed : List Path} :
    filesOf w dir ("**/*." ++ ext) = .ok listed ↔ IsReadable w (spelling dir) place
      ∧ listed = ((w.tree.below place).flatMap (found (spelling dir) ext)).filter w.isFile := by
  obtain ⟨pattern, hparse, hpaths, reaches⟩ :=
    paths_below wf hfind hdirectory hplain hext hslash hlost
  rw [isReadable_iff wf reaches, filesOf, hparse]
  change ((pattern.paths w).mapError ListingError.unreadable >>= fun found =>
    pure (found.filter w.isFile)) = .ok listed ↔ _
  rw [Outcome.bind_eq_ok_iff]
  simp only [Outcome.mapError_eq_ok_iff, hpaths, visitBelow_eq_ok_iff reaches.find_eq,
    Outcome.pure_eq, Except.ok.injEq]
  constructor
  · rintro ⟨paths, ⟨hread, rfl⟩, rfl⟩
    exact ⟨hread, rfl⟩
  · rintro ⟨hread, rfl⟩
    exact ⟨_, ⟨hread, rfl⟩, rfl⟩

end Listed

end Below

/-! ## The listing -/

/-- **A listing of the files with some extension** below a directory: in strictly increasing order
of their components, nothing but such files, and each of them once, unless its path is too long. -/
structure IsListing (w : WorkingTree) (dir : Path) (place : Place) (ext : String)
    (paths : List Path) : Prop where
  increasing : paths.Pairwise fun p q => Path.compareComponents p q = .lt
  leads : ∀ p ∈ paths, ∃ way, IsDefinition w place ext way ∧ w.find p = .ok (place ++ way)
  complete : ∀ way, IsDefinition w place ext way →
    (childPath (spelling dir) way).utf8ByteSize ≤ WorkingTree.longestPath →
      ∃! p, p ∈ paths ∧ w.find p = .ok (place ++ way)

section Listing

variable {w : WorkingTree} {p dir : Path} {place way : Place} {ext : String} {listed : List Path}

/-- The paths that a walk finds below a directory are the paths of files with the extension. -/
theorem mem_found_iff (wf : w.tree.WellFormed) (reaches : Reaches w p place) {q : Path} :
    q ∈ ((w.tree.below place).flatMap (found p ext)).filter w.isFile ↔
      ∃ way, IsDefinition w place ext way
        ∧ (childPath p way).utf8ByteSize ≤ WorkingTree.longestPath ∧ q = childPath p way := by
  simp only [List.mem_filter, List.mem_flatMap, Prod.exists]
  constructor
  · rintro ⟨⟨way, node, hbelow, hq⟩, hfile⟩
    have hway := (FileTree.mem_below_iff.1 hbelow).1
    unfold found at hq
    split at hq
    case isFalse => simp at hq
    case isTrue hends =>
      obtain rfl := List.mem_singleton.1 hq
      obtain ⟨hsize, hnode⟩ := (isFile_childPath_iff wf reaches hbelow).1 hfile
      cases node with
      | directory => cases hnode
      | file content =>
        exact ⟨way, ⟨⟨content, hbelow⟩, (matches_ending_iff hway).1 hends⟩, hsize, rfl⟩
  · rintro ⟨way, ⟨⟨content, hbelow⟩, hends⟩, hsize, rfl⟩
    have hway := (FileTree.mem_below_iff.1 hbelow).1
    refine ⟨⟨way, _, hbelow, ?_⟩, (isFile_childPath_iff wf reaches hbelow).2 ⟨hsize, rfl⟩⟩
    rw [found, if_pos ((matches_ending_iff hway).2 hends)]
    exact List.mem_singleton.2 rfl

/-- Different ways have paths with different components. -/
theorem childPath_injective (wf : w.tree.WellFormed) (reaches : Reaches w p place)
    {way way' : Place} {node node' : Node} (hway : (way, node) ∈ w.tree.below place)
    (hway' : (way', node') ∈ w.tree.below place)
    (h : Path.components (childPath p way) = Path.components (childPath p way')) : way = way' := by
  rw [reaches.components_childPath wf hway, reaches.components_childPath wf hway',
    List.append_cancel_left_eq] at h
  exact List.map_injective_iff.2 (fun _ _ => Path.Component.name.inj) h

/-- **What is left of the paths of files after sorting is a listing.** -/
theorem isListing_dropRepeats (wf : w.tree.WellFormed) (reaches : Reaches w (spelling dir) place)
    {paths : List Path} (hpaths : ∀ q, q ∈ paths ↔ ∃ way, IsDefinition w place ext way
      ∧ (childPath (spelling dir) way).utf8ByteSize ≤ WorkingTree.longestPath
      ∧ q = childPath (spelling dir) way) :
    IsListing w dir place ext (dropRepeats (paths.mergeSort Path.le)) where
  increasing := pairwise_dropRepeats_mergeSort paths
  leads p hp := by
    obtain ⟨way, hway, hsize, rfl⟩ := (hpaths p).1 (mem_of_mem_dropRepeats_mergeSort hp)
    obtain ⟨content, hbelow⟩ := hway.1
    exact ⟨way, hway, reaches.find_childPath wf hbelow hsize⟩
  complete way hway hsize := by
    obtain ⟨content, hbelow⟩ := hway.1
    obtain ⟨q, hq, hcomponents⟩ :=
      exists_mem_dropRepeats_mergeSort ((hpaths _).2 ⟨way, hway, hsize, rfl⟩)
    obtain ⟨way', ⟨⟨content', hbelow'⟩, -⟩, -, rfl⟩ :=
      (hpaths q).1 (mem_of_mem_dropRepeats_mergeSort hq)
    obtain rfl := childPath_injective wf reaches hbelow' hbelow hcomponents
    refine ⟨_, ⟨hq, reaches.find_childPath wf hbelow hsize⟩, ?_⟩
    rintro p ⟨hp, hfind⟩
    obtain ⟨way'', ⟨⟨content'', hbelow''⟩, -⟩, hsize'', rfl⟩ :=
      (hpaths p).1 (mem_of_mem_dropRepeats_mergeSort hp)
    rw [reaches.find_childPath wf hbelow'' hsize'', Except.ok.injEq,
      List.append_cancel_left_eq] at hfind
    rw [hfind]

variable (wf : w.tree.WellFormed) (hfind : w.find dir = .ok place)
  (hdirectory : w.tree.node? place = some .directory) (hplain : IsPlain dir.toList)
  (hext : IsPlain ext.toList) (hslash : '/' ∉ ext.toList)
include wf hfind hdirectory hplain hext hslash

/-- **Listing the files with some extension below a directory**, unless a walk gets lost. -/
theorem files_eq_ok_iff (hlost : ¬IsLost dir) :
    files w dir ["**/*." ++ ext] = .ok listed ↔ IsReadable w (spelling dir) place
      ∧ listed = dropRepeats ((((w.tree.below place).flatMap
          (found (spelling dir) ext)).filter w.isFile).mergeSort Path.le) := by
  rw [files_singleton_eq_ok_iff]
  simp only [filesOf_eq_ok_iff wf hfind hdirectory hplain hext hslash hlost]
  constructor
  · rintro ⟨paths, ⟨hread, rfl⟩, rfl⟩
    exact ⟨hread, rfl⟩
  · rintro ⟨hread, rfl⟩
    exact ⟨_, ⟨hread, rfl⟩, rfl⟩

/-- What is listed is a listing. -/
theorem isListing_of_files (hlost : ¬IsLost dir)
    (hlisted : files w dir ["**/*." ++ ext] = .ok listed) : IsListing w dir place ext listed := by
  obtain ⟨-, rfl⟩ :=
    (files_eq_ok_iff wf hfind hdirectory hplain hext hslash hlost).1 hlisted
  obtain ⟨-, -, -, reaches⟩ := paths_below wf hfind hdirectory hplain hext hslash hlost
  exact isListing_dropRepeats wf reaches fun q => mem_found_iff wf reaches

omit wf hdirectory in
/-- Where a walk gets lost, nothing is listed. -/
theorem files_of_isLost (hlost : IsLost dir) : files w dir ["**/*." ++ ext] = .ok [] := by
  have hparse := PathPattern.parse_below (WorkingTree.ne_empty_of_find hfind) hplain hext hslash
  have hpaths : filesOf w dir ("**/*." ++ ext) = .ok [] := by
    rw [filesOf, hparse]
    simp only [Except.mapError, Outcome.ok_bind, PathPattern.paths, walk_of_isLost _ _ hlost]
    rfl
  exact files_singleton_eq_ok_iff.2 ⟨[], hpaths, by simp [dropRepeats]⟩

/-- **What listing the files with some extension below a directory gives.** If a walk gets lost on
the path of the directory, it is nothing. Otherwise, if all directories can be read, it is a
listing. -/
theorem files_below :
    (IsLost dir → files w dir ["**/*." ++ ext] = .ok [])
      ∧ (¬IsLost dir → IsReadable w (spelling dir) place →
          ∃ listed, files w dir ["**/*." ++ ext] = .ok listed
            ∧ IsListing w dir place ext listed) := by
  refine ⟨files_of_isLost hfind hplain hext hslash, fun hlost hread => ?_⟩
  have hlisted := (files_eq_ok_iff wf hfind hdirectory hplain hext hslash hlost).2 ⟨hread, rfl⟩
  exact ⟨_, hlisted, isListing_of_files wf hfind hdirectory hplain hext hslash hlost hlisted⟩

end Listing

/-! ## Examples -/

/-- A tree with a hidden file, a hidden directory, and a directory that is called like a file. -/
def sampleTree : WorkingTree where
  tree := [["d", ".aidl"], ["d", ".git", "IFoo.aidl"], ["d", "a.b", "I.x.aidl"], ["d", "readme"],
    ["d", "sub.aidl", "IBar.aidl"]].foldl (fun t place => t.addFile place "") ∅
  current := []

theorem sampleTree_wellFormed : sampleTree.tree.WellFormed where
  names := by decide +kernel
  parents := by decide +kernel

theorem files_below_sample : ∃ listed, files sampleTree "./d" ["**/*." ++ "aidl"] = .ok listed
    ∧ IsListing sampleTree "./d" ["d"] "aidl" listed
    ∧ ∃! p, p ∈ listed ∧ sampleTree.find p = .ok ["d", ".git", "IFoo.aidl"] := by
  have hfind : sampleTree.find "./d" = .ok ["d"] := by decide +kernel
  have hdirectory : sampleTree.tree.node? ["d"] = some .directory := by decide +kernel
  have hplain : IsPlain "./d".toList := by decide
  have hext : IsPlain "aidl".toList := by decide
  have hslash : '/' ∉ "aidl".toList := by decide
  have hread : IsReadable sampleTree (spelling "./d") ["d"] := by
    have hall : ∀ e ∈ sampleTree.tree.below ["d"],
        (childPath (spelling "./d") e.1).utf8ByteSize ≤ WorkingTree.longestPath := by
      decide +kernel
    intro way hway
    exact hall (way, .directory) hway
  obtain ⟨listed, hlisted, hlisting⟩ :=
    (files_below sampleTree_wellFormed hfind hdirectory hplain hext hslash).2 (by decide) hread
  have hhidden : IsDefinition sampleTree ["d"] "aidl" [".git", "IFoo.aidl"] :=
    ⟨⟨"", by decide +kernel⟩, "IFoo.aidl", rfl, by decide⟩
  exact ⟨listed, hlisted, hlisting, hlisting.complete _ hhidden (by decide +kernel)⟩

/-- **A walk may get lost on the path of a directory that exists.** Then its files are not
listed. -/
theorem lost_files : sampleTree.isDirectory ".//d" = true ∧ IsPlain ".//d".toList
    ∧ IsDefinition sampleTree ["d"] "aidl" [".aidl"]
    ∧ files sampleTree ".//d" ["**/*.aidl"] = .ok [] := by
  refine ⟨by decide +kernel, by decide, ⟨⟨"", by decide +kernel⟩, ".aidl", rfl, by decide⟩, ?_⟩
  decide +kernel

end InterfacePlan.Glob
