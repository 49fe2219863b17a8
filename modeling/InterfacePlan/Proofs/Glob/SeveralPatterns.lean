import InterfacePlan.Proofs.Collection.StrictOrder
import InterfacePlan.Proofs.Glob.Grammar
import InterfacePlan.Proofs.Glob.Listing
import InterfacePlan.Proofs.Glob.Readability
import InterfacePlan.Proofs.Glob.Repetitions
/-!
# Listing files by several patterns

Patterns may overlap, and a file may be found with different spellings. The files of all patterns
are sorted by the components of their paths, and those with the same components follow each other
then, so each is kept once. What is left depends on what the patterns are, and not on their order or
on how often they are given.

## Main definitions

* `Glob.IsPatternBelow`: patterns below a directory that are well formed
* `Glob.CanWalk`: patterns below a directory whose walks can read all directories that they list

## Main results

* `Glob.exists_filesOf_eq_ok_iff`: when the files of a pattern are listed
* `Glob.mem_map_components_iff`: what the files of several patterns are
* `Glob.files_of_patterns`: all that can become of several patterns
-/

namespace InterfacePlan.Glob

variable {w : WorkingTree} {base : Path} {pattern : String} {patterns : List String}

/-- **A pattern below a directory**, in the grammar of patterns. -/
def IsPatternBelow (base : Path) (pattern : String) : Prop :=
  IsPathPattern (Path.join base pattern).toList

/-- **A walk from a directory on can read the directories** that it lists. -/
def CanWalk (w : WorkingTree) (base : Path) (pattern : String) : Prop :=
  ∀ p, PathPattern.parse (Path.join base pattern) = .ok p →
    ∀ directory, Lists w p.components (.ofPath w p.start) directory → CanList w directory

/-! ## A single pattern -/

/-- **When the files of a pattern are listed.** -/
theorem exists_filesOf_eq_ok_iff : (∃ found, filesOf w base pattern = .ok found) ↔
    IsPatternBelow base pattern ∧ CanWalk w base pattern := by
  have hpaths : ∀ p : PathPattern, (∃ found, (do
      let found ← (p.paths w).mapError ListingError.unreadable
      pure (found.filter w.isFile)) = .ok found) ↔
        ∀ directory, Lists w p.components (.ofPath w p.start) directory → CanList w directory := by
    intro p
    rw [Outcome.exists_bind_eq_ok_iff, ← exists_walk_eq_ok_iff]
    exact exists_congr fun found => (and_iff_left ⟨_, rfl⟩).trans Outcome.mapError_eq_ok_iff
  rw [filesOf, Outcome.exists_bind_eq_ok_iff, IsPatternBelow, ← PathPattern.exists_parse_eq_ok_iff]
  simp only [Outcome.mapError_eq_ok_iff, hpaths]
  constructor
  · rintro ⟨p, hp, hlists⟩
    refine ⟨⟨p, hp⟩, fun p' hp' => ?_⟩
    obtain rfl := Except.ok.inj (hp.symm.trans hp')
    exact hlists
  · rintro ⟨⟨p, hp⟩, hwalk⟩
    exact ⟨p, hp, hwalk p hp⟩

/-- **A pattern that can be walked fails for its text.** -/
theorem filesOf_eq_error_iff (hwalk : CanWalk w base pattern) {e : ListingError} :
    filesOf w base pattern = .error e ↔
      ∃ cause, PathPattern.parse (Path.join base pattern) = .error cause
        ∧ e = .malformed pattern cause := by
  cases hparse : PathPattern.parse (Path.join base pattern) with
  | error cause =>
    have hfiles : filesOf w base pattern = .error (.malformed pattern cause) := by
      rw [filesOf, hparse]
      rfl
    simp [hfiles, eq_comm]
  | ok p =>
    have hbelow : IsPatternBelow base pattern := PathPattern.exists_parse_eq_ok_iff.1 ⟨p, hparse⟩
    obtain ⟨found, hfound⟩ := exists_filesOf_eq_ok_iff.2 ⟨hbelow, hwalk⟩
    simp [hfound]

/-! ## The order of files -/

/-- Paths in strictly increasing order are no two with the same components. -/
theorem nodup_map_components {ps : List Path}
    (hps : ps.Pairwise fun p q => Path.compareComponents p q = .lt) :
    (ps.map Path.components).Nodup := by
  refine List.pairwise_map.2 (hps.imp fun {p q} hlt heq => ?_)
  rw [Path.compareComponents_eq_eq_iff.2 heq] at hlt
  cases hlt

/-- **The components determine the order.** -/
theorem map_components_eq_of_mem_iff {ps qs : List Path}
    (hps : ps.Pairwise fun p q => Path.compareComponents p q = .lt)
    (hqs : qs.Pairwise fun p q => Path.compareComponents p q = .lt)
    (hmem : ∀ cs, cs ∈ ps.map Path.components ↔ cs ∈ qs.map Path.components) :
    ps.map Path.components = qs.map Path.components := by
  have hkeys : ∀ ps : List Path,
      ps.map Path.keys = (ps.map Path.components).map (List.map Path.Component.key) := by
    intro ps
    rw [List.map_map]
    rfl
  have heq : ps.map Path.keys = qs.map Path.keys := by
    refine StrictOrder.eq_of_mem_iff (List.pairwise_map.2 hps) (List.pairwise_map.2 hqs) ?_
    intro ks
    rw [hkeys, hkeys, List.mem_map, List.mem_map]
    exact exists_congr fun cs => and_congr_left fun _ => hmem cs
  rw [hkeys, hkeys] at heq
  exact List.map_injective_iff.2 (List.map_injective_iff.2 Path.Component.key_injective) heq

/-! ## Several patterns -/

theorem exists_files_eq_ok_iff : (∃ result, files w base patterns = .ok result) ↔
    ∀ pattern ∈ patterns, ∃ found, filesOf w base pattern = .ok found := by
  rw [files, Outcome.exists_bind_eq_ok_iff, ← Outcome.exists_mapM_eq_ok_iff]
  exact exists_congr fun founds => and_iff_left ⟨_, rfl⟩

/-- **The first pattern that fails** decides. -/
theorem files_eq_error_iff {e : ListingError} : files w base patterns = .error e ↔
    ∃ before pattern after, patterns = before ++ pattern :: after
      ∧ (∀ p ∈ before, ∃ found, filesOf w base p = .ok found)
      ∧ filesOf w base pattern = .error e := by
  rw [files, Outcome.bind_eq_error_iff, Outcome.mapM_eq_error_iff]
  refine or_iff_left ?_
  rintro ⟨founds, -, h⟩
  cases h

section Listed

variable {result : List Path} (hfiles : files w base patterns = .ok result)
include hfiles

/-- The files of all patterns are found one pattern after the other, before they are sorted. -/
theorem exists_founds_of_files : ∃ founds,
    List.Forall₂ (fun pattern found => filesOf w base pattern = .ok found) patterns founds
      ∧ result = dropRepeats (founds.flatten.mergeSort Path.le) := by
  obtain ⟨founds, hfounds, hresult⟩ := Outcome.bind_eq_ok_iff.1 hfiles
  exact ⟨founds, Outcome.mapM_eq_ok_iff.1 hfounds, (Except.ok.inj hresult).symm⟩

/-- **Files are listed in strictly increasing order.** -/
theorem pairwise_of_files :
    result.Pairwise fun p q => Path.compareComponents p q = .lt := by
  obtain ⟨founds, -, rfl⟩ := exists_founds_of_files hfiles
  exact pairwise_dropRepeats_mergeSort _

/-- **The files of several patterns** are those of each of them. -/
theorem mem_map_components_iff {cs : List Path.Component} : cs ∈ result.map Path.components ↔
    ∃ pattern ∈ patterns, ∃ found, filesOf w base pattern = .ok found
      ∧ cs ∈ found.map Path.components := by
  obtain ⟨founds, hfounds, rfl⟩ := exists_founds_of_files hfiles
  constructor
  · intro h
    obtain ⟨file, hfile, rfl⟩ := List.mem_map.1 h
    obtain ⟨found, hfound, hmem⟩ := List.mem_flatten.1 (mem_of_mem_dropRepeats_mergeSort hfile)
    obtain ⟨pattern, hpattern, heq⟩ := Outcome.exists_right_of_forall₂ hfounds.flip hfound
    exact ⟨pattern, hpattern, found, heq, List.mem_map_of_mem hmem⟩
  · rintro ⟨pattern, hpattern, found, heq, h⟩
    obtain ⟨file, hfile, rfl⟩ := List.mem_map.1 h
    obtain ⟨found', hfound', heq'⟩ := Outcome.exists_right_of_forall₂ hfounds hpattern
    obtain rfl := Except.ok.inj (heq.symm.trans heq')
    obtain ⟨kept, hkept, hcomponents⟩ :=
      exists_mem_dropRepeats_mergeSort (List.mem_flatten.2 ⟨found, hfound', hfile⟩)
    exact List.mem_map.2 ⟨kept, hkept, hcomponents⟩

end Listed

/-- The files of one pattern, by components. -/
theorem exists_files_singleton_iff {cs : List Path.Component} :
    (∃ alone, files w base [pattern] = .ok alone ∧ cs ∈ alone.map Path.components) ↔
      ∃ found, filesOf w base pattern = .ok found ∧ cs ∈ found.map Path.components := by
  constructor
  · rintro ⟨alone, halone, hcs⟩
    obtain ⟨p, hp, found, hfound, hcs⟩ := (mem_map_components_iff halone).1 hcs
    obtain rfl := List.mem_singleton.1 hp
    exact ⟨found, hfound, hcs⟩
  · rintro ⟨found, hfound, hcs⟩
    obtain ⟨alone, halone⟩ := exists_files_eq_ok_iff.2
      (List.forall_mem_singleton.2 ⟨found, hfound⟩)
    exact ⟨alone, halone, (mem_map_components_iff halone).2
      ⟨pattern, List.mem_singleton_self _, found, hfound, hcs⟩⟩

/-- **Only the set of the patterns matters**, and not their order or how often they are given. -/
theorem exists_files_of_mem_iff {patterns' : List String} {result : List Path}
    (hfiles : files w base patterns = .ok result)
    (hmem : ∀ pattern, pattern ∈ patterns' ↔ pattern ∈ patterns) :
    ∃ result', files w base patterns' = .ok result'
      ∧ result'.map Path.components = result.map Path.components := by
  have hfound := exists_files_eq_ok_iff.1 ⟨result, hfiles⟩
  obtain ⟨result', hfiles'⟩ := exists_files_eq_ok_iff.2 fun p hp => hfound p ((hmem p).1 hp)
  refine ⟨result', hfiles', map_components_eq_of_mem_iff (pairwise_of_files hfiles')
    (pairwise_of_files hfiles) fun cs => ?_⟩
  rw [mem_map_components_iff hfiles', mem_map_components_iff hfiles]
  exact exists_congr fun p => and_congr_left fun _ => hmem p

/-- **All that can become of several patterns**, where directories can be read. -/
theorem files_of_patterns (hread : ∀ pattern ∈ patterns, CanWalk w base pattern) :
    ((∃ result, files w base patterns = .ok result) ↔
        ∀ pattern ∈ patterns, IsPatternBelow base pattern)
      ∧ (∀ e, files w base patterns = .error e ↔ ∃ before pattern after cause,
          patterns = before ++ pattern :: after ∧ (∀ p ∈ before, IsPatternBelow base p)
            ∧ PathPattern.parse (Path.join base pattern) = .error cause
            ∧ e = .malformed pattern cause)
      ∧ ∀ result, files w base patterns = .ok result →
          result.Pairwise (fun p q => Path.compareComponents p q = .lt)
            ∧ (result.map Path.components).Nodup
            ∧ (∀ cs, cs ∈ result.map Path.components ↔ ∃ pattern ∈ patterns, ∃ alone,
                files w base [pattern] = .ok alone ∧ cs ∈ alone.map Path.components)
            ∧ ∀ patterns', (∀ pattern, pattern ∈ patterns' ↔ pattern ∈ patterns) →
                ∃ result', files w base patterns' = .ok result'
                  ∧ result'.map Path.components = result.map Path.components := by
  refine ⟨?_, fun e => ?_, fun result hfiles => ⟨pairwise_of_files hfiles,
    nodup_map_components (pairwise_of_files hfiles), fun cs => ?_,
    fun patterns' hmem => exists_files_of_mem_iff hfiles hmem⟩⟩
  · rw [exists_files_eq_ok_iff]
    refine forall₂_congr fun p hp => ?_
    rw [exists_filesOf_eq_ok_iff]
    exact and_iff_left (hread p hp)
  · rw [files_eq_error_iff]
    constructor
    · rintro ⟨before, pattern, after, rfl, hbefore, herror⟩
      obtain ⟨cause, hcause, rfl⟩ := (filesOf_eq_error_iff (hread _ (by simp))).1 herror
      refine ⟨before, pattern, after, cause, rfl, fun p hp => ?_, hcause, rfl⟩
      exact (exists_filesOf_eq_ok_iff.1 (hbefore p hp)).1
    · rintro ⟨before, pattern, after, cause, rfl, hbefore, hcause, rfl⟩
      refine ⟨before, pattern, after, rfl, fun p hp => ?_, ?_⟩
      · exact exists_filesOf_eq_ok_iff.2 ⟨hbefore p hp, hread p (by simp [hp])⟩
      · exact (filesOf_eq_error_iff (hread _ (by simp))).2 ⟨cause, hcause, rfl⟩
  · rw [mem_map_components_iff hfiles]
    simp only [exists_files_singleton_iff]

theorem CanWalk.of_eq_error {cause : PatternError}
    (h : PathPattern.parse (Path.join base pattern) = .error cause) : CanWalk w base pattern := by
  intro p hp
  rw [h] at hp
  cases hp

/-- A pattern that is given twice and overlaps with another one, where files are spelled
differently, and patterns that are malformed. -/
theorem files_of_patterns_overlapping :
    (∀ p ∈ ["*/*.aidl", "./a.b/*.aidl", "*/*.aidl"], CanWalk sampleTree "d" p)
      ∧ (∃ result result',
        files sampleTree "d" ["*/*.aidl", "./a.b/*.aidl", "*/*.aidl"] = .ok result
        ∧ files sampleTree "d" ["./a.b/*.aidl", "*/*.aidl"] = .ok result'
        ∧ result'.map Path.components = result.map Path.components
        ∧ Path.components "d/a.b/I.x.aidl" ∈ result.map Path.components)
      ∧ (∀ p ∈ ["*.aidl", "a**", "["], CanWalk sampleTree "d" p)
      ∧ files sampleTree "d" ["*.aidl", "a**", "["]
          = .error (.malformed "a**" ⟨2, .recursiveWildcards⟩) := by
  have hok : ∀ {p : String}, (filesOf sampleTree "d" p).isOk = true →
      IsPatternBelow "d" p ∧ CanWalk sampleTree "d" p := fun h =>
    exists_filesOf_eq_ok_iff.1 (Outcome.exists_ok_of_isOk h)
  have hall : ∀ p ∈ ["*/*.aidl", "./a.b/*.aidl", "*/*.aidl"],
      IsPatternBelow "d" p ∧ CanWalk sampleTree "d" p := by
    have hisOk : ∀ p ∈ ["*/*.aidl", "./a.b/*.aidl", "*/*.aidl"],
        (filesOf sampleTree "d" p).isOk = true := by decide +kernel
    exact fun p hp => hok (hisOk p hp)
  have haidl := hok (p := "*.aidl") (by decide +kernel)
  have hmalformed : PathPattern.parse (Path.join "d" "a**") = .error ⟨2, .recursiveWildcards⟩ := by
    decide +kernel
  have hunclosed : PathPattern.parse (Path.join "d" "[") = .error ⟨2, .invalidRange⟩ := by
    decide +kernel
  have hsecond : ∀ p ∈ ["*.aidl", "a**", "["], CanWalk sampleTree "d" p := by
    simp only [List.forall_mem_cons, List.not_mem_nil, false_implies, implies_true, and_true]
    exact ⟨haidl.2, .of_eq_error hmalformed, .of_eq_error hunclosed⟩
  obtain ⟨hlists, -, hlisted⟩ := files_of_patterns fun p hp => (hall p hp).2
  obtain ⟨-, hfails, -⟩ := files_of_patterns hsecond
  refine ⟨fun p hp => (hall p hp).2, ?_, hsecond, ?_⟩
  · obtain ⟨result, hresult⟩ := hlists.2 fun p hp => (hall p hp).1
    obtain ⟨-, -, hunion, hset⟩ := hlisted result hresult
    obtain ⟨result', hresult', heq⟩ := hset ["./a.b/*.aidl", "*/*.aidl"] (by simp)
    refine ⟨result, result', hresult, hresult', heq, (hunion _).2 ⟨"./a.b/*.aidl", by simp, ?_⟩⟩
    exact ⟨["d/./a.b/I.x.aidl"], by decide +kernel, by decide⟩
  · refine (hfails _).2 ⟨["*.aidl"], "a**", ["["], _, rfl, ?_, hmalformed, rfl⟩
    exact List.forall_mem_singleton.2 haidl.1

end InterfacePlan.Glob
