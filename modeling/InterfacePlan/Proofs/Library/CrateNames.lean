import InterfacePlan.Library.MemorySafe
import InterfacePlan.Proofs.Import.VersionSuffix
import InterfacePlan.Proofs.Registry.VersionedNames
/-!
# Crate names

The crate of a module name has underscores for hyphens and dots. So different names may stand for
the same crate. Digits are kept, and they have no underscore among them, so the version can still be
told from the crate of a versioned name, as long as it is known that there is one.

## Main definitions

* `MemorySafe.SharesCrate`: versions of two interfaces that stand for the same crate

## Main results

* `MemorySafe.crateName_versionedName`: the crate of a version
* `MemorySafe.crateName_eq_iff_sharesCrate`: when versions stand for the same crate
* `MemorySafe.SharesCrate.name_ne`: they are versions of interfaces with different names
-/

namespace InterfacePlan

open Import (IsVersionText)

/-- The versions of an interface are digits, apart from the one of an unstable interface. -/
theorem Interface.eq_unversioned_or_isVersionText {i : Interface} {version : String}
    (valid : i.validateVersions = .ok ()) (hv : version ∈ i.allVersions) :
    version = unversioned ∨ IsVersionText version := by
  cases hu : i.unstable with
  | true => exact .inl ((mem_allVersions_of_unstable valid hu).1 hv)
  | false =>
    obtain ⟨-, hne, hdigits⟩ := Import.split_eq_some_iff.1 (split_versionedName valid hu hv)
    exact .inr ⟨hne, hdigits⟩

namespace MemorySafe

variable {s t v w : String} {i j : Interface}

/-! ## Crates of texts -/

theorem crateName_append (s t : String) : crateName (s ++ t) = crateName s ++ crateName t := by
  rw [crateName, String.toList_append, List.map_append, String.ofList_append]
  rfl

/-- A version is kept. -/
theorem crateName_of_isVersionText (hv : IsVersionText v) : crateName v = v := by
  have hdigit : ∀ c ∈ v.toList, (if c = '-' || c = '.' then '_' else c) = c := by
    intro c hc
    refine if_neg fun h => ?_
    have hdecimal := hv.isDecimalDigit c hc
    rcases (Bool.or_eq_true_iff.1 h) with h | h <;> rw [of_decide_eq_true h] at hdecimal <;>
      exact absurd hdecimal (by decide)
  rw [crateName, List.map_congr_left hdigit, List.map_id', String.ofList_toList]

/-- **The crate of a version.** -/
theorem crateName_versionedName (i : Interface) (hv : IsVersionText v) :
    crateName (i.versionedName v) = crateName i.name ++ "_V" ++ v := by
  have hmark : crateName "-V" = "_V" := by decide
  rw [Interface.versionedName_of_ne hv.ne_empty, crateName_append, crateName_append, hmark,
    crateName_of_isVersionText hv]

/-- **The version behind the last underscore** can be told from a crate. -/
theorem append_version_inj (hv : IsVersionText v) (hw : IsVersionText w) :
    s ++ "_V" ++ v = t ++ "_V" ++ w ↔ s = t ∧ v = w := by
  have hlist : ∀ s v : String, (s ++ "_V" ++ v).toList = s.toList ++ '_' :: 'V' :: v.toList := by
    intro s v
    rw [String.toList_append, String.toList_append, List.append_assoc]
    rfl
  have hlast : ∀ {v : String}, IsVersionText v → '_' ∉ 'V' :: v.toList := by
    intro v hv h
    rcases List.mem_cons.1 h with h | h
    · exact absurd h (by decide)
    · exact absurd (hv.isDecimalDigit _ h) (by decide)
  constructor
  · intro h
    have hchars := congrArg String.toList h
    rw [hlist, hlist] at hchars
    obtain ⟨hs, hrest⟩ := Text.append_cons_inj hchars (hlast hv) (hlast hw)
    exact ⟨String.toList_inj.1 hs, String.toList_inj.1 (List.cons.inj hrest).2⟩
  · rintro ⟨rfl, rfl⟩
    rfl

/-! ## Crates of versions -/

/-- **Versions of two interfaces that stand for the same crate.** Either the interfaces stand for
the same crate and the versions are the same, or one version is the only one of its interface, which
is called like the crate of the other version. -/
inductive SharesCrate (i j : Interface) : String → String → Prop
  | sameVersion {v : String} (names : crateName i.name = crateName j.name) : SharesCrate i j v v
  | unversionedLeft {w : String} (versioned : w ≠ unversioned)
    (names : crateName i.name = crateName j.name ++ "_V" ++ w) : SharesCrate i j unversioned w
  | unversionedRight {v : String} (versioned : v ≠ unversioned)
    (names : crateName i.name ++ "_V" ++ v = crateName j.name) : SharesCrate i j v unversioned

/-- A crate is not its own crate with a version. -/
theorem append_version_ne (s v : String) : s ++ "_V" ++ v ≠ s := by
  intro h
  have hlength := congrArg String.length h
  rw [String.length_append, String.length_append] at hlength
  have hmark : "_V".length = 2 := by decide
  omega

/-- Versions of one interface stand for different crates. -/
theorem SharesCrate.version_eq (h : SharesCrate i i v w) : v = w := by
  cases h with
  | sameVersion => rfl
  | unversionedLeft _ names => exact absurd names.symm (append_version_ne _ _)
  | unversionedRight _ names => exact absurd names (append_version_ne _ _)

/-- **When versions stand for the same crate.** -/
theorem crateName_eq_iff_sharesCrate (hi : i.validateVersions = .ok ())
    (hj : j.validateVersions = .ok ()) (hv : v ∈ i.allVersions) (hw : w ∈ j.allVersions) :
    crateName (i.versionedName v) = crateName (j.versionedName w) ↔ SharesCrate i j v w := by
  rcases i.eq_unversioned_or_isVersionText hi hv with rfl | hv <;>
    rcases j.eq_unversioned_or_isVersionText hj hw with rfl | hw
  · rw [i.versionedName_unversioned, j.versionedName_unversioned]
    constructor
    · exact .sameVersion
    · intro h
      cases h with
      | sameVersion names => exact names
      | unversionedLeft versioned | unversionedRight versioned => exact absurd rfl versioned
  · rw [i.versionedName_unversioned, crateName_versionedName j hw]
    constructor
    · exact .unversionedLeft hw.ne_empty
    · intro h
      cases h with
      | sameVersion => exact absurd rfl hw.ne_empty
      | unversionedLeft _ names => exact names
      | unversionedRight => exact absurd rfl hw.ne_empty
  · rw [crateName_versionedName i hv, j.versionedName_unversioned]
    constructor
    · exact .unversionedRight hv.ne_empty
    · intro h
      cases h with
      | sameVersion => exact absurd rfl hv.ne_empty
      | unversionedLeft => exact absurd rfl hv.ne_empty
      | unversionedRight _ names => exact names
  · rw [crateName_versionedName i hv, crateName_versionedName j hw, append_version_inj hv hw]
    constructor
    · rintro ⟨names, rfl⟩
      exact .sameVersion names
    · intro h
      cases h with
      | sameVersion names => exact ⟨names, rfl⟩
      | unversionedLeft => exact absurd rfl hv.ne_empty
      | unversionedRight => exact absurd rfl hw.ne_empty

end MemorySafe

end InterfacePlan
