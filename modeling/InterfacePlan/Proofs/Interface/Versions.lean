import Mathlib.Data.List.Nodup
import Mathlib.Data.List.Range
import InterfacePlan.Interface.Versions
/-!
# Well-formed versions

The versions of a stable interface are `1`, `2` up to some `n`, and `n + 1` is in development. So no
version can be built twice, and an import always finds a version to stand for.

## Main definitions

* `Interface.versionsUpTo`: the versions `1`, `2` up to some number
* `Interface.latestFrozen`: the newest frozen version, for an interface that has one
* `Interface.vndkVersion`: the version for the VNDK
* `Interface.SameVersions`: interfaces that imports do not tell apart

## Main results

* `Interface.validateVersions_eq_ok_iff`: what it means that versions are well formed
* `Interface.nextVersion_eq`: the version in development is behind the last frozen one
* `Interface.getLast?_frozenVersions`: the newest frozen version is the last one
* `Interface.nodup_buildVersions`: no version can be built twice
* `Interface.isForVndk_eq_ok`: a single version is the one for the VNDK
-/

namespace InterfacePlan

namespace Decimal

theorem text_injective : Function.Injective text := fun _ _ h => text_inj h

theorem text_ne_empty (n : Nat) : text n ≠ "" := fun h =>
  digits_ne_nil n (by simpa [text] using congrArg String.toList h)

theorem readWord?_text {n : Nat} (h : n < UInt64.size) : readWord? (text n) = some n := by
  have hdigits : ∀ c ∈ digits n, c.isDigit = true := fun c hc => isDigit_of_mem_digits hc
  unfold readWord?
  rw [text, String.toList_ofList]
  extract_lets ds
  have hds : ds = digits n := by
    unfold ds
    split
    case h_1 heq => exact absurd (hdigits '+' (by simp [heq])) (by decide)
    case h_2 => rfl
  rw [hds, value_digits, if_pos]
  rw [Bool.and_eq_true, Bool.and_eq_true, List.all_eq_true, decide_eq_true_eq]
  exact ⟨⟨by simp [digits_ne_nil], hdigits⟩, h⟩

end Decimal

namespace Interface

variable {i : Interface}

/-! ## The version in development -/

theorem foldl_max_le_iff {ns : List Nat} {a b : Nat} :
    ns.foldl max a ≤ b ↔ a ≤ b ∧ ∀ n ∈ ns, n ≤ b := by
  induction ns generalizing a with
  | nil => simp
  | cons n ns ih =>
    rw [List.foldl_cons, ih, Nat.max_le]
    simp [and_assoc]

theorem largest_le_iff {ns : List Nat} {b : Nat} : largest ns ≤ b ↔ ∀ n ∈ ns, n ≤ b := by
  simp [largest, foldl_max_le_iff]

theorem le_largest {ns : List Nat} {n : Nat} (h : n ∈ ns) : n ≤ largest ns :=
  largest_le_iff.1 le_rfl n h

/-- The version in development differs from every frozen one, unless one of them denotes the largest
number of a word. -/
theorem nextVersion_not_mem_frozenVersions (stable : i.unstable = false)
    (bounded : ∀ v ∈ i.frozenVersions, ∀ n, Decimal.readWord? v = some n → n + 1 < UInt64.size) :
    i.nextVersion ∉ i.frozenVersions := by
  intro hmem
  rw [nextVersion, if_neg (by simp [stable])] at hmem
  set ns := i.frozenVersions.filterMap Decimal.readWord? with hns
  -- A frozen version with the next number could be read, and would be larger than the largest one.
  have hread : Decimal.readWord? (Decimal.text (largest ns + 1)) = some (largest ns + 1) := by
    have hlt : UInt64.size - 2 + 1 < UInt64.size := by decide
    refine Decimal.readWord?_text (Nat.lt_of_le_of_lt (Nat.succ_le_succ ?_) hlt)
    apply largest_le_iff.2
    intro n hn
    obtain ⟨v, hv, hvn⟩ := List.mem_filterMap.1 hn
    have := bounded v hv n hvn
    omega
  have hlarge : largest ns + 1 ∈ ns := List.mem_filterMap.2 ⟨_, hmem, hread⟩
  exact absurd (le_largest hlarge) (by omega)

/-! ## Well-formed versions -/

/-- The versions `1`, `2` up to `n`. -/
def versionsUpTo (n : Nat) : List String := (List.range' 1 n).map Decimal.text

@[simp] theorem length_versionsUpTo (n : Nat) : (versionsUpTo n).length = n := by
  simp [versionsUpTo]

theorem versionsUpTo_succ (n : Nat) :
    versionsUpTo (n + 1) = versionsUpTo n ++ [Decimal.text (n + 1)] := by
  rw [versionsUpTo, List.range'_1_concat, List.map_append, Nat.add_comm 1]
  rfl

theorem nodup_versionsUpTo (n : Nat) : (versionsUpTo n).Nodup :=
  List.Nodup.map Decimal.text_injective List.nodup_range'

/-- Versions have no flaw if they are the numbers behind `n`, in order. -/
theorem sequenceFlaw?_eq_none_iff {n : Nat} {vs : List String} :
    sequenceFlaw? n vs = none ↔ vs = (List.range' (n + 1) vs.length).map Decimal.text := by
  induction vs generalizing n with
  | nil => simp [sequenceFlaw?]
  | cons v vs ih =>
    rw [sequenceFlaw?, List.length_cons, List.range'_succ, List.map_cons, List.cons.injEq]
    split
    case isTrue h => simp [h, ih]
    case isFalse h => simp [h]

/-- **What well-formed versions are.** -/
theorem validateVersions_eq_ok_iff : i.validateVersions = .ok () ↔
    (i.unstable = true ∧ i.frozenVersions = []) ∨
      i.unstable = false ∧ (i.versions = [] ∨ i.versionsWithInfo = [])
        ∧ i.frozenVersions = versionsUpTo i.frozenVersions.length
        ∧ ∀ selected, i.vndkUseVersion = some selected → i.frozenVersions ≠ [] →
            selected ∈ i.frozenVersions := by
  have hseq : sequenceFlaw? 0 i.frozenVersions = none ↔
      i.frozenVersions = versionsUpTo i.frozenVersions.length := sequenceFlaw?_eq_none_iff
  have hboth : (!i.versions.isEmpty && !i.versionsWithInfo.isEmpty) = true ↔
      ¬(i.versions = [] ∨ i.versionsWithInfo = []) := by simp
  unfold validateVersions
  by_cases hu : i.unstable = true
  · simp [hu]
  rw [if_neg hu]
  rw [Bool.not_eq_true] at hu
  by_cases hlists : i.versions = [] ∨ i.versionsWithInfo = []
  · rw [if_neg (by rw [hboth]; exact not_not_intro hlists), ← hseq]
    cases hflaw : sequenceFlaw? 0 i.frozenVersions with
    | some reason => simp [hu]
    | none =>
      cases hselected : i.vndkUseVersion with
      | none => simp [hu, hlists]
      | some selected => simp [hu, hlists, hasVersion]
  · rw [if_pos (hboth.2 hlists)]
    simp [hu, hlists]

theorem hasVersion_iff : i.hasVersion = true ↔ i.unstable = false ∧ i.frozenVersions ≠ [] := by
  simp [hasVersion]

section Valid

variable (valid : i.validateVersions = .ok ())
include valid

theorem frozenVersions_of_unstable (hu : i.unstable = true) : i.frozenVersions = [] := by
  rcases validateVersions_eq_ok_iff.1 valid with ⟨-, h⟩ | ⟨h, -⟩
  · exact h
  · simp [hu] at h

theorem frozenVersions_of_stable (hu : i.unstable = false) :
    i.frozenVersions = versionsUpTo i.frozenVersions.length := by
  rcases validateVersions_eq_ok_iff.1 valid with ⟨h, -⟩ | ⟨-, -, h, -⟩
  · simp [hu] at h
  · exact h

omit valid in
theorem length_frozenVersions_lt : i.frozenVersions.length < listBound := by
  unfold frozenVersions
  split
  · exact i.numbered.1
  · rw [List.length_map]
    exact i.numbered.2

/-- The version in development is behind the last frozen one. -/
theorem nextVersion_eq (hu : i.unstable = false) :
    i.nextVersion = Decimal.text (i.frozenVersions.length + 1) := by
  have hbound : i.frozenVersions.length + 1 < UInt64.size :=
    Nat.lt_of_le_of_lt length_frozenVersions_lt (by decide)
  -- The frozen versions are read back, since they are no longer than a word can number.
  have hread : i.frozenVersions.filterMap Decimal.readWord?
      = List.range' 1 i.frozenVersions.length := by
    conv_lhs => rw [frozenVersions_of_stable valid hu]
    rw [versionsUpTo, List.filterMap_map]
    refine (List.filterMap_congr fun n hn => ?_).trans List.filterMap_some
    rw [List.mem_range'_1] at hn
    exact Decimal.readWord?_text (by omega)
  rw [nextVersion, if_neg (by simp [hu]), hread]
  refine congrArg (fun n => Decimal.text (n + 1)) (Nat.le_antisymm ?_ ?_)
  · apply largest_le_iff.2
    intro n hn
    rw [List.mem_range'_1] at hn
    omega
  · rcases Nat.eq_zero_or_pos i.frozenVersions.length with h | h
    · omega
    · exact le_largest (List.mem_range'_1.2 (by omega))

/-- The versions of a stable interface are the numbers from one on. -/
theorem allVersions_of_stable (hu : i.unstable = false) :
    i.allVersions = versionsUpTo (i.frozenVersions.length + 1) := by
  rw [allVersions, nextVersion_eq valid hu, versionsUpTo_succ, ← frozenVersions_of_stable valid hu]

/-- The versions that libraries are built for are those that can be built. -/
theorem buildVersions_eq_allVersions : i.buildVersions = i.allVersions := by
  unfold buildVersions
  split
  case isTrue hu =>
    simp [allVersions, frozenVersions_of_unstable valid hu, nextVersion, hu]
  case isFalse => rfl

/-- **No version can be built twice.** -/
theorem nodup_buildVersions : i.buildVersions.Nodup := by
  by_cases hu : i.unstable = true
  · simp [buildVersions, hu]
  · rw [Bool.not_eq_true] at hu
    rw [buildVersions_eq_allVersions valid, allVersions_of_stable valid hu]
    exact nodup_versionsUpTo _

variable {version : String} (hversion : version ∈ i.frozenVersions)
include hversion

/-- A frozen version is not in development. -/
theorem isNextVersion_of_mem_frozenVersions : i.isNextVersion version = false := by
  have hn := nodup_buildVersions valid
  rw [buildVersions_eq_allVersions valid, allVersions, List.nodup_append] at hn
  obtain ⟨-, -, hdisjoint⟩ := hn
  rw [← Bool.not_eq_true, isNextVersion_iff]
  exact hdisjoint version hversion i.nextVersion (List.mem_singleton.2 rfl)

theorem hasVersion_of_mem_frozenVersions : i.hasVersion = true := by
  rw [hasVersion_iff]
  refine ⟨?_, List.ne_nil_of_mem hversion⟩
  rw [← Bool.not_eq_true]
  intro hu
  rw [frozenVersions_of_unstable valid hu] at hversion
  cases hversion

end Valid

/-- An interface with well-formed versions has one as soon as some version is frozen. -/
theorem hasVersion_iff_of_valid (valid : i.validateVersions = .ok ()) :
    i.hasVersion = true ↔ i.frozenVersions ≠ [] := by
  refine ⟨fun h => (hasVersion_iff.1 h).2, fun h => ?_⟩
  obtain ⟨version, hversion⟩ := List.exists_mem_of_ne_nil _ h
  exact hasVersion_of_mem_frozenVersions valid hversion

/-! ## The newest frozen version -/

/-- The newest frozen version, of an interface that has one. -/
def latestFrozen (i : Interface) : String :=
  match i.frozenVersions with
  | [] => unversioned
  | v :: vs => newest v vs

theorem newest_mem (best : String) (vs : List String) : newest best vs ∈ best :: vs := by
  induction vs generalizing best with
  | nil => exact List.mem_cons_self ..
  | cons v vs ih =>
    rw [newest_cons]
    have h := ih (if versionNumber best ≤ versionNumber v then v else best)
    split at h <;> grind

theorem latestVersion_of_hasVersion (h : i.hasVersion = true) :
    i.latestVersion = .ok i.latestFrozen := by
  obtain ⟨hu, hne⟩ := hasVersion_iff.1 h
  unfold latestVersion latestFrozen
  rw [if_neg (by simp [hu])]
  cases hf : i.frozenVersions with
  | nil => contradiction
  | cons v vs => rfl

theorem latestFrozen_mem (h : i.hasVersion = true) : i.latestFrozen ∈ i.frozenVersions := by
  obtain ⟨-, hne⟩ := hasVersion_iff.1 h
  unfold latestFrozen
  split
  · contradiction
  · rename_i heq
    rw [heq]
    exact newest_mem ..

theorem versionNumber_text {n : Nat} (h : n < UInt64.size) :
    versionNumber (Decimal.text n) = n := by
  rw [versionNumber, Decimal.readWord?_text h]
  rfl

/-- Of versions in the order of their numbers, the last one is the newest. -/
theorem getLast?_of_pairwise {best : String} {vs : List String}
    (h : (best :: vs).Pairwise fun v w => versionNumber v ≤ versionNumber w) :
    (best :: vs).getLast? = some (newest best vs) := by
  induction vs generalizing best with
  | nil => rfl
  | cons v vs ih =>
    obtain ⟨hbest, hvs⟩ := List.pairwise_cons.1 h
    rw [List.getLast?_cons_cons, newest_cons, if_pos (hbest v (List.mem_cons_self ..))]
    exact ih hvs

/-- **The newest frozen version is the last one**, as versions are frozen in the order of their
numbers. -/
theorem getLast?_frozenVersions (valid : i.validateVersions = .ok ()) (h : i.hasVersion = true) :
    i.frozenVersions.getLast? = some i.latestFrozen := by
  obtain ⟨hu, hne⟩ := hasVersion_iff.1 h
  have hsorted : i.frozenVersions.Pairwise fun v w => versionNumber v ≤ versionNumber w := by
    rw [frozenVersions_of_stable valid hu, versionsUpTo, List.pairwise_map]
    have hlt : (List.range' 1 i.frozenVersions.length).Pairwise (· < ·) := List.pairwise_lt_range'
    refine hlt.imp_of_mem fun {m n} hm hn hmn => ?_
    have hbound : i.frozenVersions.length + 1 < UInt64.size :=
      Nat.lt_of_le_of_lt length_frozenVersions_lt (by decide)
    rw [List.mem_range'_1] at hm hn
    rw [versionNumber_text (by omega), versionNumber_text (by omega)]
    exact hmn.le
  unfold latestFrozen
  split
  case h_1 hnil => exact absurd hnil hne
  case h_2 v vs hfrozen =>
    rw [hfrozen] at hsorted ⊢
    exact getLast?_of_pairwise hsorted

theorem nextVersion_mem_buildVersions : i.nextVersion ∈ i.buildVersions := by
  unfold buildVersions
  split
  case isTrue hu => simp [nextVersion, hu]
  case isFalse => exact nextVersion_mem_allVersions i

theorem latestFrozen_mem_buildVersions (h : i.hasVersion = true) :
    i.latestFrozen ∈ i.buildVersions := by
  rw [buildVersions, if_neg (by simp [(hasVersion_iff.1 h).1])]
  exact List.mem_append_left _ (latestFrozen_mem h)

theorem mem_allVersions_of_mem_buildVersions {version : String} (h : version ∈ i.buildVersions) :
    version ∈ i.allVersions := by
  unfold buildVersions at h
  split at h
  case isTrue hu =>
    obtain rfl := List.mem_singleton.1 h
    simp [allVersions, nextVersion, hu]
  case isFalse => exact h

/-! ## The version for the VNDK -/

/-- **The version for the VNDK**: the selected one, or else the newest frozen one, or the one in
development before the first freeze. -/
def vndkVersion (i : Interface) : String :=
  match i.vndkUseVersion with
  | some selected => selected
  | none => if i.hasVersion then i.latestFrozen else i.nextVersion

section Vndk

variable {version : String} {selected : Bool} (h : i.isForVndk version = .ok selected)
include h

/-- If the version for the VNDK is known for one version, it is known for all of them, and it is a
single one. -/
theorem isForVndk_eq_ok (other : String) :
    i.isForVndk other = .ok (decide (other = i.vndkVersion)) := by
  unfold isForVndk at h ⊢
  unfold vndkVersion
  cases hselected : i.vndkUseVersion with
  | some chosen =>
    simp only [hselected] at h ⊢
    split at h
    case isTrue hknown => rw [if_pos hknown]
    case isFalse => cases h
  | none =>
    by_cases hv : i.hasVersion = true
    · simp only [hv, if_true, latestVersion_of_hasVersion hv]
      rfl
    · simp only [hv, if_false, isNextVersion, Bool.false_eq_true]

theorem vndkVersion_mem_allVersions : i.vndkVersion ∈ i.allVersions := by
  unfold isForVndk at h
  unfold vndkVersion
  cases hselected : i.vndkUseVersion with
  | some chosen =>
    simp only [hselected] at h ⊢
    split at h
    case isTrue hknown =>
      simp only [Bool.or_eq_true, List.contains_iff_mem, Bool.and_eq_true, isNextVersion_iff]
        at hknown
      rcases hknown with hfrozen | ⟨-, rfl⟩
      · exact List.mem_append_left _ hfrozen
      · exact nextVersion_mem_allVersions i
    case isFalse => cases h
  | none =>
    by_cases hv : i.hasVersion = true
    · simp only [hv, if_true]
      exact List.mem_append_left _ (latestFrozen_mem hv)
    · simp only [hv, if_false, Bool.false_eq_true]
      exact nextVersion_mem_allVersions i

end Vndk

/-! ## Versioned names -/

theorem nextVersion_eq_unversioned_iff :
    i.nextVersion = unversioned ↔ i.unstable = true := by
  unfold nextVersion
  split
  case isTrue hu => exact iff_of_true rfl hu
  case isFalse hu => exact iff_of_false (Decimal.text_ne_empty _) hu

theorem versionedName_of_ne {version : String} (h : version ≠ unversioned) :
    i.versionedName version = i.name ++ "-V" ++ version :=
  if_neg h

/-- Different versions of an interface have different names. -/
theorem versionedName_injective (i : Interface) : Function.Injective i.versionedName := by
  have hsuffix : ∀ w, i.name ≠ i.name ++ "-V" ++ w := by
    intro w h
    have hlen := congrArg String.length h
    rw [String.length_append, String.length_append, show "-V".length = 2 from rfl] at hlen
    omega
  intro v w h
  unfold versionedName at h
  split at h
  case isTrue hv =>
    split at h
    case isTrue hw => rw [hv, hw]
    case isFalse => exact absurd h (hsuffix w)
  case isFalse =>
    split at h
    case isTrue => exact absurd h.symm (hsuffix v)
    case isFalse => exact (String.append_right_inj _).1 h

/-! ## Interfaces with the same versions -/

/-- **Interfaces of one name with the same versions**, frozen and in development. -/
structure SameVersions (i j : Interface) : Prop where
  name : i.name = j.name
  unstable : i.unstable = j.unstable
  frozenVersions : i.frozenVersions = j.frozenVersions

namespace SameVersions

variable {j : Interface} (same : i.SameVersions j)
include same

theorem hasVersion : i.hasVersion = j.hasVersion := by
  rw [Interface.hasVersion, Interface.hasVersion, same.unstable, same.frozenVersions]

theorem nextVersion : i.nextVersion = j.nextVersion := by
  rw [Interface.nextVersion, Interface.nextVersion, same.unstable, same.frozenVersions]

theorem isNextVersion (version : String) : i.isNextVersion version = j.isNextVersion version := by
  rw [Interface.isNextVersion, Interface.isNextVersion, same.nextVersion]

theorem allVersions : i.allVersions = j.allVersions := by
  rw [Interface.allVersions, Interface.allVersions, same.nextVersion, same.frozenVersions]

theorem latestFrozen : i.latestFrozen = j.latestFrozen := by
  rw [Interface.latestFrozen, Interface.latestFrozen, same.frozenVersions]

theorem versionedName (version : String) : i.versionedName version = j.versionedName version := by
  rw [Interface.versionedName, Interface.versionedName, same.name]

end SameVersions

end Interface

end InterfacePlan
