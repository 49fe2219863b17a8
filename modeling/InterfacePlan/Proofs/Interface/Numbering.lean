import InterfacePlan.Proofs.Interface.Versions
/-!
# Numbers of versions

Versions are texts, and the version in development is found by their numbers. When the versions of
an interface are well formed, text and number are the same thing: `1` to `n` are frozen, `n + 1` is
in development, and `n` is the newest one.

But the rules hold for any texts. A text may denote a number in several ways, or none at all, and
then it counts as nothing for the version in development and as zero for the newest one. Both still
agree: the version in development follows on the newest one, and is called unlike any that is
frozen.

## Main definitions

* `Decimal.IsCanonical`: the text of a number without a sign or leading zeros
* `Interface.IsUnversioned`, `Interface.IsNumberedTo`: what well-formed versions are
* `Interface.IsLargestFrozen`: the largest number among frozen versions

## Main results

* `Interface.valid_versions_iff`: which versions are well formed, and what follows from it
* `Interface.nextVersion_follows_frozen`: the version in development, for any texts
-/

namespace InterfacePlan

/-! ## Canonical texts -/

namespace Decimal

/-- **The canonical text of a number**: ASCII digits that denote it, without leading zeros. -/
structure IsCanonical (s : String) (n : Nat) : Prop where
  isDigit : ∀ c ∈ s.toList, c.isDigit = true
  value_eq : value s.toList = n
  ne_empty : s ≠ ""
  /-- A zero stands in front only if it is the number. -/
  head_ne_zero : s.toList.head? = some '0' → s = "0"

/-- The digits of a positive number do not start with a zero. -/
theorem head?_digits_ne_zero {n : Nat} (hn : 0 < n) : (digits n).head? ≠ some '0' := by
  -- Induction on the number: the first digit is that of `n / 10`, as long as this is not zero.
  induction n using Nat.strongRecOn with
  | ind n ih =>
    unfold digits
    split
    case isTrue h =>
      have hchar : ∀ d ∈ List.range' 1 9, digitChar d ≠ '0' := by decide
      simpa using hchar n (List.mem_range'_1.2 (by omega))
    case isFalse h =>
      rw [List.head?_append_of_ne_nil _ (digits_ne_nil _)]
      exact ih (n / 10) (by omega) (by omega)

theorem isCanonical_text (n : Nat) : IsCanonical (text n) n where
  isDigit c hc := by
    rw [text, String.toList_ofList] at hc
    exact isDigit_of_mem_digits hc
  value_eq := by rw [text, String.toList_ofList, value_digits]
  ne_empty := text_ne_empty n
  head_ne_zero h := by
    rw [text, String.toList_ofList] at h
    obtain rfl : n = 0 := by
      by_contra hn
      exact head?_digits_ne_zero (Nat.pos_of_ne_zero hn) h
    decide +kernel

theorem lt_of_readWord?_eq_some {s : String} {n : Nat} (h : readWord? s = some n) :
    n < UInt64.size := by
  unfold readWord? at h
  extract_lets ds at h
  split at h
  case isTrue hds =>
    obtain rfl := Option.some.inj h
    simp only [Bool.and_eq_true, decide_eq_true_eq] at hds
    exact hds.2
  case isFalse => cases h

end Decimal

namespace Interface

variable {i : Interface} {n : Nat}

/-! ## Well-formed versions -/

/-- **An unstable interface without versions.** -/
structure IsUnversioned (i : Interface) : Prop where
  unstable : i.unstable = true
  versions : i.versions = []
  versionsWithInfo : i.versionsWithInfo = []

/-- **A stable interface with the frozen versions `1`, `2` up to `n`**, in one of its two lists. -/
structure IsNumberedTo (i : Interface) (n : Nat) : Prop where
  stable : i.unstable = false
  one_list : i.versions = [] ∨ i.versionsWithInfo = []
  frozen : i.frozenVersions = versionsUpTo n
  /-- Once there are frozen versions, the one that is selected for the VNDK is among them. -/
  selected : 0 < n → ∀ selected, i.vndkUseVersion = some selected → selected ∈ versionsUpTo n

theorem frozenVersions_eq_nil_iff : i.frozenVersions = [] ↔
    i.versions = [] ∧ i.versionsWithInfo = [] := by
  unfold frozenVersions
  split
  case isTrue h => simp [List.isEmpty_iff.1 h]
  case isFalse h =>
    rw [List.isEmpty_iff] at h
    simp [h]

/-- **Which versions are well formed.** -/
theorem validateVersions_eq_ok_iff_numbered : i.validateVersions = .ok () ↔
    i.IsUnversioned ∨ ∃ n, i.IsNumberedTo n := by
  rw [validateVersions_eq_ok_iff]
  constructor
  · rintro (⟨hu, hnone⟩ | ⟨hu, hlists, hfrozen, hselected⟩)
    · obtain ⟨hversions, hinfo⟩ := frozenVersions_eq_nil_iff.1 hnone
      exact .inl ⟨hu, hversions, hinfo⟩
    · refine .inr ⟨_, hu, hlists, hfrozen, fun hn selected hs => ?_⟩
      rw [← hfrozen]
      exact hselected selected hs (List.ne_nil_of_length_pos hn)
  · rintro (⟨hu, hversions, hinfo⟩ | ⟨n, hu, hlists, hfrozen, hselected⟩)
    · exact .inl ⟨hu, frozenVersions_eq_nil_iff.2 ⟨hversions, hinfo⟩⟩
    · have hlength : i.frozenVersions.length = n := by rw [hfrozen, length_versionsUpTo]
      refine .inr ⟨hu, hlists, by rw [hlength, hfrozen], fun selected hs hne => ?_⟩
      rw [hfrozen]
      exact hselected (hlength ▸ List.length_pos_of_ne_nil hne) selected hs

/-- **The versions of a stable interface with `n` frozen ones.** -/
structure CountsTo (i : Interface) (n : Nat) : Prop where
  next : i.nextVersion = Decimal.text (n + 1)
  all : i.allVersions = versionsUpTo (n + 1)
  nodup : i.allVersions.Nodup
  latest : 0 < n → i.latestVersion = .ok (Decimal.text n)
  unfrozen : n = 0 → i.latestVersion = .error (.noFrozenVersions i.name)
  hasVersion_iff : i.hasVersion = true ↔ 0 < n

theorem IsNumberedTo.countsTo (numbered : i.IsNumberedTo n) : i.CountsTo n := by
  have valid := validateVersions_eq_ok_iff_numbered.2 (.inr ⟨n, numbered⟩)
  obtain rfl : i.frozenVersions.length = n := by rw [numbered.frozen, length_versionsUpTo]
  have hversion : i.hasVersion = true ↔ 0 < i.frozenVersions.length := by
    rw [hasVersion_iff_of_valid valid, List.length_pos_iff]
  refine ⟨nextVersion_eq valid numbered.stable, allVersions_of_stable valid numbered.stable, ?_,
    fun hn => ?_, fun hn => ?_, hversion⟩
  · rw [← buildVersions_eq_allVersions valid]
    exact nodup_buildVersions valid
  · have hlast := getLast?_frozenVersions valid (hversion.2 hn)
    obtain ⟨m, hm⟩ := Nat.exists_eq_add_one.2 hn
    rw [numbered.frozen, hm, versionsUpTo_succ, List.getLast?_concat] at hlast
    rw [latestVersion_of_hasVersion (hversion.2 hn), hm, ← Option.some.inj hlast]
  · rw [latestVersion, if_neg (by simp [numbered.stable]), List.eq_nil_of_length_eq_zero hn]

/-- **Versions are well formed exactly if they are counted**, and then everything that is computed
from them follows from how many there are. -/
theorem valid_versions_iff (i : Interface) :
    (i.validateVersions = .ok () ↔ i.IsUnversioned ∨ ∃ n, i.IsNumberedTo n)
      ∧ (∀ n, i.IsNumberedTo n → i.CountsTo n)
      ∧ (i.IsUnversioned → i.nextVersion = unversioned ∧ i.allVersions = [unversioned]
          ∧ i.latestVersion = .error (.noFrozenVersions i.name)) := by
  refine ⟨validateVersions_eq_ok_iff_numbered, fun n => IsNumberedTo.countsTo, fun h => ?_⟩
  have hnext : i.nextVersion = unversioned := if_pos h.unstable
  refine ⟨hnext, ?_, if_pos h.unstable⟩
  rw [allVersions, hnext, frozenVersions_eq_nil_iff.2 ⟨h.versions, h.versionsWithInfo⟩,
    List.nil_append]

/-! ## Versions of any kind -/

/-- **The largest number that a frozen version denotes**, or zero if none denotes a number. -/
structure IsLargestFrozen (i : Interface) (n : Nat) : Prop where
  le : ∀ v ∈ i.frozenVersions, ∀ m, Decimal.readWord? v = some m → m ≤ n
  attained : (∃ v ∈ i.frozenVersions, Decimal.readWord? v = some n)
    ∨ n = 0 ∧ ∀ v ∈ i.frozenVersions, Decimal.readWord? v = none

theorem largest_mem {ns : List Nat} (hne : ns ≠ []) : largest ns ∈ ns := by
  obtain ⟨n, hn⟩ := Option.isSome_iff_exists.1 (List.isSome_max?_iff.2 hne)
  rw [largest, List.foldl_max, hn, Option.getD_some, Nat.zero_max]
  exact List.max?_mem hn

theorem isLargestFrozen_largest (i : Interface) :
    i.IsLargestFrozen (largest (i.frozenVersions.filterMap Decimal.readWord?)) where
  le v hv m hm := le_largest (List.mem_filterMap.2 ⟨v, hv, hm⟩)
  attained := by
    by_cases hnone : i.frozenVersions.filterMap Decimal.readWord? = []
    · refine .inr ⟨by rw [hnone]; rfl, fun v hv => ?_⟩
      exact List.filterMap_eq_nil_iff.1 hnone v hv
    · exact .inl (List.mem_filterMap.1 (largest_mem hnone))

/-- No version has a larger number than the newest one. -/
theorem versionNumber_le_newest (best : String) (vs : List String) :
    ∀ v ∈ best :: vs, versionNumber v ≤ versionNumber (newest best vs) := by
  induction vs generalizing best with
  | nil =>
    intro v hv
    obtain rfl := List.mem_singleton.1 hv
    exact le_rfl
  | cons w vs ih =>
    intro v hv
    have hkept := ih (if versionNumber best ≤ versionNumber w then w else best)
    have hfirst := hkept _ (List.mem_cons_self ..)
    rw [newest_cons]
    rcases List.mem_cons.1 hv with rfl | hv
    · refine le_trans ?_ hfirst
      split <;> omega
    · rcases List.mem_cons.1 hv with rfl | hv
      · refine le_trans ?_ hfirst
        split <;> omega
      · exact hkept v (List.mem_cons_of_mem _ hv)

/-- **The newest version has the largest number**, also where texts denote none. -/
theorem IsLargestFrozen.versionNumber_latestFrozen (largest : i.IsLargestFrozen n)
    (hversion : i.hasVersion = true) : versionNumber i.latestFrozen = n := by
  have hmem := latestFrozen_mem hversion
  have hmax : ∀ v ∈ i.frozenVersions, versionNumber v ≤ versionNumber i.latestFrozen := by
    unfold latestFrozen
    split
    case h_1 heq => simp [heq]
    case h_2 best vs heq =>
      rw [heq]
      exact versionNumber_le_newest best vs
  apply Nat.le_antisymm
  · cases hread : Decimal.readWord? i.latestFrozen with
    | none => simp [versionNumber, hread]
    | some m =>
      rw [versionNumber, hread]
      exact largest.le _ hmem m hread
  · rcases largest.attained with ⟨v, hv, hread⟩ | ⟨rfl, -⟩
    · have h := hmax v hv
      rwa [versionNumber, hread] at h
    · exact Nat.zero_le _

/-- **The version in development follows on the frozen ones**, whatever their texts are, as long as
none of them denotes the largest number of a word. -/
theorem nextVersion_follows_frozen (stable : i.unstable = false)
    (bounded : ∀ v ∈ i.frozenVersions, Decimal.readWord? v ≠ some (UInt64.size - 1)) :
    ∃ n, i.IsLargestFrozen n ∧ i.nextVersion = Decimal.text (n + 1)
      ∧ Decimal.IsCanonical i.nextVersion (n + 1)
      ∧ (∀ v ∈ i.frozenVersions,
          v ≠ i.nextVersion ∧ i.versionedName v ≠ i.versionedName i.nextVersion)
      ∧ (i.frozenVersions ≠ [] → ∃ v ∈ i.frozenVersions, i.latestVersion = .ok v
          ∧ versionNumber i.nextVersion = versionNumber v + 1) := by
  have hlargest := isLargestFrozen_largest i
  have hnext : i.nextVersion
      = Decimal.text (largest (i.frozenVersions.filterMap Decimal.readWord?) + 1) :=
    if_neg (by simp [stable])
  generalize largest (i.frozenVersions.filterMap Decimal.readWord?) = n at hlargest hnext
  have hbound : ∀ v ∈ i.frozenVersions, ∀ m, Decimal.readWord? v = some m →
      m + 1 < UInt64.size := by
    intro v hv m hm
    have hlt := Decimal.lt_of_readWord?_eq_some hm
    have hne : m ≠ UInt64.size - 1 := fun heq => bounded v hv (heq ▸ hm)
    omega
  have hfresh : i.nextVersion ∉ i.frozenVersions :=
    nextVersion_not_mem_frozenVersions stable hbound
  refine ⟨n, hlargest, hnext, hnext ▸ Decimal.isCanonical_text _, fun v hv => ?_, fun hne => ?_⟩
  · have hv' : v ≠ i.nextVersion := fun heq => hfresh (heq ▸ hv)
    exact ⟨hv', i.versionedName_injective.ne hv'⟩
  · have hversion : i.hasVersion = true := hasVersion_iff.2 ⟨stable, hne⟩
    have hn : n + 1 < UInt64.size := by
      rcases hlargest.attained with ⟨v, hv, hread⟩ | ⟨rfl, -⟩
      · exact hbound v hv n hread
      · decide
    refine ⟨_, latestFrozen_mem hversion, latestVersion_of_hasVersion hversion, ?_⟩
    rw [hlargest.versionNumber_latestFrozen hversion, hnext, versionNumber_text hn]

/-- An interface with versions that were frozen by hand. -/
def handNumbered : Interface :=
  { name := "foo", versions := ["+3", "03", "beta", "18446744073709551616", "", "2"] }

theorem fourth_version_follows_hand_numbered :
    handNumbered.nextVersion = "4" ∧ handNumbered.IsLargestFrozen 3
      ∧ (∀ v ∈ handNumbered.frozenVersions,
          handNumbered.versionedName v ≠ handNumbered.versionedName "4")
      ∧ handNumbered.latestVersion = .ok "03" := by
  have hbounded : ∀ v ∈ handNumbered.frozenVersions,
      Decimal.readWord? v ≠ some (UInt64.size - 1) := by decide +kernel
  have hnext : handNumbered.nextVersion = "4" := by decide +kernel
  obtain ⟨n, hlargest, htext, -, hfresh, -⟩ := nextVersion_follows_frozen rfl hbounded
  obtain rfl : n = 3 := by
    have hfour : "4" = Decimal.text (3 + 1) := by decide +kernel
    rw [hnext, hfour] at htext
    exact Nat.succ.inj (Decimal.text_inj htext).symm
  rw [hnext] at hfresh
  exact ⟨hnext, hlargest, fun v hv => (hfresh v hv).2, by decide +kernel⟩

end Interface

end InterfacePlan
