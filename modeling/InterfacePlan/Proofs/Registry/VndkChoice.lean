import InterfacePlan.Proofs.Import.Resolution
/-!
# The choice for the VNDK

An interface may choose its version for the VNDK. A registry checks the choice against the frozen
versions, as soon as there are any. Before the first freeze, and for an unstable interface, only the
single version that can be built may be chosen, and this is not checked before the choice is used.
Then no version can be told to be the one for the VNDK, or not to be it.

## Main definitions

* `Interface.ChoiceStands`: whether the chosen version is one that can be built
* `Interface.HasSingleChoice`: a single version, at one place of the list, is the one for the VNDK

## Main results

* `Registry.vndk_choice`: what a registered interface says of all its versions
* `Registry.unfounded_choice`: a registered interface that says nothing of them
-/

namespace InterfacePlan

namespace Interface

variable {i : Interface} {version : String}

/-- **The choice for the VNDK stands**: unless there are frozen versions, nothing is chosen, or the
version in development is. -/
def ChoiceStands (i : Interface) : Prop :=
  i.hasVersion = true ∨ i.vndkUseVersion = none ∨ i.vndkUseVersion = some i.nextVersion

/-- **A single version is the one for the VNDK**, at one place in the list of those that can be
built, and all others are known not to be. -/
def HasSingleChoice (i : Interface) (chosen : String) : Prop :=
  ∃ before after, i.allVersions = before ++ chosen :: after ∧ i.isForVndk chosen = .ok true
    ∧ ∀ version ∈ before ++ after, i.isForVndk version = .ok false

theorem nodup_allVersions (valid : i.validateVersions = .ok ()) : i.allVersions.Nodup := by
  rw [← buildVersions_eq_allVersions valid]
  exact nodup_buildVersions valid

/-- A choice that stands can be told from any version. -/
theorem isForVndk_of_choiceStands (valid : i.validateVersions = .ok ()) (stands : i.ChoiceStands)
    (version : String) : ∃ selected, i.isForVndk version = .ok selected := by
  unfold isForVndk
  cases hchosen : i.vndkUseVersion with
  | none =>
    dsimp only
    split
    case isTrue hv => exact ⟨_, by rw [latestVersion_of_hasVersion hv]; rfl⟩
    case isFalse => exact ⟨_, rfl⟩
  | some chosen =>
    refine ⟨_, if_pos ?_⟩
    rw [Bool.or_eq_true, Bool.and_eq_true, List.contains_iff_mem, isNextVersion_iff,
      Bool.not_eq_true']
    by_cases hv : i.hasVersion = true
    · obtain ⟨hstable, hne⟩ := hasVersion_iff.1 hv
      rcases validateVersions_eq_ok_iff.1 valid with ⟨hu, -⟩ | ⟨-, -, -, hchecked⟩
      · simp [hstable] at hu
      · exact .inl (hchecked chosen hchosen hne)
    · refine .inr ⟨Bool.not_eq_true _ ▸ hv, ?_⟩
      rcases stands with h | h | h
      · exact absurd h hv
      · rw [hchosen] at h
        cases h
      · exact Option.some.inj (hchosen.symm.trans h)

/-- **A choice that stands is a single version.** -/
theorem hasSingleChoice (valid : i.validateVersions = .ok ()) (stands : i.ChoiceStands) :
    i.HasSingleChoice i.vndkVersion := by
  obtain ⟨selected, hselected⟩ := isForVndk_of_choiceStands valid stands i.nextVersion
  have hall := isForVndk_eq_ok hselected
  obtain ⟨before, after, hversions⟩ := List.append_of_mem (vndkVersion_mem_allVersions hselected)
  refine ⟨before, after, hversions, by simp [hall], ?_⟩
  -- No version is listed twice, so those before and after the chosen one are others.
  have hnodup := nodup_allVersions valid
  rw [hversions, List.nodup_middle, List.nodup_cons] at hnodup
  intro version hversion
  have hne : version ≠ i.vndkVersion := fun h => hnodup.1 (h ▸ hversion)
  simp [hall, hne]

/-- A choice that does not stand cannot be told from any version. -/
theorem isForVndk_of_not_choiceStands (valid : i.validateVersions = .ok ())
    (unfounded : ¬i.ChoiceStands) : ∃ chosen, i.vndkUseVersion = some chosen
      ∧ ∀ version, i.isForVndk version = .error (.unknownVndkVersion i.name chosen) := by
  unfold ChoiceStands at unfounded
  rw [not_or, not_or, Bool.not_eq_true] at unfounded
  obtain ⟨hunfrozen, hsome, hnext⟩ := unfounded
  obtain ⟨chosen, hchosen⟩ := Option.ne_none_iff_exists'.1 hsome
  refine ⟨chosen, hchosen, fun version => ?_⟩
  have hnone : i.frozenVersions = [] := by
    by_contra hne
    rw [(hasVersion_iff_of_valid valid).2 hne] at hunfrozen
    cases hunfrozen
  have hother : i.isNextVersion chosen = false := by
    rw [← Bool.not_eq_true, isNextVersion_iff]
    rintro rfl
    exact hnext hchosen
  simp [isForVndk, hchosen, hnone, hother]

end Interface

namespace Registry

variable {r : Registry} {i : Interface}

/-- **What a registered interface says of its versions.** If its choice for the VNDK stands, every
version is known to be the one for the VNDK or not to be it, and a single one is: the chosen one, or
else the latest frozen one, or the one in development before the first freeze. Otherwise the chosen
version does not exist, and this is the answer for every version. -/
theorem vndk_choice (hi : i ∈ r.interfaces) :
    (i.ChoiceStands → i.HasSingleChoice i.vndkVersion)
      ∧ (¬i.ChoiceStands → ∃ chosen, i.vndkUseVersion = some chosen
          ∧ ∀ version, i.isForVndk version = .error (.unknownVndkVersion i.name chosen)) :=
  ⟨Interface.hasSingleChoice (validateVersions_of_mem hi),
    Interface.isForVndk_of_not_choiceStands (validateVersions_of_mem hi)⟩

/-- Three interfaces: one with frozen versions that chooses the first of them, one that was never
frozen and chooses none, and one that was never frozen and chooses a version that does not exist. -/
def choosers : List Interface := [
  { name := "bar", versionsWithInfo := [{ version := "1" }, { version := "2" }, { version := "3" }]
    vndkUseVersion := some "1" },
  { name := "baz" },
  { name := "foo", vndkUseVersion := some "7" }]

theorem interfaces_of_choosers : ∃ r, ofList choosers = .ok r ∧ r.interfaces = choosers := by
  have hok : (ofList choosers).isOk = true := by decide +kernel
  obtain ⟨r, hr⟩ := Outcome.exists_ok_of_isOk hok
  have hinterfaces : (ofList choosers).map interfaces = .ok choosers := by decide +kernel
  rw [hr] at hinterfaces
  exact ⟨r, hr, Except.ok.inj hinterfaces⟩

theorem choices_of_choosers : ∃ r, ofList choosers = .ok r
    ∧ choosers[0].HasSingleChoice "1" ∧ choosers[1].HasSingleChoice "1"
    ∧ ∀ version, choosers[2].isForVndk version = .error (.unknownVndkVersion "foo" "7") := by
  obtain ⟨r, hr, hinterfaces⟩ := interfaces_of_choosers
  have hmem : ∀ i ∈ choosers, i ∈ r.interfaces := fun i hi => hinterfaces ▸ hi
  obtain ⟨hbar, -⟩ := vndk_choice (hmem choosers[0] (by simp [choosers]))
  obtain ⟨hbaz, -⟩ := vndk_choice (hmem choosers[1] (by simp [choosers]))
  obtain ⟨-, hfoo⟩ := vndk_choice (hmem choosers[2] (by simp [choosers]))
  have hbar' := hbar (.inl (by decide +kernel))
  have hbaz' := hbaz (.inr (.inl rfl))
  obtain ⟨chosen, hchosen, herror⟩ := hfoo (by
    rintro (h | h | h)
    · exact absurd h (by decide +kernel)
    · exact absurd h (by decide +kernel)
    · exact absurd h (by decide +kernel))
  obtain rfl := Option.some.inj hchosen
  refine ⟨r, hr, ?_, ?_, herror⟩
  · rwa [show choosers[0].vndkVersion = "1" by decide +kernel] at hbar'
  · rwa [show choosers[1].vndkVersion = "1" by decide +kernel] at hbaz'

/-- **A registered interface may choose a version that does not exist**, before its first freeze.
Then no version is the one for the VNDK, and none is known not to be it. -/
theorem unfounded_choice : ∃ r, ofList choosers = .ok r
    ∧ ∃ i ∈ r.interfaces, ∃ version ∈ i.allVersions, ∀ selected,
        i.isForVndk version ≠ .ok selected := by
  obtain ⟨r, hr, hinterfaces⟩ := interfaces_of_choosers
  refine ⟨r, hr, choosers[2], by simp [hinterfaces, choosers], "1", by decide +kernel, ?_⟩
  have herror : choosers[2].isForVndk "1" = .error (.unknownVndkVersion "foo" "7") := by
    decide +kernel
  intro selected h
  rw [herror] at h
  cases h

end Registry

end InterfacePlan
