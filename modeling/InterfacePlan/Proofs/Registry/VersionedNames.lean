import InterfacePlan.Proofs.Import.Cycles
/-!
# Names of the versions in a registry

The name of a version of a stable interface is taken apart again: its parts are the name of the
interface and the version. The only name of an unstable interface is its own one, which may be any
text. So the names in a registry are different, except that an unstable interface may be called what
a version of a stable one is called.

## Main definitions

* `Registry.HasDistinctNames`: whether no two versions in a registry share a name

## Main results

* `Interface.split_versionedName`: the parts of the name of a version
* `Registry.hasDistinctNames_iff`: when the names in a registry are different
* `Registry.namesakes_share_name`: a registry where they are not
-/

namespace InterfacePlan

/-! ## One interface -/

namespace Interface

variable {i : Interface} {version : String} (valid : i.validateVersions = .ok ())
include valid

/-- An unstable interface has a single version. -/
theorem mem_allVersions_of_unstable (hu : i.unstable = true) :
    version ∈ i.allVersions ↔ version = unversioned := by
  simp [allVersions, frozenVersions_of_unstable valid hu, nextVersion, hu]

/-- **The parts of the name of a version** are the interface and the version. -/
theorem split_versionedName (hu : i.unstable = false) (hv : version ∈ i.allVersions) :
    Import.split (i.versionedName version) = (i.name, some version) := by
  rw [allVersions_of_stable valid hu] at hv
  obtain ⟨n, -, rfl⟩ := List.mem_map.1 hv
  have hdigits : ∀ c ∈ (Decimal.text n).toList, DigitClass.isDecimalDigit c = true := by
    intro c hc
    rw [Decimal.text, String.toList_ofList] at hc
    exact DigitClass.isDecimalDigit_of_isDigit (Decimal.isDigit_of_mem_digits hc)
  have hne := Decimal.text_ne_empty n
  rw [versionedName_of_ne hne]
  exact Import.split_append i.name hne hdigits

end Interface

/-! ## All interfaces -/

namespace Registry

variable {r : Registry} {i j : Interface} {v w : String}

/-- **No two versions share a name**, be they of one interface or of two. -/
def HasDistinctNames (r : Registry) : Prop :=
  ∀ i ∈ r.interfaces, ∀ j ∈ r.interfaces, ∀ v ∈ i.allVersions, ∀ w ∈ j.allVersions,
    i.versionedName v = j.versionedName w → i = j ∧ v = w

/-- Versions of stable interfaces have different names. -/
theorem eq_of_versionedName_eq_of_stable (hi : i ∈ r.interfaces) (hj : j ∈ r.interfaces)
    (hv : v ∈ i.allVersions) (hw : w ∈ j.allVersions) (hui : i.unstable = false)
    (huj : j.unstable = false) (h : i.versionedName v = j.versionedName w) : i = j ∧ v = w := by
  have hparts := congrArg Import.split h
  rw [Interface.split_versionedName (validateVersions_of_mem hi) hui hv,
    Interface.split_versionedName (validateVersions_of_mem hj) huj hw] at hparts
  obtain ⟨hname, hversion⟩ := Prod.mk.inj hparts
  exact ⟨eq_of_name_eq hi hj hname, Option.some.inj hversion⟩

/-- **When the names in a registry are different**: as long as no unstable interface is called what
a version of a stable one is called. -/
theorem hasDistinctNames_iff (r : Registry) : r.HasDistinctNames ↔
    ∀ i ∈ r.interfaces, i.unstable = true → ∀ j ∈ r.interfaces, j.unstable = false →
      ∀ w ∈ j.allVersions, i.name ≠ j.versionedName w := by
  have single : ∀ i ∈ r.interfaces, i.unstable = true → ∀ v ∈ i.allVersions, v = unversioned :=
    fun i hi hu v hv =>
      (Interface.mem_allVersions_of_unstable (validateVersions_of_mem hi) hu).1 hv
  constructor
  · intro distinct i hi hui j hj huj w hw hname
    have hv : unversioned ∈ i.allVersions :=
      (Interface.mem_allVersions_of_unstable (validateVersions_of_mem hi) hui).2 rfl
    rw [← i.versionedName_unversioned] at hname
    obtain ⟨rfl, -⟩ := distinct i hi j hj _ hv w hw hname
    simp [hui] at huj
  · intro apart i hi j hj v hv w hw h
    cases hui : i.unstable <;> cases huj : j.unstable
    case false.false => exact eq_of_versionedName_eq_of_stable hi hj hv hw hui huj h
    case false.true =>
      obtain rfl := single j hj huj w hw
      rw [j.versionedName_unversioned] at h
      exact absurd h.symm (apart j hj huj i hi hui v hv)
    case true.false =>
      obtain rfl := single i hi hui v hv
      rw [i.versionedName_unversioned] at h
      exact absurd h (apart i hi hui j hj huj w hw)
    case true.true =>
      obtain rfl := single i hi hui v hv
      obtain rfl := single j hj huj w hw
      rw [i.versionedName_unversioned, j.versionedName_unversioned] at h
      exact ⟨eq_of_name_eq hi hj h, rfl⟩

/-- A stable interface, and an unstable one that is called what its version is called. -/
def namesakes : List Interface := [
  { name := "foo" },
  { name := "foo-V1", unstable := true, imports := ["bar"] },
  { name := "bar", unstable := true, imports := ["foo"] }]

/-- **Two versions may share a name**, and then an import cycle is found where there is none: `bar`
imports `foo`, which imports nothing. -/
theorem namesakes_share_name : ∃ r, ofList namesakes = .ok r ∧ ¬r.HasDistinctNames
    ∧ Import.checkCycles r = .error (.importCycle ["bar", "foo-V1", "bar"]) := by
  have hok : (ofList namesakes).isOk = true := by decide +kernel
  obtain ⟨r, hr⟩ := Outcome.exists_ok_of_isOk hok
  have hinterfaces : (ofList namesakes).map interfaces
      = .ok [namesakes[2], namesakes[0], namesakes[1]] := by decide +kernel
  have hcomponent : (ofList namesakes >>= Import.graph).map Digraph.innermostCycle?
      = .ok (some ["bar", "foo-V1"]) := by decide +kernel
  rw [hr] at hinterfaces hcomponent
  have hr' : r.interfaces = [namesakes[2], namesakes[0], namesakes[1]] :=
    Except.ok.inj hinterfaces
  refine ⟨r, hr, ?_, ?_⟩
  · rw [hasDistinctNames_iff]
    intro apart
    exact apart namesakes[1] (by simp [hr']) rfl namesakes[0] (by simp [hr']) rfl "1"
      (by decide +kernel) (by decide +kernel)
  · obtain ⟨g, hg, hg'⟩ := Outcome.map_eq_ok_iff.1 hcomponent
    have hreport : Import.cycleReport ["bar", "foo-V1"] = ["bar", "foo-V1", "bar"] := by
      rw [Import.cycleReport, List.mergeSort_of_pairwise (by decide)]
      rfl
    rw [Import.checkCycles_of_graph hg, hg']
    simp only [hreport]

end Registry

end InterfacePlan
