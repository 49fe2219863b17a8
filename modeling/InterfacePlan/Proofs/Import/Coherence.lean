import Mathlib.Logic.Relation
import InterfacePlan.Proofs.Import.Resolution
/-!
# Coherent versions

An import that names no version follows the version that declares it. From a version in development
imports lead to versions in development, and from a frozen version to the latest frozen ones, as
long as there are any. So what is reached along imports never mixes two versions of an interface,
however long the way is.

The version where a way starts may be any frozen one. What is said of the latest frozen versions
holds behind the first import.

## Main definitions

* `InterfaceVersion`: an interface at one of its versions
* `Registry.ImportsAreBare`: imports that name registered interfaces and no versions
* `Import.LeadsTo`: one import, as a relation on interface versions

## Main results

* `Import.LeadsTo.isInDevelopment`, `Import.LeadsTo.isLatestFrozen`: where one import leads
* `Import.coherent_versions`: where any number of imports leads
-/

namespace InterfacePlan

/-- **An interface at one of its versions.** -/
structure InterfaceVersion where
  interface : Interface
  version : String

namespace InterfaceVersion

/-- The version in development. For an unstable interface this is its only build. -/
def IsInDevelopment (x : InterfaceVersion) : Prop := x.version = x.interface.nextVersion

/-- The version is the latest frozen one of its interface. -/
def IsLatestFrozen (x : InterfaceVersion) : Prop := x.interface.latestVersion = .ok x.version

/-- No interface is reached at two versions. -/
def Coherent (reached : InterfaceVersion → Prop) : Prop :=
  ∀ x y, reached x → reached y → x.interface.name = y.interface.name → x.version = y.version

variable {x : InterfaceVersion}

theorem IsLatestFrozen.mem_frozenVersions (h : x.IsLatestFrozen) :
    x.version ∈ x.interface.frozenVersions := by
  unfold IsLatestFrozen Interface.latestVersion at h
  split at h
  case isTrue => cases h
  case isFalse =>
    split at h
    case h_1 => cases h
    case h_2 v vs hfrozen =>
      rw [hfrozen, ← Except.ok.inj h]
      exact Interface.newest_mem v vs

end InterfaceVersion

/-- **All imports are bare**: they are names of registered interfaces, without a version. -/
def Registry.ImportsAreBare (r : Registry) : Prop :=
  ∀ i ∈ r.interfaces, ∀ reference ∈ i.declaredImports,
    Import.hasVersion reference = false ∧ (r.get? reference).isSome = true

instance (r : Registry) : Decidable r.ImportsAreBare :=
  inferInstanceAs (Decidable (∀ i ∈ r.interfaces, ∀ reference ∈ i.declaredImports,
    Import.hasVersion reference = false ∧ (r.get? reference).isSome = true))

namespace Import

open Relation (ReflTransGen TransGen)

/-- **An import leads from one interface version to another**: among the imports of the first, when
they are resolved, is the second one by its versioned name. -/
def LeadsTo (r : Registry) (source target : InterfaceVersion) : Prop :=
  ∃ imports, resolveAll r source.interface source.version = .ok imports
    ∧ ∃ x ∈ imports, x.interface = target.interface
      ∧ x.name = target.interface.versionedName target.version

variable {r : Registry} {x y : InterfaceVersion}

/-! ## One import -/

namespace LeadsTo

theorem exists_reference (h : LeadsTo r x y) :
    ∃ reference ∈ x.interface.importsFor x.version,
      r.get? (split reference).1 = some y.interface
        ∧ standsFor x.interface x.version y.interface reference
            = y.interface.versionedName y.version := by
  obtain ⟨imports, himports, z, hz, hinterface, hname⟩ := h
  obtain ⟨reference, hreference, hresolved⟩ :=
    Outcome.exists_right_of_forall₂ (resolveAll_eq_ok_iff.1 himports).2.flip hz
  obtain ⟨imported, himported, rfl⟩ := resolveOne_eq_ok_iff.1 hresolved
  obtain rfl : imported = y.interface := hinterface
  exact ⟨reference, hreference, himported, hname⟩

theorem mem_interfaces (h : LeadsTo r x y) : y.interface ∈ r.interfaces := by
  obtain ⟨reference, -, himported, -⟩ := h.exists_reference
  exact Registry.mem_interfaces_of_get? himported

section Bare

variable (bare : r.ImportsAreBare) (hx : x.interface ∈ r.interfaces) (h : LeadsTo r x y)
include bare hx h

theorem version_eq : y.version = impliedVersion x.interface x.version y.interface := by
  obtain ⟨reference, hreference, -, hname⟩ := h.exists_reference
  obtain ⟨hbare, -⟩ := bare _ hx _ (Interface.importsFor_subset _ _ hreference)
  rw [standsFor, if_neg (by simp [hbare])] at hname
  exact (Interface.versionedName_injective _ hname).symm

/-- From a version in development, an import leads to one in development. -/
theorem isInDevelopment (hnext : x.IsInDevelopment) : y.IsInDevelopment := by
  have hdevelopment : x.interface.isNextVersion x.version = true :=
    Interface.isNextVersion_iff.2 hnext
  rw [InterfaceVersion.IsInDevelopment, h.version_eq bare hx, impliedVersion,
    if_pos (by simp [hdevelopment])]

/-- From a frozen version, an import leads to the latest frozen one, if there is one. -/
theorem isLatestFrozen (hfrozen : x.version ∈ x.interface.frozenVersions)
    (hy : y.interface.hasVersion = true) : y.IsLatestFrozen := by
  have valid := Registry.validateVersions_of_mem hx
  have hdevelopment := Interface.isNextVersion_of_mem_frozenVersions valid hfrozen
  have howner := Interface.hasVersion_of_mem_frozenVersions valid hfrozen
  rw [InterfaceVersion.IsLatestFrozen, h.version_eq bare hx, impliedVersion,
    if_neg (by simp [hdevelopment, howner, hy])]
  exact Interface.latestVersion_of_hasVersion hy

end Bare

end LeadsTo

/-- Every bare import leads to a version that can be built, of the interface that it names. -/
theorem exists_leadsTo (bare : r.ImportsAreBare) {i : Interface} (hi : i ∈ r.interfaces)
    {version : String} (hversion : version ∈ i.buildVersions) {reference : String}
    (hreference : reference ∈ i.importsFor version) :
    ∃ y, LeadsTo r ⟨i, version⟩ y ∧ y.interface.name = reference
      ∧ y.version ∈ y.interface.buildVersions := by
  have hregistered : ∀ other ∈ i.importsFor version, IsRegistered r other := by
    intro other hother
    obtain ⟨hbare, hsome⟩ := bare i hi other (Interface.importsFor_subset _ _ hother)
    rw [IsRegistered, split_of_hasVersion_eq_false hbare]
    exact Option.isSome_iff_exists.1 hsome
  obtain ⟨imports, himports⟩ :=
    (exists_resolveAll_iff (Interface.mem_allVersions_of_mem_buildVersions hversion)).2 hregistered
  obtain ⟨x, hx, hresolved⟩ :=
    Outcome.exists_right_of_forall₂ (resolveAll_eq_ok_iff.1 himports).2 hreference
  obtain ⟨imported, himported, rfl⟩ := resolveOne_eq_ok_iff.1 hresolved
  obtain ⟨hbare, -⟩ := bare i hi reference (Interface.importsFor_subset _ _ hreference)
  rw [split_of_hasVersion_eq_false hbare] at himported
  refine ⟨⟨imported, impliedVersion i version imported⟩, ⟨imports, himports, _, hx, rfl, ?_⟩,
    (r.sound _ _ himported).1, impliedVersion_mem_buildVersions⟩
  exact if_neg (by simp [hbare])

/-! ## Any number of imports -/

theorem mem_interfaces_of_transGen (h : TransGen (LeadsTo r) x y) : y.interface ∈ r.interfaces := by
  obtain ⟨_, -, hlast⟩ := TransGen.tail'_iff.1 h
  exact hlast.mem_interfaces

section Runs

variable (bare : r.ImportsAreBare) (hx : x.interface ∈ r.interfaces)
include bare hx

theorem isInDevelopment_of_reflTransGen (hnext : x.IsInDevelopment)
    (h : ReflTransGen (LeadsTo r) x y) : y.interface ∈ r.interfaces ∧ y.IsInDevelopment := by
  induction h with
  | refl => exact ⟨hx, hnext⟩
  | tail _ hstep ih => exact ⟨hstep.mem_interfaces, hstep.isInDevelopment bare ih.1 ih.2⟩

theorem isLatestFrozen_of_transGen (hfrozen : x.version ∈ x.interface.frozenVersions)
    (hall : ∀ z, TransGen (LeadsTo r) x z → z.interface.hasVersion = true)
    (h : TransGen (LeadsTo r) x y) : y.IsLatestFrozen := by
  induction h with
  | single hstep => exact hstep.isLatestFrozen bare hx hfrozen (hall _ (.single hstep))
  | tail hway hstep ih =>
    -- The latest frozen version is a frozen one, so the next import starts from a frozen version.
    exact hstep.isLatestFrozen bare (mem_interfaces_of_transGen hway) ih.mem_frozenVersions
      (hall _ (.tail hway hstep))

end Runs

/-- **Where imports lead that name no versions.** Every import leads to a version that can be built,
of the interface that it names. From a version in development, only versions in development are
reached, and no interface is reached at two versions. From a frozen version, if no interface is
reached that is unstable or was never frozen, only latest frozen versions are reached, none of them
in development, and no interface is reached at two versions. -/
theorem coherent_versions (bare : r.ImportsAreBare) :
    ∀ i ∈ r.interfaces, ∀ version ∈ i.buildVersions,
      (∀ reference ∈ i.importsFor version, ∃ y, LeadsTo r ⟨i, version⟩ y
          ∧ y.interface.name = reference ∧ y.version ∈ y.interface.buildVersions)
      ∧ (version = i.nextVersion →
          (∀ y, ReflTransGen (LeadsTo r) ⟨i, version⟩ y → y.IsInDevelopment)
            ∧ InterfaceVersion.Coherent (ReflTransGen (LeadsTo r) ⟨i, version⟩))
      ∧ (version ∈ i.frozenVersions →
          (∀ y, TransGen (LeadsTo r) ⟨i, version⟩ y → y.interface.hasVersion = true) →
          (∀ y, TransGen (LeadsTo r) ⟨i, version⟩ y → y.IsLatestFrozen ∧ ¬y.IsInDevelopment)
            ∧ InterfaceVersion.Coherent (TransGen (LeadsTo r) ⟨i, version⟩)) := by
  intro i hi version hversion
  refine ⟨fun reference hreference => exists_leadsTo bare hi hversion hreference, ?_, ?_⟩
  · intro hnext
    have hstart : InterfaceVersion.IsInDevelopment ⟨i, version⟩ := hnext
    have hrun : ∀ y, ReflTransGen (LeadsTo r) ⟨i, version⟩ y →
        y.interface ∈ r.interfaces ∧ y.IsInDevelopment := fun y h =>
      isInDevelopment_of_reflTransGen bare hi hstart h
    refine ⟨fun y h => (hrun y h).2, ?_⟩
    intro x y hx hy hname
    obtain ⟨hxi, hxv⟩ := hrun x hx
    obtain ⟨hyi, hyv⟩ := hrun y hy
    rw [hxv, hyv, Registry.eq_of_name_eq hxi hyi hname]
  · intro hfrozen hall
    have hrun : ∀ y, TransGen (LeadsTo r) ⟨i, version⟩ y → y.IsLatestFrozen := fun y h =>
      isLatestFrozen_of_transGen bare hi hfrozen hall h
    refine ⟨fun y h => ⟨hrun y h, ?_⟩, ?_⟩
    · have hnext := Interface.isNextVersion_of_mem_frozenVersions
        (Registry.validateVersions_of_mem (mem_interfaces_of_transGen h))
        (hrun y h).mem_frozenVersions
      rw [← Bool.not_eq_true, Interface.isNextVersion_iff] at hnext
      exact hnext
    · intro x y hx hy hname
      have hinterface := Registry.eq_of_name_eq (mem_interfaces_of_transGen hx)
        (mem_interfaces_of_transGen hy) hname
      have hlatest : x.interface.latestVersion = .ok y.version := by
        rw [hinterface]
        exact hrun y hy
      exact Except.ok.inj ((hrun x hx).symm.trans hlatest)

/-- Three interfaces that import each other, one of them along two ways. -/
def diamondInterfaces : List Interface := [
  { name := "foo", imports := ["baz", "qux"]
    versionsWithInfo := [{ version := "1", imports := ["baz", "qux"] }] },
  { name := "qux", imports := ["baz"]
    versionsWithInfo := [{ version := "1", imports := ["baz"] }] },
  { name := "baz", versions := ["1", "2"] }]

/-- The registry of the interfaces of the diamond. -/
def diamond : Registry := (Registry.ofList diamondInterfaces).toOption.getD ∅

theorem diamond_is_coherent :
    diamond.ImportsAreBare
      ∧ LeadsTo diamond ⟨diamondInterfaces[0], "1"⟩ ⟨diamondInterfaces[1], "1"⟩
      ∧ LeadsTo diamond ⟨diamondInterfaces[1], "1"⟩ ⟨diamondInterfaces[2], "2"⟩
      ∧ (∀ y, TransGen (LeadsTo diamond) ⟨diamondInterfaces[0], "1"⟩ y →
          y.IsLatestFrozen ∧ ¬y.IsInDevelopment)
      ∧ InterfaceVersion.Coherent (TransGen (LeadsTo diamond) ⟨diamondInterfaces[0], "1"⟩)
      ∧ (∀ y, ReflTransGen (LeadsTo diamond) ⟨diamondInterfaces[0], "2"⟩ y → y.IsInDevelopment)
      ∧ InterfaceVersion.Coherent (ReflTransGen (LeadsTo diamond) ⟨diamondInterfaces[0], "2"⟩) := by
  have bare : diamond.ImportsAreBare := by decide +kernel
  have hfoo : diamondInterfaces[0] ∈ diamond.interfaces := by decide +kernel
  have hbuild : "1" ∈ diamondInterfaces[0].buildVersions
      ∧ "2" ∈ diamondInterfaces[0].buildVersions := by decide +kernel
  have hfrozen : "1" ∈ diamondInterfaces[0].frozenVersions := by decide
  have hnext : "2" = diamondInterfaces[0].nextVersion := by decide +kernel
  have hversions : ∀ i ∈ diamond.interfaces, i.hasVersion = true := by decide +kernel
  have hqux : resolveAll diamond diamondInterfaces[0] "1"
      = .ok [⟨diamondInterfaces[2], "baz-V2"⟩, ⟨diamondInterfaces[1], "qux-V1"⟩] := by
    decide +kernel
  have hbaz : resolveAll diamond diamondInterfaces[1] "1"
      = .ok [⟨diamondInterfaces[2], "baz-V2"⟩] := by
    decide +kernel
  obtain ⟨-, -, hfirst⟩ := coherent_versions bare _ hfoo _ hbuild.1
  obtain ⟨-, hsecond, -⟩ := coherent_versions bare _ hfoo _ hbuild.2
  obtain ⟨hlatest, hcoherent⟩ :=
    hfirst hfrozen fun y hy => hversions _ (mem_interfaces_of_transGen hy)
  exact ⟨bare, ⟨_, hqux, _, List.mem_cons_of_mem _ (List.mem_cons_self ..), rfl, by decide⟩,
    ⟨_, hbaz, _, List.mem_cons_self .., rfl, by decide⟩, hlatest, hcoherent, hsecond hnext⟩

end Import

end InterfacePlan
