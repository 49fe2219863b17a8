import Mathlib.Data.List.TakeWhile
import InterfacePlan.Import.Resolve
import InterfacePlan.Proofs.Collection.Outcome
import InterfacePlan.Proofs.Interface.Versions
/-!
# What imports stand for

Resolving an import cannot fail once the interface it names is registered: an import without a
version always stands for a version that can be built.

## Main definitions

* `Interface.declaredImports`: the imports of all versions of an interface
* `Import.impliedVersion`: the version that an import without a version stands for
* `Import.standsFor`: the versioned name that an import stands for
* `Import.IsRegistered`: whether the interface that an import names is registered

## Main results

* `Import.resolve_eq`: resolution always succeeds
* `Import.impliedVersion_mem_buildVersions`: an implied version can be built
* `Import.resolveAll_eq_ok_iff`, `Import.resolveAll_eq_error_iff`: all imports of a version
-/

namespace InterfacePlan

/-! ## Looking up interfaces -/

namespace Registry

variable {r : Registry} {i : Interface}

theorem get?_name_of_get? {name : String} (h : r.get? name = some i) : r.get? i.name = some i := by
  rw [(r.sound name i h).1]
  exact h

theorem mem_interfaces_iff : i ∈ r.interfaces ↔ r.get? i.name = some i := by
  rw [interfaces, SortedMap.values, List.mem_map]
  constructor
  · rintro ⟨⟨name, i⟩, he, rfl⟩
    exact get?_name_of_get? (SortedMap.mem_toList_iff.1 he)
  · intro h
    exact ⟨(i.name, i), SortedMap.mem_toList_iff.2 h, rfl⟩

theorem mem_interfaces_of_get? {name : String} (h : r.get? name = some i) : i ∈ r.interfaces :=
  mem_interfaces_iff.2 (get?_name_of_get? h)

theorem validateVersions_of_mem (h : i ∈ r.interfaces) : i.validateVersions = .ok () :=
  (r.sound i.name i (mem_interfaces_iff.1 h)).2

theorem eq_of_name_eq {j : Interface} (hi : i ∈ r.interfaces) (hj : j ∈ r.interfaces)
    (h : i.name = j.name) : i = j := by
  rw [mem_interfaces_iff] at hi hj
  rw [h, hj] at hi
  exact (Option.some.inj hi).symm

theorem imported_eq_ok_iff {importer name : String} :
    r.imported importer name = .ok i ↔ r.get? name = some i := by
  unfold imported
  cases r.get? name <;> simp

theorem imported_eq_error_iff {importer name : String} {e : PlanError} :
    r.imported importer name = .error e ↔
      r.get? name = none ∧ e = .unknownInterface importer name := by
  unfold imported
  cases r.get? name <;> simp [eq_comm]

end Registry

/-! ## Declared imports -/

namespace Interface

/-- **All imports of a declaration**: the current ones, and those that were recorded when versions
were frozen. -/
def declaredImports (i : Interface) : List String :=
  i.imports ++ i.versionsWithInfo.flatMap (·.imports)

theorem importsFor_subset (i : Interface) (version : String) :
    i.importsFor version ⊆ i.declaredImports := by
  intro reference hreference
  unfold importsFor at hreference
  split at hreference
  case isTrue => exact List.mem_append_left _ hreference
  case isFalse =>
    cases hfind : i.versionsWithInfo.find? (·.version = version) with
    | none =>
      rw [hfind] at hreference
      cases hreference
    | some info =>
      rw [hfind] at hreference
      exact List.mem_append_right _
        (List.mem_flatMap.2 ⟨info, List.mem_of_find?_eq_some hfind, hreference⟩)

end Interface

namespace Import

variable {r : Registry} {owner imported : Interface} {version reference : String}

/-! ## References -/

/-- A reference that names a version is put together again from its parts. -/
theorem eq_of_split_eq {name digits : String} (h : split reference = (name, some digits)) :
    reference = name ++ "-V" ++ digits ∧ digits ≠ ""
      ∧ ∀ c ∈ digits.toList, DigitClass.isDecimalDigit c = true := by
  unfold split at h
  split at h
  case h_2 => cases h
  case h_1 cs ds hsplit =>
    obtain ⟨rfl, hds⟩ := Prod.mk.inj h
    obtain rfl := Option.some.inj hds
    unfold splitReversed? at hsplit
    split at hsplit
    case h_2 => cases hsplit
    case h_1 before hbefore =>
      extract_lets ds' at hsplit
      split at hsplit
      case isTrue => cases hsplit
      case isFalse hne =>
        obtain ⟨rfl, rfl⟩ := Prod.mk.inj (Option.some.inj hsplit)
        have hchars : reference.toList.reverse = ds' ++ 'V' :: '-' :: before := by
          rw [← hbefore]
          exact List.takeWhile_append_dropWhile.symm
        refine ⟨?_, ?_, ?_⟩
        · apply String.toList_inj.1
          rw [← List.reverse_reverse reference.toList, hchars]
          simp
        · intro hempty
          have hnil : ds'.reverse = [] := by simpa using congrArg String.toList hempty
          exact hne (by simpa using hnil)
        · intro c hc
          rw [String.toList_ofList, List.mem_reverse] at hc
          exact List.mem_takeWhile_imp hc

/-- A name with a version behind it is a reference to that version, whatever the name is. -/
theorem split_append (name : String) {digits : String} (hne : digits ≠ "")
    (hdigits : ∀ c ∈ digits.toList, DigitClass.isDecimalDigit c = true) :
    split (name ++ "-V" ++ digits) = (name, some digits) := by
  have hreverse : (name ++ "-V" ++ digits).toList.reverse
      = digits.toList.reverse ++ 'V' :: '-' :: name.toList.reverse := by
    simp
  have hdigits' : ∀ c ∈ digits.toList.reverse, DigitClass.isDecimalDigit c = true := fun c hc =>
    hdigits c (List.mem_reverse.1 hc)
  -- From the back, the digits end at the mark.
  have hsplit : splitReversed? (name ++ "-V" ++ digits).toList.reverse
      = some (name.toList, digits.toList) := by
    rw [hreverse, splitReversed?, List.dropWhile_append_of_pos hdigits',
      List.takeWhile_append_of_pos hdigits']
    simp [hne]
  rw [split, hsplit]
  simp

theorem split_of_hasVersion_eq_false (h : hasVersion reference = false) :
    split reference = (reference, none) := by
  unfold hasVersion at h
  unfold split at h ⊢
  split at h
  case h_1 => cases h
  case h_2 => rfl

/-! ## One import -/

/-- **The version of `imported` that an import without a version stands for**, when `owner` at
`version` imports it. -/
def impliedVersion (owner : Interface) (version : String) (imported : Interface) : String :=
  if owner.isNextVersion version || !owner.hasVersion || !imported.hasVersion then
    imported.nextVersion
  else imported.latestFrozen

/-- **The versioned name that an import stands for.** -/
def standsFor (owner : Interface) (version : String) (imported : Interface) (reference : String) :
    String :=
  if hasVersion reference then reference
  else imported.versionedName (impliedVersion owner version imported)

theorem standsFor_of_hasVersion (hr : hasVersion reference = true) :
    standsFor owner version imported reference = reference :=
  if_pos hr

theorem standsFor_of_bare (hr : hasVersion reference = false) :
    standsFor owner version imported reference
      = imported.versionedName (impliedVersion owner version imported) := by
  rw [standsFor, hr]
  rfl

theorem resolve_eq : resolve owner version imported reference
    = .ok (standsFor owner version imported reference) := by
  unfold resolve standsFor impliedVersion
  -- The cases are those of the table, from the top.
  by_cases hr : hasVersion reference = true
  · rw [if_pos hr, if_pos hr]
  rw [if_neg hr, if_neg hr]
  by_cases hu : imported.unstable = true
  · simp [hu, Interface.hasVersion, Interface.nextVersion]
  rw [if_neg hu]
  split
  case isTrue => rfl
  case isFalse h =>
    simp only [Bool.or_eq_true, Bool.not_eq_true', not_or, Bool.not_eq_false] at h
    rw [Interface.latestVersion_of_hasVersion h.2]
    rfl

theorem impliedVersion_mem_buildVersions :
    impliedVersion owner version imported ∈ imported.buildVersions := by
  unfold impliedVersion
  split
  case isTrue => exact Interface.nextVersion_mem_buildVersions
  case isFalse h =>
    simp only [Bool.or_eq_true, Bool.not_eq_true', not_or, Bool.not_eq_false] at h
    exact Interface.latestFrozen_mem_buildVersions h.2

/-- The interface that an import names is registered. -/
def IsRegistered (r : Registry) (reference : String) : Prop :=
  ∃ imported, r.get? (split reference).1 = some imported

theorem resolveOne_eq_ok_iff {x : Resolved} : resolveOne r owner version reference = .ok x ↔
    ∃ imported, r.get? (split reference).1 = some imported
      ∧ x = ⟨imported, standsFor owner version imported reference⟩ := by
  simp only [resolveOne, Outcome.bind_eq_ok_iff, Registry.imported_eq_ok_iff, resolve_eq,
    Outcome.pure_eq, Except.ok.injEq]
  grind

theorem exists_resolveOne_iff :
    (∃ x, resolveOne r owner version reference = .ok x) ↔ IsRegistered r reference := by
  simp [resolveOne_eq_ok_iff, IsRegistered]

theorem resolveOne_eq_error_iff {e : PlanError} : resolveOne r owner version reference = .error e ↔
    ¬IsRegistered r reference ∧ e = .unknownInterface owner.name (split reference).1 := by
  simp [resolveOne, Outcome.bind_eq_error_iff, Registry.imported_eq_error_iff, resolve_eq,
    IsRegistered, Option.eq_none_iff_forall_ne_some]

/-! ## All imports of a version -/

theorem resolveAll_of_mem (h : version ∈ owner.allVersions) :
    resolveAll r owner version = (owner.importsFor version).mapM (resolveOne r owner version) :=
  if_pos (List.contains_iff_mem.2 h)

theorem resolveAll_eq_ok_iff {xs : List Resolved} : resolveAll r owner version = .ok xs ↔
    version ∈ owner.allVersions
      ∧ List.Forall₂ (fun reference x => resolveOne r owner version reference = .ok x)
          (owner.importsFor version) xs := by
  by_cases h : version ∈ owner.allVersions
  · rw [resolveAll_of_mem h, Outcome.mapM_eq_ok_iff, and_iff_right h]
  · rw [resolveAll, if_neg (by rwa [List.contains_iff_mem])]
    simp [h]

/-- The first import whose interface is not registered is reported. -/
theorem resolveAll_eq_error_iff (h : version ∈ owner.allVersions) {e : PlanError} :
    resolveAll r owner version = .error e ↔
      ∃ before reference after, owner.importsFor version = before ++ reference :: after
        ∧ (∀ other ∈ before, IsRegistered r other) ∧ ¬IsRegistered r reference
        ∧ e = .unknownInterface owner.name (split reference).1 := by
  rw [resolveAll_of_mem h, Outcome.mapM_eq_error_iff]
  simp only [exists_resolveOne_iff, resolveOne_eq_error_iff]

theorem exists_resolveAll_iff (h : version ∈ owner.allVersions) :
    (∃ xs, resolveAll r owner version = .ok xs) ↔
      ∀ reference ∈ owner.importsFor version, IsRegistered r reference := by
  rw [resolveAll_of_mem h, Outcome.exists_mapM_eq_ok_iff]
  simp only [exists_resolveOne_iff]

end Import

end InterfacePlan
