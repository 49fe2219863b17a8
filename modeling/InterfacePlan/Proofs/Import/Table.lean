import InterfacePlan.Proofs.Import.Resolution
/-!
# The table of resolved imports

What the imports of an interface version resolve to, rule by rule. A version that cannot be built
has no resolved imports, and one that can has all of them as soon as the interfaces that they name
are registered. The rules leave no gap: an import that names no version always finds one that can
be built, so it never lacks a frozen version.

## Main definitions

* `Import.NamesVersion`: references that end in a version
* `Import.ResolvesAs`: the rules, in the order in which they apply

## Main results

* `Import.split_eq_some_iff`: the parts of a reference that names a version
* `Import.resolvesAs_standsFor`: the name that an import stands for obeys the rules
* `Import.resolveAll_outcome`: all that can become of the imports of a version
-/

namespace InterfacePlan.Import

variable {r : Registry} {owner imported : Interface} {version reference : String}

/-! ## References that name a version -/

/-- **The parts of a reference that names a version**: it is put together from the name, a mark and
decimal digits. -/
theorem split_eq_some_iff {name digits : String} : split reference = (name, some digits) ↔
    reference = name ++ "-V" ++ digits ∧ digits ≠ ""
      ∧ ∀ c ∈ digits.toList, DigitClass.isDecimalDigit c = true := by
  constructor
  · exact eq_of_split_eq
  · rintro ⟨rfl, hne, hdigits⟩
    exact split_append name hne hdigits

/-- **A reference that names a version** ends in `-V` and decimal digits. -/
def NamesVersion (reference : String) : Prop :=
  ∃ name digits, reference = name ++ "-V" ++ digits ∧ digits ≠ ""
    ∧ ∀ c ∈ digits.toList, DigitClass.isDecimalDigit c = true

theorem hasVersion_iff : hasVersion reference = true ↔ NamesVersion reference := by
  simp only [NamesVersion, ← split_eq_some_iff, hasVersion, Option.isSome_iff_exists]
  constructor
  · rintro ⟨digits, h⟩
    exact ⟨_, digits, Prod.ext rfl h⟩
  · rintro ⟨_, digits, h⟩
    exact ⟨digits, congrArg Prod.snd h⟩

/-! ## The rules -/

/-- **What an import resolves to**, when `owner` at `version` imports `imported` by `reference`. The
first rule that applies decides. -/
inductive ResolvesAs (owner : Interface) (version : String) (imported : Interface)
    (reference : String) : String → Prop
  /-- An import that names a version is used as written. -/
  | pinned (names : NamesVersion reference) :
    ResolvesAs owner version imported reference reference
  /-- An unstable interface has a single build. -/
  | unstable (bare : ¬NamesVersion reference) (single : imported.unstable = true) :
    ResolvesAs owner version imported reference imported.name
  /-- From a version in development, or where one of the two interfaces has no frozen version, the
  version in development is imported. -/
  | development (bare : ¬NamesVersion reference) (stable : imported.unstable = false)
    (unfrozen : version = owner.nextVersion ∨ owner.frozenVersions = []
      ∨ imported.frozenVersions = []) :
    ResolvesAs owner version imported reference (imported.versionedName imported.nextVersion)
  /-- From a frozen version, the latest frozen one is imported. -/
  | latest (bare : ¬NamesVersion reference) (stable : imported.unstable = false)
    (frozen : version ≠ owner.nextVersion) (hasFrozen : owner.frozenVersions ≠ [])
    {newest : String} (last : imported.frozenVersions.getLast? = some newest) :
    ResolvesAs owner version imported reference (imported.versionedName newest)

/-- **The name that an import stands for obeys the rules.** -/
theorem resolvesAs_standsFor (howner : owner.validateVersions = .ok ())
    (himported : imported.validateVersions = .ok ()) :
    ResolvesAs owner version imported reference (standsFor owner version imported reference) := by
  unfold standsFor impliedVersion
  split
  case isTrue hr => exact .pinned (hasVersion_iff.1 hr)
  case isFalse hr =>
    rw [hasVersion_iff] at hr
    cases hu : imported.unstable with
    | true =>
      have hname : imported.versionedName imported.nextVersion = imported.name := by
        simp [Interface.nextVersion, hu]
      simpa [Interface.hasVersion, hu, hname] using ResolvesAs.unstable hr hu
    | false =>
      have hunfrozen : (owner.isNextVersion version || !owner.hasVersion || !imported.hasVersion)
          = true ↔ version = owner.nextVersion ∨ owner.frozenVersions = []
            ∨ imported.frozenVersions = [] := by
        rw [Bool.or_eq_true, Bool.or_eq_true, Bool.not_eq_true', Bool.not_eq_true',
          ← Bool.not_eq_true, ← Bool.not_eq_true, Interface.isNextVersion_iff,
          Interface.hasVersion_iff_of_valid howner, Interface.hasVersion_iff_of_valid himported,
          not_not, not_not, or_assoc]
      split
      case isTrue h => exact .development hr hu (hunfrozen.1 h)
      case isFalse h =>
        rw [hunfrozen, not_or, not_or] at h
        obtain ⟨hfrozen, hown, himp⟩ := h
        exact .latest hr hu hfrozen hown (Interface.getLast?_frozenVersions himported
          ((Interface.hasVersion_iff_of_valid himported).2 himp))

/-- The name behind an import without a version is that of a version that can be built. -/
theorem exists_buildVersion_of_bare (bare : ¬NamesVersion reference) :
    ∃ built ∈ imported.buildVersions,
      standsFor owner version imported reference = imported.versionedName built :=
  ⟨_, impliedVersion_mem_buildVersions, if_neg (by rwa [hasVersion_iff])⟩

/-! ## All imports of a version -/

/-- **What can become of the imports of an interface version.** A version that cannot be built is
refused. Otherwise the first import of an unregistered interface is an error. If there is none,
there is one resolved import for each declared one, in their order: it names the registered
interface, its name obeys the rules, and if the import names no version, it is the name of a
version that can be built. There are no other errors. -/
theorem resolveAll_outcome (howner : owner ∈ r.interfaces) (version : String) :
    ((∃ name unknown, resolveAll r owner version = .error (.unknownVersion name unknown)) ↔
        version ∉ owner.allVersions)
      ∧ (version ∉ owner.allVersions →
          resolveAll r owner version = .error (.unknownVersion owner.name version))
      ∧ (version ∈ owner.allVersions →
          (∀ e, resolveAll r owner version = .error e ↔
            ∃ before reference after, owner.importsFor version = before ++ reference :: after
              ∧ (∀ other ∈ before, IsRegistered r other) ∧ ¬IsRegistered r reference
              ∧ e = .unknownInterface owner.name (split reference).1)
          ∧ ((∀ reference ∈ owner.importsFor version, IsRegistered r reference) →
              ∃ imports, resolveAll r owner version = .ok imports
                ∧ List.Forall₂ (fun reference x =>
                    r.get? (split reference).1 = some x.interface
                      ∧ ResolvesAs owner version x.interface reference x.name
                      ∧ (¬NamesVersion reference →
                          ∃ built ∈ x.interface.buildVersions,
                            x.name = x.interface.versionedName built))
                  (owner.importsFor version) imports))
      ∧ ∀ e, resolveAll r owner version = .error e →
          e = .unknownVersion owner.name version
            ∨ ∃ name, e = .unknownInterface owner.name name := by
  have hrefused : version ∉ owner.allVersions →
      resolveAll r owner version = .error (.unknownVersion owner.name version) := fun h =>
    if_neg (by rwa [List.contains_iff_mem])
  refine ⟨⟨?_, fun h => ⟨_, _, hrefused h⟩⟩, hrefused, fun h => ⟨fun e => ?_, fun hall => ?_⟩, ?_⟩
  · rintro ⟨name, unknown, herror⟩ hversion
    obtain ⟨_, _, _, -, -, -, he⟩ := (resolveAll_eq_error_iff hversion).1 herror
    cases he
  · exact resolveAll_eq_error_iff h
  · obtain ⟨imports, himports⟩ := (exists_resolveAll_iff h).2 hall
    refine ⟨imports, himports, (resolveAll_eq_ok_iff.1 himports).2.imp fun reference x hx => ?_⟩
    obtain ⟨imported, himported, rfl⟩ := resolveOne_eq_ok_iff.1 hx
    have hvalid := Registry.validateVersions_of_mem (Registry.mem_interfaces_of_get? himported)
    exact ⟨himported, resolvesAs_standsFor (Registry.validateVersions_of_mem howner) hvalid,
      exists_buildVersion_of_bare⟩
  · intro e herror
    by_cases hversion : version ∈ owner.allVersions
    · obtain ⟨_, reference, _, -, -, -, rfl⟩ := (resolveAll_eq_error_iff hversion).1 herror
      exact .inr ⟨_, rfl⟩
    · rw [hrefused hversion] at herror
      exact .inl (Except.error.inj herror).symm

/-- An interface that imports others by each of the rules. -/
def importerOfAll : Interface :=
  { name := "foo"
    versionsWithInfo := [{ version := "1", imports := ["baz-V1", "qux", "fresh", "baz"] }] }

/-- A registry in which every rule decides some import of `importerOfAll`. -/
def importedByRules : Registry := (Registry.ofList [
  importerOfAll,
  { name := "baz", versions := ["1", "2", "3", "4"] },
  { name := "qux", unstable := true },
  { name := "fresh" }]).toOption.getD ∅

theorem imports_of_all_rules :
    importerOfAll ∈ importedByRules.interfaces
      ∧ resolveAll importedByRules importerOfAll "3" = .error (.unknownVersion "foo" "3")
      ∧ ∃ imports, resolveAll importedByRules importerOfAll "1" = .ok imports
        ∧ List.Forall₂
            (fun reference x => ResolvesAs importerOfAll "1" x.interface reference x.name)
            ["baz-V1", "qux", "fresh", "baz"] imports := by
  have hmem : importerOfAll ∈ importedByRules.interfaces := by decide +kernel
  have hversions : "3" ∉ importerOfAll.allVersions ∧ "1" ∈ importerOfAll.allVersions := by
    decide +kernel
  have hregistered : ∀ reference ∈ importerOfAll.importsFor "1",
      (importedByRules.get? (split reference).1).isSome = true := by decide +kernel
  have himports : importerOfAll.importsFor "1" = ["baz-V1", "qux", "fresh", "baz"] := by
    decide +kernel
  obtain ⟨-, hrefused, -, -⟩ := resolveAll_outcome hmem "3"
  obtain ⟨-, -, hresolved, -⟩ := resolveAll_outcome hmem "1"
  obtain ⟨imports, hok, hrules⟩ := (hresolved hversions.2).2 fun reference h =>
    Option.isSome_iff_exists.1 (hregistered reference h)
  rw [himports] at hrules
  exact ⟨hmem, hrefused hversions.1, imports, hok, hrules.imp fun _ _ h => h.2.1⟩

end InterfacePlan.Import
