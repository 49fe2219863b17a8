import InterfacePlan.Proofs.Import.Table
import InterfacePlan.Proofs.Registry.VersionedNames
/-!
# Pinning imports

The name that an import resolves to can be imported itself. It is then recognised again: the name of
a version is split into the interface and the version, and used as written, while the name of an
unstable interface has no version to be split off, and stands for the only build. So a resolved name
means the same wherever it is imported, and an interface whose imports are replaced by what they
resolve to has the same resolved imports as before.

## Main definitions

* `Interface.withImports`: an interface with other imports for one version
* `Import.IsPinned`: names that mean the same wherever they are imported

## Main results

* `Import.isPinned_of_resolveOne`: what an import resolves to is pinned
* `Import.resolved_names_resolve_alike`: imports can be replaced by what they resolve to
-/

namespace InterfacePlan

/-! ## Other imports for a version -/

namespace FrozenVersion

variable {version : String} {imports : List String}

/-- A record of a frozen version, with other imports if it is that of `version`. -/
def withImports (version : String) (imports : List String) (info : FrozenVersion) :
    FrozenVersion :=
  if info.version = version then { info with imports := imports } else info

@[simp] theorem version_withImports (info : FrozenVersion) :
    (info.withImports version imports).version = info.version := by
  unfold withImports
  split <;> rfl

/-- Records are found as before. -/
theorem find?_map_withImports (infos : List FrozenVersion) (other : String) :
    (infos.map (withImports version imports)).find? (·.version = other)
      = (infos.find? (·.version = other)).map (withImports version imports) := by
  rw [List.find?_map]
  simp only [Function.comp_def, version_withImports]

end FrozenVersion

namespace Interface

variable {i : Interface} {version : String} {imports : List String}

/-- **An interface with other imports for a version**, the current ones or those that were recorded.
A version for which no imports were recorded has no place for them. -/
def withImports (i : Interface) (version : String) (imports : List String) : Interface :=
  if i.isNextVersion version then { i with imports := imports }
  else
    { i with
      versionsWithInfo := i.versionsWithInfo.map (FrozenVersion.withImports version imports)
      numbered := by simpa using i.numbered }

theorem sameVersions_withImports (i : Interface) (version : String) (imports : List String) :
    (i.withImports version imports).SameVersions i := by
  unfold withImports
  split
  case isTrue => exact ⟨rfl, rfl, rfl⟩
  case isFalse => exact ⟨rfl, rfl, by simp [frozenVersions, Function.comp_def]⟩

theorem importsFor_withImports_of_next (hnext : i.isNextVersion version = true) (other : String) :
    (i.withImports version imports).importsFor other
      = if other = version then imports else i.importsFor other := by
  have hsame := (sameVersions_withImports i version imports).isNextVersion other
  have hother : i.isNextVersion other = true ↔ other = version := by
    rw [isNextVersion_iff] at hnext ⊢
    rw [hnext]
  rw [importsFor, hsame, withImports, if_pos hnext]
  by_cases heq : other = version
  · rw [if_pos (hother.2 heq), if_pos heq]
  · rw [if_neg (hother.not.2 heq), if_neg heq, importsFor, if_neg (hother.not.2 heq)]

theorem importsFor_withImports_of_recorded (hrecorded : ¬i.isNextVersion version = true)
    (hlength : imports.length = (i.importsFor version).length) (other : String) :
    (i.withImports version imports).importsFor other
      = if other = version then imports else i.importsFor other := by
  have hsame := (sameVersions_withImports i version imports).isNextVersion other
  rw [importsFor, if_neg hrecorded] at hlength
  rw [importsFor, hsame, importsFor, withImports, if_neg hrecorded]
  dsimp only
  rw [FrozenVersion.find?_map_withImports]
  split
  case isTrue hnext =>
    have hother : other ≠ version := by
      rintro rfl
      exact hrecorded hnext
    rw [if_neg hother]
  case isFalse =>
    cases hfind : i.versionsWithInfo.find? (·.version = other) with
    | none =>
      by_cases heq : other = version
      · subst heq
        rw [hfind] at hlength
        rw [if_pos rfl, List.eq_nil_of_length_eq_zero hlength]
        rfl
      · rw [if_neg heq]
        rfl
    | some info =>
      have hinfo : info.version = other := by simpa using List.find?_some hfind
      simp only [Option.map_some, FrozenVersion.withImports, hinfo]
      split <;> rfl

/-- **The imports of the version are the new ones**, if there is a place for them, and other
versions keep theirs. -/
theorem importsFor_withImports (hlength : imports.length = (i.importsFor version).length)
    (other : String) : (i.withImports version imports).importsFor other
      = if other = version then imports else i.importsFor other := by
  by_cases hnext : i.isNextVersion version = true
  · exact importsFor_withImports_of_next hnext other
  · exact importsFor_withImports_of_recorded hnext hlength other

end Interface

namespace Import

variable {r : Registry} {owner imported : Interface} {version reference : String} {x : Resolved}
  {imports : List Resolved}

/-! ## Names that mean the same everywhere -/

/-- **A resolved import whose name means the same wherever it is imported.** -/
structure IsPinned (r : Registry) (x : Resolved) : Prop where
  registered : r.get? (split x.name).1 = some x.interface
  standsFor_eq : ∀ owner version, standsFor owner version x.interface x.name = x.name

namespace IsPinned

theorem resolve_eq (pinned : IsPinned r x) (owner : Interface) (version : String) :
    resolve owner version x.interface x.name = .ok x.name := by
  rw [Import.resolve_eq, pinned.standsFor_eq]

theorem resolveOne_eq (pinned : IsPinned r x) (owner : Interface) (version : String) :
    resolveOne r owner version x.name = .ok x := by
  refine resolveOne_eq_ok_iff.2 ⟨x.interface, pinned.registered, ?_⟩
  rw [pinned.standsFor_eq]

/-- The name of an import that names a version is used as written. -/
theorem of_hasVersion (hname : hasVersion x.name = true)
    (registered : r.get? (split x.name).1 = some x.interface) : IsPinned r x where
  registered := registered
  standsFor_eq _ _ := standsFor_of_hasVersion hname

end IsPinned

/-- The only build of an unstable interface is what it is imported as. -/
theorem standsFor_of_unstable (hr : hasVersion reference = false)
    (hu : imported.unstable = true) :
    standsFor owner version imported reference = imported.name := by
  have hbuilt : impliedVersion owner version imported ∈ imported.buildVersions :=
    impliedVersion_mem_buildVersions
  rw [Interface.buildVersions, if_pos hu, List.mem_singleton] at hbuilt
  rw [standsFor_of_bare hr, hbuilt, Interface.versionedName_unversioned]

/-- **What an import resolves to is pinned.** -/
theorem isPinned_of_resolveOne (h : resolveOne r owner version reference = .ok x) :
    IsPinned r x := by
  obtain ⟨imported, himported, rfl⟩ := resolveOne_eq_ok_iff.1 h
  obtain ⟨hname, valid⟩ := r.sound _ _ himported
  cases hr : hasVersion reference with
  | true =>
    rw [standsFor_of_hasVersion hr]
    exact .of_hasVersion hr himported
  | false =>
    cases hu : imported.unstable with
    | true =>
      rw [split_of_hasVersion_eq_false hr] at himported hname
      obtain rfl : imported.name = reference := hname
      rw [standsFor_of_unstable hr hu]
      refine ⟨?_, fun owner' version' => standsFor_of_unstable hr hu⟩
      rw [split_of_hasVersion_eq_false hr]
      exact himported
    | false =>
      have hversion : impliedVersion owner version imported ∈ imported.allVersions :=
        Interface.mem_allVersions_of_mem_buildVersions impliedVersion_mem_buildVersions
      have hsplit := Interface.split_versionedName valid hu hversion
      rw [standsFor_of_bare hr]
      refine .of_hasVersion ?_ ?_
      · rw [hasVersion, hsplit]
        rfl
      · rw [hsplit]
        exact Registry.get?_name_of_get? himported

/-- Names that are pinned resolve to themselves, whatever version of whatever interface imports
them. -/
theorem resolveAll_of_isPinned (hpinned : ∀ x ∈ imports, IsPinned r x)
    (hversion : version ∈ owner.allVersions)
    (hnames : owner.importsFor version = imports.map (·.name)) :
    resolveAll r owner version = .ok imports := by
  refine resolveAll_eq_ok_iff.2 ⟨hversion, ?_⟩
  rw [hnames, List.forall₂_map_left_iff, List.forall₂_same]
  intro x hx
  exact (hpinned x hx).resolveOne_eq owner version

/-- **Imports can be replaced by what they resolve to.** When an interface declares the resolved
names for a version, and is otherwise as it was, these imports resolve to the same interfaces by the
same names. And a resolved name resolves to itself wherever else it is imported. -/
theorem resolved_names_resolve_alike (hok : resolveAll r owner version = .ok imports) :
    ((∀ other, (owner.withImports version (imports.map (·.name))).importsFor other
          = if other = version then imports.map (·.name) else owner.importsFor other)
        ∧ resolveAll r (owner.withImports version (imports.map (·.name))) version = .ok imports)
      ∧ (∀ x ∈ imports, ∀ other context, resolve other context x.interface x.name = .ok x.name)
      ∧ ∀ other context, context ∈ other.allVersions →
          other.importsFor context = imports.map (·.name) →
          resolveAll r other context = .ok imports := by
  obtain ⟨hversion, himports⟩ := resolveAll_eq_ok_iff.1 hok
  have hpinned : ∀ x ∈ imports, IsPinned r x := by
    intro x hx
    obtain ⟨reference, -, hreference⟩ := Outcome.exists_right_of_forall₂ himports.flip hx
    exact isPinned_of_resolveOne hreference
  have hnames : ∀ other, (owner.withImports version (imports.map (·.name))).importsFor other
      = if other = version then imports.map (·.name) else owner.importsFor other := by
    apply Interface.importsFor_withImports
    rw [List.length_map, himports.length_eq]
  refine ⟨⟨hnames, ?_⟩, fun x hx => (hpinned x hx).resolve_eq, ?_⟩
  · apply resolveAll_of_isPinned hpinned
    · rw [(Interface.sameVersions_withImports ..).allVersions]
      exact hversion
    · rw [hnames, if_pos rfl]
  · exact fun other context => resolveAll_of_isPinned hpinned

theorem pinned_importer_resolves_alike :
    ∃ imports, resolveAll importedByRules importerOfAll "1" = .ok imports
      ∧ imports.map (·.name) = ["baz-V1", "qux", "fresh-V1", "baz-V4"]
      ∧ resolveAll importedByRules
          (importerOfAll.withImports "1" ["baz-V1", "qux", "fresh-V1", "baz-V4"]) "1" = .ok imports
      ∧ ∀ x ∈ imports, resolve importerOfAll "2" x.interface x.name = .ok x.name := by
  have hnames : names importedByRules importerOfAll "1"
      = .ok ["baz-V1", "qux", "fresh-V1", "baz-V4"] := by decide +kernel
  obtain ⟨imports, hok, himports⟩ := Outcome.map_eq_ok_iff.1 hnames
  obtain ⟨⟨-, hpinned⟩, hself, -⟩ := resolved_names_resolve_alike hok
  rw [himports] at hpinned
  exact ⟨imports, hok, himports, hpinned, fun x hx => hself x hx importerOfAll "2"⟩

end Import

end InterfacePlan
