import InterfacePlan.Interface.Basic
import InterfacePlan.PlanError
import InterfacePlan.Text.Decimal
/-!
# Versions of an interface

A stable interface with the frozen versions `1` and `2` builds `foo-V1`, `foo-V2` and, in
development, `foo-V3`. An unstable interface has a single build, whose version is the empty text and
whose name has no suffix.

## Main definitions

* `Interface.frozenVersions`, `Interface.nextVersion`, `Interface.allVersions`: what can be built
* `Interface.latestVersion`: the newest frozen version
* `Interface.versionedName`: the name that libraries of a version start with
* `Interface.isForVndk`: whether a version is the one for the VNDK
* `Interface.validateVersions`: whether the declared versions are well formed
-/

namespace InterfacePlan

/-- The version of the only build of an unstable interface. -/
def unversioned : String := ""

/-- The flags that the source generator gets for the version in development. -/
def developmentFlags : String := "-Weverything -Wno-missing-permission-annotation"

namespace Interface

/-- The frozen versions, oldest first. -/
def frozenVersions (i : Interface) : List String :=
  if i.versionsWithInfo.isEmpty then i.versions else i.versionsWithInfo.map (·.version)

/-- Whether there are frozen versions, which an unstable interface never has. -/
def hasVersion (i : Interface) : Bool := !i.unstable && !i.frozenVersions.isEmpty

/-- The largest of the numbers, or zero. -/
def largest (ns : List Nat) : Nat := ns.foldl max 0

/-- **The version in development**: the number after the largest frozen version. The sum is not
bounded, although only unsigned 64-bit numbers are read: behind the largest of these, which a valid
interface reaches only with as many frozen versions, the next version could not be read back. -/
def nextVersion (i : Interface) : String :=
  if i.unstable then unversioned
  else Decimal.text (largest (i.frozenVersions.filterMap Decimal.readWord?) + 1)

/-- The number that a version denotes; a version that denotes none counts as zero. -/
def versionNumber (version : String) : Nat := (Decimal.readWord? version).getD 0

/-- The version with the largest number, the last one of several, given one to start from. -/
def newest (best : String) : List String → String
  | [] => best
  | v :: vs => newest (if versionNumber best ≤ versionNumber v then v else best) vs

theorem newest_cons (best v : String) (vs : List String) : newest best (v :: vs)
    = newest (if versionNumber best ≤ versionNumber v then v else best) vs := by
  rfl

/-- **The newest frozen version.** -/
def latestVersion (i : Interface) : Except PlanError String :=
  if i.unstable then .error (.noFrozenVersions i.name)
  else match i.frozenVersions with
    | [] => .error (.noFrozenVersions i.name)
    | v :: vs => .ok (newest v vs)

/-- The name of `version`: without suffix for the unversioned build. -/
def versionedName (i : Interface) (version : String) : String :=
  if version = unversioned then i.name else i.name ++ "-V" ++ version

/-- Whether `version` is the one in development. -/
def isNextVersion (i : Interface) (version : String) : Bool := version = i.nextVersion

/-- **Every version that can be built**: the frozen ones and the one in development. -/
def allVersions (i : Interface) : List String := i.frozenVersions ++ [i.nextVersion]

/-- The version that the source generator is told. The first version of an interface that was never
frozen is built like an unversioned one. -/
def generatorVersion (i : Interface) (version : String) : String :=
  if i.hasVersion then version else unversioned

/-- The flags that the source generator gets for `version`. -/
def generatorFlags (i : Interface) (version : String) : List String :=
  if i.isNextVersion version then i.flags ++ [developmentFlags] else i.flags

/-- **Whether `version` is the one for the VNDK**: the selected version, or else the latest frozen
one, or the one in development of an interface that was never frozen. -/
def isForVndk (i : Interface) (version : String) : Except PlanError Bool :=
  match i.vndkUseVersion with
  | some selected =>
    -- Versions of an interface without frozen ones are not validated against the selected one, so
    -- this is where a selected version that does not exist is found.
    if i.frozenVersions.contains selected || (!i.hasVersion && i.isNextVersion selected) then
      .ok (version = selected)
    else .error (.unknownVndkVersion i.name selected)
  | none =>
    if i.hasVersion then i.latestVersion.map (version = ·) else .ok (i.isNextVersion version)

/-- **The imports declared for `version`**: the current ones for the version in development, and
otherwise those recorded when the version was frozen. -/
def importsFor (i : Interface) (version : String) : List String :=
  if i.isNextVersion version then i.imports
  else match i.versionsWithInfo.find? (·.version = version) with
    | some info => info.imports
    | none => []

/-- Why a list of frozen versions is not `1`, `2`, `3` and so on, starting behind `n`. -/
def sequenceFlaw? (n : Nat) : List String → Option String
  | [] => none
  | v :: vs =>
    if v = Decimal.text (n + 1) then sequenceFlaw? (n + 1) vs
    else some ("expected version " ++ Decimal.text (n + 1) ++ " at position "
      ++ Decimal.text (n + 1) ++ ", found `" ++ v ++ "`")

/-- **Whether the declared versions are well formed.** Stable interfaces have the versions `1`, `2`
up to some `n`, in one of the two lists, and select one of them for the VNDK if they select any.
Unstable interfaces have none. -/
def validateVersions (i : Interface) : Except PlanError Unit :=
  if i.unstable then
    if i.frozenVersions.isEmpty then .ok ()
    else .error (.invalidVersions i.name "unstable interfaces cannot have versions")
  else if !i.versions.isEmpty && !i.versionsWithInfo.isEmpty then
    .error (.invalidVersions i.name "`versions` and `versions_with_info` are mutually exclusive")
  else match sequenceFlaw? 0 i.frozenVersions with
    | some reason => .error (.invalidVersions i.name reason)
    | none =>
      match i.vndkUseVersion with
      | some selected =>
        -- Before the first freeze there is nothing yet that the selected version could be among.
        if i.hasVersion && !i.frozenVersions.contains selected then
          .error (.unknownVndkVersion i.name selected)
        else .ok ()
      | none => .ok ()

/-- The versions that libraries are built for; an unstable interface has its single build. -/
def buildVersions (i : Interface) : List String :=
  if i.unstable then [unversioned] else i.allVersions

@[simp] theorem versionedName_unversioned (i : Interface) :
    i.versionedName unversioned = i.name := by
  simp [versionedName]

theorem isNextVersion_iff {i : Interface} {version : String} :
    i.isNextVersion version = true ↔ version = i.nextVersion := by
  simp [isNextVersion]

@[simp] theorem nextVersion_mem_allVersions (i : Interface) : i.nextVersion ∈ i.allVersions := by
  simp [allVersions]

end Interface

end InterfacePlan
