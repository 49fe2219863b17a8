import InterfacePlan.Import.Reference
import InterfacePlan.Registry.Basic
/-!
# Resolving imports

An import without a version stands for a version that fits the importing one.

| importing version              | imported interface | resolved import            |
|--------------------------------|--------------------|----------------------------|
| any                            | unstable           | the unversioned name       |
| in development, or of an interface that was never frozen | any | its version in development |
| frozen                         | never frozen       | its version in development |
| frozen                         | frozen             | its latest frozen version  |

An import that names a version is used as written.

## Main definitions

* `Import.resolve`: the versioned name that one import stands for
* `Import.resolveAll`: the imports of an interface version, resolved
-/

namespace InterfacePlan.Import

/-- **The versioned name that an import stands for**, when `owner` at `version` imports
`imported`. -/
def resolve (owner : Interface) (version : String) (imported : Interface) (reference : String) :
    Except PlanError String :=
  if hasVersion reference then .ok reference
  else if imported.unstable then .ok imported.name
  -- An owner that was never frozen builds its version in development only, and an import that was
  -- never frozen has no latest version.
  else if owner.isNextVersion version || !owner.hasVersion || !imported.hasVersion then
    .ok (imported.versionedName imported.nextVersion)
  else imported.latestVersion.map imported.versionedName

/-- An import with the interface it refers to and the versioned name it stands for. -/
structure Resolved where
  interface : Interface
  name : String
  deriving DecidableEq, Inhabited

/-- Resolve an import of `owner` at `version`. -/
def resolveOne (r : Registry) (owner : Interface) (version reference : String) :
    Except PlanError Resolved := do
  let imported ← r.imported owner.name (split reference).1
  let name ← resolve owner version imported reference
  return ⟨imported, name⟩

/-- **The imports of `owner` at `version`, resolved**, in the order of their declaration. The
version has to be one that can be built. -/
def resolveAll (r : Registry) (owner : Interface) (version : String) :
    Except PlanError (List Resolved) :=
  if owner.allVersions.contains version then
    (owner.importsFor version).mapM (resolveOne r owner version)
  else .error (.unknownVersion owner.name version)

/-- The versioned names that the imports of `owner` at `version` stand for. -/
def names (r : Registry) (owner : Interface) (version : String) :
    Except PlanError (List String) :=
  (resolveAll r owner version).map fun imports => imports.map (·.name)

end InterfacePlan.Import
