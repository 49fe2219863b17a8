import InterfacePlan.Glob.Listing
import InterfacePlan.Interface.Versions
import InterfacePlan.Path.Relative
import InterfacePlan.Settings.Basic
/-!
# Selecting sources

The version in development is built from the current sources of an interface. A frozen version is
built from its snapshot, all interface definitions below the directory

    <module directory>/<snapshot directory>/<interface>/<version>

A snapshot without definitions belongs to a version that is about to be frozen: nothing is selected,
and nothing is built.

## Main definitions

* `Sources`: files and the root that they are included from
* `Sources.snapshotRoot`: where the snapshot of a version stands
* `Sources.select`: the sources of an interface version
-/

namespace InterfacePlan

/-- **Sources** of an interface version, as seen from the directory of the interface. -/
structure Sources where
  srcs : List String := []
  root : String := ""
  deriving DecidableEq, Inhabited

namespace Sources

/-- Whether there are no sources. -/
def isEmpty (s : Sources) : Bool := s.srcs.isEmpty

/-- The snapshot directory of a version, as seen from the directory of the interface. -/
def snapshotRoot (settings : Settings) (i : Interface) (version : String) : Path :=
  settings.apiDir ++ "/" ++ i.name ++ "/" ++ version

/-- The snapshot directory of a version. -/
def snapshotDir (settings : Settings) (i : Interface) (version : String) : Path :=
  Path.join i.moduleDir (snapshotRoot settings i version)

/-- The pattern of interface definitions below a snapshot directory. -/
def definitionPattern (settings : Settings) : String := "**/*." ++ settings.extension

/-- The definitions in the snapshot of a version, as seen from the directory of the interface. -/
def snapshot (settings : Settings) (w : WorkingTree) (i : Interface) (version : String) :
    Except PlanError Sources :=
  let directory := snapshotDir settings i version
  -- An empty snapshot is not an error, a missing one is.
  if !w.isDirectory directory then .error (.missingSnapshot i.name version directory)
  else match Glob.files w directory [definitionPattern settings] with
    | .error e => .error (.snapshotListing i.name version e.message)
    | .ok files => .ok {
        srcs := files.map fun file => Path.toSlash (Path.relativeTo i.moduleDir file)
        root := snapshotRoot settings i version }

/-- **The sources of an interface version.** -/
def select (settings : Settings) (w : WorkingTree) (i : Interface) (version : String) :
    Except PlanError Sources :=
  if i.isNextVersion version then .ok { srcs := i.srcs, root := i.localIncludeDir }
  else snapshot settings w i version

end Sources

end InterfacePlan
