import InterfacePlan.Digraph.Search
import InterfacePlan.Import.Resolve
/-!
# Import cycles

No interface version may import itself, be it through other ones.

## Main definitions

* `Import.graph`: the versioned names of a registry and the imports between them
* `Import.checkCycles`: the error of a registry with an import cycle
-/

namespace InterfacePlan.Import

/-- Add the imports of an interface version to a graph. -/
def addVersion (r : Registry) (i : Interface) (g : Digraph) (version : String) :
    Except PlanError Digraph :=
  (names r i version).map (g.linkAll (i.versionedName version))

/-- The graph of imports with all versions of an interface. -/
def addInterface (r : Registry) (g : Digraph) (i : Interface) : Except PlanError Digraph :=
  i.buildVersions.foldlM (addVersion r i) g

/-- **The import graph of a registry**: its nodes are versioned names, and an edge leads from each
version that can be built to the names that its imports stand for. -/
def graph (r : Registry) : Except PlanError Digraph := r.interfaces.foldlM (addInterface r) {}

/-- The names of a component in order, with the first one repeated at the end. -/
def cycleReport (component : List String) : List String :=
  let names := component.mergeSort fun a b => (compare a b).isLE
  names ++ names.head?.toList

/-- **The check for import cycles.** -/
def checkCycles (r : Registry) : Except PlanError Unit := do
  let g ← graph r
  match g.innermostCycle? with
  | some component => throw (.importCycle (cycleReport component))
  | none => pure ()

end InterfacePlan.Import
