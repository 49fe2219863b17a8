import InterfacePlan.Interface.Record
import InterfacePlan.Project.LoadError
import InterfacePlan.Registry.Basic
/-!
# Manifests

A manifest is a TOML document that declares the interfaces of a project, each in a table
`[[interface]]`.

## Main definitions

* `Manifest.fileName`: where a manifest is expected
* `Registry.ofManifest`: the registry that a manifest declares
* `Registry.load`: the registry of a manifest in a file
-/

namespace InterfacePlan

/-- The name of a manifest in its directory. -/
def Manifest.fileName : String := "Interfaces.toml"

/-- The interfaces that a manifest declares. In lists that stand for records only the leading values
count. -/
def Manifest.interfaces (d : Data) : Except DecodeError (List Interface) := do
  let fs ← Data.fieldsOf d
  Data.read fs "interface" (Data.asList (Interface.ofData .ignored)) []

/-- An interface whose directory, unless it is absolute, is one below `base`. -/
def Interface.anchored (base : Path) (i : Interface) : Interface :=
  if Path.isAbsolute i.moduleDir then i else { i with moduleDir := Path.join base i.moduleDir }

namespace Registry

/-- **The registry that a manifest declares.** The directories of interfaces are seen from
`base`. -/
def ofManifest (text : String) (base : Path) : Except LoadError Registry := do
  let interfaces ← Toml.decode text Manifest.interfaces
  (ofList (interfaces.map (Interface.anchored base))).mapError .defective

/-- **The registry of a manifest in a file.** The directories of interfaces are seen from the one
that holds the file. -/
def load (w : WorkingTree) (path : Path) : Except LoadError Registry := do
  let text ← w.readFor "failed to read interfaces" path
  (ofManifest text ((Path.parent? path).getD ".")).mapError
    (.within ("invalid interfaces manifest: " ++ path))

end Registry

end InterfacePlan
