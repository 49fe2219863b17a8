import InterfacePlan.Import.Resolve
import InterfacePlan.ModuleGraph.Basic
/-!
# Completing libraries

A library links the libraries of the interfaces that its own interface imports. Which versions of
them it links is known once every interface is registered, so libraries are declared as placeholders
first and completed later.

## Main definitions

* `Placeholder.importedLibraries`: the libraries that a placeholder is going to link
* `ModuleKind.linking?`: a library with imported libraries among its dependencies
* `ModuleGraph.tryComplete`, `ModuleGraph.complete`: completing one placeholder, and the graph after
  it
* `ModuleGraph.completeAll`: completing all of them
-/

namespace InterfacePlan

/-- The name of an imported library, whose interface has to enable the backend. -/
def importedLibrary (owner : Interface) (backend : Backend) (i : Import.Resolved) :
    Except PlanError String :=
  if i.interface.enables backend then .ok (i.name ++ "-" ++ backend.text)
  else .error (.importBackendDisabled owner.name i.interface.name backend)

/-- **The libraries that a placeholder is going to link.** Its imports are resolved at the version
that it was requested for. -/
def Placeholder.importedLibraries (p : Placeholder) (r : Registry) :
    Except PlanError (List String) := do
  -- The owner is looked up again: a placeholder knows it by name only.
  let owner ← r.imported p.name p.interface
  let imports ← Import.resolveAll r owner p.version
  imports.mapM (importedLibrary owner p.backend)

/-- **A library with imported libraries among its dependencies.** A native library links them after
its own dependencies and exports them; other libraries link nothing else. Only libraries link
imports. -/
def ModuleKind.linking? (libraries : List String) : ModuleKind → Option ModuleKind
  | nativeLibrary p => some (nativeLibrary { p with
      sharedLibs := p.sharedLibs ++ libraries
      exportSharedLibHeaders := p.exportSharedLibHeaders ++ libraries
      mustUseVendorVariant := true })
  | managedLibrary p => some (managedLibrary { p with staticLibs := libraries })
  | memorySafeLibrary p => some (memorySafeLibrary { p with rustlibs := libraries })
  | sourceGenerator _ | analyzerBinary _ => none

/-- The library that a placeholder becomes. Errors of its imports name the request that the
placeholder answers. -/
def Placeholder.completed (p : Placeholder) (r : Registry) : Except PlanError Module :=
  match p.importedLibraries r with
  -- Imports are resolved after all requests were answered, so the request is named here again.
  | .error e => .error (e.inRequest p.interface p.version p.backend)
  | .ok libraries =>
    match p.library.kind.linking? libraries with
    | none => .error (.notAPlaceholder p.library.name)
    | some kind => .ok ⟨p.library.name, kind⟩

namespace ModuleGraph

/-- **Try to complete a placeholder.** The result is the graph that is left, and the name of the
library. -/
def tryComplete (r : Registry) (g : ModuleGraph) (name : String) :
    ModuleGraph × Except PlanError String :=
  match g.placeholder? name with
  | none => (g, .error (.notAPlaceholder name))
  | some p =>
    match p.completed r with
    | .error e => (g, .error e)
    | .ok library =>
      match g.tryFinish name library with
      | (g, .error e) => (g, .error e)
      | (g, .ok ()) => (g, .ok library.name)

/-- **The graph with a placeholder that is completed**, and the name of the library. -/
def complete (r : Registry) (g : ModuleGraph) (name : String) :
    Except PlanError (ModuleGraph × String) :=
  match g.tryComplete r name with
  | (_, .error e) => .error e
  | (g, .ok library) => .ok (g, library)

/-- What became of several placeholders: the graph, the libraries that they became, and the error
of the first one that could not be completed. -/
structure Completion where
  graph : ModuleGraph
  libraries : List String := []
  failure? : Option PlanError := none

/-- Complete placeholders one after the other, up to the first that fails. -/
def completeEach (r : Registry) (g : ModuleGraph) : List String → Completion
  | [] => { graph := g }
  | name :: names =>
    match g.tryComplete r name with
    | (g, .error e) => { graph := g, failure? := some e }
    | (g, .ok library) =>
      let rest := g.completeEach r names
      { rest with libraries := library :: rest.libraries }

/-- **Complete every pending placeholder**, in name order. -/
def completeAll (r : Registry) (g : ModuleGraph) : Completion := g.completeEach r g.pending

end ModuleGraph

end InterfacePlan
