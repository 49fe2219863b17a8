import InterfacePlan.Collection.SortedMap
import InterfacePlan.Module.Basic
import InterfacePlan.PlanError
/-!
# Module graphs

The build graph under construction. Modules are created once and never change. A library that has to
wait for its imports is declared as a placeholder, and later finished once. All names are unique
among modules and placeholders together, and the name of the library of a placeholder is checked
when the placeholder is declared.

## Main definitions

* `ModuleGraph`: modules and implementations by name
* `Implementation`: a placeholder, or the library that it became
* `ModuleGraph.tryCreate`, `ModuleGraph.tryDeclare`, `ModuleGraph.tryFinish`: the steps that change
  a graph, with the graph that they leave when they fail
* `ModuleGraph.create`, `ModuleGraph.declare`, `ModuleGraph.finish`: the graphs after these steps
* `ModuleGraph.merge`: the union with another graph, which keeps what it had moved when it fails
-/

namespace InterfacePlan

/-- **What stands under the name of a placeholder**: the placeholder, or the name of the library
that it became. -/
inductive Implementation where
  | declared (p : Placeholder)
  | finished (library : String)
  deriving DecidableEq, Inhabited

namespace Implementation

/-- Whether a placeholder became its library. -/
def isFinished : Implementation → Bool
  | declared _ => false
  | finished _ => true

/-- The name of the library that a placeholder waits to become. -/
def awaited? : Implementation → Option String
  | declared p => some p.library.name
  | finished _ => none

end Implementation

/-- **A module graph.** -/
structure ModuleGraph where
  modules : SortedMap String Module
  implementations : SortedMap String Implementation

namespace ModuleGraph

/-- The graph without modules and implementations. -/
def empty : ModuleGraph := ⟨∅, ∅⟩

instance : EmptyCollection ModuleGraph := ⟨empty⟩

instance : Inhabited ModuleGraph := ⟨empty⟩

/-- The module of a name. -/
def module? (g : ModuleGraph) (name : String) : Option Module := g.modules.get? name

/-- The state of the implementation of a name. -/
def state? (g : ModuleGraph) (name : String) : Option Implementation :=
  g.implementations.get? name

/-- The placeholder of a name, unless it is finished. -/
def placeholder? (g : ModuleGraph) (name : String) : Option Placeholder :=
  match g.state? name with
  | some (.declared p) => some p
  | _ => none

/-- Whether a name is used, by a module or by an implementation. -/
def uses (g : ModuleGraph) (name : String) : Bool :=
  g.modules.contains name || g.implementations.contains name

/-- The number of modules. -/
def size (g : ModuleGraph) : Nat := g.modules.size

/-- Whether there are neither modules nor implementations. -/
def isEmpty (g : ModuleGraph) : Bool := g.modules.isEmpty && g.implementations.isEmpty

/-- Whether every placeholder became its library. -/
def isComplete (g : ModuleGraph) : Bool := g.implementations.values.all Implementation.isFinished

/-- The names of the placeholders that are not finished, in order. -/
def pending (g : ModuleGraph) : List String :=
  (g.implementations.toList.filter fun e => !e.2.isFinished).map (·.1)

/-- Fails if a name is used. -/
def requireUnused (g : ModuleGraph) (name : String) : Except PlanError Unit :=
  if g.uses name then .error (.duplicateModule name) else .ok ()

/-- **Try to create a module.** The result is the graph that is left, and the error if there is one,
as for all steps below. -/
def tryCreate (g : ModuleGraph) (m : Module) : ModuleGraph × Except PlanError Unit :=
  match g.requireUnused m.name with
  | .error e => (g, .error e)
  | .ok () => ({ g with modules := g.modules.insert m.name m }, .ok ())

/-- **Try to declare a placeholder.** The name of its library has to be free, but is not taken. -/
def tryDeclare (g : ModuleGraph) (p : Placeholder) : ModuleGraph × Except PlanError Unit :=
  match g.requireUnused p.name with
  | .error e => (g, .error e)
  | .ok () =>
    match g.requireUnused p.library.name with
    | .error e => (g, .error e)
    | .ok () =>
      ({ g with implementations := g.implementations.insert p.name (.declared p) }, .ok ())

/-- **Try to finish a placeholder** with a library, which is created first. -/
def tryFinish (g : ModuleGraph) (name : String) (library : Module) :
    ModuleGraph × Except PlanError Unit :=
  match g.state? name with
  | none => (g, .error (.notAPlaceholder name))
  | some (.finished _) => (g, .error (.alreadyFinished name))
  | some (.declared _) =>
    match g.tryCreate library with
    | (g, .error e) => (g, .error e)
    | (g, .ok ()) =>
      ({ g with implementations := g.implementations.insert name (.finished library.name) }, .ok ())

/-- The graph that a step leaves, if the step succeeds. -/
def afterStep : ModuleGraph × Except PlanError Unit → Except PlanError ModuleGraph
  | (g, .ok ()) => .ok g
  | (_, .error e) => .error e

/-- **The graph with a module that is created.** -/
def create (g : ModuleGraph) (m : Module) : Except PlanError ModuleGraph :=
  afterStep (g.tryCreate m)

/-- **The graph with a placeholder that is declared.** -/
def declare (g : ModuleGraph) (p : Placeholder) : Except PlanError ModuleGraph :=
  afterStep (g.tryDeclare p)

/-- **The graph with a placeholder that is finished.** -/
def finish (g : ModuleGraph) (name : String) (library : Module) : Except PlanError ModuleGraph :=
  afterStep (g.tryFinish name library)

/-- Move modules into a graph, up to the first whose name is used. -/
def moveModules (g : ModuleGraph) : List (String × Module) → ModuleGraph × Except PlanError Unit
  | [] => (g, .ok ())
  | (name, m) :: ms =>
    match g.requireUnused name with
    | .error e => (g, .error e)
    | .ok () => moveModules { g with modules := g.modules.insert name m } ms

/-- Fails if the name of an implementation is used, or that of the library that it awaits. -/
def requireRoom (g : ModuleGraph) (name : String) (i : Implementation) : Except PlanError Unit := do
  g.requireUnused name
  match i.awaited? with
  | some library => g.requireUnused library
  | none => pure ()

/-- Move implementations into a graph, up to the first for which there is no room. -/
def moveImplementations (g : ModuleGraph) :
    List (String × Implementation) → ModuleGraph × Except PlanError Unit
  | [] => (g, .ok ())
  | (name, i) :: is =>
    match g.requireRoom name i with
    | .error e => (g, .error e)
    | .ok () =>
      moveImplementations { g with implementations := g.implementations.insert name i } is

/-- **Merge another graph into a graph**: first its modules, then its implementations, each in name
order. A merge that fails keeps what it has moved. -/
def merge (g other : ModuleGraph) : ModuleGraph × Except PlanError Unit :=
  match g.moveModules other.modules.toList with
  | (g, .error e) => (g, .error e)
  -- Libraries that implementations await must not collide with the modules just moved.
  | (g, .ok ()) => g.moveImplementations other.implementations.toList

end ModuleGraph

end InterfacePlan
