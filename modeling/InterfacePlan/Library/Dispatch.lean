import InterfacePlan.Library.Managed
import InterfacePlan.Library.MemorySafe
import InterfacePlan.Library.Native
import InterfacePlan.ModuleGraph.Basic
/-!
# Dispatching requests

A request is dispatched to its backend when there are sources to generate from; the modules of the
answer are entered in the graph.

## Main definitions

* `Request.blueprint`, `Request.generatorName`: the answer of the backend, and the name of its
  source generator
* `ModuleGraph.install`: a graph with the modules of a blueprint
* `ModuleGraph.dispatch`: a graph after a request
-/

namespace InterfacePlan

/-- **The answer of the backend to a request.** -/
def Request.blueprint (settings : Settings) (r : Request) (sources : Sources) : Blueprint :=
  match r.backend with
  | .cpp => Native.cpp settings r sources
  | .ndk => Native.ndk settings r sources
  | .analyzer => Native.analyzer settings r sources
  | .java => Managed.java r sources
  | .rust => MemorySafe.rust settings r sources

/-- The name of the source generator that answers a request. -/
def Request.generatorName (r : Request) : String :=
  if r.backend = .analyzer then Native.analyzerSourceName r.interface else r.sourceName

theorem Request.blueprint_source_name (settings : Settings) (r : Request) (sources : Sources) :
    (r.blueprint settings sources).source.name = r.generatorName := by
  unfold blueprint generatorName
  cases h : r.backend <;> rfl

namespace ModuleGraph

/-- Try to enter a product: a library is declared as a placeholder, a tool is created. -/
def tryAddProduct (g : ModuleGraph) : Product → ModuleGraph × Except PlanError Unit
  | .library p => g.tryDeclare p
  | .tool m => g.tryCreate m

/-- The graph with a product that is entered. -/
def addProduct (g : ModuleGraph) (product : Product) : Except PlanError ModuleGraph :=
  afterStep (g.tryAddProduct product)

/-- **Enter the modules of a blueprint in a graph.** The result is the name of the product. When the
product fails, the source generator stays. -/
def install (g : ModuleGraph) (b : Blueprint) : ModuleGraph × Except PlanError String :=
  match g.tryCreate b.source with
  | (g, .error e) => (g, .error e)
  | (g, .ok ()) =>
    match b.product with
    | .error e => (g, .error e)
    | .ok product =>
      match g.tryAddProduct product with
      | (g, .error e) => (g, .error e)
      | (g, .ok ()) => (g, .ok product.name)

/-- **A graph after a request.** The result is the name of the product, or nothing when there are no
sources to generate from. Errors name the request. -/
def dispatch (settings : Settings) (w : WorkingTree) (g : ModuleGraph) (r : Request) :
    ModuleGraph × Except PlanError (Option String) :=
  match Sources.select settings w r.interface r.version with
  | .error e => (g, .error (r.fail e))
  | .ok sources =>
    if sources.isEmpty then (g, .ok none)
    else
      match g.install (r.blueprint settings sources) with
      | (g, .error e) => (g, .error (r.fail e))
      | (g, .ok name) => (g, .ok (some name))

end ModuleGraph

end InterfacePlan
