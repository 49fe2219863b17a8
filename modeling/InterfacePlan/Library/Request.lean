import InterfacePlan.Interface.Versions
import InterfacePlan.Module.Basic
import InterfacePlan.Settings.Basic
import InterfacePlan.Sources
/-!
# Library requests

A request asks for the modules of an interface version for one backend. It is answered by a
blueprint: a source generator, and what is built from the generated sources.

## Main definitions

* `Request`: an interface version and a backend
* `Blueprint`, `Product`: the modules that answer a request
* `Request.libraryName`, `Request.sourceName`: the names of these modules
* `Request.sourceGenerator`: what the source generators of all backends have in common
-/

namespace InterfacePlan

/-- **A request for a library.** -/
structure Request where
  interface : Interface
  version : String
  backend : Backend
  /-- Whether the version is in development and differs from the latest frozen one. -/
  notFrozen : Bool := false
  /-- Why it has to be frozen, for messages of the source generator. -/
  requireFrozenReason : String := ""
  deriving DecidableEq, Inhabited

/-- What is built from generated sources: a library that waits for its imports, or a tool that is
complete. -/
inductive Product where
  | library (p : Placeholder)
  | tool (m : Module)
  deriving DecidableEq, Inhabited

namespace Product

/-- The name under which a product is entered in the graph. -/
def name : Product → String
  | library p => p.name
  | tool m => m.name

/-- The name of the module that a product finally is. -/
def moduleName : Product → String
  | library p => p.library.name
  | tool m => m.name

end Product

/-- **The answer to a request.** The source generator comes first, so it stays when there is no
product. -/
structure Blueprint where
  source : Module
  product : Except PlanError Product

namespace Request

/-- The name of the library that answers a request. -/
def libraryName (r : Request) : String :=
  r.interface.versionedName r.version ++ "-" ++ r.backend.text

/-- The name of its source generator. -/
def sourceName (r : Request) : String := r.libraryName ++ "-source"

/-- The properties that source generators of all backends have in common. -/
def sourceGenerator (r : Request) (sources : Sources) : SourceGenerator where
  srcs := sources.srcs
  root := sources.root
  imports := r.interface.importsFor r.version
  headers := r.interface.headers
  stability := r.interface.stability
  minSdkVersion := r.interface.minSdkFor r.backend
  lang := some r.backend
  baseName := r.interface.name
  version := r.interface.generatorVersion r.version
  unstable := r.interface.unstable
  notFrozen := r.notFrozen
  requireFrozenReason := r.requireFrozenReason
  flags := r.interface.generatorFlags r.version

/-- The placeholder of a library that answers a request. -/
def placeholder (r : Request) (kind : ModuleKind) : Placeholder :=
  .ofLibrary r.backend r.interface.name r.version ⟨r.libraryName, kind⟩

/-- An error that arose while a request was answered. -/
def fail (r : Request) (e : PlanError) : PlanError :=
  e.inRequest r.interface.name r.version r.backend

end Request

end InterfacePlan
