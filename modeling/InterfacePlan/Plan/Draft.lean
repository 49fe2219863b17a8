import InterfacePlan.Journal
import InterfacePlan.Library.Dispatch
import InterfacePlan.Plan.Requests
/-!
# Drafts

The modules of one interface, in a graph of their own. Its libraries are placeholders still.

## Main definitions

* `SkippedRequest`: a request that is not answered because there are no sources
* `Draft`: the answers to the requests for one interface
* `Draft.ofInterface`: the draft of an interface, up to the first request that fails
-/

namespace InterfacePlan

/-- A request that is not answered, because its snapshot is still empty. -/
structure SkippedRequest where
  interface : String
  version : String
  backend : Backend
  /-- The name that the library would have had. -/
  library : String
  deriving DecidableEq, Inhabited

/-- What is recorded of a request without sources. -/
def Request.skipped (r : Request) : SkippedRequest where
  interface := r.interface.name
  version := r.version
  backend := r.backend
  library := r.libraryName

/-- **The answers to the requests for one interface.** -/
structure Draft where
  graph : ModuleGraph := ∅
  skipped : List SkippedRequest := []
  journal : Journal := []

namespace Draft

/-- What is told about a request that is answered, given the name of the product. -/
def answerEvents (r : Request) (product : String) : Journal :=
  [.created r.generatorName,
    if r.backend = .analyzer then .created product else .declared product,
    .assembled product]

/-- What is told about a request that fails: the source generator stays if it was entered. -/
def failureEvents (r : Request) (before after : ModuleGraph) : Journal :=
  if before.size < after.size then [.created r.generatorName] else []

/-- **The draft with one more request answered.** -/
def answer (settings : Settings) (w : WorkingTree) (d : Draft) (r : Request) :
    Draft × Except PlanError Unit :=
  match d.graph.dispatch settings w r with
  | (g, .ok (some product)) =>
    ({ d with graph := g, journal := d.journal ++ answerEvents r product }, .ok ())
  | (g, .ok none) =>
    ({ graph := g
       skipped := d.skipped ++ [r.skipped]
       journal := d.journal
         ++ [.withoutSources (r.interface.versionedName r.version) r.backend] }, .ok ())
  | (g, .error e) =>
    ({ d with graph := g, journal := d.journal ++ failureEvents r d.graph g }, .error e)

/-- The draft after several requests, up to the first that fails. -/
def answerAll (settings : Settings) (w : WorkingTree) (d : Draft) :
    List Request → Draft × Except PlanError Unit
  | [] => (d, .ok ())
  | r :: rs =>
    match d.answer settings w r with
    | (d, .error e) => (d, .error e)
    | (d, .ok ()) => d.answerAll settings w rs

/-- **The draft of an interface.** -/
def ofInterface (settings : Settings) (w : WorkingTree) (i : Interface) :
    Draft × Except PlanError Unit :=
  answerAll settings w {} (i.requests settings)

end Draft

end InterfacePlan
