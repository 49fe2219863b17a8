import InterfacePlan.Import.Cycle
import InterfacePlan.Library.Completion
import InterfacePlan.Plan.Draft
/-!
# Plans

A plan holds the modules of all interfaces. It is made in three steps:

1. every interface is drafted, in a graph of its own;
2. the drafts are gathered in name order, and import cycles are refused;
3. every placeholder is completed.

## Main definitions

* `Plan`: modules, and requests that were skipped
* `Plan.gather`: the plan of several drafts
* `Plan.run`: the plan of a registry, and what is told while it is made
* `Plan.ofRegistry`: the plan of a registry
* `Plan.linksToSkipped`: the libraries that link one whose request was skipped
-/

namespace InterfacePlan

/-- **A plan.** -/
structure Plan where
  graph : ModuleGraph := ∅
  skipped : List SkippedRequest := []

namespace Plan

/-- The plan with the draft of one more interface, or the error of the draft or of the merge. -/
def add (p : Plan) : Draft × Except PlanError Unit → Except PlanError Plan
  | (_, .error e) => .error e
  | (d, .ok ()) =>
    match p.graph.merge d.graph with
    -- What a merge has moved before it failed is given up together with the plan.
    | (_, .error e) => .error e
    | (g, .ok ()) => .ok { graph := g, skipped := p.skipped ++ d.skipped }

/-- **The plan of several drafts**, gathered one after the other. -/
def gather (drafts : List (Draft × Except PlanError Unit)) : Except PlanError Plan :=
  drafts.foldlM add {}

/-- The skipped libraries that a module links. -/
def skippedDependencies (p : Plan) (m : Module) : List String :=
  m.kind.dependencies.filter fun dependency => p.skipped.any fun s => s.library = dependency

/-- **The libraries that link a skipped one**, each with the one it links, in name order. -/
def linksToSkipped (p : Plan) : List (String × String) :=
  p.graph.modules.values.flatMap fun m => (p.skippedDependencies m).map fun d => (m.name, d)

/-- What is told about a plan that is complete, given the number of libraries completed. -/
def closingEvents (p : Plan) (libraries : Nat) : Journal :=
  p.linksToSkipped.map (fun link => .linksSkipped link.1 link.2)
    ++ [.planned p.graph.size libraries p.skipped.length]

/-- The drafts of all interfaces, in name order. -/
def drafts (settings : Settings) (w : WorkingTree) (r : Registry) :
    List (Draft × Except PlanError Unit) :=
  r.interfaces.map (Draft.ofInterface settings w)

/-- The plan of drafts, for a registry without import cycles. -/
def gatherAcyclic (r : Registry) (ds : List (Draft × Except PlanError Unit)) :
    Except PlanError Plan := do
  let p ← gather ds
  Import.checkCycles r
  return p

/-- A result, and what was told on the way to it. -/
structure Run where
  journal : Journal
  result : Except PlanError Plan

/-- **Planning.** Every interface is drafted, also when an earlier one fails. -/
def run (settings : Settings) (w : WorkingTree) (r : Registry) : Run :=
  let ds := drafts settings w r
  let drafted := .planning r.size :: ds.flatMap fun d => d.1.journal
  -- All drafts are made before the first error is looked for, so all of them are told about.
  match gatherAcyclic r ds with
  | .error e => ⟨drafted, .error e⟩
  | .ok p =>
    let completion := p.graph.completeAll r
    let completed := drafted ++ completion.libraries.map .created
    match completion.failure? with
    | some e => ⟨completed, .error e⟩
    | none =>
      let p := { p with graph := completion.graph }
      ⟨completed ++ p.closingEvents completion.libraries.length, .ok p⟩

/-- **The plan of a registry.** -/
def ofRegistry (settings : Settings) (w : WorkingTree) (r : Registry) : Except PlanError Plan :=
  (run settings w r).result

end Plan

end InterfacePlan
