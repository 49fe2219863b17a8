import InterfacePlan.ModuleGraph.Record
import InterfacePlan.Plan.Basic
/-!
# Plans as records

## Main definitions

* `SkippedRequest.toData`, `Plan.toData`: the structured forms
-/

namespace InterfacePlan

/-- The record of a request without sources. -/
def SkippedRequest.toData (s : SkippedRequest) : Data :=
  .record [("interface", .text s.interface), ("version", .text s.version),
    ("backend", .text s.backend.tag), ("library", .text s.library)]

/-- **The record of a plan.** -/
def Plan.toData (p : Plan) : Data :=
  .record [("graph", p.graph.toData), ("skipped", .list (p.skipped.map SkippedRequest.toData))]

end InterfacePlan
