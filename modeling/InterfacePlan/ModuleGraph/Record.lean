import InterfacePlan.Module.Record
import InterfacePlan.ModuleGraph.Basic
/-!
# Module graphs as records

## Main definitions

* `Implementation.toData`, `ModuleGraph.toData`: the structured forms
-/

namespace InterfacePlan

/-- The record of an implementation: its state, and the fields of the placeholder or the library. -/
def Implementation.toData : Implementation → Data
  | declared p => .record (("state", .text "declared") :: p.fields)
  | finished library => .record [("state", .text "finished"), ("library", .text library)]

/-- **The record of a graph**: modules and implementations, each by name and in name order. -/
def ModuleGraph.toData (g : ModuleGraph) : Data :=
  .record [
    ("modules", .record (g.modules.toList.map fun e => (e.1, e.2.toData))),
    ("implementations", .record (g.implementations.toList.map fun e => (e.1, e.2.toData)))]

end InterfacePlan
