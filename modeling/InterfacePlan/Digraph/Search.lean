import InterfacePlan.Digraph.Basic
/-!
# Depth-first search

## Main definitions

* `Digraph.visit`: the search from one node
* `Digraph.reaches`: whether a path of at least one edge leads from one node to another
* `Digraph.finishOrder`: the order in which the nodes of a graph are finished
* `Digraph.component`: the nodes that a node reaches and that reach it
* `Digraph.innermostCycle?`: the first component with a cycle that the search completes

A component is complete when the search finishes the last of its nodes. So the first component with
a cycle to be completed is that of the first node that lies on a cycle and is the last of its
component in finish order; no other component with a cycle can be reached from it.
-/

namespace InterfacePlan.Digraph

/-- The nodes that a search has met, and those that it has finished, the last ones first. -/
structure Search where
  met : List String := []
  finished : List String := []
  deriving DecidableEq, Inhabited

/-- **The search from a node**, deeper into the graph by at most `fuel` nodes. A node is finished
when everything behind its edges is. -/
def visit (g : Digraph) : Nat → String → Search → Search
  | 0, _, s => s
  | fuel + 1, n, s =>
    if n ∈ s.met then s
    else
      -- The node is met before its edges are followed, so a cycle does not lead into it again.
      let s := (g.successors n).foldl (fun s m => visit g fuel m s) { s with met := n :: s.met }
      { s with finished := n :: s.finished }

/-- The search from several nodes, one after the other. A path without repetitions is no longer
than the number of nodes, so the fuel never runs out. -/
def visitAll (g : Digraph) (ns : List String) (s : Search) : Search :=
  ns.foldl (fun s n => visit g (g.nodes.length + 1) n s) s

/-- The nodes to which paths of at least one edge lead from `n`. -/
def reachable (g : Digraph) (n : String) : List String := (visitAll g (g.successors n) {}).met

/-- Whether a path of at least one edge leads from `m` to `n`. -/
def reaches (g : Digraph) (m n : String) : Bool := (g.reachable m).contains n

/-- The nodes in the order in which a search of the whole graph finishes them. -/
def finishOrder (g : Digraph) : List String := (visitAll g g.nodes {}).finished.reverse

/-- The nodes that `n` reaches and that reach it, which it does when all edges are turned around. -/
def component (g : Digraph) (n : String) : List String :=
  let ahead := g.reachable n
  let behind := g.reversed.reachable n
  g.nodes.filter fun m => ahead.contains m && behind.contains m

/-- Whether an edge leads from one of some nodes to `n`. -/
def isEntered (g : Digraph) (sources : List String) (n : String) : Bool :=
  g.edges.any fun e => e.2 = n && sources.contains e.1

/-- The first of some nodes that lies on a cycle and shares no cycle with a later one. A cycle
through such a node enters it from a node that is not later, so the other nodes need no search. -/
def lastOnCycle? (g : Digraph) (earlier : List String) : List String → Option String
  | [] => none
  | n :: ns =>
    if g.isEntered (n :: earlier) n && g.reaches n n && !ns.any (g.component n).contains then some n
    else lastOnCycle? g (n :: earlier) ns

/-- **The first component with a cycle** that the search of the whole graph completes. -/
def innermostCycle? (g : Digraph) : Option (List String) :=
  (g.lastOnCycle? [] g.finishOrder).map g.component

end InterfacePlan.Digraph
