/-!
# Directed graphs of names

Graphs that are built edge by edge. Nodes are numbered in the order in which they are first
mentioned, and a repeated edge counts once.

## Main definitions

* `Digraph`: nodes and edges
* `Digraph.mention`, `Digraph.link`: a graph with one more node, and with one more edge
* `Digraph.successors`: the nodes that edges lead to, those of later edges first
* `Digraph.reversed`: the graph with all edges turned around
-/

namespace InterfacePlan

/-- **A directed graph**: its nodes and its edges, each in the order in which they were added. -/
structure Digraph where
  nodes : List String := []
  edges : List (String × String) := []
  deriving DecidableEq, Inhabited

namespace Digraph

/-- The graph with a node, which is added behind the others if it is new. -/
def mention (g : Digraph) (n : String) : Digraph :=
  if n ∈ g.nodes then g else { g with nodes := g.nodes ++ [n] }

/-- Add an edge, unless it is there. -/
def link (g : Digraph) (source target : String) : Digraph :=
  let g := g.mention target
  if (source, target) ∈ g.edges then g else { g with edges := g.edges ++ [(source, target)] }

/-- The graph with edges from one node to several others. -/
def linkAll (g : Digraph) (source : String) (targets : List String) : Digraph :=
  targets.foldl (fun g target => g.link source target) (g.mention source)

/-- The nodes that edges from `n` lead to, those of later edges first. -/
def successors (g : Digraph) (n : String) : List String :=
  ((g.edges.filter (·.1 = n)).map (·.2)).reverse

/-- The graph with all edges turned around. -/
def reversed (g : Digraph) : Digraph := { g with edges := g.edges.map fun e => (e.2, e.1) }

end Digraph

end InterfacePlan
