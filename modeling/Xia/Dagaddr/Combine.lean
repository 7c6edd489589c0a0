import Xia.Dagaddr.Graph

/-!
# The operators on graphs

`g * r` appends `r` to `g`: the nodes of `r` become new instances behind those of `g`, without a
dummy source, and every sink of `g` gets an edge to every source of `r`.  `g + r` merges `r` into
`g`: a node of `r` that `g` has already is not added again.

An entry -1 of `node_mapping` is `none`.
-/

namespace Xia

namespace Dagaddr

namespace Node

def isDummy (n : Node) : Bool := n.type = typeDummySource

end Node

namespace Graph

/-- The nodes of `r` in `merge_graph`, one after the other: the graph with them, and
`node_mapping`. -/
def mergeNodes (allowDuplicateNodes : Bool) :
    List Node → Graph × List (Option Nat) → Graph × List (Option Nat)
  | [], st => st
  | n :: ns, (g, mapping) =>
    -- the source of `r` does not go to the middle of the graph
    if allowDuplicateNodes && n.isDummy then
      mergeNodes allowDuplicateNodes ns (g, mapping ++ [none])
    else
      let (idx, g) := g.addNode n allowDuplicateNodes
      mergeNodes allowDuplicateNodes ns (g, mapping ++ [some idx])

def mergeEdge (mapping : List (Option Nat)) (fromId : Nat) (g : Graph) (toId : Nat) :
    Result Graph := do
  let a ← inBounds mapping[fromId]?.join
  let b ← inBounds mapping[toId]?.join
  g.addEdge a b

def mergeEdgesOf (r : Graph) (allowDuplicateNodes : Bool) (mapping : List (Option Nat)) (g : Graph)
    (fromId : Nat) : Result Graph := do
  let n ← inBounds r.nodes[fromId]?
  if allowDuplicateNodes && n.isDummy then return g
  else (r.outOf fromId).foldlM (mergeEdge mapping fromId) g

/-- `merge_graph`: the graph, and `node_mapping`. -/
def mergeGraph (g r : Graph) (allowDuplicateNodes : Bool) : Result (Graph × List (Option Nat)) := do
  let (g, mapping) := mergeNodes allowDuplicateNodes r.nodes (g, [])
  let g ← (List.range r.outEdges.length).foldlM (mergeEdgesOf r allowDuplicateNodes mapping) g
  return (g, mapping)

/-- `sinks` of `operator*=`. -/
def sinks (g : Graph) : List Nat := (List.range g.nodes.length).filter g.isSink

/-- The part of the loop over the sources of `r` in `operator*=` for the node `i`. -/
def pushSources (r : Graph) (sources : List Nat) (i : Nat) : List Nat :=
  if r.isSource i then
    if (r.nodes.getD i Node.dummySource).isDummy then
      (r.outOf i).foldl (fun v j => (pushBackUnique (· == ·) v j).2) sources
    else sources ++ [i]
  else sources

/-- `sources` of `operator*=`: a dummy source counts as its successors. -/
def sources (r : Graph) : List Nat := (List.range r.nodes.length).foldl r.pushSources []

def joinEdge (mapping : List (Option Nat)) (sink : Nat) (g : Graph) (source : Nat) :
    Result Graph := do
  let b ← inBounds mapping[source]?.join
  g.addEdge sink b

/-- `operator*`. -/
def mul (g r : Graph) : Result Graph := do
  let (k, mapping) ← g.mergeGraph r true
  g.sinks.foldlM (fun k sink => r.sources.foldlM (joinEdge mapping sink) k) k

/-- `operator+`. -/
def add (g r : Graph) : Result Graph := do
  let (k, _) ← g.mergeGraph r false
  return k

end Graph

end Dagaddr

end Xia
