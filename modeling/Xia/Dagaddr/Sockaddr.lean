import Xia.Dagaddr.Construct

/-!
# Graphs as socket addresses

A `sockaddr_x` holds the nodes of an address but for the source, the sink at the end, with the
edges as numbers in this order.  The edges of the source are stored with the sink.

`Graph.getNode` and `Graph.getOutEdges` have the same numbers, and -1 for the source.  An index of
type `size_t` that was not found is `npos`.
-/

namespace Xia

namespace Dagaddr

/-- `std::size_t(-1)`. -/
def npos : Nat := 2 ^ 64 - 1

def edgesMax : Nat := 4

def edgeUnused : UInt8 := 127

def nodesMax : Nat := 20

def afXia : UInt16 := 40

structure SockNode where
  type : UInt32
  id : Vector UInt8 xidIdLen
  edge : Vector UInt8 edgesMax
deriving DecidableEq, Inhabited

structure Sockaddr where
  family : UInt16
  count : UInt8
  addr : Vector SockNode nodesMax
deriving Inhabited

namespace Graph

/-! ### Numbers -/

/-- `num_nodes`: the source is not counted. -/
def numNodes (g : Graph) : Nat := (g.nodes.length + 255) % 256

/-- The next `size_t`. -/
def sizeSucc (k : Nat) : Nat := (k + 1) % 2 ^ 64

def indexFromDagStringIndex (g : Graph) (dagStringIndex : Int) (sourceIndex sinkIndex : Nat) :
    Nat :=
  if dagStringIndex = -1 then sourceIndex
  else if dagStringIndex = (g.numNodes : Int) - 1 then sinkIndex
  else
    let realIndex := (dagStringIndex % 2 ^ 64).toNat
    if sourceIndex < sinkIndex then
      let realIndex := if sourceIndex ≤ realIndex then sizeSucc realIndex else realIndex
      if sinkIndex ≤ realIndex then sizeSucc realIndex else realIndex
    else
      let realIndex := if sinkIndex ≤ realIndex then sizeSucc realIndex else realIndex
      if sourceIndex ≤ realIndex then sizeSucc realIndex else realIndex

/-- `src_index`: the last source. -/
def srcIndex (g : Graph) : Nat := (lastIndex g.nodes.length g.isSource).getD npos

/-- `sink_index`: the last sink. -/
def sinkIndex (g : Graph) : Nat := (lastIndex g.nodes.length g.isSink).getD npos

def getNode (g : Graph) (i : Int) : Result Node :=
  inBounds g.nodes[g.indexFromDagStringIndex i g.srcIndex g.sinkIndex]?

def getOutEdges (g : Graph) (i : Int) : Result (List Nat) := do
  let realIndex :=
    if i = -1 then g.srcIndex else g.indexFromDagStringIndex i g.srcIndex g.sinkIndex
  let out ← inBounds g.outEdges[realIndex]?
  return out.map fun j => g.indexInDagString j g.srcIndex g.sinkIndex

/-- `replace_node_at`.  Here `i` is an index of the vector, and not a number. -/
def replaceNodeAt (g : Graph) (i : Int) (newNode : Node) : Result Graph :=
  if 0 ≤ i ∧ i < g.nodes.length then return { g with nodes := g.nodes.set i.toNat newNode }
  else throw .outOfBounds

/-! ### Writing -/

/-- The edges for the entry `i`: those of the source go to the last one. -/
def sockEdges (g : Graph) (i : Nat) : Result (List Nat) :=
  if (i : Int) = g.numNodes - 1 then g.getOutEdges (-1) else g.getOutEdges i

/-- The entry `i` that `fill_sockaddr` writes. -/
def sockNode (g : Graph) (i : Nat) : Result SockNode := do
  let node ← g.getNode i
  let outEdges ← g.sockEdges i
  return {
    type := node.type
    id := node.id
    edge := Vector.ofFn fun j => ((outEdges[j.val]?).map UInt8.ofNat).getD edgeUnused }

def fillStep (g : Graph) (s : Sockaddr) (i : Nat) : Result Sockaddr := do
  let node ← g.sockNode i
  if h : i < nodesMax then return { s with addr := s.addr.set i node h }
  else throw .outOfBounds

/-- `fill_sockaddr`.  The entries after the last node stay as they are. -/
def fillSockaddr (g : Graph) (s : Sockaddr) : Result Sockaddr :=
  (List.range g.numNodes).foldlM g.fillStep
    { s with family := afXia, count := UInt8.ofNat g.numNodes }

/-! ### Reading -/

/-- The nodes from the entry `i` on: the graph, and `graph_indices`. -/
def addSockNodes (libc : Libc) (s : Sockaddr) :
    List Nat → Graph × List UInt8 → Result (Graph × List UInt8)
  | [], st => .ok st
  | i :: is, (g, idxs) => do
    let node ← inBounds s.addr[i]?
    let (idx, g) := g.addNode ⟨libc.new i, node.type, node.id⟩ false
    addSockNodes libc s is (g, idxs ++ [UInt8.ofNat idx])

def addSockEdge (fromNode : Nat) (g : Graph) (toNode : UInt8) : Result Graph :=
  if toNode ≠ edgeUnused then g.addEdge fromNode toNode.toNat else return g

/-- `from_node` of the entry `i`. -/
def sockFrom (s : Sockaddr) (idxs : List UInt8) (srcIndex : UInt8) (i : Nat) : Result UInt8 :=
  if (i : Int) = s.count.toNat - 1 then return srcIndex else inBounds idxs[i]?

def addSockEdges (s : Sockaddr) (idxs : List UInt8) (srcIndex : UInt8) (g : Graph) (i : Nat) :
    Result Graph := do
  let node ← inBounds s.addr[i]?
  let fromNode ← sockFrom s idxs srcIndex i
  node.edge.toList.foldlM (addSockEdge fromNode.toNat) g

/-- `from_sockaddr`, on the empty graph. -/
def fromSockaddr (libc : Libc) (s : Sockaddr) : Result Graph := do
  let (g, idxs) ← addSockNodes libc s (List.range s.count.toNat) (empty, [])
  let (srcIndex, g) := g.addNode Node.dummySource false
  (List.range s.count.toNat).foldlM (addSockEdges s idxs (UInt8.ofNat srcIndex)) g

end Graph

end Dagaddr

end Xia
