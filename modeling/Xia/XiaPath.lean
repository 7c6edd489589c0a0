import Xia.Xid
import Xia.Click.Basic

/-!
# XIA paths

`XiaPath` is the class `XIAPath`: a directed graph of XIDs with ordered edges, a source and a
destination node.  A node is named by its index (`handle_t`); the handle `_npos`, which the
class uses for "no node", is `none`.

The text form is either `RE` (a main path with fallbacks) or `DAG` (a node list with edge
indices), the wire form the node list of the XIA header.  The parsers reset the path before
they read, so after a failed parse the path holds the nodes read so far and neither a source nor
a destination.
-/

namespace Xia

/-- The number of edges of a node on the wire (`CLICK_XIA_XID_EDGE_NUM`). -/
abbrev xidEdgeNum : Nat := 4

/-- The index that marks an unused edge (`CLICK_XIA_XID_EDGE_UNUSED`). -/
def xidEdgeUnused : Nat := 127

/-- `struct click_xia_xid_edge`: a 7-bit index and the visited mark. -/
structure XidEdge where
  idx : Fin 128
  visited : Bool
deriving DecidableEq

structure XidNode where
  xid : Xid
  edge : Vector XidEdge xidEdgeNum
deriving DecidableEq

/-- A node of the graph.  The topological order that the class caches in the node is recomputed
by `topologicalOrdering`. -/
structure PathNode where
  xid : Xid
  edges : List Nat
deriving DecidableEq

structure XiaPath where
  nodes : List PathNode
  src : Option Nat
  dst : Option Nat
deriving DecidableEq

namespace XiaPath

/-- `reset`, and the default constructor. -/
def empty : XiaPath := ⟨[], none, none⟩

instance : Inhabited XiaPath := ⟨empty⟩

def destinationNode (p : XiaPath) : Option Nat := p.dst

/-- `xid(handle)`; the handle `_npos` lies outside every vector. -/
def xid (p : XiaPath) (node : Option Nat) : Result Xid :=
  inBounds ((node.bind fun i => p.nodes[i]?).map PathNode.xid)

/-- The XID of the destination node, `xid(destination_node())`. -/
def destXid (p : XiaPath) : Result Xid := p.xid p.destinationNode

/-- `next_nodes(handle)`. -/
def nextNodes (p : XiaPath) (node : Option Nat) : Result (List Nat) :=
  inBounds ((node.bind fun i => p.nodes[i]?).map PathNode.edges)

/-- The path made of the nodes read and of the source node that is stored behind them. -/
def ofNodes (nodes : List PathNode) (source : PathNode) : XiaPath where
  nodes := nodes ++ [source]
  src := some nodes.length
  dst := if nodes.length = 0 then none else some (nodes.length - 1)

/-- The edges of a node after the node `node` was erased: those to it are gone, and the nodes
behind it have moved up. -/
def eraseEdges (node : Nat) (edges : List Nat) : List Nat :=
  (edges.filter (· ≠ node)).map fun e => if node < e then e - 1 else e

/-- A handle after the node `node` was erased.  The handle 0 becomes `_npos` if it was the node. -/
def eraseHandle (node : Nat) : Option Nat → Option Nat
  | none => none
  | some i => if node ≤ i then (if i = 0 then none else some (i - 1)) else some i

def removeNode (p : XiaPath) (node : Option Nat) : Result XiaPath := do
  let i ← inBounds (node.filter (· < p.nodes.length))
  return {
    nodes := (p.nodes.eraseIdx i).map fun n => { n with edges := eraseEdges i n.edges }
    src := eraseHandle i p.src
    dst := eraseHandle i p.dst }

/-! ### Reading text -/

/-- The conversion of an `int` to a `handle_t` (`size_t`). -/
def handleOfInt (i : Int) : Nat := (i % 2 ^ 64).toNat

/-- Read at most `n` edge indices, up to a `-`.  At the end of the text a list of indices is
complete only in the last node (`atEnd`), which is the destination; the last component tells
whether the end was met. -/
def parseIndices (atEnd : Bool) : Nat → List Text → Option (List Nat × List Text × Bool)
  | 0, ws => some ([], ws, false)
  | _ + 1, [] => if atEnd then some ([], [], true) else none
  | n + 1, w :: ws =>
    if w = ['-'] then some ([], ws, false)
    else
      match cpInteger true w with
      | none => none
      | some i =>
        (parseIndices atEnd n ws).map fun (is, rest) => (handleOfInt i :: is, rest)

/-- The node loop of `parse_dag`.  The fuel is the number of words. -/
def parseDagNodes : Nat → List Text → List PathNode → Bool × List PathNode
  | 0, _, nodes => (true, nodes)
  | _ + 1, [], nodes => (true, nodes)
  | fuel + 1, w :: ws, nodes =>
    match Xid.parse w with
    | none => (false, nodes)
    | some xid =>
      match parseIndices true xidEdgeNum ws with
      | none => (false, nodes)
      | some (edges, rest, ended) =>
        let nodes := nodes ++ [⟨xid, edges⟩]
        if ended then (true, nodes) else parseDagNodes fuel rest nodes

/-- `parse_dag`, on the words of the text. -/
def parseDagWords (ws : List Text) : Bool × XiaPath :=
  match parseIndices false xidEdgeNum ws with
  | none => (false, empty)
  | some (edges, rest, _) =>
    match parseDagNodes rest.length rest [] with
    -- `_src` and `_dst` are set only at the end
    | (false, nodes) => (false, ⟨nodes, none, none⟩)
    | (true, nodes) => (true, ofNodes nodes ⟨Xid.zero, edges⟩)

/-- The XIDs of a fallback path, up to the closing parenthesis. -/
def parseFallback : List Text → Option (List Xid × List Text)
  | [] => none
  | w :: ws =>
    if w = [')'] then some ([], ws)
    else
      match Xid.parse w with
      | none => none
      | some x => (parseFallback ws).map fun (xs, rest) => (x :: xs, rest)

/-- The state of the loop of `parse_re`: `next` is `next_idx + 1`. -/
structure ReState where
  next : Nat
  prevXid : Xid
  srcNode : PathNode
  nodes : List PathNode

/-- One iteration of `parse_re`, after the fallback path and the next main node were read. -/
def ReState.push (st : ReState) (fallback : List Xid) (nextXid : Xid) : ReState :=
  let nextMain := st.next + fallback.length
  let node : PathNode :=
    ⟨st.prevXid, if fallback = [] then [nextMain] else [nextMain, st.next]⟩
  -- every fallback node links to the main node first, all but the last to the next fallback
  let fallbackNodes := fallback.mapIdx fun i x =>
    (⟨x, if i + 1 < fallback.length then [nextMain, st.next + i + 1] else [nextMain]⟩ : PathNode)
  { next := nextMain + 1
    prevXid := nextXid
    srcNode := if st.next = 0 then node else st.srcNode
    nodes := (if st.next = 0 then st.nodes else st.nodes ++ [node]) ++ fallbackNodes }

/-- The loop of `parse_re`.  The fuel is the number of words. -/
def parseReLoop : Nat → List Text → ReState → Bool × ReState
  | 0, _, st => (true, st)
  | _ + 1, [], st => (true, st)
  | fuel + 1, w :: ws, st =>
    match (if w = ['('] then parseFallback ws else some ([], w :: ws)) with
    | none => (false, st)
    | some (_, []) => (false, st)
    | some (fallback, head :: rest) =>
      match Xid.parse head with
      | none => (false, st)
      | some nextXid => parseReLoop fuel rest (st.push fallback nextXid)

/-- `parse_re`, on the words of the text. -/
def parseReWords (ws : List Text) : Bool × XiaPath :=
  match parseReLoop ws.length ws ⟨0, Xid.zero, ⟨Xid.zero, []⟩, []⟩ with
  | (false, st) => (false, ⟨st.nodes, none, none⟩)
  | (true, st) =>
    if st.next = 0 then (false, empty)
    else (true, ofNodes (st.nodes ++ [⟨st.prevXid, []⟩]) st.srcNode)

/-- `parse_re`: success, and the path afterwards. -/
def parseRe (s : Text) : Bool × XiaPath := parseReWords (cpSpacevec s)

/-- `parse`: the first word is the type of the text.  With any other first word the path is left
as it was. -/
def parse (p : XiaPath) (s : Text) : Bool × XiaPath :=
  match cpSpacevec s with
  | type :: ws =>
    if type = ['D', 'A', 'G'] then parseDagWords ws
    else if type = ['R', 'E'] then parseReWords ws
    else (false, p)
  | [] => (false, p)

/-! ### Order and validity -/

/-- Count the incoming edges; an edge to a node that does not exist is a write outside the
array. -/
def addIndegree (n : Nat) (indegree : List Int) : List Nat → Result (List Int)
  | [] => .ok indegree
  | e :: es =>
    if e < n then addIndegree n (indegree.modify e (· + 1)) es else .error .outOfBounds

/-- Take one edge into `e` away; a node without incoming edges goes on the stack. -/
def dropEdge : List Nat × List Int → Nat → List Nat × List Int
  | (stack, indegree), e =>
    let indegree := indegree.modify e (· - 1)
    (if indegree[e]? = some 0 then e :: stack else stack, indegree)

/-- The nodes in the order in which `topological_ordering` takes them off its stack. -/
def topologicalVisit (p : XiaPath) : Nat → List Nat → List Int → List Nat
  | 0, _, _ => []
  | _ + 1, [], _ => []
  | fuel + 1, i :: stack, indegree =>
    let edges := ((p.nodes[i]?).map PathNode.edges).getD []
    let (stack, indegree) := edges.foldl dropEdge (stack, indegree)
    i :: topologicalVisit p fuel stack indegree

/-- `topological_ordering`: the nodes in topological order, if all of them can be ordered. -/
def topologicalOrdering (p : XiaPath) : Result (Option (List Nat)) := do
  let n := p.nodes.length
  let indegree ← addIndegree n (List.replicate n 0) (p.nodes.flatMap PathNode.edges)
  let roots := (List.range n).filter fun i => indegree[i]? = some 0
  -- the roots are pushed in their order, so the last of them is on top
  let visited := topologicalVisit p n roots.reverse indegree
  return if visited.length = n then some visited else none

/-- The degree checks of `is_valid`, node by node, with the incoming edges counted so far. -/
def checkDegrees (p : XiaPath) (dst : Nat) :
    Nat → List PathNode → List Int → Result (Option (List Int))
  | _, [], indegree => .ok (some indegree)
  | i, node :: nodes, indegree =>
    if node.edges = [] ∧ i ≠ dst then .ok none
    else if xidEdgeNum < node.edges.length then .ok none
    else do
      let indegree ← addIndegree p.nodes.length indegree node.edges
      checkDegrees p dst (i + 1) nodes indegree

def isValid (p : XiaPath) : Result Bool :=
  match p.src, p.dst with
  | some src, some dst =>
    let n := p.nodes.length
    if n ≤ src ∨ n ≤ dst ∨ src = dst then .ok false
    else do
      match ← checkDegrees p dst 0 p.nodes (List.replicate n 0) with
      | none => return false
      | some indegree =>
        if (List.range n).any fun i => indegree[i]? = some 0 && i ≠ src then return false
        else return (← p.topologicalOrdering).isSome
  | _, _ => .ok false

/-! ### Writing text -/

/-- The fallback nodes from `node` on, if each of them links to `primary` first and the last one
to nothing else.  The fuel is the number of nodes. -/
def unparseFallback (p : XiaPath) (primary : Nat) : Nat → Nat → Result (Option Text)
  | 0, _ => .ok none
  | fuel + 1, node => do
    let n ← inBounds p.nodes[node]?
    match n.edges with
    | [e] => return if e = primary then some (n.xid.unparse ++ [' ']) else none
    | [e, next] =>
      if e = primary then
        return (← unparseFallback p primary fuel next).map fun s => n.xid.unparse ++ [' '] ++ s
      else return none
    | _ => return none

/-- The main loop of `unparse_re`, from the node `prev` on. -/
def unparseReLoop (p : XiaPath) : Nat → Nat → Result (Option Text)
  | 0, _ => .ok none
  | fuel + 1, prev => do
    let n ← inBounds p.nodes[prev]?
    match n.edges with
    -- a node without edges ends the path
    | [] => return some []
    | [primary] =>
      let m ← inBounds p.nodes[primary]?
      return (← unparseReLoop p fuel primary).map fun s => m.xid.unparse ++ [' '] ++ s
    | [primary, fallback] =>
      match ← unparseFallback p primary p.nodes.length fallback with
      | none => return none
      | some f =>
        let m ← inBounds p.nodes[primary]?
        return (← unparseReLoop p fuel primary).map fun s =>
          ['(', ' '] ++ f ++ [')', ' '] ++ m.xid.unparse ++ [' '] ++ s
    | _ => return none

/-- `unparse_re`: the empty text if the path has no `RE` form.  The last space is dropped. -/
def unparseRe (p : XiaPath) : Result Text := do
  if ← p.isValid then
    match p.src with
    | none => return []
    | some src => return ((← p.unparseReLoop (p.nodes.length + 1) src).getD []).dropLast
  else return ['(', 'i', 'n', 'v', 'a', 'l', 'i', 'd', ')']

/-! ### The wire form -/

def wireEdge (i : Nat) : XidEdge := ⟨Fin.ofNat 128 i, false⟩

/-- The edges of a node of the path in the node list: the position of the target, which is its
place in the topological order minus one because the source is not listed. -/
def wireEdges (order : List Nat) (edges : List Nat) : Result (Vector XidEdge xidEdgeNum) := do
  let idxs ← (edges.take xidEdgeNum).mapM fun e => do
    let i := order.idxOf e
    if 0 < i ∧ i < order.length then pure (i - 1) else throw .assertFailed
  return Vector.ofFn fun j => wireEdge (idxs.getD j xidEdgeUnused)

/-- `unparse_node` with room for the whole list, or `none` for a path that cannot be ordered.  The
edges of the source are stored in the last entry, whose XID is that of the destination. -/
def unparseNode (p : XiaPath) : Result (Option (List XidNode)) := do
  match ← p.topologicalOrdering with
  | none => return none
  | some [] => return some []
  | some (source :: order) =>
    let edgesOf (i : Nat) : List Nat := ((p.nodes[i]?).map PathNode.edges).getD []
    let xidOf (i : Nat) : Xid := ((p.nodes[i]?).map PathNode.xid).getD Xid.zero
    let nodes ← order.mapIdxM fun k i => do
      let edges ← wireEdges (source :: order)
        (edgesOf (if k + 1 = order.length then source else i))
      return (⟨xidOf i, edges⟩ : XidNode)
    return some nodes

def unparseNodeSize (p : XiaPath) : Nat := p.nodes.length - 1

/-- The graph node of an entry of the node list: its used edges. -/
def ofWireNode (n : XidNode) : PathNode :=
  ⟨n.xid, (n.edge.toList.filter fun e => e.idx.val ≠ xidEdgeUnused).map fun e => e.idx.val⟩

/-- `parse_node`: the last entry is split into the destination and the source. -/
def parseNode (nodes : List XidNode) : XiaPath :=
  match nodes.getLast? with
  | none => empty
  | some last =>
    ofNodes (nodes.dropLast.map ofWireNode ++ [⟨last.xid, []⟩]) ⟨Xid.zero, (ofWireNode last).edges⟩

/-- A decimal number, as `StringAccum` prints an `int`. -/
def decimal (n : Nat) : Text := (Nat.toDigits 10 n)

/-- The indices of a node in `unparse_dag`: a `-` ends a list of fewer than four. -/
def unparseIndices (edges : List XidEdge) : Text :=
  match edges with
  | [] => []
  | e :: es =>
    if e.idx.val ≠ xidEdgeUnused then decimal e.idx.val ++ [' '] ++ unparseIndices es
    else ['-', ' ']

def unparseDag (p : XiaPath) : Result Text := do
  if ← p.isValid then
    match ← p.unparseNode with
    | none => throw .assertFailed
    | some nodes =>
      let source := (nodes.getLast?.map fun n => unparseIndices n.edge.toList).getD []
      let main := nodes.mapIdx fun i n =>
        n.xid.unparse ++ [' '] ++
          if i + 1 < nodes.length then unparseIndices n.edge.toList else []
      return (source ++ main.flatten).dropLast
  else return ['(', 'i', 'n', 'v', 'a', 'l', 'i', 'd', ')']

def unparse (p : XiaPath) : Result Text := do
  let s ← p.unparseRe
  if s ≠ [] then return ['R', 'E', ' '] ++ s
  else return ['D', 'A', 'G', ' '] ++ (← p.unparseDag)

end XiaPath

end Xia
