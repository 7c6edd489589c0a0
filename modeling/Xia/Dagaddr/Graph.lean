import Xia.XiaPath

/-!
# Addresses in the API's library

The library `dagaddr` builds addresses as graphs.  A `Node` is a handle: copies of a node share one
container, and two nodes are equal (`operator==`) if their containers are the same one.  A `Graph`
has its nodes in a vector and for every node the indices of its successors and predecessors; the
order of the successors is their priority.

`Graph.dagString` is the text in which an address goes to the router.  There the source is not
numbered and the sink has the last number.
-/

namespace Xia

open List hiding Vector

namespace Dagaddr

def typeDummySource : UInt32 := 0xff

/-- The class `Node`: the address of the container, and what it contains. -/
structure Node where
  ptr : Nat
  type : UInt32
  id : Vector UInt8 xidIdLen
deriving DecidableEq

namespace Node

/-- `Node()`: all such nodes share the container `dummy_source_`, whose address is taken to be
zero. -/
def dummySource : Node := ⟨0, typeDummySource, Vector.replicate _ 0⟩

/-- `operator==`. -/
def same (a b : Node) : Bool := a.ptr = b.ptr

def equalTo (a b : Node) : Bool := a.type = b.type && a.id = b.id

def typeString (n : Node) : Text :=
  if n.type = Xid.typeAd then ['A', 'D']
  else if n.type = Xid.typeHid then ['H', 'I', 'D']
  else if n.type = Xid.typeCid then ['C', 'I', 'D']
  else if n.type = Xid.typeSid then ['S', 'I', 'D']
  else if n.type = Xid.typeIp then ['I', 'P']
  else if n.type = typeDummySource then ['S', 'O', 'U', 'R', 'C', 'E']
  else ['U', 'N', 'K', 'N', 'O', 'W', 'N']

def idString (n : Node) : Text := n.id.toList.flatMap Xid.hexByte

/-- `to_string`. -/
def toText (n : Node) : Text := n.typeString ++ [':'] ++ n.idString

end Node

structure Graph where
  nodes : List Node
  outEdges : List (List Nat)
  inEdges : List (List Nat)
deriving DecidableEq

/-- `vector_push_back_unique`: the index of the element, and the vector that has it. -/
def pushBackUnique {α : Type} (eq : α → α → Bool) (v : List α) (e : α) : Nat × List α :=
  match v.findIdx? (eq · e) with
  | some i => (i, v)
  | none => (v.length, v ++ [e])

namespace Graph

/-- `Graph()`. -/
def empty : Graph := ⟨[], [], []⟩

/-- `add_node`: the index of the node, and the graph that has it. -/
def addNode (g : Graph) (n : Node) (allowDuplicateNodes : Bool) : Nat × Graph :=
  let (idx, nodes) :=
    if allowDuplicateNodes then (g.nodes.length, g.nodes ++ [n])
    else pushBackUnique Node.same g.nodes n
  if g.outEdges.length ≤ idx then
    (idx, ⟨nodes, g.outEdges ++ [[]], g.inEdges ++ [[]]⟩)
  else (idx, { g with nodes })

/-- `Graph(Node)`. -/
def ofNode (n : Node) : Graph := (empty.addNode n false).2

/-- `add_edge`.  The vectors are indexed without a check. -/
def addEdge (g : Graph) (fromId toId : Nat) : Result Graph := do
  if fromId = toId then return g
  else
    let out ← inBounds g.outEdges[fromId]?
    let into ← inBounds g.inEdges[toId]?
    return { g with
      outEdges := g.outEdges.set fromId (pushBackUnique (· == ·) out toId).2
      inEdges := g.inEdges.set toId (pushBackUnique (· == ·) into fromId).2 }

/-- The successors of a node, in the order of their priority. -/
def outOf (g : Graph) (i : Nat) : List Nat := g.outEdges.getD i []

def inOf (g : Graph) (i : Nat) : List Nat := g.inEdges.getD i []

def isSource (g : Graph) (i : Nat) : Bool := g.inOf i = []

def isSink (g : Graph) (i : Nat) : Bool := g.outOf i = []

def indexInDagString (g : Graph) (index sourceIndex sinkIndex : Nat) : Nat :=
  if index = sinkIndex then g.nodes.length - 2
  else index - (if sourceIndex < index then 1 else 0) - (if sinkIndex < index then 1 else 0)

def outEdgesForIndex (g : Graph) (i sourceIndex sinkIndex : Nat) : Text :=
  (g.outOf i).flatMap fun j =>
    ' ' :: XiaPath.decimal (g.indexInDagString j sourceIndex sinkIndex)

/-- The last index with the property; `none` if nothing was found. -/
def lastIndex (n : Nat) (p : Nat → Bool) : Option Nat := (List.range n).reverse.find? p

def nodeText (g : Graph) (i : Nat) : Text := ((g.nodes[i]?).map Node.toText).getD []

/-- The end of a line: the list of indices is complete. -/
def endLine : Text := [' ', '-', ' ', '\n']

def dagString (g : Graph) : Text :=
  match lastIndex g.nodes.length g.isSource, lastIndex g.nodes.length g.isSink with
  | some source, some sink =>
    let inner := (List.range g.nodes.length).filter fun i => !(i == source || i == sink)
    ['D', 'A', 'G'] ++ g.outEdgesForIndex source source sink ++ endLine ++
      (inner.flatMap fun i => g.nodeText i ++ g.outEdgesForIndex i source sink ++ endLine) ++
      g.nodeText sink
  | _, _ => []

/-! ### The representation -/

/-- What `add_node` and `add_edge` keep: there are edges for every node, they lead to nodes that
exist, and the successors and the predecessors say the same. -/
structure WellFormed (g : Graph) : Prop where
  out_length : g.outEdges.length = g.nodes.length
  in_length : g.inEdges.length = g.nodes.length
  range : ∀ i, ∀ j ∈ g.outOf i, j < g.nodes.length
  mirror : ∀ i j, j ∈ g.outOf i ↔ i ∈ g.inOf j

theorem wellFormed_empty : empty.WellFormed where
  out_length := rfl
  in_length := rfl
  range := by simp [outOf, empty]
  mirror := by simp [outOf, inOf, empty]

theorem mem_pushBackUnique {v : List Nat} {e j : Nat} :
    j ∈ (pushBackUnique (· == ·) v e).2 ↔ j ∈ v ∨ j = e := by
  unfold pushBackUnique
  split
  · rename_i i hi
    obtain ⟨hlt, heq, -⟩ := findIdx?_eq_some_iff_getElem.1 hi
    have hmem : e ∈ v := by
      rw [← beq_iff_eq.1 heq]
      exact getElem_mem hlt
    exact ⟨.inl, fun h => h.elim id fun h => h ▸ hmem⟩
  · simp

section

variable {g g' : Graph}

def push (g : Graph) (n : Node) : Graph := ⟨g.nodes ++ [n], g.outEdges ++ [[]], g.inEdges ++ [[]]⟩

theorem getD_append_nil (l : List (List Nat)) (i : Nat) : (l ++ [[]]).getD i [] = l.getD i [] := by
  rcases Nat.lt_trichotomy i l.length with hi | hi | hi
  · simp [List.getD, getElem?_append_left hi]
  · simp [List.getD, hi]
  · simp [List.getD, getElem?_eq_none (show (l ++ [[]]).length ≤ i by simp; omega),
      getElem?_eq_none hi.le]

@[simp] theorem outOf_push (n : Node) (i : Nat) : (g.push n).outOf i = g.outOf i :=
  getD_append_nil g.outEdges i

@[simp] theorem inOf_push (n : Node) (i : Nat) : (g.push n).inOf i = g.inOf i :=
  getD_append_nil g.inEdges i

theorem addNode_true (h : g.WellFormed) (n : Node) :
    g.addNode n true = (g.nodes.length, g.push n) := by
  unfold Graph.addNode
  exact if_pos h.out_length.le

theorem addNode_false (h : g.WellFormed) (n : Node) : g.addNode n false =
      match g.nodes.findIdx? (Node.same · n) with
      | some i => (i, g)
      | none => (g.nodes.length, g.push n) := by
  have hout := h.out_length
  unfold Graph.addNode pushBackUnique
  cases hfind : g.nodes.findIdx? (Node.same · n) with
  | none =>
    dsimp only
    rw [if_neg Bool.false_ne_true]
    exact if_pos hout.le
  | some i =>
    have hi := (findIdx?_eq_some_iff_getElem.1 hfind).1
    dsimp only
    rw [if_neg Bool.false_ne_true]
    exact if_neg (by dsimp only; omega)

theorem addNode_cases (h : g.WellFormed) (n : Node) (dup : Bool) :
    (∃ i < g.nodes.length, g.addNode n dup = (i, g)) ∨
      g.addNode n dup = (g.nodes.length, g.push n) := by
  cases dup with
  | true => exact .inr (addNode_true h n)
  | false =>
    rw [addNode_false h]
    cases hfind : g.nodes.findIdx? (Node.same · n) with
    | none => exact .inr rfl
    | some i => exact .inl ⟨i, (findIdx?_eq_some_iff_getElem.1 hfind).1, rfl⟩

theorem WellFormed.push (h : g.WellFormed) (n : Node) : (g.push n).WellFormed where
  out_length := by simp [Graph.push, h.out_length]
  in_length := by simp [Graph.push, h.in_length]
  range := by
    intro i j hj
    rw [outOf_push] at hj
    have hlt := h.range i j hj
    simp only [Graph.push, length_append, length_singleton]
    omega
  mirror := by
    intro i j
    rw [outOf_push, inOf_push]
    exact h.mirror i j

/-- **An edge is entered at both its ends.** -/
theorem WellFormed.addEdge {a b : Nat} (h : g.WellFormed) (hadd : g.addEdge a b = .ok g') :
    g'.WellFormed := by
  unfold Graph.addEdge at hadd
  split at hadd
  · cases Result.pure_eq_ok.1 hadd
    exact h
  · simp only [Result.bind_eq_ok, inBounds_eq_ok, Result.pure_eq_ok] at hadd
    obtain ⟨out, hout, into, hinto, rfl⟩ := hadd
    have hb : b < g.nodes.length := h.in_length ▸ (List.getElem?_eq_some_iff.1 hinto).1
    have hmem (l : List (List Nat)) (k e i j : Nat) (v : List Nat) (hv : l[k]? = some v) :
        j ∈ (l.set k (pushBackUnique (· == ·) v e).2).getD i [] ↔
          j ∈ l.getD i [] ∨ (i = k ∧ j = e) := by
      obtain ⟨hk, rfl⟩ := List.getElem?_eq_some_iff.1 hv
      by_cases hik : i = k
      · subst hik
        simp [List.getD, hk, mem_pushBackUnique]
      · simp [List.getD, getElem?_set_ne (Ne.symm hik), hik]
    constructor
    · simp [h.out_length]
    · simp [h.in_length]
    · intro i j hj
      rcases (hmem _ _ _ _ _ _ hout).1 hj with hj | ⟨-, rfl⟩
      · exact h.range i j hj
      · exact hb
    · intro i j
      rw [outOf, inOf, hmem _ _ _ _ _ _ hout, hmem _ _ _ _ _ _ hinto, and_comm]
      exact or_congr_left (h.mirror i j)

end

end Graph

end Dagaddr

end Xia
