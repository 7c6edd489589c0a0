import Xia.Dagaddr.Equiv.Numbering
import Xia.Equiv.DagText
import Xia.Equiv.Path

/-!
# An address on its way from the API to the router

`Graph.dagString` writes an address and `XIAPath::parse` reads it.  `Graph.path` is the graph as a
path of the router, and the router should read this path, with the nodes renumbered as in the text.
`router_reads_iff` says that it does exactly if no node has four edges: `dag_string` ends every line
with a `-`, which `parse_dag` does not expect after the fourth number.
-/

namespace Xia

open List Option
open XiaPath (dashed lineWords parse xidOf_eq)

namespace Dagaddr

namespace Graph

variable {g : Graph} {source sink : Nat}

/-! ### The text -/

def xidAt (g : Graph) (i : Nat) : Xid :=
  ((g.nodes[i]?).map Node.xid).getD Xid.zero

def path (g : Graph) (source sink : Nat) : XiaPath where
  nodes := (List.range g.nodes.length).map fun i => ⟨g.xidAt i, g.outOf i⟩
  src := some source
  dst := some sink

/-- An address: the dummy is the only source, there is one sink besides it, there are no cycles and
not more edges and nodes than a header can have, and the nodes have the types of an address. -/
structure IsAddress (g : Graph) (source sink : Nat) : Prop extends g.HasEnds source sink where
  ne : source ≠ sink
  dummy : ∀ n, g.nodes[source]? = some n → n.type = typeDummySource
  degree : ∀ i, (g.outOf i).length ≤ xidEdgeNum
  size : g.nodes.length ≤ 128
  types : ∀ i n, g.nodes[i]? = some n → i ≠ source → n.type ∈ addressTypes

theorem typeString_eq {n : Node} (h : n.type ∈ addressTypes) :
    n.typeString = Xid.unparseType (htonl n.type) := by
  unfold Xid.unparseType Node.typeString
  simp only [htonl_htonl]
  simp only [addressTypes, mem_cons, not_mem_nil, or_false] at h
  rcases h with h | h | h | h <;> rw [h] <;> rfl

theorem IsAddress.named (h : g.IsAddress source sink) {i : Nat} (hi : i < g.nodes.length)
    (hne : i ≠ source) : Xid.Named (g.xidAt i).type ∧ g.nodeText i = (g.xidAt i).unparse := by
  have hnode : g.nodes[i]? = some g.nodes[i] := getElem?_eq_getElem hi
  have htype := h.types i _ hnode hne
  rw [xidAt, nodeText, hnode]
  simp only [map_some, getD_some]
  constructor
  · rw [Xid.Named, Node.xid, htonl_htonl]
    simp only [addressTypes, mem_cons, not_mem_nil, or_false] at htype ⊢
    tauto
  · rw [Node.toText, typeString_eq htype]
    rfl

/-- The nodes that are written between the source and the sink. -/
def lines (g : Graph) (source sink : Nat) : List PathNode :=
  (g.inner source sink).map fun i => ⟨g.xidAt i, g.edgeNumbers source sink i⟩

theorem spaced_flatMap {α : Type} (l : List α) (f : α → List (Text × Text)) :
    spaced (l.flatMap f) = l.flatMap fun a => spaced (f a) := by
  simp [spaced, flatMap_assoc]

theorem gap_flatMap {α : Type} (gap : Text) (f : α → Text) (l : List α) :
    gap ++ l.flatMap (fun a => f a ++ gap) = l.flatMap (fun a => gap ++ f a) ++ gap := by
  induction l with
  | nil => simp
  | cons a l ih =>
    rw [flatMap_cons, flatMap_cons, append_assoc (f a), ih]
    simp only [append_assoc]

def gapped (ws : List Text) : List (Text × Text) := ws.map fun w => ([' '], w)

/-- The words of the text, each with what stands before it. -/
def gapWords (g : Graph) (source sink : Nat) : List (Text × Text) :=
  gapped (dashed (g.edgeNumbers source sink source)) ++ ((g.lines source sink).flatMap fun node =>
      ([' ', '\n'], node.xid.unparse) :: gapped (dashed node.edges)) ++
    [([' ', '\n'], (g.xidAt sink).unparse)]

theorem IsAddress.outEdgesForIndex (h : g.IsAddress source sink) (i : Nat) :
    g.outEdgesForIndex i source sink ++ endLine =
      spaced (gapped (dashed (g.edgeNumbers source sink i))) ++ [' ', '\n'] := by
  have hnumber : g.edgeNumbers source sink i =
      (g.outOf i).map fun j => g.indexInDagString j source sink :=
    map_congr_left fun j hj => if_neg (h.ne_source hj)
  rw [hnumber, dashed, gapped, map_append, spaced_append, Graph.outEdgesForIndex]
  simp [spaced, flatMap_map, endLine]

/-- **The text of an address**: its words, and white space between them. -/
theorem IsAddress.dagString_eq (h : g.IsAddress source sink) :
    g.dagString = ['D', 'A', 'G'] ++ spaced (g.gapWords source sink) := by
  have hlines : (g.inner source sink).flatMap (fun i =>
        g.nodeText i ++ g.outEdgesForIndex i source sink ++ endLine) =
      (g.lines source sink).flatMap fun node =>
        node.xid.unparse ++ spaced (gapped (dashed node.edges)) ++ [' ', '\n'] := by
    rw [lines, flatMap_map]
    refine flatMap_congr fun i hi => ?_
    obtain ⟨hlt, hsource, -⟩ := mem_inner hi
    rw [append_assoc, h.outEdgesForIndex, (h.named hlt hsource).2, append_assoc]
  have hsink : g.nodeText sink = (g.xidAt sink).unparse := (h.named h.sink_lt h.ne.symm).2
  rw [dagString, lastIndex_eq h.source_lt h.isSource, lastIndex_eq h.sink_lt h.isSink]
  dsimp only
  rw [← inner, hlines, hsink, append_assoc _ (g.outEdgesForIndex _ _ _), h.outEdgesForIndex,
    gapWords, spaced_append, spaced_append, spaced_flatMap]
  -- the end of a line goes with the next line
  have hshift := gap_flatMap [' ', '\n'] (fun node : PathNode =>
    node.xid.unparse ++ spaced (gapped (dashed node.edges))) (g.lines source sink)
  simp only [append_assoc, spaced_cons] at hshift ⊢
  rw [← append_assoc [' ', '\n'] (List.flatMap _ _), hshift, append_assoc]
  simp [spaced]

theorem isGap_gapped {ws : List Text} (hws : ∀ w ∈ ws, IsWord w) :
    ∀ gw ∈ gapped ws, IsGap gw.1 ∧ IsWord gw.2 := by
  intro gw hgw
  obtain ⟨w, hw, rfl⟩ := List.mem_map.1 hgw
  exact ⟨isGap_space, hws w hw⟩

theorem isWord_dashed {edges : List Nat} : ∀ w ∈ dashed edges, IsWord w := by
  intro w hw
  rcases mem_append.1 hw with hw | hw
  · obtain ⟨e, -, rfl⟩ := List.mem_map.1 hw
    exact XiaPath.isWord_decimal e
  · rw [mem_singleton.1 hw]
    exact ⟨by decide, by decide⟩

theorem map_snd_gapped (ws : List Text) : (gapped ws).map Prod.snd = ws := by
  simp [gapped]

/-- **The words that the router finds in the text.** -/
theorem IsAddress.cpSpacevec_dagString (h : g.IsAddress source sink) :
    cpSpacevec g.dagString = ['D', 'A', 'G'] :: (dashed (g.edgeNumbers source sink source) ++
        ((g.lines source sink).flatMap lineWords ++ [(g.xidAt sink).unparse])) := by
  have hend : IsGap [' ', '\n'] := ⟨by decide, by decide⟩
  rw [h.dagString_eq, cpSpacevec_spaced ⟨by decide, by decide⟩]
  · simp [gapWords, map_snd_gapped, map_flatMap]
    rfl
  · intro gw hgw
    simp only [gapWords, mem_append, mem_flatMap, mem_cons, not_mem_nil, or_false] at hgw
    rcases hgw with (hgw | ⟨node, -, rfl | hgw⟩) | rfl
    · exact isGap_gapped isWord_dashed gw hgw
    · exact ⟨hend, node.xid.isWord_unparse⟩
    · exact isGap_gapped isWord_dashed gw hgw
    · exact ⟨hend, Xid.isWord_unparse _⟩

/-! ### What the router reads -/

theorem edgesOf_path (g : Graph) (source sink : Nat) {i : Nat} (hi : i < g.nodes.length) :
    (g.path source sink).nodes[i]? = some ⟨g.xidAt i, g.outOf i⟩ := by
  simp [path, hi]

theorem length_path : (g.path source sink).nodes.length = g.nodes.length := by
  simp [path]

/-- The router reads the text as the path of the graph, renumbered, and the path is valid. -/
def RouterReads (g : Graph) (source sink : Nat) : Prop :=
  ∀ p : XiaPath, ∃ q f, p.parse g.dagString = (true, q) ∧ q.isValid = .ok true ∧
    XiaPath.Iso f (g.path source sink) q

section

variable (h : g.IsAddress source sink)
include h

theorem IsAddress.edgesOf (i : Nat) : (g.path source sink).edgesOf i = g.outOf i := by
  by_cases hi : i < g.nodes.length
  · exact XiaPath.edgesOf_eq (edgesOf_path g source sink hi)
  · rw [h.outOf_of_le (by omega), XiaPath.edgesOf, getElem?_eq_none (by simp [path]; omega)]
    rfl

/-- **An address is a valid path.** -/
theorem IsAddress.valid : (g.path source sink).Valid source sink := by
  constructor
  · rfl
  · rfl
  · exact length_path ▸ h.source_lt
  · exact length_path ▸ h.sink_lt
  · exact h.ne
  · intro i j hj
    rw [h.edgesOf] at hj
    exact length_path ▸ h.range i j hj
  · simpa only [h.edgesOf, Acyclic] using h.acyclic
  · intro j hj
    rw [length_path] at hj
    simp only [h.edgesOf]
    rw [ne_eq, ← h.isSource j hj, isSource_iff h.toWellFormed, not_forall_not]
  · intro i hi
    rw [length_path] at hi
    rw [h.edgesOf]
    simpa [Graph.isSink] using h.isSink i hi
  · intro i
    rw [h.edgesOf]
    exact h.degree i

theorem IsAddress.iso : XiaPath.Iso (g.number source sink) (g.path source sink)
      (XiaPath.ofNodes (g.lines source sink ++ [⟨g.xidAt sink, []⟩])
        ⟨Xid.zero, g.edgeNumbers source sink source⟩) := by
  have hinner := h.length_inner h.ne
  have hlt := h.source_lt
  have hlt' := h.sink_lt
  have hne := h.ne
  have hsink : g.number source sink sink = g.nodes.length - 2 := by
    rw [number, if_neg h.ne.symm, indexInDagString, if_pos rfl]
  -- the nodes are stored in the order in which they are written
  have hnodes : g.lines source sink ++ [⟨g.xidAt sink, []⟩] =
      (g.inner source sink ++ [sink]).map fun i =>
        ⟨(g.path source sink).xidOf i, ((g.path source sink).edgesOf i).map
          (g.number source sink)⟩ := by
    rw [map_append, map_singleton, xidOf_eq (edgesOf_path g source sink hlt'), h.edgesOf,
      h.outOf_sink]
    refine congrArg₂ _ (map_congr_left fun i hi => ?_) rfl
    rw [xidOf_eq (edgesOf_path g source sink (mem_inner hi).1), h.edgesOf]
    rfl
  rw [hnodes, edgeNumbers, ← h.edgesOf]
  refine h.valid.iso_ofNodes ?_ ?_ (fun i hi hsource => ?_) ?_ Xid.zero
  · rw [length_append, length_singleton, hinner, length_path]
    omega
  · rw [length_append, length_singleton, hinner, number, if_pos rfl]
    omega
  · rw [length_path] at hi
    by_cases hisink : i = sink
    · rw [hisink, hsink, ← hinner]
      simp
    · have hget := getElem?_inner h.ne hi hsource hisink
      rw [number, if_neg hsource, getElem?_append_left (List.getElem?_eq_some_iff.1 hget).1, hget]
  · rw [hsink, length_append, length_singleton, hinner]

theorem IsAddress.small (i : Nat) : ∀ e ∈ g.edgeNumbers source sink i, e < 2 ^ 31 := by
  intro e he
  obtain ⟨j, hj, rfl⟩ := List.mem_map.1 he
  have hlt := h.iso.lt j (length_path ▸ h.range i j hj)
  have hsize := h.size
  rw [length_path] at hlt
  omega

theorem IsAddress.readable : ∀ node ∈ g.lines source sink, XiaPath.Legible node := by
  intro node hnode
  obtain ⟨i, hi, rfl⟩ := List.mem_map.1 hnode
  obtain ⟨hlt, hne, -⟩ := mem_inner hi
  exact ⟨(h.named hlt hne).1, h.small i⟩

end

/-- **The router reads an address exactly if no node has four edges.** -/
theorem router_reads_iff (h : g.IsAddress source sink) :
    g.RouterReads source sink ↔ ∀ i, (g.outOf i).length < xidEdgeNum := by
  have hparse (p : XiaPath) : p.parse g.dagString =
      XiaPath.parseDagWords (dashed (g.edgeNumbers source sink source) ++
        ((g.lines source sink).flatMap lineWords ++ [(g.xidAt sink).unparse])) := by
    rw [parse, h.cpSpacevec_dagString]
    rfl
  have hdeg (i : Nat) : (g.edgeNumbers source sink i).length = (g.outOf i).length :=
    length_map _
  constructor
  · intro hread
    by_contra hfull
    simp only [not_forall, not_lt] at hfull
    obtain ⟨i, hi⟩ := hfull
    have hfour := Nat.le_antisymm (h.degree i) hi
    have hlt : i < g.nodes.length := by
      by_contra hge
      rw [h.outOf_of_le (by omega)] at hfour
      cases hfour
    have hsink : i ≠ sink := by
      rintro rfl
      rw [h.outOf_sink] at hfour
      cases hfour
    -- the line of the node is the first one or one of the others
    have hline : (g.edgeNumbers source sink source).length = xidEdgeNum ∨
        ∃ node ∈ g.lines source sink, node.edges.length = xidEdgeNum := by
      by_cases hsource : i = source
      · exact .inl (by rw [hdeg, ← hsource, hfour])
      · refine .inr ⟨⟨g.xidAt i, g.edgeNumbers source sink i⟩, List.mem_map_of_mem ?_, ?_⟩
        · simp [inner, hlt, hsource, hsink]
        · rw [hdeg, hfour]
    have hfail := XiaPath.parseDagWords_full (x := g.xidAt sink) (h.small source)
      (by rw [hdeg]; exact h.degree source) h.readable (fun node hnode => ?_) hline
    · obtain ⟨q, f, hq, -⟩ := hread XiaPath.empty
      rw [← hparse XiaPath.empty, hq] at hfail
      cases hfail
    · obtain ⟨i, -, rfl⟩ := List.mem_map.1 hnode
      rw [hdeg]
      exact h.degree i
  · intro hlt p
    refine ⟨_, g.number source sink, ?_, XiaPath.isValid_iff.2 ⟨_, _, h.valid.iso h.iso⟩, h.iso⟩
    rw [hparse, XiaPath.parseDagWords_dashed (h.small source) (by rw [hdeg]; exact hlt source)
      h.readable (fun node hnode => ?_) (h.named h.sink_lt h.ne.symm).1]
    obtain ⟨i, -, rfl⟩ := List.mem_map.1 hnode
    rw [hdeg]
    exact hlt i

theorem IsForward.isAddress (h : g.IsForward sink) (hpos : 0 < sink) (hsize : sink < 128) :
    g.IsAddress 0 sink := by
  refine ⟨h.hasEnds, by omega, fun n hnode => ?_, h.degree, ?_, fun i n => h.mem_addressTypes⟩
  · have hdummy := h.dummy
    rwa [List.getD, hnode] at hdummy
  · rw [h.length.1]
    exact hsize

theorem router_reads_fallback :
    fallbackAddress.IsAddress 0 3 ∧ fallbackAddress.RouterReads 0 3 := by
  have haddress : fallbackAddress.IsAddress 0 3 :=
    IsForward.isAddress (by decide) (by decide) (by decide)
  refine ⟨haddress, (router_reads_iff haddress).2 fun i => ?_⟩
  match i with
  | 0 | 1 | 2 | 3 => decide
  | i + 4 => simp [outOf, fallbackAddress, xidEdgeNum]

def fourWays : Graph where
  nodes := [.dummySource, ⟨1, Xid.typeAd, .replicate _ 1⟩, ⟨2, Xid.typeHid, .replicate _ 2⟩,
    ⟨3, Xid.typeCid, .replicate _ 3⟩, ⟨4, Xid.typeSid, .replicate _ 4⟩]
  outEdges := [[4, 1, 2, 3], [4], [4], [4], []]
  inEdges := [[], [0], [0], [0], [0, 1, 2, 3]]

theorem not_routerReads_fourWays :
    fourWays.IsAddress 0 4 ∧ (XiaPath.empty.parse fourWays.dagString).1 = false ∧
      ¬ fourWays.RouterReads 0 4 := by
  have hparse : (XiaPath.empty.parse fourWays.dagString).1 = false := by decide +kernel
  refine ⟨IsForward.isAddress (by decide) (by decide) (by decide), hparse, fun hread => ?_⟩
  obtain ⟨q, f, hq, -⟩ := hread XiaPath.empty
  rw [hq] at hparse
  cases hparse

end Graph

end Dagaddr

end Xia
