import Xia.Dagaddr.Equiv.Numbering

/-!
# An address in a `sockaddr_x` and back

`fill_sockaddr` writes the nodes in the order of their numbers, and `from_sockaddr` reads them in
this order and adds the source at the end.  So a graph that is written and read again is the same
graph, renumbered (`sockaddr_roundTrip`).
-/

namespace Xia

open List hiding Vector
open Result

namespace Dagaddr

namespace Graph

variable {g : Graph} {source sink : Nat}

/-! ### What is written -/

def packEdges (es : List Nat) : Vector UInt8 edgesMax :=
  Vector.ofFn fun j => ((es[j.val]?).map UInt8.ofNat).getD edgeUnused

theorem toList_packEdges {es : List Nat} (hlength : es.length ≤ edgesMax) : (packEdges es).toList =
      es.map UInt8.ofNat ++ List.replicate (edgesMax - es.length) edgeUnused := by
  refine ext_getElem (by simp [hlength]) fun j hj _ => ?_
  rw [Vector.length_toList] at hj
  rw [Vector.getElem_toList]
  unfold packEdges
  rw [Vector.getElem_ofFn]
  by_cases hes : j < es.length
  · simp [hes]
  · rw [getElem_append_right (by simpa using hes)]
    simp [hes]

theorem usedEdges_packEdges {es : List Nat} (hlength : es.length ≤ edgesMax)
    (hes : ∀ e ∈ es, e < 127) :
    ((packEdges es).toList.filter (· ≠ edgeUnused)).map UInt8.toNat = es := by
  have hnat {e : Nat} (he : e < 127) : (UInt8.ofNat e).toNat = e :=
    UInt8.toNat_ofNat_of_lt (he.trans (by decide))
  have hused : (es.map UInt8.ofNat).filter (· ≠ edgeUnused) = es.map UInt8.ofNat := by
    refine filter_eq_self.2 fun b hb => ?_
    obtain ⟨e, he, rfl⟩ := mem_map.1 hb
    refine decide_eq_true fun heq => ?_
    have hlt := hes e he
    rw [← hnat hlt, heq] at hlt
    exact absurd hlt (by decide)
  rw [toList_packEdges hlength, filter_append, hused, filter_replicate_of_neg (by simp),
    append_nil, map_map]
  calc es.map (UInt8.toNat ∘ UInt8.ofNat)
      _ = es.map id := map_congr_left fun e he => hnat (hes e he)
      _ = es := map_id es

/-- The node whose entry has the number `k`. -/
def entryNode (g : Graph) (source sink k : Nat) : Nat :=
  g.indexFromDagStringIndex k source sink

/-- The node whose edges are in the entry with the number `k`. -/
def entrySource (g : Graph) (source sink k : Nat) : Nat :=
  if k + 2 = g.nodes.length then source else g.entryNode source sink k

def entry (g : Graph) (source sink k : Nat) : SockNode :=
  let n := g.nodes.getD (g.entryNode source sink k) Node.dummySource
  ⟨n.type, n.id, packEdges (g.edgeNumbers source sink (g.entrySource source sink k))⟩

theorem IsDag.sockNode_eq (h : g.IsDag source sink) (hne : source ≠ sink)
    (hsize : g.nodes.length ≤ 256) {k : Nat} (hk : k < g.nodes.length - 1) :
    g.sockNode k = .ok (g.entry source sink k) := by
  obtain ⟨hlt, hns, hback⟩ := h.indexInDagString_from hne hsize hk
  have hnode : g.nodes[g.entryNode source sink k]? =
      some (g.nodes.getD (g.entryNode source sink k) Node.dummySource) := by
    simp [entryNode, List.getD, hlt]
  have hget := h.getNode_eq hsize hnode hns hne
  have hout := h.getOutEdges_eq hsize hne hlt hns
  have hnum := numNodes_eq (by omega : 0 < g.nodes.length) hsize
  rw [entryNode, hback] at hget
  rw [hback] at hout
  have hedges : g.sockEdges k = .ok (g.edgeNumbers source sink (g.entrySource source sink k)) := by
    unfold sockEdges entrySource
    by_cases hlast : k + 2 = g.nodes.length
    · rw [if_pos (by omega), if_pos hlast, h.getOutEdges_source]
    · rw [if_neg (by omega), if_neg hlast, hout]
      rfl
  rw [sockNode, hget, ok_bind, hedges]
  rfl

theorem fillStep_loop {m : Nat} (hm : m ≤ nodesMax) {t : Nat → SockNode}
    (ht : ∀ k < m, g.sockNode k = .ok (t k)) (s : Sockaddr) :
    ∃ s', (List.range m).foldlM g.fillStep s = .ok s' ∧ s'.count = s.count ∧
      ∀ k < m, s'.addr[k]? = some (t k) := by
  induction m with
  | zero => exact ⟨s, rfl, rfl, fun k hk => absurd hk (Nat.not_lt_zero k)⟩
  | succ m ih =>
    obtain ⟨s', hloop, hcount, haddr⟩ := ih (by omega) fun k hk => ht k (by omega)
    have hlt : m < nodesMax := hm
    refine ⟨{ s' with addr := s'.addr.set m (t m) hlt }, ?_, hcount, fun k hk => ?_⟩
    · rw [foldlM_range_succ, hloop, ok_bind, fillStep, ht m (Nat.lt_succ_self m),
        ok_bind, dif_pos hlt]
      rfl
    · by_cases hkm : k = m
      · subst hkm
        simp [hlt]
      · dsimp only
        rw [Vector.getElem?_set_ne hlt (Ne.symm hkm)]
        exact haddr k (by omega)

/-! ### What is read -/

variable {libc : Libc} {s : Sockaddr} {t : Nat → SockNode}

/-- The node that is made for the entry `k`. -/
def sockMade (libc : Libc) (t : Nat → SockNode) (k : Nat) : Node :=
  ⟨libc.new k, (t k).type, (t k).id⟩

theorem addSockNodes_eq {a len : Nat} (hs : ∀ k, a ≤ k → k < a + len → s.addr[k]? = some (t k))
    (h : g.WellFormed) (hlength : g.nodes.length = a)
    (hfresh : ∀ n ∈ g.nodes, ∀ k, a ≤ k → n.ptr ≠ libc.new k) (idxs : List UInt8) :
    addSockNodes libc s (List.range' a len) (g, idxs) =
      .ok (g.pushes ((List.range' a len).map (sockMade libc t)),
        idxs ++ (List.range' a len).map UInt8.ofNat) := by
  induction len generalizing a g idxs with
  | zero => simp [addSockNodes, pushes]
  | succ len ih =>
    have hnew : g.addNode (sockMade libc t a) false = (a, g.push (sockMade libc t a)) := by
      rw [← hlength]
      exact addNode_fresh h fun n hn => hfresh n hn _ hlength.ge
    rw [range'_succ, addSockNodes, hs a le_rfl (by omega)]
    simp only [inBounds, ok_bind]
    change addSockNodes libc s _ ((g.addNode (sockMade libc t a) false).2,
      idxs ++ [UInt8.ofNat (g.addNode (sockMade libc t a) false).1]) = _
    rw [hnew, ih (fun k hk hlt => hs k (by omega) (by omega)) (h.push _) (by simp [push, hlength])]
    · simp [pushes]
    · intro n hn k hk
      rcases mem_append.1 hn with hn | hn
      · exact hfresh n hn k (by omega)
      · rw [mem_singleton.1 hn]
        intro heq
        have := libc.new_injective heq
        omega

def sockNodes (libc : Libc) (t : Nat → SockNode) (m : Nat) : Graph :=
  (empty.pushes ((List.range m).map (sockMade libc t))).push Node.dummySource

def usedEdges (n : SockNode) : List Nat := (n.edge.toList.filter (· ≠ edgeUnused)).map UInt8.toNat

/-- The edges that are read from the entry `k` of `m`. -/
def sockLinks (t : Nat → SockNode) (m k : Nat) : List (Nat × Nat) :=
  (usedEdges (t k)).map ((if k + 1 = m then m else k), ·)

theorem foldlM_addSockEdge (a : Nat) (l : List UInt8) (k : Graph) : l.foldlM (addSockEdge a) k =
      ((l.filter (· ≠ edgeUnused)).map UInt8.toNat).foldlM (fun k e => k.addEdge a e) k := by
  induction l generalizing k with
  | nil => rfl
  | cons b l ih =>
    rw [foldlM_cons, addSockEdge]
    by_cases hb : b ≠ edgeUnused
    · rw [if_pos hb, filter_cons_of_pos (by simpa using hb), map_cons, foldlM_cons]
      exact congrArg _ (funext ih)
    · rw [if_neg hb, filter_cons_of_neg (by simpa using hb)]
      exact ih k

theorem nodes_sockNodes (m : Nat) :
    (sockNodes libc t m).nodes = (List.range m).map (sockMade libc t) ++ [Node.dummySource] := by
  simp [sockNodes, push, nodes_pushes, empty]

theorem outOf_sockNodes (m i : Nat) : (sockNodes libc t m).outOf i = [] := by
  rw [sockNodes, outOf_push, outOf_pushes]
  rfl

theorem proper_sockNodes (m : Nat) : (sockNodes libc t m).Proper where
  toWellFormed := (wellFormed_empty.pushes _).push _
  nodup := by simp [outOf_sockNodes]

theorem inside_sockLinks {m k : Nat} (hk : k < m) (hedges : ∀ e ∈ usedEdges (t k), e ≤ m) :
    (sockNodes libc t m).Inside (sockLinks t m k) := by
  have hlength : (sockNodes libc t m).nodes.length = m + 1 := by simp [nodes_sockNodes]
  intro e he
  obtain ⟨j, hj, rfl⟩ := mem_map.1 he
  rw [hlength]
  refine ⟨?_, Nat.lt_succ_of_le (hedges j hj)⟩
  dsimp only
  split <;> omega

/-- **The graph that is read**, if the edges lead to nodes that there are. -/
theorem fromSockaddr_eq_ok {m : Nat} (hcount : s.count = UInt8.ofNat m) (hm : m ≤ nodesMax)
    (hs : ∀ k < m, s.addr[k]? = some (t k)) : fromSockaddr libc s = .ok g ↔
      (∀ k < m, ∀ e ∈ usedEdges (t k), e ≤ m) ∧
        g = (sockNodes libc t m).links ((List.range m).flatMap (sockLinks t m)) := by
  have hm' : m ≤ 20 := hm
  have hmod : s.count.toNat = m := by
    rw [hcount]
    refine UInt8.toNat_ofNat_of_lt ?_
    change m < 256
    omega
  have hnodes : addSockNodes libc s (List.range m) (empty, []) =
      .ok (empty.pushes ((List.range m).map (sockMade libc t)),
        [] ++ (List.range m).map UInt8.ofNat) := by
    rw [range_eq_range']
    refine addSockNodes_eq (a := 0) (fun k _ hk => hs k (by omega)) wellFormed_empty rfl ?_ []
    simp [empty]
  rw [nil_append] at hnodes
  have hsource : (empty.pushes ((List.range m).map (sockMade libc t))).addNode
      Node.dummySource false = (m, sockNodes libc t m) := by
    rw [addNode_fresh (wellFormed_empty.pushes _), nodes_pushes]
    · simp [empty, sockNodes]
    · intro n hn
      rw [nodes_pushes, empty, nil_append] at hn
      obtain ⟨k, -, rfl⟩ := mem_map.1 hn
      exact libc.new_ne_zero k
  have hlength : (sockNodes libc t m).nodes.length = m + 1 := by simp [nodes_sockNodes]
  rw [fromSockaddr, hmod, hnodes, ok_bind]
  dsimp only
  have hrange : (∀ k < m, ∀ e ∈ usedEdges (t k), e ≤ m) ↔
      ∀ k ∈ List.range m, ∀ e ∈ usedEdges (t k), e ≤ m := by simp only [mem_range]
  rw [hsource, hrange]
  refine foldlM_links_iff (proper_sockNodes m).toWellFormed
    (fun k hk => inside_sockLinks (mem_range.1 hk)) fun k hk K hK hKnodes K' => ?_
  rw [mem_range] at hk
  have hfrom : (if k + 1 = m then m else k) < K.nodes.length := by
    rw [hKnodes, hlength]
    split <;> omega
  have hfromK : sockFrom s ((List.range m).map UInt8.ofNat) (UInt8.ofNat m) k =
      .ok (UInt8.ofNat (if k + 1 = m then m else k)) := by
    unfold sockFrom
    by_cases hlast : k + 1 = m
    · rw [if_pos (by omega), if_pos hlast]
      rfl
    · rw [if_neg (by omega), if_neg hlast]
      simp [hk, inBounds]
  have hnat : (UInt8.ofNat (if k + 1 = m then m else k)).toNat = if k + 1 = m then m else k := by
    refine UInt8.toNat_ofNat_of_lt ?_
    change _ < 256
    split <;> omega
  rw [addSockEdges, hs k hk]
  simp only [inBounds, ok_bind]
  rw [hfromK, ok_bind, hnat, foldlM_addSockEdge, ← usedEdges, foldlM_addEdge_from hK hfrom,
    hKnodes, hlength]
  simp only [Nat.lt_succ_iff]
  rfl

/-! ### There and back -/

theorem IsDag.usedEdges_entry (h : g.IsDag source sink) (hsize : g.nodes.length ≤ 21)
    (hdeg : ∀ i, (g.outOf i).length ≤ edgesMax) (k : Nat) : usedEdges (g.entry source sink k) =
      g.edgeNumbers source sink (g.entrySource source sink k) := by
  refine usedEdges_packEdges ?_ fun e he => ?_
  · rw [edgeNumbers, length_map]
    exact hdeg _
  · have hlt := h.mem_edgeNumbers he
    omega

theorem IsDag.targets_sockLinks (h : g.IsDag source sink) (hne : source ≠ sink)
    (hsize : g.nodes.length ≤ 21) (hdeg : ∀ i, (g.outOf i).length ≤ edgesMax) {i : Nat}
    (hi : i < g.nodes.length) :
    targets ((List.range (g.nodes.length - 1)).flatMap
      (sockLinks (g.entry source sink) (g.nodes.length - 1))) (g.number source sink i) =
        g.edgeNumbers source sink i := by
  set m := g.nodes.length - 1 with hm
  have hlt := h.source_lt
  have hlt' := h.sink_lt
  have htargets (k : Nat) : targets (sockLinks (g.entry source sink) m k)
      (g.number source sink i) = if (if k + 1 = m then m else k) = g.number source sink i then
        (g.edgeNumbers source sink (g.entrySource source sink k)).filter
          (· ≠ g.number source sink i) else [] := by
    rw [sockLinks, targets_map, h.usedEdges_entry hsize hdeg]
  have hfilter : (g.edgeNumbers source sink i).filter (· ≠ g.number source sink i) =
      g.edgeNumbers source sink i := by
    refine filter_eq_self.2 fun e he => decide_eq_true fun heq => ?_
    exact h.number_not_mem hne hi (heq ▸ he)
  rw [targets_flatMap]
  simp only [htargets]
  by_cases his : i = source
  · -- the edges of the source are in the last entry
    have hnum : g.number source sink i = m := if_pos his
    have hback : g.entrySource source sink (m - 1) = i := by
      rw [entrySource, if_pos (by omega), his]
    rw [flatMap_eq_of_unique nodup_range (a := m - 1) (mem_range.2 (by omega))]
    · rw [if_pos (by rw [if_pos (by omega), hnum]), hback, hfilter]
    · intro k hk hkm
      rw [mem_range] at hk
      rw [if_neg]
      rw [if_neg (by omega), hnum]
      omega
  · have hnum : g.number source sink i = g.indexInDagString i source sink := if_neg his
    have hnumlt := h.indexInDagString_lt hi his
    by_cases hisink : i = sink
    · -- no entry has edges from the sink
      have hlast : g.number source sink i = m - 1 := by
        rw [hnum, indexInDagString, if_pos hisink]
        omega
      have hnil : g.edgeNumbers source sink i = [] := by
        rw [edgeNumbers, hisink, h.outOf_sink, map_nil]
      rw [hnil, flatMap_eq_nil_iff]
      intro k hk
      rw [mem_range] at hk
      rw [if_neg]
      rw [hlast]
      split <;> omega
    · have hinner : g.number source sink i + 1 < m := by
        rw [hnum, indexInDagString, if_neg hisink]
        split_ifs <;> omega
      have hback : g.entrySource source sink (g.number source sink i) = i := by
        rw [entrySource, if_neg (by omega), entryNode, hnum]
        exact h.indexFromDagStringIndex_number hne (by omega) hi his
      rw [flatMap_eq_of_unique nodup_range (a := g.number source sink i) (mem_range.2 (by omega))]
      · rw [if_pos (if_neg (by omega)), hback, hfilter]
      · intro k hk hkm
        rw [mem_range] at hk
        rw [if_neg]
        split <;> omega

theorem IsDag.node_sockNodes (h : g.IsDag source sink) (hne : source ≠ sink)
    (hsize : g.nodes.length ≤ 256) {i : Nat} {n : Node} (hi : g.nodes[i]? = some n) :
    ∃ m, (sockNodes libc (g.entry source sink) (g.nodes.length - 1)).nodes[
      g.number source sink i]? = some m ∧ n.equalTo m = true := by
  have hlt := (List.getElem?_eq_some_iff.1 hi).1
  rw [nodes_sockNodes]
  by_cases his : i = source
  · have hnum : g.number source sink i = g.nodes.length - 1 := if_pos his
    refine ⟨Node.dummySource, ?_, ?_⟩
    · rw [hnum]
      simp
    · rw [his] at hi
      obtain ⟨htype, hid⟩ := Node.equalTo_iff.1 (h.dummy n hi)
      exact Node.equalTo_iff.2 ⟨htype.symm, hid.symm⟩
  · have hnum : g.number source sink i = g.indexInDagString i source sink := if_neg his
    have hnumlt := h.indexInDagString_lt hlt his
    refine ⟨sockMade libc (g.entry source sink) (g.number source sink i), ?_, ?_⟩
    · rw [hnum, getElem?_append_left (by simpa using hnumlt), getElem?_map, getElem?_range hnumlt]
      rfl
    · have hback := h.indexFromDagStringIndex_number hne hsize hlt his
      simp [sockMade, entry, entryNode, hnum, hback, hi, Node.equalTo]

/-- **An address that goes through a `sockaddr_x` is the same, renumbered.** -/
theorem sockaddr_roundTrip (libc : Libc) (s : Sockaddr) (h : g.IsDag source sink)
    (hpos : 2 ≤ g.nodes.length) (hsize : g.nodes.length ≤ nodesMax + 1)
    (hdeg : ∀ i, (g.outOf i).length ≤ edgesMax) :
    ∃ s' k f, g.fillSockaddr s = .ok s' ∧ fromSockaddr libc s' = .ok k ∧ Iso f g k := by
  have hsize' : g.nodes.length ≤ 21 := hsize
  have hne := h.ne hpos
  have hnum := numNodes_eq (by omega : 0 < g.nodes.length) (by omega)
  have hm : g.nodes.length - 1 ≤ nodesMax := Nat.sub_le_of_le_add hsize
  obtain ⟨s', hfill, hcount, haddr⟩ := fillStep_loop hm
    (fun k hk => h.sockNode_eq hne (by omega) hk)
    { s with family := afXia, count := UInt8.ofNat g.numNodes }
  rw [hnum] at hcount
  have hused : ∀ k < g.nodes.length - 1, ∀ e ∈ usedEdges (g.entry source sink k),
      e ≤ g.nodes.length - 1 := by
    intro k _ e he
    rw [h.usedEdges_entry hsize' hdeg] at he
    exact (h.mem_edgeNumbers he).le
  have hinside : (sockNodes libc (g.entry source sink) (g.nodes.length - 1)).Inside
      ((List.range (g.nodes.length - 1)).flatMap
        (sockLinks (g.entry source sink) (g.nodes.length - 1))) := by
    intro e he
    obtain ⟨k, hk, he⟩ := mem_flatMap.1 he
    rw [mem_range] at hk
    exact inside_sockLinks hk (hused k hk) e he
  refine ⟨s', _, g.number source sink, ?_, (fromSockaddr_eq_ok hcount hm haddr).2 ⟨hused, rfl⟩, ?_⟩
  · rw [fillSockaddr, hnum]
    rw [hnum] at hfill
    exact hfill
  · exact
      { length := by
          rw [nodes_links, nodes_sockNodes, length_append, length_map, length_range,
            length_singleton]
          omega
        lt := fun i hi => h.number_lt hi
        inj := fun i hi j hj => h.number_inj hne hi hj
        node := fun i n hi => by
          rw [nodes_links]
          exact h.node_sockNodes hne (by omega) hi
        edges := fun i hi => by
          rw [outOf_links (proper_sockNodes _).toWellFormed hinside,
            h.targets_sockLinks hne hsize' hdeg hi, outOf_sockNodes,
            pushAll_eq_append (h.nodup_edgeNumbers hne i)]
          rfl }

theorem sockaddr_roundTrip_fallback : fallbackAddress.IsDag 0 3 ∧
      ∃ s' k f, fallbackAddress.fillSockaddr default = .ok s' ∧ fromSockaddr default s' = .ok k ∧
        Iso f fallbackAddress k := by
  have hforward : fallbackAddress.IsForward 3 := by decide
  have hdag := hforward.isDag (by decide) (by decide)
  exact ⟨hdag, sockaddr_roundTrip default default hdag (by decide) (by decide) hforward.degree⟩

end Graph

end Dagaddr

end Xia
