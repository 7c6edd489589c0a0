import Xia.Equiv.Topology
import Xia.Packet

/-!
# Paths with renumbered nodes, and the wire form

`Iso f p q` says that `q` is the path `p` with its nodes renumbered by `f`; the XID of the source,
which is not part of an address, is left out.  A renumbered path is valid if the path is, and it has
the same text.

The node list of a valid path is read back as the path, renumbered (`Valid.iso_parseNode`): the
nodes stand in their topological order, the source behind them.
-/

namespace Xia

open List hiding Vector
open Function Option Result

namespace XiaPath

variable {p q : XiaPath} {src dst : Nat} {f : Nat → Nat}
variable {j i : Nat} {l : List Nat}

/-- The path `q` is `p` with its nodes renumbered. -/
structure Iso (f : Nat → Nat) (p q : XiaPath) : Prop where
  length : q.nodes.length = p.nodes.length
  lt : ∀ i < p.nodes.length, f i < p.nodes.length
  inj : ∀ i < p.nodes.length, ∀ j < p.nodes.length, f i = f j → i = j
  edges : ∀ i < p.nodes.length, q.edgesOf (f i) = (p.edgesOf i).map f
  xid : ∀ i < p.nodes.length, p.src ≠ some i → q.xidOf (f i) = p.xidOf i
  src : q.src = p.src.map f
  dst : q.dst = p.dst.map f

/-! ### Validity of a renumbered path -/

theorem surj_of_inj {n : Nat} (hlt : ∀ i < n, f i < n) (hinj : ∀ i < n, ∀ j < n, f i = f j → i = j)
    (hj : j < n) : ∃ i < n, f i = j := by
  have hmaps : Set.MapsTo f (Finset.range n) (Finset.range n) := by
    intro i hi
    simpa using hlt i (by simpa using hi)
  have hon : Set.InjOn f (Finset.range n) := by
    intro i hi j hj heq
    exact hinj i (by simpa using hi) j (by simpa using hj) heq
  obtain ⟨i, hi, heq⟩ := Finset.surjOn_of_injOn_of_card_le f hmaps hon le_rfl
    (show j ∈ (Finset.range n : Set Nat) by simpa using hj)
  exact ⟨i, by simpa using hi, heq⟩

theorem Iso.surj (h : Iso f p q) (hj : j < p.nodes.length) :
    ∃ i < p.nodes.length, f i = j := surj_of_inj h.lt h.inj hj

theorem Iso.mem_edgesOf (h : Iso f p q) {i' j' : Nat} (hj : j' ∈ q.edgesOf i') :
    ∃ i j, f i = i' ∧ f j = j' ∧ j ∈ p.edgesOf i := by
  have hi' : i' < p.nodes.length := h.length ▸ lt_of_mem_edgesOf hj
  obtain ⟨i, hi, rfl⟩ := h.surj hi'
  rw [h.edges i hi] at hj
  obtain ⟨j, hmem, rfl⟩ := List.mem_map.1 hj
  exact ⟨i, j, rfl, rfl, hmem⟩

/-- **A renumbered path is valid if the path is.** -/
theorem Valid.iso (hp : p.Valid src dst) (h : Iso f p q) : q.Valid (f src) (f dst) where
  src_eq := by rw [h.src, hp.src_eq, map_some]
  dst_eq := by rw [h.dst, hp.dst_eq, map_some]
  src_lt := h.length ▸ h.lt src hp.src_lt
  dst_lt := h.length ▸ h.lt dst hp.dst_lt
  ne heq := hp.ne (h.inj src hp.src_lt dst hp.dst_lt heq)
  inRange := by
    intro i' j' hj'
    obtain ⟨i, j, -, rfl, hj⟩ := h.mem_edgesOf hj'
    exact h.length ▸ h.lt j (hp.inRange i j hj)
  acyclic := by
    -- the rank of a node is that of the node it comes from
    obtain ⟨rank, hrank⟩ := hp.acyclic
    refine ⟨fun j => rank (Function.invFunOn f {i | i < p.nodes.length} j), fun i' j' hj' => ?_⟩
    have hinv : ∀ i < p.nodes.length, Function.invFunOn f {i | i < p.nodes.length} (f i) = i := by
      intro i hi
      have hex : ∃ a ∈ {i | i < p.nodes.length}, f a = f i := ⟨i, hi, rfl⟩
      exact h.inj _ (invFunOn_mem hex) i hi (invFunOn_eq hex)
    obtain ⟨i, j, rfl, rfl, hj⟩ := h.mem_edgesOf hj'
    dsimp only
    rw [hinv i (lt_of_mem_edgesOf hj), hinv j (hp.inRange i j hj)]
    exact hrank i j hj
  incoming := by
    intro j' hj'
    obtain ⟨j, hj, rfl⟩ := h.surj (h.length ▸ hj')
    constructor
    · rintro ⟨i', hi'⟩ heq
      obtain ⟨i, k, -, hk, hmem⟩ := h.mem_edgesOf hi'
      have hkj : k = j := h.inj k (hp.inRange i k hmem) j hj hk
      have hjsrc : j = src := h.inj j hj src hp.src_lt heq
      exact (hp.incoming j hj).1 ⟨i, hkj ▸ hmem⟩ hjsrc
    · intro hne
      obtain ⟨i, hi⟩ := (hp.incoming j hj).2 fun heq => hne (heq ▸ rfl)
      exact ⟨f i, by rw [h.edges i (lt_of_mem_edgesOf hi)]; exact List.mem_map_of_mem hi⟩
  outgoing := by
    intro i' hi'
    obtain ⟨i, hi, rfl⟩ := h.surj (h.length ▸ hi')
    rw [h.edges i hi, map_eq_nil_iff, hp.outgoing i hi]
    exact ⟨fun heq => heq ▸ rfl, fun heq => h.inj i hi dst hp.dst_lt heq⟩
  degree := by
    intro i'
    by_cases hi' : i' < p.nodes.length
    · obtain ⟨i, hi, rfl⟩ := h.surj hi'
      rw [h.edges i hi, length_map]
      exact hp.degree i
    · rw [edgesOf, getElem?_eq_none (by rw [h.length]; omega)]
      exact Nat.zero_le _

theorem Valid.iso_ofNodes (hp : p.Valid src dst) (hlen : l.length + 1 = p.nodes.length)
    (hsrc : f src = l.length) (hget : ∀ i < p.nodes.length, i ≠ src → l[f i]? = some i)
    (hdst : f dst + 1 = l.length) (x : Xid) :
    Iso f p (ofNodes (l.map fun i => ⟨p.xidOf i, (p.edgesOf i).map f⟩)
      ⟨x, (p.edgesOf src).map f⟩) := by
  have hlt : ∀ i < p.nodes.length, i ≠ src → f i < l.length := fun i hi hne =>
    (List.getElem?_eq_some_iff.1 (hget i hi hne)).1
  have hnode : ∀ i < p.nodes.length, i ≠ src →
      (ofNodes (l.map fun i => ⟨p.xidOf i, (p.edgesOf i).map f⟩)
        ⟨x, (p.edgesOf src).map f⟩).nodes[f i]? = some ⟨p.xidOf i, (p.edgesOf i).map f⟩ := by
    intro i hi hne
    rw [ofNodes, getElem?_append_left (by rw [length_map]; exact hlt i hi hne),
      getElem?_map, hget i hi hne]
    rfl
  have hsource : (ofNodes (l.map fun i => ⟨p.xidOf i, (p.edgesOf i).map f⟩)
      ⟨x, (p.edgesOf src).map f⟩).nodes[f src]? = some ⟨x, (p.edgesOf src).map f⟩ := by
    rw [ofNodes, hsrc]
    simp
  constructor
  · rw [ofNodes, length_append, length_map, length_singleton, hlen]
  · intro i hi
    by_cases hne : i = src
    · rw [hne, hsrc]
      omega
    · have := hlt i hi hne
      omega
  · intro i hi j hj heq
    by_cases hi' : i = src
    · by_cases hj' : j = src
      · rw [hi', hj']
      · have := hlt j hj hj'
        rw [← heq, hi', hsrc] at this
        omega
    · by_cases hj' : j = src
      · have := hlt i hi hi'
        rw [heq, hj', hsrc] at this
        omega
      · have hi := hget i hi hi'
        rw [heq, hget j hj hj', Option.some.injEq] at hi
        exact hi.symm
  · intro i hi
    by_cases hne : i = src
    · rw [hne, edgesOf_eq hsource]
    · rw [edgesOf_eq (hnode i hi hne)]
  · intro i hi hne
    rw [xidOf_eq (hnode i hi fun heq => hne (heq ▸ hp.src_eq))]
  · rw [hp.src_eq, map_some, hsrc, ofNodes, length_map]
  · rw [hp.dst_eq, map_some, ofNodes, length_map, if_neg (by omega), ← hdst, Nat.add_sub_cancel]

/-! ### The text of a renumbered path -/

theorem inBounds_nodes (hi : i < p.nodes.length) :
    inBounds p.nodes[i]? = .ok ⟨p.xidOf i, p.edgesOf i⟩ := by
  rw [getElem?_nodes hi]
  rfl

theorem Valid.src_ne (hp : p.Valid src dst) (hj : j ∈ p.edgesOf i) : p.src ≠ some j := by
  rw [hp.src_eq]
  rintro ⟨⟩
  exact (hp.incoming src hp.src_lt).1 ⟨i, hj⟩ rfl

theorem Iso.inBounds_nodes (h : Iso f p q) (hp : p.Valid src dst) (hj : j ∈ p.edgesOf i) :
    inBounds q.nodes[f j]? = .ok ⟨p.xidOf j, (p.edgesOf j).map f⟩ := by
  have hlt := hp.inRange i j hj
  rw [XiaPath.inBounds_nodes (h.length ▸ h.lt j hlt), h.edges j hlt, h.xid j hlt (hp.src_ne hj)]

theorem Iso.unparseFallback (h : Iso f p q) (hp : p.Valid src dst) {fuel primary node : Nat}
    (hprimary : primary < p.nodes.length) (hnode : node ∈ p.edgesOf i) :
    q.unparseFallback (f primary) fuel (f node) = p.unparseFallback primary fuel node := by
  induction fuel generalizing i node with
  | zero => rfl
  | succ fuel ih =>
    have hlt := hp.inRange i node hnode
    have heq : ∀ e ∈ p.edgesOf node, f e = f primary ↔ e = primary := fun e he =>
      ⟨h.inj e (hp.inRange node e he) primary hprimary, fun heq => heq ▸ rfl⟩
    rw [XiaPath.unparseFallback, XiaPath.unparseFallback, h.inBounds_nodes hp hnode,
      XiaPath.inBounds_nodes hlt, ok_bind, ok_bind]
    match hedges : p.edgesOf node with
    | [] => rfl
    | [e] => simp [heq e (by simp [hedges])]
    | [e, next] =>
      have hrest := ih (show next ∈ p.edgesOf node by simp [hedges])
      simp [heq e (by simp [hedges]), hrest]
    | _ :: _ :: _ :: _ => rfl

theorem Iso.unparseReLoop (h : Iso f p q) (hp : p.Valid src dst) {fuel : Nat}
    (hi : i < p.nodes.length) : q.unparseReLoop fuel (f i) = p.unparseReLoop fuel i := by
  induction fuel generalizing i with
  | zero => rfl
  | succ fuel ih =>
    rw [XiaPath.unparseReLoop, XiaPath.unparseReLoop, XiaPath.inBounds_nodes hi,
      XiaPath.inBounds_nodes (h.length ▸ h.lt i hi), h.edges i hi, ok_bind, ok_bind]
    -- the text of a node comes from the node before it, so the XID of the source is not read
    have hnext : ∀ e ∈ p.edgesOf i, e < p.nodes.length := hp.inRange i
    match hedges : p.edgesOf i with
    | [] => rfl
    | [e] =>
      have he : e ∈ p.edgesOf i := by simp [hedges]
      simp only [map_cons, map_nil]
      rw [h.inBounds_nodes hp he, XiaPath.inBounds_nodes (hnext e he), ih (hnext e he)]
      rfl
    | [e, g] =>
      have he : e ∈ p.edgesOf i := by simp [hedges]
      have hg : g ∈ p.edgesOf i := by simp [hedges]
      simp only [map_cons, map_nil]
      rw [h.inBounds_nodes hp he, XiaPath.inBounds_nodes (hnext e he), ih (hnext e he), h.length,
        h.unparseFallback hp (hnext e he) hg]
      rfl
    | _ :: _ :: _ :: _ => rfl

/-- **A renumbered path has the same text.** -/
theorem Iso.unparseRe (h : Iso f p q) (hp : p.Valid src dst) : q.unparseRe = p.unparseRe := by
  have hq := hp.iso h
  rw [XiaPath.unparseRe, XiaPath.unparseRe, isValid_iff.2 ⟨_, _, hp⟩, isValid_iff.2 ⟨_, _, hq⟩,
    hp.src_eq, hq.src_eq, h.length]
  simp only [ok_bind, h.unparseReLoop hp hp.src_lt]

/-! ### The wire form -/

def wireVector (p : XiaPath) (edges : List Nat) : Vector XidEdge xidEdgeNum :=
  Vector.ofFn fun j => wireEdge ((edges.map fun e => p.place e - 1).getD j xidEdgeUnused)

/-- The entry of a node in the node list; that of the destination has the edges of the source. -/
def wireEntry (p : XiaPath) (src dst i : Nat) : XidNode :=
  ⟨p.xidOf i, p.wireVector (p.edgesOf (if i = dst then src else i))⟩

theorem Valid.wireEdges (hp : p.Valid src dst) (i : Nat) :
    wireEdges p.order (p.edgesOf i) = .ok (p.wireVector (p.edgesOf i)) := by
  have hidx : ∀ e ∈ p.edgesOf i, (do
      let k := p.order.idxOf e
      if 0 < k ∧ k < p.order.length then pure (k - 1) else throw Fault.assertFailed :
        Result Nat) = .ok (p.place e - 1) := by
    intro e he
    have hpos := hp.place_lt he
    have hlt := hp.place_lt_length (hp.inRange i e he)
    rw [← hp.order_length] at hlt
    exact if_pos ⟨Nat.zero_lt_of_lt hpos, hlt⟩
  rw [XiaPath.wireEdges, take_of_length_le (hp.degree i), mapM_eq_ok hidx]
  rfl

/-- The edges of a node list entry: those that were written, and unused ones. -/
theorem toList_ofFn_wireEdge (hlen : l.length ≤ xidEdgeNum) :
    (Vector.ofFn fun j : Fin xidEdgeNum => wireEdge (l.getD j xidEdgeUnused)).toList =
      l.map wireEdge ++ List.replicate (xidEdgeNum - l.length) (wireEdge xidEdgeUnused) := by
  rw [Vector.toList_ofFn]
  match l, hlen with
  | [], _ | [_], _ | [_, _], _ | [_, _, _], _ | [_, _, _, _], _ => rfl

theorem idx_wireEdge (hi : i < xidEdgeUnused) : (wireEdge i).idx.val = i :=
  Nat.mod_eq_of_lt (by rw [xidEdgeUnused] at hi; omega)

theorem idx_wireEdge_unused : (wireEdge xidEdgeUnused).idx.val = xidEdgeUnused := by decide

theorem used_wireEdge (hl : ∀ i ∈ l, i < xidEdgeUnused) :
    ∀ e ∈ l.map wireEdge, decide (e.idx.val ≠ xidEdgeUnused) = true := by
  intro e he
  obtain ⟨i, hi, rfl⟩ := List.mem_map.1 he
  rw [idx_wireEdge (hl i hi)]
  exact decide_eq_true (hl i hi).ne

theorem map_idx_wireEdge (hl : ∀ i ∈ l, i < xidEdgeUnused) :
    (l.map wireEdge).map (fun e => e.idx.val) = l := by
  rw [List.map_map]
  exact (map_congr_left fun i hi => idx_wireEdge (hl i hi)).trans (List.map_id' l)

theorem usedEdges_ofFn (hlen : l.length ≤ xidEdgeNum) (hl : ∀ i ∈ l, i < xidEdgeUnused) :
    (((Vector.ofFn fun j : Fin xidEdgeNum => wireEdge (l.getD j xidEdgeUnused)).toList.filter
      fun e => e.idx.val ≠ xidEdgeUnused).map fun e => e.idx.val) = l := by
  rw [toList_ofFn_wireEdge hlen, filter_append, filter_eq_self.2 (used_wireEdge hl),
    filter_replicate_of_neg (by simp [idx_wireEdge_unused]), append_nil,
    map_idx_wireEdge hl]

def wireIndex (p : XiaPath) (src i : Nat) : Nat :=
  if i = src then p.nodes.length - 1 else p.place i - 1

namespace Valid

variable (hp : p.Valid src dst)
include hp

theorem ofWireNode (hlen : p.nodes.length ≤ xidEdgeUnused + 1)
    (x : Xid) (i : Nat) : ofWireNode ⟨x, p.wireVector (p.edgesOf i)⟩ =
      ⟨x, (p.edgesOf i).map fun e => p.place e - 1⟩ := by
  rw [XiaPath.ofWireNode, wireVector, usedEdges_ofFn]
  · rw [length_map]
    exact hp.degree i
  · intro k hk
    obtain ⟨e, he, rfl⟩ := List.mem_map.1 hk
    have hpos := hp.place_lt he
    have hlt := hp.place_lt_length (hp.inRange i e he)
    omega

theorem order_eq : ∃ inner, p.order = src :: (inner ++ [dst]) := by
  obtain ⟨rest, hrest⟩ := hp.order_eq_cons
  rcases eq_nil_or_concat rest with rfl | ⟨inner, last, rfl⟩
  · have hdst := hp.mem_order.2 hp.dst_lt
    rw [hrest, mem_singleton] at hdst
    exact absurd hdst.symm hp.ne
  · rw [concat_eq_append] at hrest
    refine ⟨inner, ?_⟩
    have hplace := hp.place_dst
    have hlen := hp.order_length
    have hget := hp.order_getElem? hp.dst_lt
    rw [hrest] at hlen hget
    simp only [length_cons, length_append, length_nil] at hlen
    rw [show p.place dst = inner.length + 1 by omega] at hget
    simp only [getElem?_cons_succ, getElem?_concat_length, some_inj] at hget
    rw [hrest, hget]

theorem nodup_order {inner : List Nat} (horder : p.order = src :: (inner ++ [dst])) :
    src ∉ inner ++ [dst] ∧ (inner ++ [dst]).Nodup ∧ ∀ i ∈ inner, i ≠ dst := by
  have hnodup := (visited_order hp.inRange).nodup
  rw [horder, nodup_cons] at hnodup
  refine ⟨hnodup.1, hnodup.2, ?_⟩
  rintro i hi rfl
  exact (nodup_append.1 hnodup.2).2.2 i hi i (mem_singleton_self i) rfl

theorem unparseNode : p.unparseNode = .ok (some (p.order.tail.map (p.wireEntry src dst))) := by
  obtain ⟨inner, horder⟩ := hp.order_eq
  obtain ⟨-, hnodup, -⟩ := hp.nodup_order horder
  have hentry : ∀ k i, (inner ++ [dst])[k]? = some i → (do
      let edges ← XiaPath.wireEdges p.order
        (p.edgesOf (if k + 1 = (inner ++ [dst]).length then src else i))
      return (⟨p.xidOf i, edges⟩ : XidNode) : Result XidNode) = .ok (p.wireEntry src dst i) := by
    intro k i hk
    obtain ⟨hlt, hget⟩ := List.getElem?_eq_some_iff.1 hk
    -- the last entry is that of the destination
    have hlast : k + 1 = (inner ++ [dst]).length ↔ i = dst := by
      have hdst : (inner ++ [dst])[inner.length] = dst := by simp
      constructor
      · intro heq
        obtain rfl : k = inner.length := by simpa using heq
        rw [← hget, hdst]
      · rintro rfl
        have hk : k = inner.length := (hnodup.getElem_inj_iff).1 (hget.trans hdst.symm)
        simp [hk]
    rw [if_congr hlast rfl rfl, hp.wireEdges]
    rfl
  rw [XiaPath.unparseNode, hp.topologicalOrdering, ok_bind, horder]
  dsimp only
  rw [← horder]
  have hmap := mapIdxM_eq_ok hentry
  unfold edgesOf xidOf at hmap
  rw [hmap, ok_bind, horder]
  rfl

/-- **The node list of a valid path.** -/
theorem wireNodes : p.wireNodes = .ok (p.order.tail.map (p.wireEntry src dst)) := by
  rw [XiaPath.wireNodes, hp.unparseNode]
  rfl

theorem parseNode_eq (hlen : p.nodes.length ≤ xidEdgeUnused + 1) :
    parseNode (p.order.tail.map (p.wireEntry src dst)) =
      ofNodes (p.order.tail.map fun i => ⟨p.xidOf i, (p.edgesOf i).map fun e => p.place e - 1⟩)
        ⟨Xid.zero, (p.edgesOf src).map fun e => p.place e - 1⟩ := by
  obtain ⟨inner, horder⟩ := hp.order_eq
  obtain ⟨-, -, hinner⟩ := hp.nodup_order horder
  have hdst : p.edgesOf dst = [] := (hp.outgoing dst hp.dst_lt).2 rfl
  have hlast : XiaPath.ofWireNode (p.wireEntry src dst dst) =
      ⟨p.xidOf dst, (p.edgesOf src).map fun e => p.place e - 1⟩ := by
    rw [wireEntry, if_pos rfl, hp.ofWireNode hlen]
  have hrest : inner.map (XiaPath.ofWireNode ∘ p.wireEntry src dst) =
      inner.map fun i => ⟨p.xidOf i, (p.edgesOf i).map fun e => p.place e - 1⟩ := by
    refine map_congr_left fun i hi => ?_
    rw [comp_apply, wireEntry, if_neg (hinner i hi), hp.ofWireNode hlen]
  rw [parseNode, horder, tail_cons, map_append, map_singleton,
    getLast?_concat, dropLast_concat, List.map_map, hrest]
  simp only [hlast, map_append, map_singleton, hdst, map_nil]
  rfl

theorem place_pos (hi : i < p.nodes.length) (hne : i ≠ src) : 0 < p.place i := by
  by_contra hzero
  refine hne (hp.place_inj hi ?_)
  have hsrc := hp.place_src
  omega

theorem map_wireIndex (i : Nat) :
    (p.edgesOf i).map (p.wireIndex src) = (p.edgesOf i).map fun e => p.place e - 1 := by
  refine map_congr_left fun e he => if_neg ?_
  rintro rfl
  exact (hp.incoming e hp.src_lt).1 ⟨i, he⟩ rfl

/-- **The node list of a valid path is read back as the path, renumbered.** -/
theorem iso_parseNode (hlen : p.nodes.length ≤ xidEdgeUnused + 1) :
    Iso (p.wireIndex src) p (parseNode (p.order.tail.map (p.wireEntry src dst))) := by
  have htail : p.order.tail.length + 1 = p.nodes.length := by
    have hpos := hp.src_lt
    rw [length_tail, hp.order_length]
    omega
  rw [hp.parseNode_eq hlen]
  simp only [← hp.map_wireIndex]
  refine hp.iso_ofNodes htail ?_ (fun i hi hne => ?_) ?_ Xid.zero
  · rw [wireIndex, if_pos rfl]
    omega
  · have hplace := hp.place_pos hi hne
    have hget := hp.order_getElem? hi
    rw [show p.place i = (p.place i - 1) + 1 by omega] at hget
    rw [wireIndex, if_neg hne, getElem?_tail, hget]
  · have hplace := hp.place_dst
    have hpos := hp.place_pos hp.dst_lt hp.ne.symm
    rw [wireIndex, if_neg hp.ne.symm]
    omega

theorem unparseRe_parseNode (hlen : p.nodes.length ≤ xidEdgeUnused + 1) {nodes : List XidNode}
    (hnodes : p.wireNodes = .ok nodes) : (parseNode nodes).unparseRe = p.unparseRe := by
  rw [hp.wireNodes, Except.ok.injEq] at hnodes
  subst hnodes
  exact (hp.iso_parseNode hlen).unparseRe hp

end Valid

end XiaPath

end Xia
