import Xia.Dagaddr.Equiv.Graph
import Xia.Dagaddr.Sockaddr

/-!
# The numbers of nodes

In the text of an address and in a socket address the source has no number and the sink has the last
one.  `indexInDagString` and `indexFromDagStringIndex` translate between the two numberings, and
they are inverse to each other.  `IsDag` is a graph that can be numbered: one source, one sink and
no cycle.
-/

namespace Xia

open List

namespace Dagaddr

namespace Graph

variable {g : Graph} {source sink : Nat}
variable {i : Nat}

/-! ### Numbers -/

/-- The nodes between the source and the sink, in the order of the text. -/
def inner (g : Graph) (source sink : Nat) : List Nat :=
  (List.range g.nodes.length).filter fun i => !(i == source || i == sink)

/-- The number of a node in the path that is read: the source comes last. -/
def number (g : Graph) (source sink i : Nat) : Nat :=
  if i = source then g.nodes.length - 1 else g.indexInDagString i source sink

def edgeNumbers (g : Graph) (source sink i : Nat) : List Nat :=
  (g.outOf i).map (g.number source sink)

theorem getElem?_filter_range {n : Nat} {p : Nat → Bool} (hi : i < n) (hp : p i = true) :
    ((List.range n).filter p)[(List.range i).countP p]? = some i := by
  obtain ⟨k, rfl⟩ : ∃ k, n = i + (k + 1) := ⟨n - i - 1, by omega⟩
  rw [range_add, range_succ_eq_map, map_cons, filter_append,
    getElem?_append_right (by rw [countP_eq_length_filter]), countP_eq_length_filter,
    Nat.sub_self, Nat.add_zero, filter_cons_of_pos hp, getElem?_cons_zero]

theorem countP_range (hne : source ≠ sink) (i : Nat) :
    (List.range i).countP (fun k => !(k == source || k == sink)) =
      i - (if source < i then 1 else 0) - (if sink < i then 1 else 0) := by
  have hcount : (List.range i).countP (fun k => !(k == source || k == sink)) +
      (if source < i then 1 else 0) + (if sink < i then 1 else 0) = i := by
    induction i with
    | zero => simp
    | succ i ih =>
      have hsucc (k : Nat) : (if k < i + 1 then 1 else 0) =
          (if k < i then 1 else 0) + if i = k then 1 else 0 := by
        split_ifs <;> omega
      rw [range_succ, countP_append, countP_singleton, hsucc, hsucc]
      by_cases hsource : i = source
      · simp only [hsource, BEq.rfl, Bool.true_or, Bool.not_true, Bool.false_eq_true, if_false,
          if_true, if_neg hne] at ih ⊢
        omega
      · by_cases hsink : i = sink
        · simp only [hsink, BEq.rfl, Bool.or_true, Bool.not_true, Bool.false_eq_true, if_false,
            if_true, if_neg hne.symm] at ih ⊢
          omega
        · simp only [hsource, hsink, beq_eq_false_iff_ne.2 hsource, beq_eq_false_iff_ne.2 hsink,
            Bool.or_false, Bool.not_false, if_true, if_false]
          omega
  omega

theorem getElem?_inner (hne : source ≠ sink) (hi : i < g.nodes.length) (hsource : i ≠ source)
    (hsink : i ≠ sink) : (g.inner source sink)[g.indexInDagString i source sink]? = some i := by
  rw [indexInDagString, if_neg hsink, ← countP_range hne]
  exact getElem?_filter_range hi (by simp [hsource, hsink])

theorem mem_inner (hi : i ∈ g.inner source sink) : i < g.nodes.length ∧ i ≠ source ∧ i ≠ sink := by
  simpa [inner] using hi

theorem numNodes_eq (hpos : 0 < g.nodes.length) (hsize : g.nodes.length ≤ 256) :
    g.numNodes = g.nodes.length - 1 := by
  unfold numNodes
  omega

theorem indexFromDagStringIndex_eq (hne : source ≠ sink) (hsize : g.nodes.length ≤ 256) {k : Nat}
    (hk : k + 2 < g.nodes.length) :
    g.indexFromDagStringIndex k source sink =
      if k < min source sink then k else if k + 1 < max source sink then k + 1 else k + 2 := by
  have hnum := numNodes_eq (by omega) hsize
  have hreal : ((k : Int) % 2 ^ 64).toNat = k := by omega
  have hsucc {j : Nat} (hj : j ≤ k + 1) : sizeSucc j = j + 1 := by
    unfold sizeSucc
    omega
  unfold indexFromDagStringIndex
  rw [if_neg (by omega), if_neg (by omega)]
  dsimp only
  rw [hreal, hsucc (Nat.le_succ k)]
  rcases Nat.lt_or_gt_of_ne hne with hlt | hlt
  · rw [if_pos hlt, min_eq_left hlt.le, max_eq_right hlt.le]
    by_cases h₁ : k < source
    · rw [if_pos h₁, if_neg (Nat.not_le.2 h₁), if_neg (by omega)]
    · rw [if_neg h₁, if_pos (Nat.not_lt.1 h₁), hsucc le_rfl]
      by_cases h₂ : k + 1 < sink
      · rw [if_pos h₂, if_neg (Nat.not_le.2 h₂)]
      · rw [if_neg h₂, if_pos (Nat.not_lt.1 h₂)]
  · rw [if_neg (by omega), min_eq_right hlt.le, max_eq_left hlt.le]
    by_cases h₁ : k < sink
    · rw [if_pos h₁, if_neg (Nat.not_le.2 h₁), if_neg (by omega)]
    · rw [if_neg h₁, if_pos (Nat.not_lt.1 h₁), hsucc le_rfl]
      by_cases h₂ : k + 1 < source
      · rw [if_pos h₂, if_neg (Nat.not_le.2 h₂)]
      · rw [if_neg h₂, if_pos (Nat.not_lt.1 h₂)]

theorem indexFromDagStringIndex_last (hpos : 2 ≤ g.nodes.length) (hsize : g.nodes.length ≤ 256) :
    g.indexFromDagStringIndex (g.nodes.length - 2 : Nat) source sink = sink := by
  have hnum := numNodes_eq (by omega) hsize
  unfold indexFromDagStringIndex
  rw [if_neg (by omega), if_pos (by omega)]

/-! ### Graphs that can be numbered -/

theorem lastIndex_eq {n k : Nat} {p : Nat → Bool} (hk : k < n) (h : ∀ i < n, p i = true ↔ i = k) :
    lastIndex n p = some k := by
  cases hfind : lastIndex n p with
  | none =>
    have hnone := find?_eq_none.1 hfind k (by simpa using hk)
    exact absurd ((h k hk).2 rfl) hnone
  | some j =>
    have hj : j < n := by simpa using mem_of_find?_eq_some hfind
    rw [(h j hj).1 (find?_some hfind)]

/-- A graph with one source, one sink and without cycles. -/
structure HasEnds (g : Graph) (source sink : Nat) : Prop extends g.WellFormed where
  source_lt : source < g.nodes.length
  sink_lt : sink < g.nodes.length
  isSource : ∀ i < g.nodes.length, g.isSource i = true ↔ i = source
  isSink : ∀ i < g.nodes.length, g.isSink i = true ↔ i = sink
  acyclic : g.Acyclic

namespace HasEnds

variable (h : g.HasEnds source sink)
include h

theorem ne_source {i j : Nat} (hj : j ∈ g.outOf i) : j ≠ source := by
  rintro rfl
  exact (isSource_iff h.toWellFormed).1 ((h.isSource j h.source_lt).2 rfl) i hj

theorem outOf_sink : g.outOf sink = [] := by
  simpa [Graph.isSink] using (h.isSink sink h.sink_lt).2 rfl

theorem length_inner (hne : source ≠ sink) : (g.inner source sink).length = g.nodes.length - 2 := by
  rw [inner, ← countP_eq_length_filter, countP_range hne, if_pos h.source_lt, if_pos h.sink_lt]
  omega

theorem indexFromDagStringIndex_number (hne : source ≠ sink) (hsize : g.nodes.length ≤ 256)
    (hi : i < g.nodes.length) (his : i ≠ source) :
    g.indexFromDagStringIndex (g.indexInDagString i source sink) source sink = i := by
  have hsource := h.source_lt
  have hsink := h.sink_lt
  by_cases hisink : i = sink
  · rw [indexInDagString, if_pos hisink, indexFromDagStringIndex_last (by omega) hsize, hisink]
  · have hlt : g.indexInDagString i source sink + 2 < g.nodes.length := by
      rw [indexInDagString, if_neg hisink]
      split_ifs <;> omega
    rw [indexFromDagStringIndex_eq hne hsize hlt, indexInDagString, if_neg hisink]
    split_ifs <;> omega

theorem indexInDagString_lt (hi : i < g.nodes.length) (his : i ≠ source) :
    g.indexInDagString i source sink < g.nodes.length - 1 := by
  have hsource := h.source_lt
  have hsink := h.sink_lt
  unfold indexInDagString
  split_ifs <;> omega

theorem indexInDagString_from (hne : source ≠ sink) (hsize : g.nodes.length ≤ 256) {k : Nat}
    (hk : k < g.nodes.length - 1) :
    g.indexFromDagStringIndex k source sink < g.nodes.length ∧
      g.indexFromDagStringIndex k source sink ≠ source ∧
      g.indexInDagString (g.indexFromDagStringIndex k source sink) source sink = k := by
  have hsource := h.source_lt
  have hsink := h.sink_lt
  by_cases hlast : k = g.nodes.length - 2
  · rw [hlast, indexFromDagStringIndex_last (by omega) hsize, indexInDagString, if_pos rfl]
    exact ⟨hsink, hne.symm, rfl⟩
  · rw [indexFromDagStringIndex_eq hne hsize (by omega), indexInDagString]
    split_ifs <;> omega

theorem number_lt (hi : i < g.nodes.length) : g.number source sink i < g.nodes.length := by
  unfold number
  split
  · exact Nat.sub_one_lt (Nat.ne_zero_of_lt hi)
  · exact Nat.lt_of_lt_pred (h.indexInDagString_lt hi ‹_›)

theorem number_inj (hne : source ≠ sink) {j : Nat} (hi : i < g.nodes.length)
    (hj : j < g.nodes.length) (heq : g.number source sink i = g.number source sink j) : i = j := by
  have hsource := h.source_lt
  have hsink := h.sink_lt
  unfold number indexInDagString at heq
  split_ifs at heq <;> omega

end HasEnds

/-- A graph with one source, the dummy, with one sink and without cycles. -/
structure IsDag (g : Graph) (source sink : Nat) : Prop extends
    g.Proper, g.HasEnds source sink where
  dummy : ∀ n, g.nodes[source]? = some n → Node.dummySource.equalTo n = true

namespace IsDag

variable (h : g.IsDag source sink)
include h

theorem srcIndex_eq : g.srcIndex = source := by
  rw [srcIndex, lastIndex_eq h.source_lt h.isSource]
  rfl

theorem sinkIndex_eq : g.sinkIndex = sink := by
  rw [sinkIndex, lastIndex_eq h.sink_lt h.isSink]
  rfl

theorem exists_edge {j : Nat} (hj : j < g.nodes.length) (hne : j ≠ source) :
    ∃ i, j ∈ g.outOf i := by
  by_contra hno
  exact hne ((h.isSource j hj).1 ((isSource_iff h.toWellFormed).2 (not_exists.1 hno)))

/-- The source is not the sink unless it is alone: going back from another node one does not get
to the source, and cannot go back for ever. -/
theorem ne (hsize : 2 ≤ g.nodes.length) : source ≠ sink := by
  rintro rfl
  obtain ⟨rank, hrank⟩ := h.acyclic
  have hout := h.outOf_sink
  have hback (n : Nat) : ∀ j < g.nodes.length, rank j = n → j = source := by
    induction n using Nat.strong_induction_on with
    | _ n ih =>
      intro j hj hn
      by_contra hne
      obtain ⟨i, hi⟩ := h.exists_edge hj hne
      have hisource := ih (rank i) (hn ▸ hrank i j hi) i (h.lt_of_mem hi) rfl
      rw [hisource, hout] at hi
      cases hi
  have h₀ := hback _ 0 (by omega) rfl
  have h₁ := hback _ 1 (by omega) rfl
  omega

end IsDag

/-! ### Nodes and edges by number -/

namespace IsDag

variable (h : g.IsDag source sink)
include h

theorem mem_edgeNumbers {i e : Nat} (he : e ∈ g.edgeNumbers source sink i) :
    e < g.nodes.length - 1 := by
  obtain ⟨j, hj, rfl⟩ := mem_map.1 he
  rw [number, if_neg (h.ne_source hj)]
  exact h.indexInDagString_lt (h.range i j hj) (h.ne_source hj)

theorem nodup_edgeNumbers (hne : source ≠ sink) (i : Nat) :
    (g.edgeNumbers source sink i).Nodup := by
  refine List.Nodup.map_on (fun j hj k hk heq => ?_) (h.nodup i)
  exact h.number_inj hne (h.range i j hj) (h.range i k hk) heq

theorem number_not_mem (hne : source ≠ sink) {i : Nat} (hi : i < g.nodes.length) :
    g.number source sink i ∉ g.edgeNumbers source sink i := by
  intro hmem
  obtain ⟨j, hj, heq⟩ := mem_map.1 hmem
  obtain ⟨rank, hrank⟩ := h.acyclic
  have hlt := hrank i j hj
  rw [h.number_inj hne (h.range i j hj) hi heq] at hlt
  exact lt_irrefl _ hlt

/-- **`get_node` has the numbers of the text.** -/
theorem getNode_eq (hsize : g.nodes.length ≤ 256) {i : Nat} {n : Node} (hi : g.nodes[i]? = some n)
    (his : i ≠ source) (hne : source ≠ sink) :
    g.getNode (g.indexInDagString i source sink) = .ok n := by
  have hlt := (List.getElem?_eq_some_iff.1 hi).1
  rw [getNode, h.srcIndex_eq, h.sinkIndex_eq,
    h.indexFromDagStringIndex_number hne hsize hlt his, hi]
  rfl

theorem getElem?_outEdges {i : Nat} (hi : i < g.nodes.length) :
    g.outEdges[i]? = some (g.outOf i) := by
  have hlt : i < g.outEdges.length := h.out_length ▸ hi
  simp [outOf, List.getD, hlt]

theorem map_indexInDagString (i : Nat) :
    (g.outOf i).map (fun j => g.indexInDagString j source sink) = g.edgeNumbers source sink i := by
  refine map_congr_left fun j hj => ?_
  rw [number, if_neg (h.ne_source hj)]

/-- **`get_out_edges` has the numbers of the text**, for the node and for its successors. -/
theorem getOutEdges_eq (hsize : g.nodes.length ≤ 256) (hne : source ≠ sink) {i : Nat}
    (hi : i < g.nodes.length) (his : i ≠ source) :
    g.getOutEdges (g.indexInDagString i source sink) = .ok (g.edgeNumbers source sink i) := by
  unfold getOutEdges
  rw [if_neg (by omega), h.srcIndex_eq, h.sinkIndex_eq,
    h.indexFromDagStringIndex_number hne hsize hi his,
    ← h.map_indexInDagString]
  dsimp only
  rw [h.getElem?_outEdges hi]
  rfl

theorem getOutEdges_source : g.getOutEdges (-1) = .ok (g.edgeNumbers source sink source) := by
  unfold getOutEdges
  rw [if_pos rfl, h.srcIndex_eq, h.sinkIndex_eq, ← h.map_indexInDagString]
  dsimp only
  rw [h.getElem?_outEdges h.source_lt]
  rfl

end IsDag

/-! ### Graphs that lead forward -/

def addressTypes : List UInt32 := [Xid.typeAd, Xid.typeHid, Xid.typeCid, Xid.typeSid]

/-- A graph whose edges all lead forward, from the dummy at the front to the sink at the end. -/
structure IsForward (g : Graph) (sink : Nat) : Prop where
  length : g.nodes.length = sink + 1 ∧ g.outEdges.length = sink + 1 ∧ g.inEdges.length = sink + 1
  edges : ∀ i < sink + 1, (g.outOf i).length ≤ xidEdgeNum ∧
    (∀ j ∈ g.outOf i, i < j ∧ j < sink + 1 ∧ i ∈ g.inOf j) ∧
      ∀ j ∈ g.inOf i, j < sink + 1 ∧ i ∈ g.outOf j
  isSource : ∀ i < sink + 1, g.isSource i = true ↔ i = 0
  isSink : ∀ i < sink + 1, g.isSink i = true ↔ i = sink
  dummy : (g.nodes.getD 0 Node.dummySource).type = typeDummySource
  types : ∀ i < sink + 1, i ≠ 0 → (g.nodes.getD i Node.dummySource).type ∈ addressTypes

instance (g : Graph) (sink : Nat) : Decidable (g.IsForward sink) :=
  decidable_of_iff (_ ∧ _ ∧ _ ∧ _ ∧ _ ∧ _)
    ⟨fun ⟨h₁, h₂, h₃, h₄, h₅, h₆⟩ => ⟨h₁, h₂, h₃, h₄, h₅, h₆⟩,
      fun ⟨h₁, h₂, h₃, h₄, h₅, h₆⟩ => ⟨h₁, h₂, h₃, h₄, h₅, h₆⟩⟩

namespace IsForward

variable (h : g.IsForward sink)
include h

theorem outOf_lt {i j : Nat} (hj : j ∈ g.outOf i) : i < sink + 1 := by
  by_contra hge
  rw [outOf, List.getD, getElem?_eq_none (by rw [h.length.2.1]; omega)] at hj
  cases hj

theorem inOf_lt {i j : Nat} (hj : j ∈ g.inOf i) : i < sink + 1 := by
  by_contra hge
  rw [inOf, List.getD, getElem?_eq_none (by rw [h.length.2.2]; omega)] at hj
  cases hj

theorem wellFormed : g.WellFormed where
  out_length := by rw [h.length.2.1, h.length.1]
  in_length := by rw [h.length.2.2, h.length.1]
  range := fun i j hj => h.length.1 ▸ ((h.edges i (h.outOf_lt hj)).2.1 j hj).2.1
  mirror := fun i j => ⟨fun hj => ((h.edges i (h.outOf_lt hj)).2.1 j hj).2.2,
    fun hi => ((h.edges j (h.inOf_lt hi)).2.2 i hi).2⟩

theorem hasEnds : g.HasEnds 0 sink where
  toWellFormed := h.wellFormed
  source_lt := by
    rw [h.length.1]
    exact Nat.succ_pos _
  sink_lt := by
    rw [h.length.1]
    exact Nat.lt_succ_self _
  isSource := h.length.1 ▸ h.isSource
  isSink := h.length.1 ▸ h.isSink
  acyclic := ⟨id, fun i j hj => ((h.edges i (h.outOf_lt hj)).2.1 j hj).1⟩

theorem mem_addressTypes {i : Nat} {n : Node} (hn : g.nodes[i]? = some n) (hne : i ≠ 0) :
    n.type ∈ addressTypes := by
  have hlt := (List.getElem?_eq_some_iff.1 hn).1
  have htypes := h.types i (h.length.1 ▸ hlt) hne
  rwa [List.getD, hn] at htypes

theorem degree (i : Nat) : (g.outOf i).length ≤ xidEdgeNum := by
  by_cases hlt : i < sink + 1
  · exact (h.edges i hlt).1
  · rw [h.wellFormed.outOf_of_le (h.length.1 ▸ not_lt.1 hlt)]
    exact Nat.zero_le _

theorem isDag (hdummy : Node.dummySource.equalTo (g.nodes.getD 0 Node.dummySource) = true)
    (hnodup : ∀ i < sink + 1, (g.outOf i).Nodup) : g.IsDag 0 sink where
  toHasEnds := h.hasEnds
  nodup := by
    intro i
    by_cases hlt : i < sink + 1
    · exact hnodup i hlt
    · rw [h.wellFormed.outOf_of_le (h.length.1 ▸ not_lt.1 hlt)]
      exact nodup_nil
  dummy := by
    intro n hn
    rwa [List.getD, hn] at hdummy

end IsForward

def fallbackAddress : Graph where
  nodes := [.dummySource, ⟨1, Xid.typeAd, .replicate _ 1⟩, ⟨2, Xid.typeHid, .replicate _ 2⟩,
    ⟨3, Xid.typeSid, .replicate _ 3⟩]
  outEdges := [[3, 1], [3, 2], [3], []]
  inEdges := [[], [0], [1], [0, 1, 2]]

/-! ### Equal graphs -/

/-- The graph `k` is the graph `g` with the nodes renumbered by `f`: the nodes have the same types
and identifiers, and the edges the same order. -/
structure Iso (f : Nat → Nat) (g k : Graph) : Prop where
  length : k.nodes.length = g.nodes.length
  lt : ∀ i < g.nodes.length, f i < g.nodes.length
  inj : ∀ i < g.nodes.length, ∀ j < g.nodes.length, f i = f j → i = j
  node : ∀ (i : Nat) (n : Node), g.nodes[i]? = some n →
    ∃ m, k.nodes[f i]? = some m ∧ n.equalTo m = true
  edges : ∀ i < g.nodes.length, k.outOf (f i) = (g.outOf i).map f

end Graph

end Dagaddr

end Xia
