import Xia.Dagaddr.Equiv.Hops
import Xia.Dagaddr.Equiv.Lines
import Xia.Equiv.Validation

/-!
# An address on its way from the router to the API

`XIAPath::unparse` writes an address and the constructor of `Graph` reads it.  `ApiReads` says that
the API reads the address that the router had, and `api_reads_iff` when it does: the RE form is read
differently if a fallback has two nodes, and in the form with indices the router leaves out the `-`
behind a fourth edge and has seven bits for an index.
-/

namespace Xia

open List hiding Vector
open Option Function

namespace XiaPath

variable {p : XiaPath} {src dst : Nat}

/-! ### The form with indices -/

/-- The indices that are printed for the edges of an entry. -/
def usedIndices (v : Vector XidEdge xidEdgeNum) : List Nat :=
  (v.toList.takeWhile fun e => e.idx.val ≠ xidEdgeUnused).map fun e => e.idx.val

/-- There is a `-` behind the indices. -/
def closes (v : Vector XidEdge xidEdgeNum) : Bool :=
  v.toList.any fun e => e.idx.val = xidEdgeUnused

/-- The `-` behind indices. -/
def dash (closed : Bool) : List Text := if closed then [['-']] else []

theorem unparseIndices_eq (v : Vector XidEdge xidEdgeNum) : unparseIndices v.toList =
    ((usedIndices v).map decimal ++ dash (closes v)).flatMap (· ++ [' ']) := by
  unfold usedIndices closes
  induction v.toList with
  | nil => rfl
  | cons e es ih =>
    rw [unparseIndices]
    by_cases he : e.idx.val ≠ xidEdgeUnused
    · rw [if_pos he, ih, takeWhile_cons_of_pos (by simpa using he), any_cons]
      simp [he]
    · rw [if_neg he, takeWhile_cons_of_neg (by simpa using he), any_cons]
      simp [not_not.1 he, dash]

theorem lt_of_mem_usedIndices {v : Vector XidEdge xidEdgeNum} {k : Nat} (hk : k ∈ usedIndices v) :
    k < xidEdgeUnused := by
  obtain ⟨e, he, rfl⟩ := List.mem_map.1 hk
  have hne : e.idx.val ≠ xidEdgeUnused := by simpa using mem_takeWhile_imp he
  have hlt := e.idx.isLt
  unfold xidEdgeUnused at hne ⊢
  omega

def nodeWords (p : XiaPath) (i : Nat) : List Text :=
  let v := p.wireVector (p.edgesOf i)
  (p.xidOf i).unparse :: ((usedIndices v).map decimal ++ dash (closes v))

def dagWords (p : XiaPath) (src dst : Nat) (inner : List Nat) : List Text :=
  let v := p.wireVector (p.edgesOf src)
  (usedIndices v).map decimal ++ dash (closes v) ++ inner.flatMap p.nodeWords ++
    [(p.xidOf dst).unparse]

theorem mapIdx_concat {α β : Type} (l : List α) (d : α) (f g : α → List β) :
    ((l ++ [d]).mapIdx fun i a => f a ++ if i + 1 < (l ++ [d]).length then g a else []).flatten =
      l.flatMap (fun a => f a ++ g a) ++ f d := by
  have hfront : (l.mapIdx fun i a => f a ++ if i + 1 < (l ++ [d]).length then g a else []) =
      l.map fun a => f a ++ g a := by
    refine ext_getElem (by simp) fun i hi _ => ?_
    rw [length_mapIdx] at hi
    simp [hi]
  rw [mapIdx_append, hfront, flatten_append, flatMap_def]
  simp

/-- **The form with indices of a valid path.** -/
theorem Valid.unparseDag (hp : p.Valid src dst) {inner : List Nat}
    (horder : p.order = src :: (inner ++ [dst])) :
    p.unparseDag = .ok (unwords (p.dagWords src dst inner)) := by
  have hnodes : p.order.tail.map (p.wireEntry src dst) =
      inner.map (p.wireEntry src dst) ++ [p.wireEntry src dst dst] := by
    rw [horder, tail_cons, map_append, map_singleton]
  obtain ⟨-, -, hinner⟩ := hp.nodup_order horder
  have hmain : (inner.map (p.wireEntry src dst)).flatMap (fun n =>
      n.xid.unparse ++ [' '] ++ unparseIndices n.edge.toList) =
        (inner.flatMap p.nodeWords).flatMap (· ++ [' ']) := by
    rw [flatMap_map, flatMap_assoc]
    refine flatMap_congr fun i hi => ?_
    rw [wireEntry, if_neg (hinner i hi), unparseIndices_eq, nodeWords]
    simp
  rw [XiaPath.unparseDag, isValid_iff.2 ⟨_, _, hp⟩, Result.ok_bind, if_pos rfl, hp.unparseNode,
    Result.ok_bind]
  dsimp only
  rw [hnodes, getLast?_concat, map_some, getD_some, mapIdx_concat, hmain,
    wireEntry, if_pos rfl, unparseIndices_eq]
  simp [unwords, dagWords]

end XiaPath

namespace Dagaddr

namespace Graph

/-! ### Lines that are not ended -/

/-- The lines of segments, some of which end with a `-`: the others go on in the next line. -/
def mergeLines : List (List Text × Bool) → List Text → List Text × List (List Text)
  | [], last => (last, [])
  | s :: segs, last =>
    let r := mergeLines segs last
    if s.2 then (s.1, r.1 :: r.2) else (s.1 ++ r.1, r.2)

variable {segs : List (List Text × Bool)} {last : List Text}

theorem mergeLines_cons (s : List Text × Bool) : mergeLines (s :: segs) last =
    if s.2 then (s.1, (mergeLines segs last).1 :: (mergeLines segs last).2)
    else (s.1 ++ (mergeLines segs last).1, (mergeLines segs last).2) := rfl

theorem isLine_mergeLines (hsegs : ∀ s ∈ segs, IsLine s.1) (hlast : IsLine last) :
    IsLine (mergeLines segs last).1 ∧ ∀ l ∈ (mergeLines segs last).2, IsLine l := by
  induction segs with
  | nil => exact ⟨hlast, by simp [mergeLines]⟩
  | cons s segs ih =>
    obtain ⟨hs, hsegs⟩ := forall_mem_cons.1 hsegs
    obtain ⟨hfirst, hrest⟩ := ih hsegs
    rw [mergeLines_cons]
    split
    · exact ⟨hs, forall_mem_cons.2 ⟨hfirst, hrest⟩⟩
    · refine ⟨⟨append_ne_nil_of_left_ne_nil hs.ne _, fun w hw => ?_, fun w hw => ?_⟩, hrest⟩
      · exact (mem_append.1 hw).elim (hs.words w) (hfirst.words w)
      · exact (mem_append.1 hw).elim (hs.dash w) (hfirst.dash w)

theorem dagText_mergeLines (hsegs : ∀ s ∈ segs, IsLine s.1) (hlast : IsLine last) :
    dagText (mergeLines segs last).1 (mergeLines segs last).2 =
      unwords (segs.flatMap (fun s => s.1 ++ XiaPath.dash s.2) ++ last) := by
  induction segs with
  | nil => simp [mergeLines, dagText]
  | cons s segs ih =>
    obtain ⟨hs, hsegs⟩ := forall_mem_cons.1 hsegs
    have hfirst := (isLine_mergeLines hsegs hlast).1
    have hrest : segs.flatMap (fun s => s.1 ++ XiaPath.dash s.2) ++ last ≠ [] :=
      append_ne_nil_of_right_ne_nil _ hlast.ne
    have ih := ih hsegs
    rw [dagText] at ih
    rw [mergeLines_cons, flatMap_cons, append_assoc, append_assoc,
      unwords_append hs.ne (append_ne_nil_of_right_ne_nil _ hrest)]
    by_cases hclosed : s.2 = true
    · rw [if_pos hclosed, dagText, hclosed, XiaPath.dash, if_pos rfl,
        unwords_append (by simp) hrest, unwords_singleton, ← ih]
      simp
    · rw [if_neg hclosed, dagText, XiaPath.dash, if_neg hclosed, nil_append, ← ih,
        unwords_append hs.ne hfirst.ne]
      simp

theorem length_mergeLines :
    (mergeLines segs last).2.length = (segs.filter fun s => s.2).length := by
  induction segs with
  | nil => rfl
  | cons s segs ih =>
    rw [mergeLines_cons]
    by_cases hclosed : s.2 = true
    · rw [if_pos hclosed, filter_cons_of_pos hclosed, length_cons, length_cons, ih]
    · rw [if_neg hclosed, filter_cons_of_neg hclosed, ih]

theorem mergeLines_of_closed (h : ∀ s ∈ segs, s.2 = true) :
    (mergeLines segs last).1 :: (mergeLines segs last).2 = segs.map Prod.fst ++ [last] := by
  induction segs with
  | nil => rfl
  | cons s segs ih =>
    obtain ⟨hs, hsegs⟩ := forall_mem_cons.1 h
    rw [mergeLines_cons, if_pos hs, map_cons, cons_append, ← ih hsegs]

theorem closed_of_length (h : (mergeLines segs last).2.length = segs.length) :
    ∀ s ∈ segs, s.2 = true := by
  rw [length_mergeLines] at h
  exact length_filter_eq_length_iff.1 h

/-! ### The form with indices, read by the API -/

variable {libc : Libc} {p : XiaPath} {src dst : Nat} {inner : List Nat} {k : Graph} {f : Nat → Nat}

def IsAddressPath (p : XiaPath) : Prop :=
  ∀ i < p.nodes.length, p.src ≠ some i → IsAddressXid (p.xidOf i)

def indicesOf (p : XiaPath) (i : Nat) : List Nat :=
  XiaPath.usedIndices (p.wireVector (p.edgesOf i))

/-- There is a `-` behind the indices of a node. -/
def closesAt (p : XiaPath) (i : Nat) : Bool := XiaPath.closes (p.wireVector (p.edgesOf i))

def segments (p : XiaPath) (src : Nat) (inner : List Nat) : List (List Text × Bool) :=
  (['D', 'A', 'G'] :: (indicesOf p src).map XiaPath.decimal, closesAt p src) :: inner.map fun i =>
      ((p.xidOf i).unparse :: (indicesOf p i).map XiaPath.decimal, closesAt p i)

def nodeOf (x : Xid) : Node := ⟨0, htonl x.type, x.id⟩

def printedPath (p : XiaPath) (dst : Nat) (inner : List Nat) : List (Node × List Nat) :=
  inner.map (fun i => (nodeOf (p.xidOf i), indicesOf p i)) ++ [(nodeOf (p.xidOf dst), [])]

theorem length_printedPath : (printedPath p dst inner).length = inner.length + 1 := by
  simp [printedPath]

theorem isLine_xid {x : Xid} (hx : IsAddressXid x) (es : List Nat) :
    IsLine (x.unparse :: es.map XiaPath.decimal) := by
  obtain ⟨hword, hdash⟩ := Node.isWord_toText (n := nodeOf x) hx
  rw [unparse_eq_toText hx 0]
  exact isLine_decimal hword hdash es

theorem lt_of_mem_indicesOf {i e : Nat} (he : e ∈ indicesOf p i) : e < 127 :=
  XiaPath.lt_of_mem_usedIndices he

/-! ### The same address -/

/-- The graph is the path, renumbered: it has the same XIDs, edges and priorities, and its only
source, the dummy, and its only sink are the source and the destination of the path. -/
structure Agrees (f : Nat → Nat) (p : XiaPath) (k : Graph) : Prop where
  length : k.nodes.length = p.nodes.length
  lt : ∀ i < p.nodes.length, f i < p.nodes.length
  inj : ∀ i < p.nodes.length, ∀ j < p.nodes.length, f i = f j → i = j
  xid : ∀ i < p.nodes.length, p.src ≠ some i → ∃ m, k.nodes[f i]? = some m ∧ m.xid = p.xidOf i
  dummy : ∀ i, p.src = some i → ∃ m, k.nodes[f i]? = some m ∧ Node.dummySource.equalTo m = true
  edges : ∀ i < p.nodes.length, k.outOf (f i) = (p.edgesOf i).map f
  source : ∀ i, p.src = some i → ∀ j < k.nodes.length, k.isSource j = true ↔ j = f i
  sink : ∀ i, p.dst = some i → ∀ j < k.nodes.length, k.isSink j = true ↔ j = f i

theorem agrees_of_edges (hp : p.Valid src dst) (hk : k.WellFormed)
    (hlength : k.nodes.length = p.nodes.length)
    (hlt : ∀ i < p.nodes.length, f i < p.nodes.length)
    (hinj : ∀ i < p.nodes.length, ∀ j < p.nodes.length, f i = f j → i = j)
    (hxid : ∀ i < p.nodes.length, p.src ≠ some i → ∃ m, k.nodes[f i]? = some m ∧ m.xid = p.xidOf i)
    (hdummy : ∃ m, k.nodes[f src]? = some m ∧ Node.dummySource.equalTo m = true)
    (hedges : ∀ i < p.nodes.length, k.outOf (f i) = (p.edgesOf i).map f) : Agrees f p k := by
  refine ⟨hlength, hlt, hinj, hxid, ?_, hedges, ?_, ?_⟩
  · intro i hi
    rw [hp.src_eq, some_inj] at hi
    exact hi ▸ hdummy
  · intro i hi j hj
    rw [hp.src_eq, some_inj] at hi
    rw [hlength] at hj
    obtain ⟨a, ha, rfl⟩ := XiaPath.surj_of_inj hlt hinj hj
    have hin : k.isSource (f a) = true ↔ ¬ ∃ b, a ∈ p.edgesOf b := by
      rw [isSource_iff hk, not_exists]
      constructor
      · intro hno b hb
        refine hno (f b) ?_
        rw [hedges b (XiaPath.lt_of_mem_edgesOf hb)]
        exact List.mem_map_of_mem hb
      · intro hno x hx
        obtain ⟨b, hb, rfl⟩ := XiaPath.surj_of_inj hlt hinj (hlength ▸ hk.lt_of_mem hx)
        rw [hedges b hb] at hx
        obtain ⟨c, hc, heq⟩ := List.mem_map.1 hx
        exact hno b (hinj c (hp.inRange b c hc) a ha heq ▸ hc)
    rw [hin, hp.incoming a ha, not_not, ← hi]
    exact ⟨fun heq => heq ▸ rfl, fun heq => hinj a ha src hp.src_lt heq⟩
  · intro i hi j hj
    rw [hp.dst_eq, some_inj] at hi
    rw [hlength] at hj
    obtain ⟨a, ha, rfl⟩ := XiaPath.surj_of_inj hlt hinj hj
    rw [Graph.isSink, decide_eq_true_eq, hedges a ha, map_eq_nil_iff, hp.outgoing a ha, ← hi]
    exact ⟨fun heq => heq ▸ rfl, fun heq => hinj a ha dst hp.dst_lt heq⟩

/-- The API reads the address that the router has printed. -/
def ApiReads (libc : Libc) (p : XiaPath) : Prop :=
  ∃ t k f, p.unparse = .ok t ∧ ofString libc t = .ok k ∧ Agrees f p k

/-! ### The RE form -/

open XiaPath

variable {hops : List (List Nat × Nat)} {cs : List Text} {st : Graph.ReState}

theorem hopXids_map (p : XiaPath) (hops : List (List Nat × Nat)) :
    hopXids (hops.map p.hopOf) = (trace hops).map p.xidOf := by
  simp [hopXids, trace, hopOf, flatMap_map, map_flatMap]

theorem hopSizes_map (p : XiaPath) (hops : List (List Nat × Nat)) :
    hopSizes (hops.map p.hopOf) = hops.map fun h => h.1.length := by
  simp [hopSizes, hopOf]

theorem dummy_of_xid {m : Node} (h : m.xid = Node.dummySource.xid) :
    Node.dummySource.equalTo m = true := by
  obtain ⟨htype, hid⟩ := Xid.mk.inj h
  refine Node.equalTo_iff.2 ⟨?_, hid.symm⟩
  rw [htonl_eq_iff, htonl_htonl] at htype
  exact htype.symm

theorem agrees_of_chain (hp : p.Valid src dst) (hc : Chain p src hops)
    (htracks : Tracks libc cs st ((trace hops).map p.xidOf)
      (reLinks 0 1 (hops.map fun h => h.1.length)))
    (hsmall : ∀ h ∈ hops, h.1.length ≤ 1) :
    Agrees (src :: trace hops).idxOf p st.graph := by
  have hnodup := hp.nodup_of_walk hc.walk
  have hperm := hp.perm_of_walk hc.walk
  have hmem {i : Nat} : i ∈ src :: trace hops ↔ i < p.nodes.length := by
    rw [hperm.mem_iff, mem_range]
  have hlen : (trace hops).length + 1 = p.nodes.length := by
    simpa using hperm.length_eq
  have hplace {j x : Nat} (hx : (trace hops)[j]? = some x) :
      (src :: trace hops).idxOf x = 1 + j := by
    obtain ⟨hj, rfl⟩ := List.getElem?_eq_some_iff.1 hx
    have hidx := hnodup.idxOf_getElem (j + 1) (by simpa using hj)
    rw [getElem_cons_succ] at hidx
    rw [hidx, Nat.add_comm]
  have hnode (j : Nat) : (st.graph.nodes[j]?).map Node.xid =
      (Node.dummySource.xid :: (trace hops).map p.xidOf)[j]? := by
    rw [← htracks.nodes, getElem?_map]
  refine agrees_of_edges hp htracks.inv.proper.toWellFormed ?_ ?_ ?_ ?_ ?_ ?_
  · rw [htracks.length, length_map, hlen]
  · intro i hi
    have := idxOf_lt_length_of_mem (hmem.2 hi)
    rw [length_cons] at this
    omega
  · exact fun i hi j hj heq => (idxOf_inj (hmem.2 hi)).1 heq
  · intro i hi hne
    have hsrc : i ≠ src := by
      rintro rfl
      exact hne hp.src_eq
    obtain ⟨j, hj⟩ := getElem?_of_mem ((mem_cons.1 (hmem.2 hi)).resolve_left hsrc)
    have hget := hnode (1 + j)
    rw [Nat.add_comm, getElem?_cons_succ, getElem?_map, hj, map_some] at hget
    obtain ⟨m, hm, hxid⟩ := map_eq_some_iff.1 hget
    exact ⟨m, by rw [hplace hj, Nat.add_comm]; exact hm, hxid⟩
  · obtain ⟨m, hm, hxid⟩ := map_eq_some_iff.1 (hnode 0)
    exact ⟨m, by rw [idxOf_cons_self]; exact hm, dummy_of_xid hxid⟩
  · intro i hi
    obtain ⟨htargets, hdiff⟩ := chain_targets hc hsmall Nat.zero_lt_one idxOf_cons_self
      (fun j x hx => hplace hx) i (hmem.2 hi)
    rw [htracks.out, htargets, pushAll_eq_append (by simpa using hdiff), nil_append]

theorem sum_map_range (n : Nat) (d : Nat → Nat) :
    ((List.range n).map d).sum = ∑ i ∈ Finset.range n, d i :=
  rfl

theorem fallbacks_of_agrees (hp : p.Valid src dst) (hc : Chain p src hops)
    (htracks : Tracks libc cs st ((trace hops).map p.xidOf)
      (reLinks 0 1 (hops.map fun h => h.1.length)))
    (h : Agrees f p st.graph) : ∀ h ∈ hops, h.1.length ≤ 1 := by
  have hread : ∑ i ∈ Finset.range p.nodes.length, (st.graph.outOf i).length ≤
      (reLinks 0 1 (hops.map fun h => h.1.length)).length := by
    refine le_trans (Finset.sum_le_sum fun i _ => ?_) (sum_length_targets_le _ p.nodes.length)
    rw [htracks.out]
    simpa using length_pushAll_le [] (targets (reLinks 0 1 (hops.map fun h => h.1.length)) i)
  have hhad : ∑ i ∈ Finset.range p.nodes.length, (p.edgesOf i).length =
      ∑ i ∈ Finset.range p.nodes.length, (st.graph.outOf i).length := by
    refine Finset.sum_nbij f (fun i hi => ?_) (fun i hi j hj heq => ?_) (fun j hj => ?_)
      fun i hi => ?_
    · simpa using h.lt i (by simpa using hi)
    · exact h.inj i (by simpa using hi) j (by simpa using hj) heq
    · obtain ⟨i, hi, heq⟩ := surj_of_inj h.lt h.inj (by simpa using hj)
      exact ⟨i, by simpa using hi, heq⟩
    · rw [h.edges i (by simpa using hi), length_map]
  have hdegrees := degrees_chain hc
  rw [((hp.perm_of_walk hc.walk).map _).sum_eq, sum_map_range, hhad] at hdegrees
  rw [hdegrees, length_reLinks] at hread
  refine List.forall_mem_map.1 (fallbacks_of_degrees ?_)
  rw [List.map_map]
  exact hread

/-! ### The form with indices -/

theorem usedIndices_ofFn {l : List Nat} (hlen : l.length ≤ xidEdgeNum)
    (hl : ∀ i ∈ l, i < xidEdgeUnused) :
    usedIndices (Vector.ofFn fun j : Fin xidEdgeNum => wireEdge (l.getD j xidEdgeUnused)) = l ∧
      (closes (Vector.ofFn fun j : Fin xidEdgeNum => wireEdge (l.getD j xidEdgeUnused)) = true ↔
        l.length < xidEdgeNum) := by
  unfold usedIndices closes
  rw [toList_ofFn_wireEdge hlen]
  constructor
  · have hnone : (List.replicate (xidEdgeNum - l.length) (wireEdge xidEdgeUnused)).takeWhile
        (fun e => decide (e.idx.val ≠ xidEdgeUnused)) = [] := by
      cases xidEdgeNum - l.length with
      | zero => rfl
      | succ n => simp [replicate_succ, idx_wireEdge_unused]
    rw [takeWhile_append_of_pos (used_wireEdge hl), hnone, append_nil, map_idx_wireEdge hl]
  · rw [any_append, Bool.or_eq_true]
    constructor
    · rintro (hany | hany)
      · obtain ⟨e, he, heq⟩ := List.any_eq_true.1 hany
        exact absurd (of_decide_eq_true heq) (of_decide_eq_true (used_wireEdge hl e he))
      · obtain ⟨e, he, -⟩ := List.any_eq_true.1 hany
        have := (mem_replicate.1 he).1
        omega
    · intro hlt
      refine .inr (List.any_eq_true.2 ⟨wireEdge xidEdgeUnused, ?_, by simp [idx_wireEdge_unused]⟩)
      exact mem_replicate.2 ⟨by omega, rfl⟩

theorem indicesOf_eq (hp : p.Valid src dst) (hlen : p.nodes.length ≤ 128) (i : Nat) :
    indicesOf p i = (p.edgesOf i).map (fun e => p.place e - 1) ∧
      (closesAt p i = true ↔ (p.edgesOf i).length < xidEdgeNum) := by
  have hused := usedIndices_ofFn (l := (p.edgesOf i).map fun e => p.place e - 1)
    (by rw [length_map]; exact hp.degree i) fun k hk => by
      obtain ⟨e, he, rfl⟩ := List.mem_map.1 hk
      have hpos := hp.place_lt he
      have hlt := hp.place_lt_length (hp.inRange i e he)
      rw [xidEdgeUnused]
      omega
  rw [length_map] at hused
  exact hused

/-- The lines of the form with indices: what stands between two `-`. -/
def writtenLines (p : XiaPath) (src dst : Nat) (inner : List Nat) : List (List Text) :=
  let r := mergeLines (segments p src inner) [(p.xidOf dst).unparse]
  r.1 :: r.2

/-- The path fits the form with indices: an index has room, there are fewer than four edges, and no
edge is there twice. -/
structure FitsDag (p : XiaPath) : Prop where
  size : p.nodes.length ≤ 128
  degree : ∀ i, (p.edgesOf i).length < xidEdgeNum
  nodup : ∀ i, (p.edgesOf i).Nodup

section

variable (hp : p.Valid src dst) (horder : p.order = src :: (inner ++ [dst]))

include hp horder

theorem length_inner_eq : inner.length + 2 = p.nodes.length := by
  have hlength := hp.order_length
  rw [horder] at hlength
  simpa using hlength

theorem getElem?_printedPath {i : Nat} (hi : i < p.nodes.length) (hne : i ≠ src) :
    ∃ j es, p.place i = j + 1 ∧ (printedPath p dst inner)[j]? = some (nodeOf (p.xidOf i), es) ∧
      ((p.edgesOf i = [] ∧ es = []) ∨ (i ∈ inner ∧ es = indicesOf p i)) := by
  have hget := hp.order_getElem? hi
  have hpos := hp.place_pos hi hne
  obtain ⟨j, hj⟩ : ∃ j, p.place i = j + 1 := ⟨p.place i - 1, by omega⟩
  rw [horder, hj, getElem?_cons_succ] at hget
  by_cases hlt : j < inner.length
  · rw [getElem?_append_left hlt] at hget
    refine ⟨j, indicesOf p i, hj, ?_, .inr ⟨mem_of_getElem? hget, rfl⟩⟩
    rw [printedPath, getElem?_append_left (by simpa using hlt), getElem?_map, hget]
    rfl
  · rw [getElem?_append_right (by omega)] at hget
    obtain ⟨hzero, hdst⟩ := List.getElem?_eq_some_iff.1 hget
    rw [length_singleton] at hzero
    have hjlen : j = inner.length := by omega
    have hidst : i = dst := by
      rw [← hdst]
      simp
    refine ⟨j, [], hj, ?_, .inl ⟨(hp.outgoing i hi).2 hidst, rfl⟩⟩
    rw [printedPath, hidst, hjlen]
    simp

variable (haddr : IsAddressPath p)

include haddr

theorem isAddressXid_of_mem {i : Nat} (hi : i ∈ inner ++ [dst]) : IsAddressXid (p.xidOf i) := by
  refine haddr i (hp.mem_order.1 (by rw [horder]; exact mem_cons_of_mem _ hi)) ?_
  rw [hp.src_eq]
  rintro ⟨⟩
  exact (hp.nodup_order horder).1 hi

/-- **The lines that the API finds in the form with indices.** -/
theorem dagLines_unparse : ∃ t, p.unparseDag = .ok t ∧ dagLines (['D', 'A', 'G', ' '] ++ t) =
      writtenLines p src dst inner := by
  have hsegs : ∀ s ∈ segments p src inner, IsLine s.1 := by
    intro s hs
    rcases mem_cons.1 hs with rfl | hs
    · exact isLine_decimal ⟨by decide, by decide⟩ (by decide) _
    · obtain ⟨i, hi, rfl⟩ := List.mem_map.1 hs
      exact isLine_xid (isAddressXid_of_mem hp horder haddr (mem_append_left _ hi)) _
  have hlast : IsLine [(p.xidOf dst).unparse] :=
    isLine_xid (isAddressXid_of_mem hp horder haddr (by simp)) []
  obtain ⟨hfirst, hrest⟩ := isLine_mergeLines hsegs hlast
  refine ⟨_, hp.unparseDag horder, dagLines_dagText ?_ hfirst hrest⟩
  have hne : p.dagWords src dst inner ≠ [] := by simp [XiaPath.dagWords]
  have hwords : [['D', 'A', 'G']] ++ p.dagWords src dst inner =
      (segments p src inner).flatMap (fun s => s.1 ++ XiaPath.dash s.2) ++
        [(p.xidOf dst).unparse] := by
    simp only [XiaPath.dagWords, segments, indicesOf, closesAt, flatMap_cons,
      flatMap_map, cons_append, nil_append, append_assoc]
    rfl
  have htext : ['D', 'A', 'G', ' '] ++ unwords (p.dagWords src dst inner) =
      unwords ((segments p src inner).flatMap (fun s => s.1 ++ XiaPath.dash s.2) ++
        [(p.xidOf dst).unparse]) := by
    rw [← hwords, unwords_append (by simp) hne, unwords_singleton]
    rfl
  rw [htext, dagText_mergeLines hsegs hlast]
  refine filter_unwords fun w hw => ?_
  rcases mem_append.1 hw with hw | hw
  · obtain ⟨s, hs, hw⟩ := mem_flatMap.1 hw
    rcases mem_append.1 hw with hw | hw
    · exact (hsegs s hs).words w hw
    · unfold XiaPath.dash at hw
      split at hw
      · rw [mem_singleton.1 hw]
        exact ⟨by decide, by decide⟩
      · cases hw
  · exact hlast.words w hw

theorem lines_of_closed (h : ∀ s ∈ segments p src inner, s.2 = true) :
    writtenLines p src dst inner = printedLines (indicesOf p src) (printedPath p dst inner) := by
  have hxid {i : Nat} (hi : i ∈ inner ++ [dst]) :
      (p.xidOf i).unparse = (nodeOf (p.xidOf i)).toText :=
    unparse_eq_toText (isAddressXid_of_mem hp horder haddr hi) 0
  have hinner : inner.map (fun i =>
      (p.xidOf i).unparse :: (indicesOf p i).map XiaPath.decimal) = inner.map fun i =>
          (nodeOf (p.xidOf i)).toText :: (indicesOf p i).map XiaPath.decimal :=
    map_congr_left fun i hi => by rw [hxid (mem_append_left _ hi)]
  rw [writtenLines, mergeLines_of_closed h, hxid (by simp)]
  simp only [segments, printedLines, printedPath, map_cons, List.map_map, map_append,
    comp_def, cons_append, hinner, map_nil]

theorem printable_path (hfit : ∀ i, ∀ e ∈ indicesOf p i, e < inner.length + 1) :
    Printable (indicesOf p src) (printedPath p dst inner) := by
  have hindex {i e : Nat} (he : e ∈ indicesOf p i) :
      e < (printedPath p dst inner).length ∧ e + 1 < 2 ^ 31 := by
    have hsmall := lt_of_mem_indicesOf he
    rw [length_printedPath]
    exact ⟨hfit i e he, by omega⟩
  have hmem {x : Node × List Nat} (hx : x ∈ printedPath p dst inner) :
      ∃ i ∈ inner ++ [dst], x.1 = nodeOf (p.xidOf i) ∧ (x.2 = indicesOf p i ∨ x.2 = []) := by
    rcases mem_append.1 hx with hx | hx
    · obtain ⟨i, hi, rfl⟩ := List.mem_map.1 hx
      exact ⟨i, mem_append_left _ hi, rfl, .inl rfl⟩
    · rw [mem_singleton.1 hx]
      exact ⟨dst, by simp, rfl, .inr rfl⟩
  refine ⟨fun x hx => ?_, fun e he => hindex he, fun x hx e he => ?_⟩
  · obtain ⟨i, hi, hnode, -⟩ := hmem hx
    rw [hnode]
    exact isAddressXid_of_mem hp horder haddr hi
  · obtain ⟨i, -, -, hedges | hedges⟩ := hmem hx
    · rw [hedges] at he
      exact hindex he
    · rw [hedges] at he
      cases he

theorem FitsDag.printable (h : FitsDag p) :
    Printable (indicesOf p src) (printedPath p dst inner) := by
  have hlen := length_inner_eq hp horder
  refine printable_path hp horder haddr fun i e he => ?_
  rw [(indicesOf_eq hp h.size i).1] at he
  obtain ⟨j, hj, rfl⟩ := List.mem_map.1 he
  have hlt := hp.place_lt_length (hp.inRange i j hj)
  have hpos := hp.place_lt hj
  omega

theorem agrees_of_printed (h : FitsDag p) : Agrees p.place p
    (dagGraph libc (printedLines (indicesOf p src) (printedPath p dst inner))) := by
  have hlen := length_inner_eq hp horder
  have hprint := h.printable hp horder haddr
  -- the numbers are the places
  have hedges (i : Nat) : (indicesOf p i).map (· + 1) = (p.edgesOf i).map p.place := by
    rw [(indicesOf_eq hp h.size i).1, List.map_map]
    refine map_congr_left fun e he => ?_
    have hpos := hp.place_lt he
    rw [comp_apply]
    omega
  have hnodup (i : Nat) : ((p.edgesOf i).map p.place).Nodup :=
    List.Nodup.map_on (fun a ha b _ heq => hp.place_inj (hp.inRange i a ha) heq) (h.nodup i)
  refine agrees_of_edges hp (proper_dagGraph hprint.readableDag).toWellFormed ?_
    (fun i hi => hp.place_lt_length hi) (fun i hi j _ heq => hp.place_inj hi heq) ?_ ?_ ?_
  · rw [length_printed, length_printedPath]
    omega
  · intro i hi hne
    have hsrc : i ≠ src := by
      rintro rfl
      exact hne hp.src_eq
    obtain ⟨j, es, hj, hget, -⟩ := getElem?_printedPath hp horder hi hsrc
    refine ⟨_, by rw [hj]; exact hprint.node_succ hget, ?_⟩
    rw [Node.xid, nodeOf, htonl_htonl]
  · rw [hp.place_src]
    exact ⟨_, node_printed_zero, by decide⟩
  · intro i hi
    by_cases hsrc : i = src
    · rw [hsrc, hp.place_src, hprint.outOf_zero, hedges,
        pushAll_eq_append (by simpa using hnodup src), nil_append]
    · obtain ⟨j, es, hj, hget, hes⟩ := getElem?_printedPath hp horder hi hsrc
      rw [hj, hprint.outOf_succ hget]
      rcases hes with ⟨hnil, rfl⟩ | ⟨-, rfl⟩
      · rw [hnil]
        rfl
      · have hfilter : ((p.edgesOf i).map p.place).filter (· ≠ j + 1) =
            (p.edgesOf i).map p.place := by
          refine filter_eq_self.2 fun e he => decide_eq_true ?_
          obtain ⟨a, ha, rfl⟩ := List.mem_map.1 he
          have hlt := hp.place_lt ha
          omega
        rw [hedges, hfilter, pushAll_eq_append (by simpa using hnodup i), nil_append]

theorem size_of_agrees
    (h : Agrees f p (dagGraph libc (printedLines (indicesOf p src) (printedPath p dst inner)))) :
    p.nodes.length ≤ 128 := by
  by_contra hlarge
  have hlen := length_inner_eq hp horder
  have hprint : Printable (indicesOf p src) (printedPath p dst inner) :=
    printable_path hp horder haddr fun i e he => by
      have := lt_of_mem_indicesOf he
      omega
  -- no index leads to the node with the number 128
  have hout (i : Nat) (hi : i < p.nodes.length) :
      128 ∉ (dagGraph libc (printedLines (indicesOf p src) (printedPath p dst inner))).outOf i := by
    have hnot {j : Nat} : 128 ∉ (indicesOf p j).map (· + 1) := by
      intro hmem
      obtain ⟨e, he, heq⟩ := List.mem_map.1 hmem
      have := lt_of_mem_indicesOf he
      omega
    cases i with
    | zero =>
      rw [hprint.outOf_zero, mem_pushAll]
      rintro (hmem | hmem)
      · cases hmem
      · exact hnot hmem
    | succ j =>
      have hj : j < (printedPath p dst inner).length := by
        rw [length_printedPath]
        omega
      rw [hprint.outOf_succ (getElem?_eq_getElem hj), mem_pushAll]
      rintro (hmem | hmem)
      · cases hmem
      · have hmem := (mem_filter.1 hmem).1
        rcases mem_append.1 (getElem_mem hj) with hx | hx
        · obtain ⟨a, -, ha⟩ := List.mem_map.1 hx
          rw [← ha] at hmem
          exact hnot hmem
        · rw [mem_singleton.1 hx] at hmem
          cases hmem
  obtain ⟨a, ha, hfa⟩ := surj_of_inj h.lt h.inj (by omega : 128 < p.nodes.length)
  by_cases hsrc : a = src
  · -- the source is the dummy, which is not printed
    obtain ⟨m, hm, hdummy⟩ := h.dummy a (hsrc ▸ hp.src_eq)
    have hj : 127 < (printedPath p dst inner).length := by
      rw [length_printedPath]
      omega
    rw [hfa, hprint.node_succ (getElem?_eq_getElem hj), some_inj] at hm
    have htype := hprint.types _ (getElem_mem hj)
    have hdummytype := (Node.equalTo_iff.1 hdummy).1
    rw [← hm] at hdummytype
    rw [← hdummytype] at htype
    exact absurd htype (by decide)
  · obtain ⟨b, hb⟩ := (hp.incoming a ha).2 hsrc
    have hblt := lt_of_mem_edgesOf hb
    refine hout (f b) (h.lt b hblt) ?_
    rw [h.edges b hblt, ← hfa]
    exact List.mem_map_of_mem hb

theorem fitsDag_of_agrees (hread : ReadableDag (writtenLines p src dst inner))
    (h : Agrees f p (dagGraph libc (writtenLines p src dst inner))) : FitsDag p := by
  have hlen := length_inner_eq hp horder
  -- there are as many lines as nodes, so every line ends
  have hclosed : ∀ s ∈ segments p src inner, s.2 = true := by
    have hsegments : (segments p src inner).length = inner.length + 1 := by simp [segments]
    have hlength := h.length
    rw [nodes_dagGraph, length_map, length_zipIdx, writtenLines, length_cons] at hlength
    have hcount : (mergeLines (segments p src inner) [(p.xidOf dst).unparse]).2.length =
        (segments p src inner).length := by omega
    exact closed_of_length hcount
  have hnodup (i : Nat) (hi : i < p.nodes.length) : (p.edgesOf i).Nodup := by
    have hout : ((dagGraph libc (writtenLines p src dst inner)).outOf (f i)).Nodup :=
      (proper_dagGraph hread).nodup (f i)
    rw [h.edges i hi] at hout
    exact hout.of_map
  rw [lines_of_closed hp horder haddr hclosed] at h
  have hsize := size_of_agrees hp horder haddr h
  have hnil {i : Nat} (hi : ¬ i < p.nodes.length) : p.edgesOf i = [] := by
    rw [edgesOf, getElem?_eq_none (not_lt.1 hi)]
    rfl
  refine ⟨hsize, fun i => ?_, fun i => ?_⟩
  · by_cases hi : i < p.nodes.length
    · have hmem := hp.mem_order.2 hi
      rw [horder] at hmem
      simp only [mem_cons, mem_append, not_mem_nil, or_false] at hmem
      rcases hmem with rfl | hinner | rfl
      · exact (indicesOf_eq hp hsize i).2.1 (hclosed _ mem_cons_self)
      · exact (indicesOf_eq hp hsize i).2.1 (hclosed _ (mem_cons_of_mem _
          (List.mem_map.2 ⟨i, hinner, rfl⟩)))
      · rw [(hp.outgoing i hi).2 rfl]
        decide
    · rw [hnil hi]
      decide
  · by_cases hi : i < p.nodes.length
    · exact hnodup i hi
    · rw [hnil hi]
      exact nodup_nil

end

/-! ### The router and the API -/

theorem apiReads_iff_of_chain (libc : Libc) (hp : p.Valid src dst) (haddr : IsAddressPath p)
    (hc : Chain p src hops) : ApiReads libc p ↔ ∀ h ∈ hops, h.1.length ≤ 1 := by
  have hne : hops ≠ [] := by
    rintro rfl
    cases hc with
    | nil hnil => exact hp.ne ((hp.outgoing src hp.src_lt).1 hnil)
  have hne' : hops.map p.hopOf ≠ [] := by simpa using hne
  have hunparse : p.unparse = .ok (['R', 'E', ' '] ++ reText (hops.map p.hopOf)) := by
    rw [XiaPath.unparse, (hp.unparseRe_iff (reText_ne_nil hne')).2 ⟨hops, hc, rfl⟩, Result.ok_bind,
      if_pos (reText_ne_nil hne')]
    rfl
  have hxids : ∀ x ∈ hopXids (hops.map p.hopOf), IsAddressXid x := by
    intro x hx
    rw [hopXids_map] at hx
    obtain ⟨i, hi, rfl⟩ := List.mem_map.1 hx
    refine haddr i (hp.lt_of_walk hc.walk (mem_cons_of_mem _ hi)) ?_
    rw [hp.src_eq]
    rintro ⟨⟩
    exact (nodup_cons.1 (hp.nodup_of_walk hc.walk)).1 hi
  obtain ⟨st, hread, htracks⟩ := ofString_reText libc hne' hxids
  rw [hopXids_map, hopSizes_map] at htracks
  constructor
  · rintro ⟨t, k, f, ht, hk, hagrees⟩
    rw [hunparse, Except.ok.injEq] at ht
    rw [← ht, hread, Except.ok.injEq] at hk
    rw [← hk] at hagrees
    exact fallbacks_of_agrees hp hc htracks hagrees
  · intro hsmall
    exact ⟨_, _, _, hunparse, hread, agrees_of_chain hp hc htracks hsmall⟩

theorem unparse_of_no_chain (hp : p.Valid src dst) (hno : ¬ ∃ hops, Chain p src hops) {t : Text}
    (ht : p.unparseDag = .ok t) : p.unparse = .ok (['D', 'A', 'G', ' '] ++ t) := by
  have hre : p.unparseRe = .ok [] := by
    have hstrays : ¬ p.Strays := by
      rintro ⟨-, -, -, -, -, -, -, k, ⟨e, he, hle⟩, -⟩
      exact absurd (hp.inRange k e he) (not_lt.2 hle)
    cases hloop : p.unparseRe with
    | error e => exact absurd hloop (unparseRe_inside hstrays)
    | ok s =>
      by_contra hs
      exact hno ⟨_, ((hp.unparseRe_iff fun heq => hs (by rw [heq])).1 hloop).choose_spec.1⟩
  rw [XiaPath.unparse, hre, Result.ok_bind, if_neg (by simp), ht]
  rfl

theorem apiReads_iff_of_no_chain (libc : Libc) (hp : p.Valid src dst) (haddr : IsAddressPath p)
    (hno : ¬ ∃ hops, Chain p src hops) : ApiReads libc p ↔ FitsDag p := by
  obtain ⟨inner, horder⟩ := hp.order_eq
  obtain ⟨t, ht, hlines⟩ := dagLines_unparse hp horder haddr
  have hunparse := unparse_of_no_chain hp hno ht
  have hdag : ['D', 'A', 'G'] <:+: ['D', 'A', 'G', ' '] ++ t :=
    (prefix_append ['D', 'A', 'G'] (' ' :: t)).isInfix
  have hread (k : Graph) : constructFromDagString libc (['D', 'A', 'G', ' '] ++ t) = .ok k ↔ _ :=
    constructFromDagString_eq_ok
  constructor
  · rintro ⟨t', k, f, ht', hk, hagrees⟩
    rw [hunparse, Except.ok.injEq] at ht'
    rw [← ht', ofString, if_pos hdag, hread, hlines] at hk
    obtain ⟨hreadable, rfl⟩ := hk
    exact fitsDag_of_agrees hp horder haddr hreadable hagrees
  · intro hfits
    have hclosed : ∀ s ∈ segments p src inner, s.2 = true := by
      intro s hs
      have hcloses (i : Nat) : closesAt p i = true :=
        (indicesOf_eq hp hfits.size i).2.2 (hfits.degree i)
      rcases mem_cons.1 hs with rfl | hs
      · exact hcloses src
      · obtain ⟨i, -, rfl⟩ := List.mem_map.1 hs
        exact hcloses i
    rw [lines_of_closed hp horder haddr hclosed] at hlines
    have hagrees : Agrees p.place p (dagGraph libc _) := agrees_of_printed hp horder haddr hfits
    refine ⟨_, _, p.place, hunparse, ?_, hagrees⟩
    rw [ofString, if_pos hdag, hread, hlines]
    exact ⟨(hfits.printable hp horder haddr).readableDag, rfl⟩

/-- **The API reads the address that the router has printed** exactly if the path is a chain of hops
without fallbacks of two nodes, or it is no such chain and fits the form with indices. -/
theorem api_reads_iff (libc : Libc) (hp : p.Valid src dst) (haddr : IsAddressPath p) :
    ApiReads libc p ↔ (∃ hops, Chain p src hops ∧ ∀ h ∈ hops, h.1.length ≤ 1) ∨
      ((¬ ∃ hops, Chain p src hops) ∧ FitsDag p) := by
  by_cases hchain : ∃ hops, Chain p src hops
  · obtain ⟨hops, hc⟩ := hchain
    constructor
    · exact fun h => .inl ⟨hops, hc, (apiReads_iff_of_chain libc hp haddr hc).1 h⟩
    · rintro (⟨hops', hc', hsmall⟩ | ⟨hno, -⟩)
      · exact (apiReads_iff_of_chain libc hp haddr hc').2 hsmall
      · exact absurd ⟨hops, hc⟩ hno
  · rw [apiReads_iff_of_no_chain libc hp haddr hchain]
    constructor
    · exact fun h => .inr ⟨hchain, h⟩
    · rintro (⟨hops, hc, -⟩ | ⟨-, h⟩)
      · exact absurd ⟨hops, hc⟩ hchain
      · exact h

def oneFallback : XiaPath :=
  .ofNodes [⟨⟨htonl Xid.typeAd, .replicate _ 1⟩, [1]⟩, ⟨⟨htonl Xid.typeSid, .replicate _ 2⟩, []⟩]
    ⟨Xid.zero, [1, 0]⟩

theorem api_reads_oneFallback : oneFallback.Valid 2 1 ∧ IsAddressPath oneFallback ∧
    ApiReads default oneFallback := by
  obtain ⟨src, dst, hp⟩ := XiaPath.isValid_iff.1 (by decide : oneFallback.isValid = .ok true)
  obtain rfl : 2 = src := some_inj.1 hp.src_eq
  obtain rfl : 1 = dst := some_inj.1 hp.dst_eq
  have haddr : IsAddressPath oneFallback := by
    unfold IsAddressPath IsAddressXid
    decide
  refine ⟨hp, haddr, (api_reads_iff default hp haddr).2 (.inl ⟨[([0], 1)], ?_, by decide⟩)⟩
  exact .fallback rfl (.last rfl) (.nil rfl)

def twoFallbacks : XiaPath :=
  .ofNodes [⟨⟨htonl Xid.typeAd, .replicate _ 1⟩, [2, 1]⟩,
    ⟨⟨htonl Xid.typeHid, .replicate _ 2⟩, [2]⟩,
    ⟨⟨htonl Xid.typeSid, .replicate _ 3⟩, []⟩] ⟨Xid.zero, [2, 0]⟩

/-- The API does not read the edge from the AD to the service. -/
theorem not_apiReads_twoFallbacks : twoFallbacks.isValid = .ok true ∧ IsAddressPath twoFallbacks ∧
    ∀ libc, ¬ ApiReads libc twoFallbacks := by
  have hvalid : twoFallbacks.isValid = .ok true := by decide
  have haddr : IsAddressPath twoFallbacks := by
    unfold IsAddressPath IsAddressXid
    decide
  refine ⟨hvalid, haddr, fun libc hreads => ?_⟩
  obtain ⟨src, dst, hp⟩ := XiaPath.isValid_iff.1 hvalid
  obtain rfl : 3 = src := some_inj.1 hp.src_eq
  have hc : Chain twoFallbacks 3 [([0, 1], 2)] := .fallback rfl (.next rfl (.last rfl)) (.nil rfl)
  exact absurd ((apiReads_iff_of_chain libc hp haddr hc).1 hreads) (by decide)

end Graph

end Dagaddr

end Xia
