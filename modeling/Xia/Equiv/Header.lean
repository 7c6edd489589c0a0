import Xia.Equiv.Path

/-!
# The round trip of the XIA header

`XIAHeaderEncap` writes the nodes of a path in their topological order and stores the edges of the
source in the entry of the destination; `dst_path` and `src_path` undo that.  A header with two
valid paths that it can number is read back as these paths, with their nodes renumbered
(`encap_roundTrip`).  The XID of the source node does not travel: the source that is read has the
null XID.

`Ordered` is the order of the encoded list, which forwarding relies on: every edge that is used
leads forward, those of the source, in the last entry, apart.
-/

namespace Xia

open List Option

def XidEdge.Used (e : XidEdge) : Prop := e.idx.val ≠ xidEdgeUnused

instance (e : XidEdge) : Decidable e.Used := inferInstanceAs (Decidable (_ ≠ _))

/-- The order of an encoded node list. -/
structure Ordered (nodes : List XidNode) : Prop where
  inRange : ∀ (i : Nat) (n : XidNode), nodes[i]? = some n → ∀ j : Fin xidEdgeNum,
    n.edge[j].Used → n.edge[j].idx.val < nodes.length
  forward : ∀ (i : Nat) (n : XidNode), nodes[i]? = some n → i + 1 < nodes.length →
    ∀ j : Fin xidEdgeNum, n.edge[j].Used → i < n.edge[j].idx.val
  packed : ∀ n ∈ nodes, ∀ j k : Fin xidEdgeNum, j ≤ k → n.edge[k].Used → n.edge[j].Used

namespace XiaPath

variable {p : XiaPath} {src dst : Nat}

/-- The node list stands for the path `p`, and `q` is what is read from it: the path with its nodes
renumbered by their place in the list, and the source without its XID. -/
structure Encoded (p : XiaPath) (nodes : List XidNode) (q : XiaPath) : Prop where
  length : nodes.length + 1 = p.nodes.length
  iso : ∃ f, Iso f p q ∧ p.dst.map f = some (nodes.length - 1) ∧ p.src.map f = some nodes.length ∧
    ∀ i < p.nodes.length, p.src ≠ some i → (nodes[f i]?).map XidNode.xid = some (p.xidOf i)
  source : q.xid q.src = .ok Xid.zero
  ordered : Ordered nodes

/-! ### The edges of an entry -/

theorem Valid.wireVector_idx (hp : p.Valid src dst) (hlen : p.nodes.length ≤ xidEdgeUnused + 1)
    (i : Nat) (j : Fin xidEdgeNum) :
    (∃ e, (p.edgesOf i)[j.val]? = some e ∧
      (p.wireVector (p.edgesOf i))[j].idx.val = p.place e - 1) ∨
    ((p.edgesOf i).length ≤ j.val ∧ ¬ (p.wireVector (p.edgesOf i))[j].Used) := by
  have hget : (p.wireVector (p.edgesOf i))[j] =
      wireEdge (((p.edgesOf i).map fun e => p.place e - 1).getD j xidEdgeUnused) := by
    simp [wireVector]
  rw [hget]
  cases he : (p.edgesOf i)[j.val]? with
  | some e =>
    have hmem := mem_of_getElem? he
    have hpos := hp.place_lt hmem
    have hlt := hp.place_lt_length (hp.inRange i e hmem)
    refine .inl ⟨e, rfl, ?_⟩
    rw [getD_eq_getElem?_getD, getElem?_map, he, map_some, getD_some]
    exact Nat.mod_eq_of_lt (by rw [xidEdgeUnused] at hlen; omega)
  | none =>
    have hge := List.getElem?_eq_none_iff.1 he
    refine .inr ⟨hge, ?_⟩
    rw [getD_eq_default _ _ (by simpa using hge)]
    exact fun hused => hused rfl

theorem Valid.wireVector_used (hp : p.Valid src dst) (hlen : p.nodes.length ≤ xidEdgeUnused + 1)
    {i : Nat} {j : Fin xidEdgeNum} (hused : (p.wireVector (p.edgesOf i))[j].Used) :
    j.val < (p.edgesOf i).length ∧ p.place i ≤ (p.wireVector (p.edgesOf i))[j].idx.val ∧
      (p.wireVector (p.edgesOf i))[j].idx.val + 1 < p.nodes.length := by
  rcases hp.wireVector_idx hlen i j with ⟨e, he, hidx⟩ | ⟨-, hno⟩
  · have hmem := mem_of_getElem? he
    have hpos := hp.place_lt hmem
    have hlt := hp.place_lt_length (hp.inRange i e hmem)
    refine ⟨(List.getElem?_eq_some_iff.1 he).1, ?_, ?_⟩
    · rw [hidx]
      omega
    · rw [hidx]
      omega
  · exact absurd hused hno

theorem Valid.getElem?_wireNodes (hp : p.Valid src dst) {k : Nat} {n : XidNode}
    (hk : (p.order.tail.map (p.wireEntry src dst))[k]? = some n) :
    ∃ i < p.nodes.length, p.place i = k + 1 ∧ n = p.wireEntry src dst i := by
  rw [getElem?_map, map_eq_some_iff] at hk
  obtain ⟨i, hi, rfl⟩ := hk
  obtain ⟨rest, hrest⟩ := hp.order_eq_cons
  rw [hrest, tail_cons] at hi
  have hget : p.order[k + 1]? = some i := by rw [hrest, getElem?_cons_succ, hi]
  obtain ⟨hlt, hget'⟩ := List.getElem?_eq_some_iff.1 hget
  have hmem := hp.mem_order.1 (mem_of_getElem? hget)
  refine ⟨i, hmem, ?_, rfl⟩
  rw [place, ← hget']
  exact (visited_order hp.inRange).nodup.idxOf_getElem _ _

/-- **The encoded list is in order.** -/
theorem Valid.ordered (hp : p.Valid src dst) (hlen : p.nodes.length ≤ xidEdgeUnused + 1) :
    Ordered (p.order.tail.map (p.wireEntry src dst)) := by
  have hlength : (p.order.tail.map (p.wireEntry src dst)).length = p.nodes.length - 1 := by
    rw [length_map, length_tail, hp.order_length]
  constructor
  · intro k n hk j hused
    obtain ⟨i, -, -, rfl⟩ := hp.getElem?_wireNodes hk
    have hspec := hp.wireVector_used hlen hused
    rw [hlength]
    have hidx := hspec.2.2
    show (p.wireVector _)[j].idx.val < _
    omega
  · intro k n hk hlast j hused
    obtain ⟨i, hi, hplace, rfl⟩ := hp.getElem?_wireNodes hk
    -- the entry is not the last one, so its node is not the destination
    have hne : i ≠ dst := by
      rintro rfl
      have hdst := hp.place_dst
      omega
    rw [wireEntry, if_neg hne] at hused ⊢
    have hspec := (hp.wireVector_used hlen hused).2.1
    show k < (p.wireVector _)[j].idx.val
    omega
  · intro n hn j k hjk hused
    obtain ⟨i, hi⟩ := getElem?_of_mem hn
    obtain ⟨i, -, -, rfl⟩ := hp.getElem?_wireNodes hi
    have hlt := (hp.wireVector_used hlen hused).1
    show (p.wireVector _)[j].Used
    rcases hp.wireVector_idx hlen _ j with ⟨e, he, hidx⟩ | ⟨hge, -⟩
    · have hmem := mem_of_getElem? he
      have hpos := hp.place_lt hmem
      have hbound := hp.place_lt_length (hp.inRange _ e hmem)
      rw [XidEdge.Used, hidx]
      omega
    · have hjk' : j.val ≤ k.val := hjk
      omega

/-- **The node list of a valid path stands for it.** -/
theorem Valid.encoded (hp : p.Valid src dst) (hlen : p.nodes.length ≤ xidEdgeUnused + 1) :
    Encoded p (p.order.tail.map (p.wireEntry src dst))
      (parseNode (p.order.tail.map (p.wireEntry src dst))) where
  length := by
    have hpos := hp.src_lt
    rw [length_map, length_tail, hp.order_length]
    omega
  iso := by
    have hlength : (p.order.tail.map (p.wireEntry src dst)).length = p.nodes.length - 1 := by
      rw [length_map, length_tail, hp.order_length]
    refine ⟨p.wireIndex src, hp.iso_parseNode hlen, ?_, ?_, fun i hi hsrc => ?_⟩
    · have hdst := hp.place_dst
      rw [hp.dst_eq, map_some, wireIndex, if_neg hp.ne.symm, hlength]
      congr 1
      omega
    · rw [hp.src_eq, map_some, wireIndex, if_pos rfl, hlength]
    · have hne : i ≠ src := fun heq => hsrc (heq ▸ hp.src_eq)
      have hpos := hp.place_pos hi hne
      obtain ⟨rest, hrest⟩ := hp.order_eq_cons
      have hget := hp.order_getElem? hi
      rw [hrest, show p.place i = (p.place i - 1) + 1 by omega, getElem?_cons_succ] at hget
      rw [wireIndex, if_neg hne, getElem?_map, hrest, tail_cons, hget]
      rfl
  source := by
    rw [hp.parseNode_eq hlen, ofNodes, xid]
    simp [inBounds]
  ordered := hp.ordered hlen

end XiaPath

namespace Packet

open XiaPath

/-- **A header with two valid paths is read back as these paths.** -/
theorem encap_roundTrip (nxt hlim : UInt8) (last : Int8) (plen : Nat) (dst src : XiaPath)
    (body : List UInt8) (hdst : dst.isValid = .ok true) (hsrc : src.isValid = .ok true)
    (hdlen : dst.nodes.length - 1 ≤ 127) (hslen : src.nodes.length - 1 ≤ 127)
    (hlen : (dst.nodes.length - 1) + (src.nodes.length - 1) ≤ 255) :
    ∃ p, encap nxt hlim last plen dst src body = .ok p ∧
      Encoded dst p.dnode p.dstPath ∧ Encoded src p.snode p.srcPath := by
  obtain ⟨dsrc, ddst, hd⟩ := isValid_iff.1 hdst
  obtain ⟨ssrc, sdst, hs⟩ := isValid_iff.1 hsrc
  have hde := hd.encoded (by rw [xidEdgeUnused]; omega)
  have hse := hs.encoded (by rw [xidEdgeUnused]; omega)
  have hfit : ¬ 255 < (dst.order.tail.map (dst.wireEntry dsrc ddst)).length +
      (src.order.tail.map (src.wireEntry ssrc sdst)).length := by
    have h₁ := hde.length
    have h₂ := hse.length
    omega
  refine ⟨⟨1, nxt, UInt16.ofNat plen, hlim, last, _, _, body⟩, ?_, hde, hse⟩
  rw [encap, hd.wireNodes, Result.ok_bind, hs.wireNodes, Result.ok_bind, if_neg hfit]
  rfl

/-- A path with a fallback and one with the source behind its nodes. -/
theorem encap_roundTrip_fallback :
    ∃ p, encap nxtNo 250 (-1) 0 (parseRe "( AD:01 HID:02 ) SID:0a".toList).2
        (parseRe "AD:03 HID:04".toList).2 [] = .ok p ∧
      Encoded (parseRe "( AD:01 HID:02 ) SID:0a".toList).2 p.dnode p.dstPath ∧
      Encoded (parseRe "AD:03 HID:04".toList).2 p.snode p.srcPath :=
  encap_roundTrip _ _ _ _ _ _ _ (by decide +kernel) (by decide +kernel) (by decide +kernel)
    (by decide +kernel) (by decide +kernel)

def namedSource : XiaPath :=
  ⟨[⟨⟨htonl Xid.typeAd, Vector.replicate xidIdLen 1⟩, []⟩,
    ⟨⟨htonl Xid.typeHid, Vector.replicate xidIdLen 2⟩, [0]⟩], some 1, some 0⟩

/-- The XID of the source node is lost. -/
theorem source_xid_lost : namedSource.isValid = .ok true ∧
    ∃ p, encap nxtNo 250 (-1) 0 namedSource namedSource [] = .ok p ∧
      ¬ ∃ f, Iso f namedSource p.dstPath ∧
        ∀ i < namedSource.nodes.length, p.dstPath.xidOf (f i) = namedSource.xidOf i := by
  obtain ⟨p, hp, hsrc, hxid⟩ : ∃ p, encap nxtNo 250 (-1) 0 namedSource namedSource [] = .ok p ∧
      p.dstPath.src = some 1 ∧ p.dstPath.xidOf 1 = Xid.zero := by decide +kernel
  refine ⟨by decide +kernel, p, hp, ?_⟩
  rintro ⟨f, hiso, hxids⟩
  have hf : f 1 = 1 := by
    have hmap := hiso.src
    rw [hsrc] at hmap
    exact (Option.some.inj hmap).symm
  have hlost := hxids 1 (by decide)
  rw [hf, hxid] at hlost
  revert hlost
  decide

end Packet

end Xia
