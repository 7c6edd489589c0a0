import Xia.Encap

/-!
# The size of XIA headers

`headerSizes_iff`: the sizes that the encoder and the decoders use are the size of the header
exactly if it has at most 255 nodes, since the number of nodes is cut down to a byte.  With more of
them the encoder writes behind its memory, and what the decoders take for the payload begins inside
the header.

`encap_bytes` connects the memory of `XIAHeaderEncap` with `Packet.encap`, and `update_eq_ok_iff`
with the fault that it has for too many nodes.  `encode_readBack`: what was put in is read.
-/

namespace Xia

open List Result

theorem XiaPath.length_of_topologicalOrdering {p : XiaPath} {order : List Nat}
    (h : p.topologicalOrdering = .ok (some order)) : order.length = p.nodes.length := by
  obtain ⟨indegree, -, h⟩ := bind_eq_ok.1 h
  have hvisited := pure_eq_ok.1 h
  split at hvisited
  · rename_i hlen
    rw [← Option.some.inj hvisited, hlen]
  · cases hvisited

/-- The two paths can be written into one header. -/
def Encloses (dst src : XiaPath) : Prop :=
  ∃ dnode snode, dst.wireNodes = .ok dnode ∧ src.wireNodes = .ok snode ∧
    dnode.length + snode.length ≤ 255

theorem Packet.exists_encap_iff {nxt hlim : UInt8} {last : Int8} {plen : Nat} {dst src : XiaPath}
    {body : List UInt8} :
    (∃ p, Packet.encap nxt hlim last plen dst src body = .ok p) ↔ Encloses dst src := by
  constructor
  · rintro ⟨p, h⟩
    simp only [Packet.encap, bind_eq_ok] at h
    obtain ⟨dnode, hd, snode, hs, h⟩ := h
    refine ⟨dnode, snode, hd, hs, ?_⟩
    split at h
    · cases h
    · omega
  · rintro ⟨dnode, snode, hd, hs, hle⟩
    simp only [Packet.encap, hd, hs, ok_bind, if_neg (Nat.not_lt.2 hle)]
    exact ⟨_, rfl⟩

theorem XiaPath.length_wireNodes {p : XiaPath} {nodes : List XidNode}
    (h : p.wireNodes = .ok nodes) : nodes.length = p.unparseNodeSize := by
  obtain ⟨found, hfound, h⟩ := bind_eq_ok.1 h
  cases found with
  | none =>
    dsimp only at h
    split at h
    · rename_i hle
      rw [← pure_eq_ok.1 h, unparseNodeSize, length_nil]
      omega
    · cases h
  | some found =>
    rw [← pure_eq_ok.1 h]
    obtain ⟨ordered, hordered, hfound⟩ := bind_eq_ok.1 hfound
    cases ordered with
    | none => cases hfound
    | some order =>
      have hlen := length_of_topologicalOrdering hordered
      cases order with
      | nil =>
        cases hfound
        rw [unparseNodeSize, ← hlen]
        rfl
      | cons source order =>
        obtain ⟨nodes', hnodes', hsome⟩ := bind_eq_ok.1 hfound
        rw [← Option.some.inj (pure_eq_ok.1 hsome), unparseNodeSize, ← hlen]
        exact length_of_mapIdxM hnodes'

/-! ### The encoder -/

namespace HeaderEncap

variable {h : HeaderEncap} {fresh : Nat → UInt8} {dnode snode : List XidNode}

/-- The header with its counts and nodes, after the fixed fields that were there. -/
def filled (h : HeaderEncap) (dnode snode : List XidNode) : List UInt8 :=
  ((h.hdr.take fixedSize).set 5 (UInt8.ofNat dnode.length)).set 6 (UInt8.ofNat snode.length) ++
    (dnode ++ snode).flatMap Packet.nodeBytes

theorem length_filled (hlen : fixedSize ≤ h.hdr.length) :
    (h.filled dnode snode).length = fixedSize + nodeSize * (dnode.length + snode.length) := by
  rw [filled, length_append, length_set, length_set, length_take_of_le hlen,
    Received.length_flatMap_nodeBytes, length_append]

theorem write_nodes (dnode snode : List XidNode) {counts rest : List UInt8}
    (hcounts : counts.length = fixedSize)
    (hrest : rest.length = nodeSize * (dnode.length + snode.length)) :
    (do
      let newHdr ← writeAt fixedSize (dnode.flatMap Packet.nodeBytes) (counts ++ rest)
      writeAt (fixedSize + nodeSize * dnode.length) (snode.flatMap Packet.nodeBytes) newHdr) =
      .ok (counts ++ (dnode ++ snode).flatMap Packet.nodeBytes) := by
  generalize hdst : dnode.flatMap Packet.nodeBytes = dst
  generalize hsrc : snode.flatMap Packet.nodeBytes = src
  have hdstlen : dst.length = nodeSize * dnode.length := by
    rw [← hdst, Received.length_flatMap_nodeBytes]
  have hsrclen : src.length = nodeSize * snode.length := by
    rw [← hsrc, Received.length_flatMap_nodeBytes]
  rw [Nat.mul_add] at hrest
  have hend : (rest.drop dst.length).drop src.length = [] := by
    rw [drop_drop, hdstlen, hsrclen, ← hrest, drop_length]
  have hfirst := writeAt_append dst counts rest (by omega)
  have hsecond := writeAt_append src (counts ++ dst) (rest.drop dst.length)
    (by rw [length_drop]; omega)
  rw [hend, append_nil, length_append, hcounts, hdstlen] at hsecond
  rw [hcounts, hdstlen] at hfirst
  rw [hfirst, ok_bind, hsecond, flatMap_append, hdst, hsrc, append_assoc]

theorem update_eq (hd : h.dstPath.wireNodes = .ok dnode) (hs : h.srcPath.wireNodes = .ok snode)
    (hlen : fixedSize ≤ h.hdr.length) (htotal : dnode.length + snode.length ≤ 255) :
    h.update fresh = .ok { h with hdr := h.filled dnode snode } := by
  have hdlen := XiaPath.length_wireNodes hd
  have hslen := XiaPath.length_wireNodes hs
  have hsize : h.allocation = fixedSize + nodeSize * (dnode.length + snode.length) := by
    rw [allocation, hdrSize, UInt8.toNat_ofNat', ← hdlen, ← hslen, Nat.mod_eq_of_lt (by omega)]
  generalize hbuf : (List.range h.allocation).map fresh = buf
  have hbuflen : buf.length = fixedSize + nodeSize * (dnode.length + snode.length) := by
    rw [← hbuf, length_map, length_range, hsize]
  generalize hfix : h.hdr.take fixedSize = fix
  have hfixlen : fix.length = fixedSize := by rw [← hfix, length_take_of_le hlen]
  have hfixed : writeAt 0 fix buf = .ok (fix ++ buf.drop fixedSize) := by
    rw [← hfixlen]
    exact writeAt_append fix [] buf (by omega)
  have hnodes := write_nodes dnode snode
    (show ((fix.set 5 (UInt8.ofNat dnode.length)).set 6 (UInt8.ofNat snode.length)).length =
      fixedSize by rw [length_set, length_set, hfixlen])
    (show (buf.drop fixedSize).length = _ by
      rw [length_drop, hbuflen, Nat.add_sub_cancel_left])
  rw [update, filled, ← hdlen, ← hslen, hfix, hbuf, hfixed, ok_bind,
    writeAt_singleton_append _ _ (by rw [hfixlen]; decide), ok_bind,
    writeAt_singleton_append _ _ (by rw [length_set, hfixlen]; decide), ok_bind, hd,
    ok_bind, hs]
  obtain ⟨newHdr, hdst, hsrc⟩ := bind_eq_ok.1 hnodes
  rw [hdst, ok_bind, ok_bind, hsrc]
  rfl

/-- **The encoder stays in its memory exactly with at most 255 nodes.** -/
theorem update_eq_ok_iff (hd : h.dstPath.wireNodes = .ok dnode)
    (hs : h.srcPath.wireNodes = .ok snode) (hlen : fixedSize ≤ h.hdr.length) :
    (∃ h', h.update fresh = .ok h') ↔ dnode.length + snode.length ≤ 255 := by
  constructor
  · rintro ⟨h', hok⟩
    have hdlen := XiaPath.length_wireNodes hd
    have hslen := XiaPath.length_wireNodes hs
    simp only [update, bind_eq_ok, hd, hs] at hok
    obtain ⟨b₀, hw₀, b₁, hw₁, b₂, hw₂, dst, hdst, b₃, hw₃, src, hsrc, b₄, hw₄, -⟩ := hok
    cases hsrc
    -- all four copies before the last one have left the size as it was
    have hend := (length_of_writeAt hw₄).1
    rw [(length_of_writeAt hw₃).2, (length_of_writeAt hw₂).2, (length_of_writeAt hw₁).2,
      (length_of_writeAt hw₀).2, length_map, length_range, allocation, hdrSize,
      UInt8.toNat_ofNat', Received.length_flatMap_nodeBytes, ← hdlen, ← hslen] at hend
    unfold nodeSize at hend
    omega
  · exact fun htotal => ⟨_, update_eq hd hs hlen htotal⟩

theorem filled_new (dst src : XiaPath) (dnode snode : List XidNode) :
    (mk ((mk new.hdr dst .empty).filled dnode []) dst src).filled dnode snode =
      [1, nxtNo, 0, 0, 250, UInt8.ofNat dnode.length, UInt8.ofNat snode.length, 255] ++
        (dnode ++ snode).flatMap Packet.nodeBytes := rfl

/-- The calls with which an element makes a packet. -/
def encode (fresh fresh' : Nat → UInt8) (dst src : XiaPath) (p : Packet) : Result (List UInt8) := do
  let h ← new.setDstPath fresh dst
  let h ← h.setSrcPath fresh' src
  let h := (((h.setNxt p.nxt).setPlen p.plen).setLast p.last).setHlim p.hlim
  h.encap p.body false

variable {nxt hlim : UInt8} {last : Int8} {plen : Nat} {dst src : XiaPath} {body : List UInt8}
variable {p : Packet}

theorem length_le_of_encap (hok : Packet.encap nxt hlim last plen dst src body = .ok p) :
    p.dnode.length + p.snode.length ≤ 255 := by
  obtain ⟨dnode, snode, hd, hs, rfl⟩ := Packet.encap_eq_ok hok
  by_contra hmany
  rw [Packet.encap, hd, ok_bind, hs, ok_bind, if_pos (not_le.1 hmany)] at hok
  cases hok

/-- **The memory of the encoder is the header of the packet.** -/
theorem encap_bytes (fresh fresh' : Nat → UInt8)
    (hok : Packet.encap nxt hlim last plen dst src body = .ok p) :
    encode fresh fresh' dst src p = .ok (p.hdrBytes ++ p.body) := by
  have htotal := length_le_of_encap hok
  obtain ⟨dnode, snode, hd, hs, rfl⟩ := Packet.encap_eq_ok hok
  have hempty : XiaPath.empty.wireNodes = .ok [] := rfl
  have hnew : fixedSize ≤ (HeaderEncap.mk new.hdr dst .empty).hdr.length := Nat.le_refl 8
  have hdst : new.setDstPath fresh dst =
      .ok ⟨(HeaderEncap.mk new.hdr dst .empty).filled dnode [], dst, .empty⟩ :=
    update_eq hd hempty hnew (Nat.le_of_add_right_le htotal)
  rw [encode, hdst, ok_bind, setSrcPath,
    update_eq (h := ⟨_, dst, src⟩) hd hs (by rw [length_filled hnew]; omega) htotal,
    ok_bind, filled_new]
  -- only the fixed fields were changed since, and those of the packet are there now
  set q : Packet := ⟨1, nxt, UInt16.ofNat plen, hlim, last, dnode, snode, body⟩
  have hsize : hdrSize (UInt8.ofNat dnode.length + UInt8.ofNat snode.length) =
      q.hdrBytes.length := by
    rw [Received.length_hdrBytes, hdrSize, ← UInt8.ofNat_add, UInt8.toNat_ofNat',
      Nat.mod_eq_of_lt (Nat.lt_succ_of_le htotal)]
  have hread := readAt_eq_ok.2 ⟨(Nat.zero_add _).trans_le hsize.le, rfl⟩
  rw [drop_zero, hsize, take_length] at hread
  change (do
    let hdr ← readAt q.hdrBytes 0 (hdrSize (UInt8.ofNat dnode.length + UInt8.ofNat snode.length))
    pure (hdr ++ body) : Result (List UInt8)) = _
  rw [hsize, hread]
  rfl

/-- `XIAHeader` reads the bytes that `XIAHeaderEncap` has made as the packet, whatever was in its
memory: the fields, the paths, and the payload behind the extension headers. -/
theorem encode_readBack (fresh fresh' : Nat → UInt8)
    (hok : Packet.encap nxt hlim last plen dst src body = .ok p) :
    ∃ r : Received, encode fresh fresh' dst src p = .ok r.bytes ∧
      r.nxt = nxt ∧ r.hlim = hlim ∧ r.last = last ∧ r.plen = plen % 2 ^ 16 ∧
      r.dstPath = p.dstPath ∧ r.srcPath = p.srcPath ∧ r.payload.map r.bytes.drop = p.payload := by
  have hbytes := encap_bytes fresh fresh' hok
  have htotal := length_le_of_encap hok
  obtain ⟨dnode, snode, -, -, rfl⟩ := Packet.encap_eq_ok hok
  refine ⟨.ofPacket _ htotal, hbytes, rfl, rfl, last.toInt8_toUInt8, ?_,
    Received.dstPath_ofPacket, Received.srcPath_ofPacket, Received.map_payload_ofPacket⟩
  rw [Received.plen_ofPacket, UInt16.toNat_ofNat']

/-- A packet to and from a host. -/
theorem encode_readBack_host :
    let host : XiaPath := .ofNodes [⟨⟨htonl Xid.typeHid, .replicate _ 1⟩, []⟩] ⟨Xid.zero, [0]⟩
    ∃ p, Packet.encap nxtNo 250 (-1) 3 host host [1, 2, 3] = .ok p ∧
      ∃ r : Received, encode 0 1 host host p = .ok r.bytes ∧ r.dstPath = p.dstPath := by
  intro host
  obtain ⟨p, hp⟩ : ∃ p, Packet.encap nxtNo 250 (-1) 3 host host [1, 2, 3] = .ok p := ⟨_, rfl⟩
  obtain ⟨r, hr, -, -, -, -, hdst, -⟩ := encode_readBack 0 1 hp
  exact ⟨p, hp, r, hr, hdst⟩

end HeaderEncap

/-! ### The sizes -/

theorem Received.le_of_skipExtHeaders {buf : List UInt8} {fuel : Nat} {nxt : UInt8} {p q : Nat}
    (h : skipExtHeaders buf fuel nxt p = .ok q) : p ≤ q := by
  induction fuel generalizing nxt p with
  | zero => cases h
  | succ fuel ih =>
    unfold skipExtHeaders at h
    split at h
    · obtain ⟨next, -, h⟩ := bind_eq_ok.1 h
      obtain ⟨hlen, -, h⟩ := bind_eq_ok.1 h
      split at h
      · exact (pure_eq_ok.1 h).le
      · exact (Nat.le_add_right p _).trans (ih h)
    · exact (pure_eq_ok.1 h).le

/-- Every size that is computed for a header of `dnode` and `snode` nodes is its size.  So the
encoder succeeds as soon as it has the two lists, and the payload lies behind the header. -/
structure HeaderSizes (dnode snode : UInt8) : Prop where
  allocation : ∀ h : HeaderEncap, h.dstPath.unparseNodeSize = dnode.toNat →
    h.srcPath.unparseNodeSize = snode.toNat →
      h.allocation = fixedSize + nodeSize * (dnode.toNat + snode.toNat)
  update : ∀ (h : HeaderEncap) (fresh : Nat → UInt8) (dnodes snodes : List XidNode),
    fixedSize ≤ h.hdr.length → h.dstPath.wireNodes = .ok dnodes → dnodes.length = dnode.toNat →
      h.srcPath.wireNodes = .ok snodes → snodes.length = snode.toNat → ∃ h', h.update fresh = .ok h'
  encap : ∀ h : HeaderEncap, h.dnode = dnode → h.snode = snode →
    h.size = fixedSize + nodeSize * (dnode.toNat + snode.toNat)
  decode : ∀ r : Received, r.dnode = dnode → r.snode = snode →
    r.hdrSize = fixedSize + nodeSize * (dnode.toNat + snode.toNat) ∧
    r.nextHeader = fixedSize + nodeSize * (dnode.toNat + snode.toNat) ∧
    r.markXiaHeader = fixedSize + nodeSize * (dnode.toNat + snode.toNat)
  payload : ∀ (r : Received) (q : Nat), r.dnode = dnode → r.snode = snode → r.payload = .ok q →
    fixedSize + nodeSize * (dnode.toNat + snode.toNat) ≤ q

theorem hdrSize_add (dnode snode : UInt8) :
    hdrSize (dnode + snode) = fixedSize + nodeSize * ((dnode.toNat + snode.toNat) % 256) := by
  rw [hdrSize, UInt8.toNat_add]

/-- **The sizes are right exactly with at most 255 nodes.** -/
theorem headerSizes_iff (dnode snode : UInt8) :
    HeaderSizes dnode snode ↔ dnode.toNat + snode.toNat ≤ 255 := by
  constructor
  · intro h
    obtain ⟨e, hd, hs⟩ : ∃ e : HeaderEncap, e.dnode = dnode ∧ e.snode = snode :=
      ⟨⟨[0, 0, 0, 0, 0, dnode, snode, 0], .empty, .empty⟩, rfl, rfl⟩
    have hsize := h.encap e hd hs
    rw [HeaderEncap.size, hd, hs, hdrSize_add] at hsize
    unfold nodeSize at hsize
    omega
  · intro htotal
    have hsize : hdrSize (dnode + snode) = fixedSize + nodeSize * (dnode.toNat + snode.toNat) := by
      rw [hdrSize_add, Nat.mod_eq_of_lt (by omega)]
    have hdecode (r : Received) (hd : r.dnode = dnode) (hs : r.snode = snode) :
        r.hdrSize = fixedSize + nodeSize * (dnode.toNat + snode.toNat) := by
      rw [← hsize, ← hd, ← hs]
      rfl
    refine ⟨fun h hd hs => ?_, fun h fresh dnodes snodes hlen hd hdlen hs hslen => ?_,
      fun h hd hs => ?_, fun r hd hs => ⟨hdecode r hd hs, hdecode r hd hs, hdecode r hd hs⟩,
      fun r q hd hs hq => ?_⟩
    · rw [← hsize, HeaderEncap.allocation, hd, hs, UInt8.ofNat_add, UInt8.ofNat_toNat,
        UInt8.ofNat_toNat]
    · exact (HeaderEncap.update_eq_ok_iff hd hs hlen).2 (by omega)
    · rw [HeaderEncap.size, hd, hs, hsize]
    · rw [← hdecode r hd hs]
      exact Received.le_of_skipExtHeaders hq

/-- With 200 nodes in the one list and 56 in the other, the size is that of a header with none. -/
theorem not_headerSizes_many : ¬ HeaderSizes 200 56 := by
  intro h
  have hsize := h.encap ⟨[0, 0, 0, 0, 0, 200, 56, 0], .empty, .empty⟩ rfl rfl
  revert hsize
  decide

end Xia
