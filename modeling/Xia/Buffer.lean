import Xia.Packet

/-!
# Packets as received

A `Received` is the buffer of a packet that arrived from the network.  Nothing has looked at it
except that the XIA header is there as a whole: `MarkXIAHeader` only sets the pointer to it.  What
the accessors of `XIAHeader` find behind the header is given by offsets into the buffer.

`Received.ofPacket` is the buffer of a `Packet`, on which they find what those of `Packet` do.
-/

namespace Xia

open List Option

/-- `sizeof(struct click_xia)`. -/
def fixedSize : Nat := 8

/-- `sizeof(struct click_xia_xid_node)`. -/
def nodeSize : Nat := 28

/-- The bytes of a packet that contains a complete XIA header. -/
structure Received where
  bytes : List UInt8
  complete : fixedSize + nodeSize * ((bytes.getD 5 0).toNat + (bytes.getD 6 0).toNat) ≤ bytes.length

namespace Received

variable (r : Received)

def nxt : UInt8 := r.bytes.getD 1 0

/-- The payload length, which is in network byte order. -/
def plen : Nat := (r.bytes.getD 2 0).toNat * 256 + (r.bytes.getD 3 0).toNat

def dnode : UInt8 := r.bytes.getD 5 0

def hlim : UInt8 := r.bytes.getD 4 0

def snode : UInt8 := r.bytes.getD 6 0

def last : Int8 := (r.bytes.getD 7 0).toInt8

/-- `XIAHeader::hdr_size`; the number of nodes is passed as a byte. -/
def hdrSize : Nat := fixedSize + nodeSize * (r.dnode + r.snode).toNat

/-- The `struct click_xia_xid` that the bytes begin with. -/
def xidOfBytes (b : List UInt8) : Xid :=
  ⟨UInt32.ofNat (leNat (b.take 4)), Vector.ofFn fun i => b.getD (4 + i) 0⟩

/-- A `struct click_xia_xid_edge`: the index, and the visited mark in the highest bit. -/
def edgeOfByte (b : UInt8) : XidEdge :=
  { XiaPath.wireEdge b.toNat with visited := 128 ≤ b.toNat }

/-- The `struct click_xia_xid_node` that the bytes begin with. -/
def nodeOfBytes (b : List UInt8) : XidNode :=
  ⟨xidOfBytes b, Vector.ofFn fun j => edgeOfByte (b.getD (24 + j) 0)⟩

/-- `hdr->node[i]`. -/
def node (i : Nat) : XidNode := nodeOfBytes (r.bytes.drop (fixedSize + nodeSize * i))

/-- The packet that the accessors see: the nodes that the header counts, and what follows the header
by its own size. -/
def packet : Packet where
  ver := r.bytes.getD 0 0
  nxt := r.nxt
  plen := UInt16.ofNat r.plen
  hlim := r.hlim
  last := r.last
  dnode := (List.range r.dnode.toNat).map r.node
  snode := (List.range r.snode.toNat).map fun i => r.node (r.dnode.toNat + i)
  body := r.bytes.drop r.hdrSize

def dstPath : XiaPath := r.packet.dstPath

def srcPath : XiaPath := r.packet.srcPath

/-- The loop of `XIAHeader::payload`, from the header of type `nxt` at offset `p` on. -/
def skipExtHeaders (buf : List UInt8) : Nat → UInt8 → Nat → Result Nat
  | 0, _, _ => .error .outOfBounds
  | fuel + 1, nxt, p => do
    if nxt < nxtNo then
      let next ← inBounds buf[p]?
      let hlen ← inBounds buf[p + 1]?
      if hlen = 0 then return p else skipExtHeaders buf fuel next (p + hlen.toNat)
    else return p

/-- `XIAHeader::payload`.  A header moves the offset by at least one, so that there are not more of
them than bytes. -/
def payload : Result Nat := skipExtHeaders r.bytes (r.bytes.length - r.hdrSize + 1) r.nxt r.hdrSize

/-- `TransportHeader(p)`. -/
def extHeader : Result ExtHeader := ExtHeader.parse (r.bytes.drop r.hdrSize)

/-- The arguments of `String payload(thdr.payload(), xiah.plen() - thdr.hlen())`: where the message
for the application begins, and its length. -/
def delivered : Result (Nat × Int) := do
  let thdr ← r.extHeader
  return (r.hdrSize + thdr.hlen.toNat, r.plen - thdr.hlen.toNat)

/-! ### The buffer of a packet -/

@[simp] theorem length_nodeBytes (n : XidNode) : (Packet.nodeBytes n).length = nodeSize := by
  simp [Packet.nodeBytes, nodeSize, xidIdLen, xidEdgeNum]

theorem length_flatMap_nodeBytes (l : List XidNode) :
    (l.flatMap Packet.nodeBytes).length = nodeSize * l.length := by
  induction l with
  | nil => rfl
  | cons n l ih => rw [flatMap_cons, length_append, ih, length_nodeBytes,
      length_cons, Nat.mul_succ, Nat.add_comm]

theorem length_hdrBytes (p : Packet) :
    p.hdrBytes.length = fixedSize + nodeSize * (p.dnode.length + p.snode.length) := by
  rw [Packet.hdrBytes, length_append, length_flatMap_nodeBytes, length_append]
  rfl

/-- The bytes of a packet, with as many nodes as the header can count. -/
def ofPacket (p : Packet) (h : p.dnode.length + p.snode.length ≤ 255) : Received where
  bytes := p.hdrBytes ++ p.body
  complete := by
    have hd : (UInt8.ofNat p.dnode.length).toNat = p.dnode.length := by
      rw [UInt8.toNat_ofNat']; omega
    have hs : (UInt8.ofNat p.snode.length).toNat = p.snode.length := by
      rw [UInt8.toNat_ofNat']; omega
    have hbytes : ((p.hdrBytes ++ p.body).getD 5 0).toNat +
        ((p.hdrBytes ++ p.body).getD 6 0).toNat = p.dnode.length + p.snode.length :=
      congrArg₂ (· + ·) hd hs
    rw [hbytes, length_append, length_hdrBytes]
    omega

section

variable {p : Packet} {h : p.dnode.length + p.snode.length ≤ 255}

@[simp] theorem nxt_ofPacket : (ofPacket p h).nxt = p.nxt := rfl

theorem hdrSize_ofPacket : (ofPacket p h).hdrSize = p.hdrBytes.length := by
  have hsum : ((ofPacket p h).dnode + (ofPacket p h).snode).toNat =
      p.dnode.length + p.snode.length := by
    change (UInt8.ofNat p.dnode.length + UInt8.ofNat p.snode.length).toNat = _
    rw [UInt8.toNat_add, UInt8.toNat_ofNat', UInt8.toNat_ofNat']
    omega
  rw [hdrSize, hsum, length_hdrBytes]

theorem drop_ofPacket (n : Nat) :
    (ofPacket p h).bytes.drop ((ofPacket p h).hdrSize + n) = p.body.drop n := by
  rw [hdrSize_ofPacket, ofPacket, drop_append]
  simp

@[simp] theorem hlim_ofPacket : (ofPacket p h).hlim = p.hlim := rfl

theorem dnode_ofPacket : (ofPacket p h).dnode.toNat = p.dnode.length := by
  change (UInt8.ofNat p.dnode.length).toNat = _
  rw [UInt8.toNat_ofNat']
  omega

theorem snode_ofPacket : (ofPacket p h).snode.toNat = p.snode.length := by
  change (UInt8.ofNat p.snode.length).toNat = _
  rw [UInt8.toNat_ofNat']
  omega

theorem edgeOfByte_ofNat (e : XidEdge) :
    edgeOfByte (UInt8.ofNat (e.idx.val + if e.visited then 128 else 0)) = e := by
  obtain ⟨⟨i, hi⟩, v⟩ := e
  cases v with
  | false =>
    have hval : (UInt8.ofNat i).toNat = i := by rw [UInt8.toNat_ofNat']; omega
    simp [edgeOfByte, XiaPath.wireEdge, hval, Fin.ofNat, Nat.mod_eq_of_lt hi, hi]
  | true =>
    have hval : (UInt8.ofNat (i + 128)).toNat = i + 128 := by rw [UInt8.toNat_ofNat']; omega
    rw [edgeOfByte, if_pos rfl, hval]
    simp [XiaPath.wireEdge, Fin.ofNat, Nat.mod_eq_of_lt hi]

theorem xidOfBytes_append (x : Xid) (d : List UInt8) :
    xidOfBytes (leBytes 4 x.type.toNat ++ x.id.toList ++ d) = x := by
  obtain ⟨type, id⟩ := x
  have htype : leNat ((leBytes 4 type.toNat ++ id.toList ++ d).take 4) = type.toNat := by
    rw [append_assoc, take_left' (length_leBytes 4 _), leNat_leBytes]
    exact Nat.mod_eq_of_lt type.toNat_lt
  have hid : (Vector.ofFn fun i : Fin xidIdLen =>
      (leBytes 4 type.toNat ++ id.toList ++ d).getD (4 + i) 0) = id := by
    ext i hi
    rw [Vector.getElem_ofFn, List.getD, append_assoc, getElem?_append_right (by simp),
      length_leBytes, getElem?_append_left (by simp; omega)]
    simp [hi]
  rw [xidOfBytes, htype, hid, UInt32.ofNat_toNat]

theorem nodeOfBytes_nodeBytes (n : XidNode) (d : List UInt8) :
    nodeOfBytes (Packet.nodeBytes n ++ d) = n := by
  obtain ⟨xid, edge⟩ := n
  have hlen : (leBytes 4 xid.type.toNat ++ xid.id.toList).length = 24 := by simp [xidIdLen]
  have hxid : xidOfBytes (Packet.nodeBytes ⟨xid, edge⟩ ++ d) = xid := by
    rw [Packet.nodeBytes, append_assoc]
    exact xidOfBytes_append xid _
  have hedge : (Vector.ofFn fun j : Fin xidEdgeNum =>
      edgeOfByte ((Packet.nodeBytes ⟨xid, edge⟩ ++ d).getD (24 + j) 0)) = edge := by
    apply Vector.ext
    intro j hj
    have hsub : 24 + j - (leBytes 4 xid.type.toNat ++ xid.id.toList).length = j := by omega
    rw [Vector.getElem_ofFn, List.getD, Packet.nodeBytes, append_assoc,
      getElem?_append_right (hlen.trans_le (Nat.le_add_right _ _)), hsub,
      getElem?_append_left (by simpa using hj), getElem?_map,
      getElem?_eq_getElem (by simpa using hj), map_some, getD_some,
      edgeOfByte_ofNat, Vector.getElem_toList]
  rw [nodeOfBytes, hxid, hedge]

theorem map_nodeOfBytes (l : List XidNode) (d : List UInt8) : (List.range l.length).map
      (fun i => nodeOfBytes ((l.flatMap Packet.nodeBytes ++ d).drop (nodeSize * i))) = l := by
  induction l with
  | nil => rfl
  | cons n l ih =>
    rw [length_cons, range_succ_eq_map, map_cons, List.map_map, flatMap_cons,
      append_assoc, Nat.mul_zero, drop_zero, nodeOfBytes_nodeBytes]
    congr 1
    refine Eq.trans (map_congr_left fun i _ => ?_) ih
    rw [Function.comp_apply, Nat.mul_succ, Nat.add_comm, ← drop_drop,
      drop_left' (length_nodeBytes n)]

theorem node_ofPacket (i : Nat) : (ofPacket p h).node i = nodeOfBytes
    (((p.dnode ++ p.snode).flatMap Packet.nodeBytes ++ p.body).drop (nodeSize * i)) := by
  have hdrop : (ofPacket p h).bytes.drop fixedSize =
      (p.dnode ++ p.snode).flatMap Packet.nodeBytes ++ p.body := rfl
  rw [node, ← drop_drop, hdrop]

@[simp] theorem plen_ofPacket : (ofPacket p h).plen = p.plen.toNat := by
  have hp := p.plen.toNat_lt
  change (UInt8.ofNat (p.plen.toNat / 256)).toNat * 256 + (UInt8.ofNat p.plen.toNat).toNat = _
  rw [UInt8.toNat_ofNat', UInt8.toNat_ofNat']
  omega

theorem drop_hdrSize : (ofPacket p h).bytes.drop (ofPacket p h).hdrSize = p.body :=
  drop_ofPacket 0

/-- **The packet is read back from the buffer.** -/
theorem packet_ofPacket : (ofPacket p h).packet = p := by
  have hdnode : (List.range p.dnode.length).map (ofPacket p h).node = p.dnode := by
    refine Eq.trans (map_congr_left fun i _ => ?_)
      (map_nodeOfBytes p.dnode (p.snode.flatMap Packet.nodeBytes ++ p.body))
    rw [node_ofPacket, flatMap_append, append_assoc]
  have hsnode : (List.range p.snode.length).map
      (fun i => (ofPacket p h).node (p.dnode.length + i)) = p.snode := by
    refine Eq.trans (map_congr_left fun i _ => ?_) (map_nodeOfBytes p.snode p.body)
    rw [node_ofPacket, Nat.mul_add, ← drop_drop, flatMap_append, append_assoc,
      drop_left' (length_flatMap_nodeBytes _)]
  have hplen : UInt16.ofNat (ofPacket p h).plen = p.plen := by
    rw [plen_ofPacket, UInt16.ofNat_toNat]
  have hlast : (ofPacket p h).last = p.last := p.last.toInt8_toUInt8
  simp only [packet, dnode_ofPacket, snode_ofPacket, hdnode, hsnode, hplen, hlast, drop_hdrSize,
    nxt_ofPacket, hlim_ofPacket]
  rfl

theorem dstPath_ofPacket : (ofPacket p h).dstPath = p.dstPath := by
  rw [dstPath, packet_ofPacket]

theorem srcPath_ofPacket : (ofPacket p h).srcPath = p.srcPath := by
  rw [srcPath, packet_ofPacket]

theorem map_skipExtHeaders (buf : List UInt8) (fuel : Nat) (nxt : UInt8) (q : Nat) :
    (skipExtHeaders buf fuel nxt q).map buf.drop = Packet.skipExtHeaders fuel nxt (buf.drop q) := by
  induction fuel generalizing nxt q with
  | zero => rfl
  | succ fuel ih =>
    unfold skipExtHeaders Packet.skipExtHeaders
    split
    · have hq : buf[q]? = (buf.drop q).head? := head?_drop.symm
      have hq' : buf[q + 1]? = (buf.drop q).tail.head? := by rw [tail_drop, head?_drop]
      rw [hq, hq']
      -- no byte, one byte, or the two bytes of the header
      rcases hd : buf.drop q with _ | ⟨next, _ | ⟨hlen, d⟩⟩
      · rfl
      · rfl
      · change (if hlen = 0 then _ else _ : Result Nat).map buf.drop = _
        dsimp only
        rw [← hd, drop_drop, ← ih]
        split_ifs <;> rfl
    · rfl

/-- **The payload is found where the packet has it.** -/
theorem map_payload_ofPacket :
    (ofPacket p h).payload.map (ofPacket p h).bytes.drop = p.payload := by
  rw [payload, map_skipExtHeaders, ← length_drop, drop_hdrSize, nxt_ofPacket, Packet.payload]

theorem extHeader_ofPacket : (ofPacket p h).extHeader = p.extHeader := by
  rw [extHeader, drop_hdrSize, Packet.extHeader]

end

end Received

end Xia
