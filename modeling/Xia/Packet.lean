import Xia.XiaPath
import Xia.ExtHeader

/-!
# Packets

A `Packet` is the XIA header of a packet, with the two node lists as they stand on the wire, and
the bytes that follow it: an extension header and the data behind it.

`Packet.encap` is what `XIAHeaderEncap` does with its setters and `encap`.
-/

namespace Xia

def nxtCid : UInt8 := 12
def nxtTrn : UInt8 := 60
def nxtXcmp : UInt8 := 61

/-- A packet: the fields of `struct click_xia` and what follows it.  The numbers `dnode` and `snode`
of the header are the lengths of the two lists. -/
structure Packet where
  ver : UInt8
  nxt : UInt8
  plen : UInt16
  hlim : UInt8
  last : Int8
  dnode : List XidNode
  snode : List XidNode
  body : List UInt8
deriving DecidableEq

/-- `XIAPath::unparse_node` as `XIAHeaderEncap::update` calls it: a path that cannot be ordered
violates the assertion, unless its list is empty. -/
def XiaPath.wireNodes (p : XiaPath) : Result (List XidNode) := do
  match ← p.unparseNode with
  | some nodes => return nodes
  | none => if p.nodes.length ≤ 1 then return [] else throw .assertFailed

/-- The bytes of a C string constant, `strlen` many. -/
def cBytes (s : String) : List UInt8 := s.toList.map fun c => UInt8.ofNat c.toNat

/-- Copy `n` bytes from a buffer.  Behind its end lies whatever the memory holds there
(`beyond`). -/
def readBytes (beyond : Nat → UInt8) (buf : List UInt8) (n : Nat) : List UInt8 :=
  buf.take n ++ (List.range (n - buf.length)).map beyond

@[simp] theorem readBytes_length (beyond : Nat → UInt8) (buf : List UInt8) :
    readBytes beyond buf buf.length = buf := by
  simp [readBytes]

/-- `String(buf, len)`: a negative length means a C string. -/
def readString (beyond : Nat → UInt8) (buf : List UInt8) (len : Int) : List UInt8 :=
  if len < 0 then buf.takeWhile (· ≠ 0) else readBytes beyond buf len.toNat

namespace Packet

/-- `XIAHeaderEncap`: the packet with the given header fields and paths around `body`.  More nodes
than the header can count are written outside of it. -/
def encap (nxt hlim : UInt8) (last : Int8) (plen : Nat) (dstPath srcPath : XiaPath)
    (body : List UInt8) : Result Packet := do
  let dnode ← dstPath.wireNodes
  let snode ← srcPath.wireNodes
  if 255 < dnode.length + snode.length then throw .outOfBounds
  else return { ver := 1, nxt, plen := UInt16.ofNat plen, hlim, last, dnode, snode, body }

/-- The packet as it leaves the network: on the way `last` is moved to the destination and the hop
limit counted down. -/
def arrive (hlim : UInt8) (p : Packet) : Packet :=
  { p with last := Int8.ofNat (p.dnode.length - 1), hlim }

def dstPath (p : Packet) : XiaPath := XiaPath.parseNode p.dnode

def srcPath (p : Packet) : XiaPath := XiaPath.parseNode p.snode

/-- `hdr()->node[last()].xid`. -/
def lastXid (p : Packet) : Result Xid :=
  if p.last < 0 then .error .outOfBounds
  else inBounds (((p.dnode ++ p.snode)[p.last.toInt.toNat]?).map XidNode.xid)

/-- `TransportHeader(p)` and `ContentHeader(p)`. -/
def extHeader (p : Packet) : Result ExtHeader := ExtHeader.parse p.body

/-- `TransportHeader::payload()`. -/
def extPayload (p : Packet) (h : ExtHeader) : List UInt8 := p.body.drop h.hlen.toNat

/-- The loop of `XIAHeader::payload`. -/
def skipExtHeaders : Nat → UInt8 → List UInt8 → Result (List UInt8)
  | 0, _, _ => .error .outOfBounds
  | fuel + 1, nxt, d =>
    if nxt < nxtNo then
      match d with
      | nxt :: hlen :: _ => if hlen = 0 then .ok d else skipExtHeaders fuel nxt (d.drop hlen.toNat)
      | _ => .error .outOfBounds
    else .ok d

/-- `XIAHeader::payload`: what follows the extension headers.  A transport header is not one of
them. -/
def payload (p : Packet) : Result (List UInt8) := skipExtHeaders (p.body.length + 1) p.nxt p.body

theorem skipExtHeaders_append {nxt next hlen : UInt8} {hdr entries payload : List UInt8}
    (hnxt : nxt < nxtNo) (hhdr : hdr = next :: hlen :: entries) (hlength : hdr.length = hlen.toNat)
    (hzero : hlen ≠ 0) (hnext : ¬ next < nxtNo) :
    skipExtHeaders ((hdr ++ payload).length + 1) nxt (hdr ++ payload) = .ok payload := by
  have hdrop : (hdr ++ payload).drop hlen.toNat = payload := List.drop_left' hlength
  rw [hhdr] at hdrop ⊢
  simp only [List.cons_append, List.length_cons] at hdrop ⊢
  unfold skipExtHeaders
  rw [if_pos hnxt]
  dsimp only
  rw [if_neg hzero, hdrop]
  unfold skipExtHeaders
  rw [if_neg hnext]

def nodeBytes (n : XidNode) : List UInt8 :=
  leBytes 4 n.xid.type.toNat ++ n.xid.id.toList ++
    n.edge.toList.map fun e => UInt8.ofNat (e.idx.val + if e.visited then 128 else 0)

/-- The bytes of the XIA header; the payload length is in network byte order. -/
def hdrBytes (p : Packet) : List UInt8 :=
  [p.ver, p.nxt, UInt8.ofNat (p.plen.toNat / 256), UInt8.ofNat p.plen.toNat, p.hlim,
    UInt8.ofNat p.dnode.length, UInt8.ofNat p.snode.length, p.last.toUInt8] ++
    (p.dnode ++ p.snode).flatMap nodeBytes

theorem encap_eq_ok {nxt hlim : UInt8} {last : Int8} {plen : Nat} {dst src : XiaPath}
    {body : List UInt8} {p : Packet} (h : encap nxt hlim last plen dst src body = .ok p) :
    ∃ dnode snode, dst.wireNodes = .ok dnode ∧ src.wireNodes = .ok snode ∧
      p = ⟨1, nxt, UInt16.ofNat plen, hlim, last, dnode, snode, body⟩ := by
  simp only [encap, Result.bind_eq_ok] at h
  obtain ⟨dnode, hd, snode, hs, h⟩ := h
  refine ⟨dnode, snode, hd, hs, ?_⟩
  split at h
  · cases h
  · exact (Result.pure_eq_ok.1 h).symm

end Packet

end Xia
