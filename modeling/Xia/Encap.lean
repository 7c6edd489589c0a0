import Xia.Buffer
import Xia.Memory

/-!
# The memory of XIA headers

`XIAHeaderEncap` keeps the header that it is to put before a packet in memory of its own, which
every change of a path allocates anew.  `Packet.encap` is what comes out of it; here are the bytes
and the sizes.

The size of a header is computed in one place, `hdr_size`, to which the number of nodes is passed as
a byte.
-/

namespace Xia

/-- `XIAHeader::hdr_size(uint8_t dsnode)`. -/
def hdrSize (dsnode : UInt8) : Nat := fixedSize + nodeSize * dsnode.toNat

/-- `XIAHeaderEncap`, with the bytes that `_hdr` points to. -/
structure HeaderEncap where
  hdr : List UInt8
  dstPath : XiaPath
  srcPath : XiaPath

namespace HeaderEncap

/-- `XIAHeaderEncap()`. -/
def new : HeaderEncap := ⟨[1, nxtNo, 0, 0, 250, 0, 0, 255], .empty, .empty⟩

variable (h : HeaderEncap)

def dnode : UInt8 := h.hdr.getD 5 0

def snode : UInt8 := h.hdr.getD 6 0

def size : Nat := hdrSize (h.dnode + h.snode)

def setNxt (nxt : UInt8) : HeaderEncap := { h with hdr := h.hdr.set 1 nxt }

/-- `set_plen`, in network byte order. -/
def setPlen (plen : UInt16) : HeaderEncap :=
  { h with
    hdr := (h.hdr.set 2 (UInt8.ofNat (plen.toNat / 256))).set 3 (UInt8.ofNat plen.toNat) }

def setLast (last : Int8) : HeaderEncap := { h with hdr := h.hdr.set 7 last.toUInt8 }

def setHlim (hlim : UInt8) : HeaderEncap := { h with hdr := h.hdr.set 4 hlim }

/-- The size that `update` allocates. -/
def allocation : Nat :=
  hdrSize (UInt8.ofNat (h.dstPath.unparseNodeSize + h.srcPath.unparseNodeSize))

/-- `update`, with the memory that is allocated (`fresh`). -/
def update (fresh : Nat → UInt8) : Result HeaderEncap := do
  let dnode := h.dstPath.unparseNodeSize
  let snode := h.srcPath.unparseNodeSize
  let newHdr := (List.range h.allocation).map fresh
  let newHdr ← writeAt 0 (h.hdr.take fixedSize) newHdr
  let newHdr ← writeAt 5 [UInt8.ofNat dnode] newHdr
  let newHdr ← writeAt 6 [UInt8.ofNat snode] newHdr
  let dstNodes ← h.dstPath.wireNodes
  let newHdr ← writeAt fixedSize (dstNodes.flatMap Packet.nodeBytes) newHdr
  let srcNodes ← h.srcPath.wireNodes
  let newHdr ← writeAt (fixedSize + nodeSize * dnode) (srcNodes.flatMap Packet.nodeBytes) newHdr
  return { h with hdr := newHdr }

def setDstPath (fresh : Nat → UInt8) (path : XiaPath) : Result HeaderEncap :=
  update { h with dstPath := path } fresh

def setSrcPath (fresh : Nat → UInt8) (path : XiaPath) : Result HeaderEncap :=
  update { h with srcPath := path } fresh

/-- `encap`: the bytes of the packet.  With `adjust_plen` the payload length is that of the
payload. -/
def encap (payload : List UInt8) (adjustPlen : Bool) : Result (List UInt8) := do
  let h := if adjustPlen then h.setPlen (UInt16.ofNat payload.length) else h
  let hdr ← readAt h.hdr 0 h.size
  return hdr ++ payload

end HeaderEncap

namespace Received

variable (r : Received)

/-- `XIAHeader::next_header`, as an offset. -/
def nextHeader : Nat := r.hdrSize

/-- The length of the header that `MarkXIAHeader` notes in the packet. -/
def markXiaHeader : Nat := Xia.hdrSize (r.dnode + r.snode)

end Received

end Xia
