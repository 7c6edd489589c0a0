import Xia.Buffer
import Xia.Memory
import Xia.Ownership
import Xia.Router.Elements

/-!
# The element `XCMP`

The element answers pings, reports packets that were misrouted, could not be delivered or have
expired to their senders, and hands the messages that it receives up to the host.

An `Incoming` is a packet pushed into it.  A handler returns the list of what it does, in order: the
`Effect`s are the uses of the packet that came in, the two ways of giving it up, and the packets
that it makes and pushes.  The bytes that a message is made of come from the buffer of the packet,
from the element, and from the memory in which the message is allocated (`fresh`).

What is logged is left out, except that an address is printed, which can fail.
-/

namespace Xia

/-- The bytes of a `struct click_xia_xid`. -/
def Xid.bytes (x : Xid) : List UInt8 := leBytes 4 x.type.toNat ++ x.id.toList

namespace Xcmp

def echoReply : UInt8 := 0
def unreach : UInt8 := 3
def unreachHost : UInt8 := 1
def redirect : UInt8 := 5
def redirectHost : UInt8 := 1
def echo : UInt8 := 8
def timxceed : UInt8 := 11
def timxceedReassembly : UInt8 := 1

/-- `sizeof(struct click_xia_xcmp)`. -/
def headerSize : Nat := 4

/-- `sizeof(struct click_xia_xid)`. -/
def xidSize : Nat := 24

/-- The paint of a packet that could not be delivered, `UNREACHABLE`. -/
def paintUnreachable : Int := -6

/-- The hop limit and the last node that `XIAHeaderEncap` sets. -/
def hlimEncap : UInt8 := 250
def lastEncap : Int8 := -1

end Xcmp

/-- The element, which is configured with the address of its host. -/
structure Xcmp where
  srcPath : XiaPath
  valid : srcPath.isValid = .ok true

namespace Xcmp

/-- A packet at the input of the element, with the annotations that it reads. -/
structure Incoming where
  buf : Received
  paint : Int16
  nexthop : Xid

/-- What the element does. -/
inductive Effect where
  /-- `p_in` is read or annotated -/
  | use
  /-- `p_in->kill()` -/
  | kill
  /-- `output(1).push(p_in)` -/
  | up
  /-- a new packet is pushed to an output -/
  | send (port : Nat) (p : Packet) (paint : Int)
deriving DecidableEq

/-! ### Messages -/

/-- The sum of the 16-bit words; a last odd byte counts by itself. -/
def wordSum : List UInt8 → Nat
  | a :: b :: bytes => a.toNat + 256 * b.toNat + wordSum bytes
  | [a] => a.toNat
  | [] => 0

/-- `in_cksum`, as it is stored. -/
def inCksum (bytes : List UInt8) : List UInt8 :=
  let sum := wordSum bytes
  let sum := sum / 65536 + sum % 65536
  let sum := sum + sum / 65536
  leBytes 2 (65535 - sum % 65536)

/-- The length of a message: room for two XIDs, the header of the packet and eight bytes, or for the
payload of a ping. -/
def xlen (r : Received) (type : UInt8) : Nat :=
  let xlen := headerSize + xidSize * 2 + r.hdrSize + 8
  if type = echoReply ∧ xlen < headerSize + r.plen then headerSize + r.plen else xlen

/-- "copy the data from the ping". -/
def putPing (r : Received) (type : UInt8) (msg : List UInt8) : Result (List UInt8) := do
  if type = echoReply then writeAt 0 (← readAt r.bytes (← r.payload) r.plen) msg
  else return msg

/-- "copy the correct route redirect address into the packet if needed". -/
def putAddrs (addrs : Option (Xid × Xid)) (msg : List UInt8) : Result (List UInt8) :=
  match addrs with
  | none => return msg
  | some (lastaddr, nxthop) => do
    let msg ← writeAt headerSize lastaddr.bytes msg
    writeAt (headerSize + xidSize) nxthop.bytes msg

/-- "copy in the XIA header and the first 8 bytes of the datagram". -/
def putDatagram (r : Received) (msg : List UInt8) : Result (List UInt8) := do
  let msg ← writeAt (headerSize + xidSize * 2) (← readAt r.bytes 0 r.hdrSize) msg
  writeAt (headerSize + xidSize * 2 + r.hdrSize) (← readAt r.bytes (← r.payload) 8) msg

def putHeader (type code : UInt8) (msg : List UInt8) : Result (List UInt8) := do
  let msg ← writeAt 0 [type, code, 0, 0] msg
  writeAt 2 (inCksum msg) msg

/-- The part of `sendXCMPPacket` that fills the message. -/
def message (fresh : Nat → UInt8) (r : Received) (type code : UInt8) (addrs : Option (Xid × Xid)) :
    Result (List UInt8) := do
  if xlen r type < 1500 then
    let msg := (List.range (xlen r type)).map fresh
    let msg ← putPing r type msg
    let msg ← putAddrs addrs msg
    let msg ← putDatagram r msg
    putHeader type code msg
  else throw .assertFailed

/-- `sendXCMPPacket`: the packet that it pushes to output 0.  Without a source path the sender is
the destination of the packet that came in. -/
def sendXcmpPacket (fresh : Nat → UInt8) (r : Received) (type code : UInt8)
    (addrs : Option (Xid × Xid)) (src : Option XiaPath) : Result Packet := do
  let msg ← message fresh r type code addrs
  Packet.encap nxtXcmp hlimEncap lastEncap msg.length r.srcPath (src.getD r.dstPath) msg

/-! ### Bad packets -/

/-- The node that the packet was sent to last, `shdr->node[last].xid`.  The index is not checked. -/
def lastNode (r : Received) : Result Xid := do
  let last := if r.last < 0 then r.last.toInt + r.dnode.toNat else r.last.toInt
  if last < 0 then throw .outOfBounds
  else return Received.xidOfBytes (← readAt r.bytes (fixedSize + nodeSize * last.toNat) xidSize)

/-- `processBadForwarding`: "a data packet that should be been sent somewhere else". -/
def processBadForwarding (x : Xcmp) (fresh : Nat → UInt8) (p : Incoming) :
    Result (List Effect) := do
  let lnode ← lastNode p.buf
  let _ ← x.srcPath.unparse
  let _ ← p.buf.srcPath.unparse
  let reply ← sendXcmpPacket fresh p.buf redirect redirectHost (some (lnode, p.nexthop))
    (some x.srcPath)
  return [.use, .send 0 reply destinedForLocalhost]

def carries (r : Received) (type : UInt8) : Result Bool := do
  if r.nxt = nxtXcmp then return decide ((← inBounds r.bytes[← r.payload]?) = type)
  else return false

/-- The checks of `processUnreachable` on the destination: its path is valid, and the node before
the last one is not the broadcast address.  A path that is discarded is printed. -/
def reportable (r : Received) : Result Bool := do
  let dstPath := r.dstPath
  if ← dstPath.isValid then
    let dstPath ← dstPath.removeNode dstPath.destinationNode
    if dstPath.unparseNodeSize < 1 then return false
    else return decide ((← dstPath.destXid) ≠ bhid)
  else
    let _ ← dstPath.unparseRe
    let _ ← r.srcPath.unparse
    let _ ← dstPath.unparse
    return false

/-- The end of `processUnreachable`, for a packet that is reported. -/
def reportUnreachable (x : Xcmp) (fresh : Nat → UInt8) (r : Received) : Result (List Effect) := do
  let _ ← x.srcPath.unparse
  let _ ← r.srcPath.unparse
  let _ ← r.dstPath.unparse
  let reply ← sendXcmpPacket fresh r unreach unreachHost none (some x.srcPath)
  return [.use, .send 0 reply destinedForLocalhost, .use]

/-- `processUnreachable`.  A message of the same type is not answered "to avoid infinite packet
generation". -/
def processUnreachable (x : Xcmp) (fresh : Nat → UInt8) (r : Received) : Result (List Effect) := do
  if ← carries r unreach then return [.use]
  else if ← reportable r then x.reportUnreachable fresh r
  else return [.use]

def processExpired (x : Xcmp) (fresh : Nat → UInt8) (r : Received) : Result (List Effect) := do
  let _ ← x.srcPath.unparse
  let reply ← sendXcmpPacket fresh r timxceed timxceedReassembly none (some x.srcPath)
  return [.use, .send 0 reply destinedForLocalhost]

/-- How a packet can be bad. -/
inductive Flag where
  | badForwarding
  | unreachable
  | expired
deriving DecidableEq

/-- The checks of `processPacket`, in their order. -/
def Incoming.flag (p : Incoming) : Option Flag :=
  if p.paint.toInt ≤ -totalSpecialCases then some .badForwarding
  else if p.paint.toInt = paintUnreachable then some .unreachable
  else if p.buf.hlim ≤ 1 then some .expired
  else none

/-- `processPacket`: was the packet bad, and what was done about it? -/
def processPacket (x : Xcmp) (fresh : Nat → UInt8) (p : Incoming) : Result (Bool × List Effect) :=
  match p.flag with
  | some .badForwarding => return (true, ← x.processBadForwarding fresh p)
  | some .unreachable => return (true, ← x.processUnreachable fresh p.buf)
  | some .expired => return (true, ← x.processExpired fresh p.buf)
  | none => return (false, [.use])

/-! ### Messages that arrive -/

def sendUp : List Effect := [.use, .up]

/-- `gotPing`.  Before and after it the sequence number is printed. -/
def gotPing (x : Xcmp) (fresh : Nat → UInt8) (r : Received) : Result (List Effect) := do
  let _ ← x.srcPath.unparse
  let _ ← readAt r.bytes ((← r.payload) + 6) 2
  let reply ← sendXcmpPacket fresh r echoReply 0 none none
  return [.use, .send 0 reply destinedForLocalhost, .use]

def gotPong (x : Xcmp) (r : Received) : Result (List Effect) := do
  let _ ← x.srcPath.unparse
  let _ ← readAt r.bytes ((← r.payload) + 6) 2
  return .use :: sendUp

def gotExpired (x : Xcmp) : Result (List Effect) := do
  let _ ← x.srcPath.unparse
  return sendUp

def gotUnreachable (x : Xcmp) : Result (List Effect) := do
  let _ ← x.srcPath.unparse
  return sendUp

/-- The size that `gotRedirect` limits a message to, `msize`. -/
def maxRedirect : Nat := 1024

/-- The address of the route update: one node behind a source without a name. -/
def updatePath (baddest : Xid) : XiaPath := ⟨[⟨Xid.zero, [1]⟩, ⟨baddest, []⟩], none, none⟩

/-- `gotRedirect`: the message goes up to the host in a packet of its own. -/
def gotRedirect (x : Xcmp) (r : Received) : Result (List Effect) := do
  let pay ← r.payload
  let baddest ← readAt r.bytes (pay + headerSize) xidSize
  let _ ← readAt r.bytes (pay + headerSize + xidSize) xidSize
  let _ ← x.srcPath.unparse
  let _ ← r.srcPath.unparse
  let _ ← r.dstPath.unparse
  let msg ← readAt r.bytes pay (min r.plen maxRedirect)
  let update ← Packet.encap nxtXcmp hlimEncap lastEncap msg.length
    (updatePath (Received.xidOfBytes baddest)) x.srcPath msg
  return [.use, .send 1 update 1, .kill]

/-- The branches of `gotXCMPPacket`. -/
def gotType (x : Xcmp) (fresh : Nat → UInt8) (r : Received) (type : UInt8) : Result (List Effect) :=
  if type = echo then x.gotPing fresh r
  else if type = echoReply then x.gotPong r
  else if type = timxceed then x.gotExpired
  else if type = unreach then x.gotUnreachable
  else if type = redirect then x.gotRedirect r
  -- "invalid XCMP message type"
  else .ok []

def gotXcmpPacket (x : Xcmp) (fresh : Nat → UInt8) (r : Received) : Result (List Effect) := do
  let type ← inBounds r.bytes[← r.payload]?
  return .use :: (← x.gotType fresh r type)

/-- `push`.  In the end the packet is killed, "as we've finished processing it". -/
def push (x : Xcmp) (fresh : Nat → UInt8) (p : Incoming) : Result (List Effect) := do
  let (bad, done) ← x.processPacket fresh p
  if bad = false ∧ p.buf.nxt = nxtXcmp then
    return done ++ (← x.gotXcmpPacket fresh p.buf) ++ [.kill]
  else return done ++ [.kill]

/-! ### Packets for concrete runs -/

def hidOf (b : UInt8) : Xid := ⟨htonl Xid.typeHid, Vector.replicate _ b⟩

def entryOf (x : Xid) : XidNode :=
  ⟨x, Vector.ofFn fun j => XiaPath.wireEdge (if j = 0 then 0 else xidEdgeUnused)⟩

/-- The element of the host `HID:01…`. -/
def router : Xcmp := ⟨XiaPath.parseNode [entryOf (hidOf 1)], by decide⟩

/-- A packet from the host `HID:02…` to the host `HID:01…`. -/
def packetOf (nxt hlim : UInt8) (body : List UInt8) : Packet :=
  ⟨1, nxt, UInt16.ofNat body.length, hlim, lastEncap, [entryOf (hidOf 1)], [entryOf (hidOf 2)],
    body⟩

/-- The packet at the element, without a special paint. -/
def incomingOf (nxt hlim : UInt8) (body : List UInt8) : Incoming :=
  ⟨Received.ofPacket (packetOf nxt hlim body) (by decide : 1 + 1 ≤ 255), 0, Xid.zero⟩

end Xcmp

end Xia
