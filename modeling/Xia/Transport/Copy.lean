import Xia.Transport.Basic

/-!
# Source paths and copies of packets

A socket's source path is rewritten to the current local address followed by the socket's own XID
whenever a packet is sent or copied (`recalculate`, `completeSrcPath`).  The copy functions build
a new packet from a stored one with the socket's current paths.
-/

namespace Xia

/-- `random_xid("SID", buf)`: `SID:30000ff0000000000000000000000000%08x`. -/
def randomXid (rand : UInt32) : Text :=
  ['S', 'I', 'D', ':', '3', '0', '0', '0', '0', 'f', 'f'] ++ List.replicate 25 '0' ++
    (List.range 8).map fun i => Xid.hexDigit (rand.toNat / 16 ^ (7 - i))

namespace DagInfo

/-- `_local_addr.unparse_re() + " " + source_xid.unparse()` for the socket's own XID. -/
def localSource (localAddr : XiaPath) (d : DagInfo) : Result Text := do
  let sourceXid ← d.srcPath.destXid
  return (← localAddr.unparseRe) ++ [' '] ++ sourceXid.unparse

/-- "Recalculate source path": a source path with an `RE` form that is not the local address
followed by the socket's XID is replaced by that. -/
def recalculate (localAddr : XiaPath) (d : DagInfo) : Result DagInfo := do
  let strLocalAddr ← d.localSource localAddr
  let dagstr ← d.srcPath.unparseRe
  if dagstr ≠ [] ∧ dagstr ≠ strLocalAddr then
    return { d with srcPath := (XiaPath.parseRe strLocalAddr).2 }
  else return d

/-- "Case of initial binding to only SID". -/
def completeSrcPath (localAddr : XiaPath) (d : DagInfo) : Result DagInfo := do
  if d.fullSrcDag then return d
  else
    let strLocalAddr ← d.localSource localAddr
    return { d with fullSrcDag := true, srcPath := (XiaPath.parseRe strLocalAddr).2 }

/-- `copy_packet`, after `copy_common` has updated the socket's source path. -/
def copyPacket (beyond : Nat → UInt8) (localAddr : XiaPath) (p : Packet) (d : DagInfo) :
    Result (DagInfo × Packet) := do
  let d ← d.recalculate localAddr
  let thdr ← p.extHeader
  let newThdr := TransportHeader.encap (← TransportHeader.type thdr)
    (← TransportHeader.pktInfo thdr) (← TransportHeader.seqNum thdr)
    (← TransportHeader.ackNum thdr) (← TransportHeader.length thdr)
  -- `WritablePacket::make` returns a null pointer for a negative length
  if p.plen.toNat < thdr.hlen.toNat then throw .nullDeref
  else
    let payload := readBytes beyond (p.extPayload thdr) (p.plen.toNat - thdr.hlen.toNat)
    let copy ← Packet.encap p.nxt p.hlim p.last p.plen.toNat d.dstPath d.srcPath
      (newThdr ++ payload)
    return (d, copy)

/-- The common part of `copy_cid_req_packet` and `copy_cid_response_packet`. -/
def copyContentPacket (beyond : Nat → UInt8) (localAddr : XiaPath) (p : Packet)
    (chdr : List UInt8) (d : DagInfo) : Result (DagInfo × Packet) := do
  let d ← d.recalculate localAddr
  let payload := readBytes beyond (← p.payload) p.plen.toNat
  let copy ← Packet.encap p.nxt p.hlim p.last p.plen.toNat d.dstPath d.srcPath (chdr ++ payload)
  return (d, copy)

def copyCidReqPacket (beyond : Nat → UInt8) (localAddr : XiaPath) (p : Packet) (d : DagInfo) :
    Result (DagInfo × Packet) :=
  copyContentPacket beyond localAddr p ContentHeader.makeRequestHeader d

def copyCidResponsePacket (beyond : Nat → UInt8) (localAddr : XiaPath) (p : Packet)
    (d : DagInfo) : Result (DagInfo × Packet) := do
  let chdr ← p.extHeader
  copyContentPacket beyond localAddr p
    (ContentHeader.encap (← ContentHeader.opcode chdr) (← ContentHeader.chunkOffset chdr)
      (← ContentHeader.length chdr)) d

end DagInfo

end Xia
