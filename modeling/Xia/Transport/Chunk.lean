import Xia.Transport.Equiv.Handlers

/-!
# The chunks of a socket

`Chunks` is the part of a socket that decides what `XreadChunk` does: the status of each CID, the
reads that wait for an arrival and the packets that have arrived.

`Chunks.Step` lists what can happen to it and which payloads are handed to the application
meanwhile; `chunkAct s port e` classifies an event of the element by what it means for the chunks
of `port`.
-/

namespace Xia

structure Chunks where
  status : HashTable Xid Int
  readReq : HashTable Xid Bool
  responsePkt : HashTable Xid Packet

def DagInfo.chunks (d : DagInfo) : Chunks where
  status := d.xidToStatus
  readReq := d.xidToReadReq
  responsePkt := d.xidToCidResponsePkt

namespace Chunks

def empty : Chunks := ⟨∅, ∅, ∅⟩

/-- What an event is for the chunks of one socket. -/
inductive Act where
  | other
  | request
  | read (cid : Xid)
  /-- the packet of a chunk that is filed for the socket -/
  | arrive (cid : Xid) (p : Packet)
  /-- a chunk pushed to the socket -/
  | push (cid : Xid) (p : Packet)

def Act.cid : Act → Option Xid
  | .other | .request => none
  | .read cid | .arrive cid _ | .push cid _ => some cid

open XTransport

/-- The payload of a packet as the handler of cache packets reads it. -/
def payloadRead (env : Env) (p : Packet) (bytes : List UInt8) : List UInt8 :=
  readBytes env.beyond bytes p.plen.toNat

/-- The transitions of the chunk tables, with the payloads that are handed up. -/
inductive Step (sha1 : Sha1) (env : Env) : Act → Chunks → Chunks → List (List UInt8) → Prop
  | same (c : Chunks) : Step sha1 env .other c c []
  /-- the socket is made anew or removed -/
  | fresh (c : Chunks) : Step sha1 env .other c empty []
  | request (c c' : Chunks)
      (hstatus : ∀ x, c'.status.lookup x = c.status.lookup x ∨
        c'.status.lookup x = some waitingForChunk)
      (hpkt : c'.responsePkt = c.responsePkt) : Step sha1 env .request c c' []
  | recorded (c : Chunks) (cid : Xid) (hstatus : ¬ Readable (c.status.lookup cid)) :
      Step sha1 env (.read cid) c { c with readReq := c.readReq.insert cid true } []
  | read (c : Chunks) (cid : Xid) (pkt copy : Packet) (bytes : List UInt8)
      (hstatus : Readable (c.status.lookup cid)) (hpkt : c.responsePkt.lookup cid = some pkt)
      (hcopy : DagInfo.IsResponseCopy env.beyond copy pkt) (hbytes : copy.payload = .ok bytes) :
      -- the packet goes, the status stays
      Step sha1 env (.read cid) c
        { c with
          readReq := (c.readReq.insert cid true).insert cid false
          responsePkt := c.responsePkt.erase cid } [payloadRead env copy bytes]
  | handed (c : Chunks) (cid : Xid) (p : Packet) (bytes : List UInt8)
      (hbytes : p.payload = .ok bytes) (hreq : c.readReq.lookup cid = some true) :
      -- the status is set, and no packet stored
      Step sha1 env (.arrive cid p) c
        { c with
          status := c.status.insert cid (arrivalStatus sha1 (payloadRead env p bytes) cid)
          readReq := c.readReq.erase cid } [payloadRead env p bytes]
  | stored (c : Chunks) (cid : Xid) (p copy : Packet) (bytes : List UInt8)
      (hbytes : p.payload = .ok bytes) (hreq : c.readReq.lookup cid ≠ some true)
      (hcopy : DagInfo.IsResponseCopy env.beyond copy p) :
      Step sha1 env (.arrive cid p) c
        { c with
          status := c.status.insert cid (arrivalStatus sha1 (payloadRead env p bytes) cid)
          responsePkt := c.responsePkt.insert cid copy } []
  | pushed (c : Chunks) (cid : Xid) (p : Packet) (bytes : List UInt8)
      (hbytes : p.payload = .ok bytes) :
      Step sha1 env (.push cid p) c c [payloadRead env p bytes]

end Chunks

namespace XTransport

/-- The chunk tables of a port; a port without a socket has none. -/
def chunks (s : XTransport) (port : UInt16) : Chunks :=
  ((s.portToDagInfo.lookup port).map DagInfo.chunks).getD .empty

/-- What a packet from the cache is for the chunks of `port`. -/
def cacheAct (s : XTransport) (port : UInt16) (p : Packet) : Chunks.Act :=
  match p.dstPath.destXid, p.srcPath.destXid, p.extHeader with
  | .ok sid, .ok cid, .ok ch =>
    if port = 0 then .other
    else if ContentHeader.opcode ch = .ok ContentHeader.opPush then
      if s.xidToPushPort.get 0 sid = port then .push cid p else .other
    else if s.pairPort ⟨sid, cid⟩ = port then .arrive cid p else .other
  | _, _, _ => .other

/-- What an event is for the chunks of `port`. -/
def chunkAct (s : XTransport) (port : UInt16) : Event → Chunks.Act
  | .xrequestChunk q _ _ => if q = port then .request else .other
  | .xreadChunk q dag =>
    match (XiaPath.empty.parse (cStr dag)).2.destXid with
    | .ok cid => if q = port then .read cid else .other
    | .error _ => .other
  | .cache p => s.cacheAct port p
  | _ => .other

def chunkPayload : ApiMsg → Option (List UInt8)
  | .readchunk _ payload => some payload
  | .pushchunkto _ payload _ _ _ _ _ _ => some payload
  | _ => none

/-- The chunks that are handed to the application of `port`. -/
def chunkPayloads (port : UInt16) (out : List Output) : List (List UInt8) :=
  (apiMsgs port out).filterMap chunkPayload

end XTransport

end Xia
