import Xia.ExtHeader
import Xia.Nameserver.Packet

/-!
# Beacons of the host configuration protocol

The XHCP server on a gateway router sends beacons: a sequence number, the number of entries, and the
entries one after the other, each of them a type and a string.  A client reads the entries from its
buffer for packets, which it clears before every packet.  Numbers are in host byte order, which is
little-endian here.
-/

namespace Xia

namespace Xhcp

open Nameserver

def maxPacketSize : Nat := 1024

def maxDagLength : Nat := 1024

/-! ### Entries -/

/-- The types that a client knows. -/
inductive EntryType
  | ad
  | gatewayRouterHid
  | gatewayRouter4id
  | nameServerDag
deriving DecidableEq

namespace EntryType

/-- The values of `XHCP_TYPE_AD` and the others. -/
def code : EntryType → UInt16
  | ad => 1
  | gatewayRouterHid => 2
  | gatewayRouter4id => 3
  | nameServerDag => 4

/-- The cases of the `switch`. -/
def ofCode (type : UInt16) : Option EntryType :=
  if type = 1 then some ad
  else if type = 2 then some gatewayRouterHid
  else if type = 3 then some gatewayRouter4id
  else if type = 4 then some nameServerDag
  else none

end EntryType

structure Entry where
  type : UInt16
  data : CBytes

/-! ### The server -/

/-- What the server knows, and the sequence number of the next beacon. -/
structure Server where
  seqNum : UInt32
  myAd : CBytes
  gwRouterHid : CBytes
  gwRouter4id : CBytes
  ns : CBytes

namespace Server

/-- `ad_entry`, `gw_entry`, `gw_entry_4id` and `ns_entry`. -/
def entries (s : Server) : List Entry :=
  [⟨EntryType.ad.code, s.myAd⟩, ⟨EntryType.gatewayRouterHid.code, s.gwRouterHid⟩,
    ⟨EntryType.gatewayRouter4id.code, s.gwRouter4id⟩, ⟨EntryType.nameServerDag.code, s.ns⟩]

/-- The parts that are copied to the packet one after the other. -/
def parts (s : Server) : List (List UInt8) :=
  (leBytes 4 s.seqNum.toNat ++ leBytes 2 4) ::
    s.entries.flatMap fun e => [leBytes 2 e.type.toNat, terminated e.data]

/-- What is copied to the packet, which is cleared at first. -/
def copies (s : Server) : List (Blit.Copy UInt8) :=
  (0, List.replicate maxPacketSize 0) :: Blit.chain s.parts 0

/-- The value of `offset` when all has been copied. -/
def offset (s : Server) : Nat := s.parts.flatten.length

/-- An iteration of the loop of `main`, with the memory for the packet: what is sent. -/
def sendBeacon (s : Server) (pkt : List UInt8) : Server × List UInt8 :=
  ({ s with seqNum := s.seqNum + 1 }, (Blit.fill s.copies pkt).take s.offset)

end Server

/-! ### The client -/

/-- The strings in the buffers `self_dag`, `gw_dag`, `gw_4id` and `ns_dag`. -/
structure Dags where
  selfDag : List UInt8
  gwDag : List UInt8
  gw4id : List UInt8
  nsDag : List UInt8
deriving DecidableEq

namespace Dags

/-- The buffers after they are cleared. -/
def empty : Dags := ⟨[], [], [], []⟩

/-- Another string in the buffer of a type. -/
def set (d : Dags) (s : List UInt8) : EntryType → Dags
  | .ad => { d with selfDag := s }
  | .gatewayRouterHid => { d with gwDag := s }
  | .gatewayRouter4id => { d with gw4id := s }
  | .nameServerDag => { d with nsDag := s }

/-- The check of the packet after the loop. -/
def valid (d : Dags) : Bool :=
  !(d.selfDag.length ≤ 0 || d.gwDag.length ≤ 0 || d.gw4id.length ≤ 0 || d.nsDag.length ≤ 0)

end Dags

/-- The packet in its buffer, which is cleared before the bytes are received. -/
def received (bytes : List UInt8) : List UInt8 :=
  bytes ++ List.replicate (maxPacketSize - bytes.length) 0

/-- `sprintf` with `%s` of the string at `off` to a buffer for a DAG. -/
def sprintfDag (pkt : List UInt8) (off : Nat) : Result (List UInt8) := do
  let n ← strlen pkt off
  if n + 1 ≤ maxDagLength then .ok ((pkt.drop off).take n) else .error .outOfBounds

/-- The `switch`, with the type of an entry and the position of its data. -/
def storeData (pkt : List UInt8) (type : UInt16) (off : Nat) (d : Dags) : Result Dags :=
  match EntryType.ofCode type with
  | none => return d
  | some t => do
    let s ← sprintfDag pkt off
    return d.set s t

/-- The part of the loop for the entry at `off`: where the next entry is, and the buffers. -/
def parseEntry (pkt : List UInt8) (off : Nat) (d : Dags) : Result (Nat × Dags) := do
  let type ← readAt pkt off 2
  let d ← storeData pkt (UInt16.ofNat (leNat type)) (off + 2) d
  let n ← strlen pkt (off + 2)
  return (off + 2 + n + 1, d)

/-- The loop, with so many entries still to go. -/
def parseLoop (pkt : List UInt8) : Nat → Nat → Dags → Result Dags
  | 0, _, d => return d
  | n + 1, off, d => do
    let (off, d) ← parseEntry pkt off d
    parseLoop pkt n off d

/-- What the client does with a packet in its buffer. -/
def parse (pkt : List UInt8) : Result Dags := do
  let numEntries ← readAt pkt 4 2
  parseLoop pkt (leNat numEntries) 6 .empty

end Xhcp

end Xia
