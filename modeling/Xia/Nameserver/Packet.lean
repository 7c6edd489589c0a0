import Xia.Memory

/-!
# Packets of the name service

`make_ns_packet` puts a request or a response into a buffer: a type, flags and up to two strings.
`get_ns_packet` sets pointers to the strings in the bytes that were received.  The pointers to the
packet and to the buffer are not `NULL`.
-/

namespace Xia

namespace Nameserver

/-! ### Types of packets -/

def nsTypeRegister : UInt8 := 0x01

def nsTypeQuery : UInt8 := 0x02

def nsTypeResponseQuery : UInt8 := 0x04

def nsTypeResponseError : UInt8 := 0x05

/-- The bytes of a string, without the zero at its end. -/
abbrev CBytes := List {b : UInt8 // b ≠ 0}

/-- What `strcpy` copies. -/
def terminated (s : CBytes) : List UInt8 := s.map Subtype.val ++ [0]

/-- `ns_pkt`, when it is sent. -/
structure NsPkt where
  type : UInt8
  flags : UInt8
  name : Option CBytes
  dag : Option CBytes

/-- The strings that go into a packet, unless one of them is `NULL`. -/
def NsPkt.strings (np : NsPkt) : Option (List CBytes) :=
  if np.type = nsTypeRegister then do return [← np.name, ← np.dag]
  else if np.type = nsTypeQuery then do return [← np.name]
  else if np.type = nsTypeResponseQuery then do return [← np.dag]
  else return []

/-- `make_ns_packet`: what it copies to the buffer, one after the other, and the size that it
returns.  `memset` takes the size of the buffer as a `size_t`. -/
def makeNsPacket (np : NsPkt) (pktSz : Int) : List (Blit.Copy UInt8) × Nat :=
  if pktSz = 0 then ([], 0)
  else
    let start : List (Blit.Copy UInt8) :=
      [(0, List.replicate (pktSz % 2 ^ 64).toNat 0), (0, [np.type]), (1, [np.flags])]
    match np.strings with
    | none => (start, 0)
    | some ss =>
      (start ++ Blit.chain (ss.map terminated) 2, 2 + (ss.map terminated).flatten.length)

/-- What `get_ns_packet` sets besides the type: the pointers are positions in the packet. -/
structure NsFields where
  flags : UInt8
  name : Option Nat
  dag : Option Nat
deriving DecidableEq

/-- `ns_pkt`, when it is received.  The fields of a packet that is too short are not set. -/
structure NsView where
  type : UInt8
  fields : Option NsFields
deriving DecidableEq

/-- `strlen`, which does not know where the bytes that were received end. -/
def strlen (mem : List UInt8) (off : Nat) : Result Nat :=
  if 0 ∈ mem.drop off then .ok ((mem.drop off).idxOf 0) else .error .outOfBounds

/-- `get_ns_packet`, for the memory from `pkt` on. -/
def getNsPacket (pkt : List UInt8) (sz : Int) : Result NsView :=
  if sz < 2 then return ⟨nsTypeResponseError, none⟩
  else do
    let type ← inBounds pkt[0]?
    let flags ← inBounds pkt[1]?
    if type = nsTypeQuery then return ⟨type, some ⟨flags, some 2, none⟩⟩
    else if type = nsTypeRegister then
      let n ← strlen pkt 2
      return ⟨type, some ⟨flags, some 2, some (2 + n + 1)⟩⟩
    else if type = nsTypeResponseQuery then return ⟨type, some ⟨flags, none, some 2⟩⟩
    else return ⟨type, some ⟨flags, none, none⟩⟩

end Nameserver

end Xia
