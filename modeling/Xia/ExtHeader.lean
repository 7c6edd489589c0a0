import Xia.Click.Basic

/-!
# Extension headers

An extension header (`struct click_xia_ext`) is the type of the next header, its own length and
a list of entries, each of them a length byte, a key and a value.  `ExtHeader.update` writes the
header (`XIAGenericExtHeaderEncap::update`) and `ExtHeader.parse` reads it back
(`XIAGenericExtHeader::populate_map`).

The transport header and the content header are extension headers with fixed keys.  Their
accessors cast the data of a value to the type of the field: the value is as long as the sender
made it, and a cast reads as many bytes as its type has.  The numbers are stored in host byte order,
which is little-endian here.
-/

namespace Xia

/-! ### Numbers as bytes -/

/-- The low `w` bytes of a number, least significant first. -/
def leBytes : Nat → Nat → List UInt8
  | 0, _ => []
  | w + 1, n => UInt8.ofNat n :: leBytes w (n / 256)

def leNat : List UInt8 → Nat
  | [] => 0
  | b :: bs => b.toNat + 256 * leNat bs

@[simp] theorem length_leBytes (w n : Nat) : (leBytes w n).length = w := by
  induction w generalizing n with
  | zero => rfl
  | succ w ih => simp [leBytes, ih]

theorem leNat_leBytes (w n : Nat) : leNat (leBytes w n) = n % 256 ^ w := by
  induction w generalizing n with
  | zero => simp [leBytes, leNat, Nat.mod_one]
  | succ w ih =>
    have hb : (UInt8.ofNat n).toNat = n % 256 := by simp
    rw [leBytes, leNat, ih, hb, Nat.pow_succ', Nat.mod_mul]

/-! ### The generic header -/

/-- `XIAGenericExtHeader`: the header as read from a packet. -/
structure ExtHeader where
  nxt : UInt8
  hlen : UInt8
  map : HashTable UInt8 (List UInt8)

/-- No next header (`CLICK_XIA_NXT_NO`). -/
def nxtNo : UInt8 := 59

namespace ExtHeader

/-- The loop of `populate_map`.  A length of zero is padding; an entry that reaches past the
header ends the loop.  The fuel is the number of bytes. -/
def populateMapAux : Nat → List UInt8 → HashTable UInt8 (List UInt8) → HashTable UInt8 (List UInt8)
  | 0, _, m => m
  | _ + 1, [], m => m
  | _ + 1, [_], m => m
  | fuel + 1, kvLen :: key :: d, m =>
    -- the length counts the key and the value
    if kvLen = 0 then m
    else if (key :: d).length < kvLen.toNat then m
    else
      populateMapAux fuel ((key :: d).drop kvLen.toNat) (m.insert key (d.take (kvLen.toNat - 1)))

/-- `populate_map`, on the bytes between the first two and the end of the header. -/
def populateMap (d : List UInt8) : HashTable UInt8 (List UInt8) := populateMapAux d.length d ∅

/-- `XIAGenericExtHeader(p)`, on the bytes from the header on. -/
def parse : List UInt8 → Result ExtHeader
  | nxt :: hlen :: d =>
    if hlen.toNat ≤ d.length + 2 then .ok ⟨nxt, hlen, populateMap (d.take (hlen.toNat - 2))⟩
    else .error .outOfBounds
  | _ => .error .outOfBounds

/-- `exists(key)`, and `*(const T *)_map[key].data()` for a type of `width` bytes.  The bytes of the
value are all that may be read. -/
def field (h : ExtHeader) (key : UInt8) (width : Nat) : Result Nat :=
  match h.map.lookup key with
  | none => .ok 0
  | some v => if width ≤ v.length then .ok (leNat (v.take width)) else .error .outOfBounds

/-- The first loop of `update`: the size of the header and the number of entries that fit. -/
def measure : List (UInt8 × List UInt8) → Nat → Nat → Nat × Nat
  | [], size, count => (size, count)
  | (_, v) :: m, size, count =>
    if 254 ≤ v.length then measure m size count
    else if 255 ≤ size + 2 + v.length then (size, count)
    else measure m (size + 2 + v.length) (count + 1)

/-- The second loop of `update`; an entry that is skipped also counts. -/
def writeEntries : List (UInt8 × List UInt8) → Nat → List UInt8
  | [], _ => []
  | _, 0 => []
  | (key, v) :: m, count + 1 =>
    if 254 ≤ v.length then writeEntries m count
    else UInt8.ofNat (1 + v.length) :: key :: v ++ writeEntries m count

/-- The entries of a table in the order in which it is iterated. -/
def iterate (m : HashTable UInt8 (List UInt8)) : List (UInt8 × List UInt8) :=
  m.entries.map fun e => (e.1, e.2)

/-- The number of bytes that `update` allocates. -/
def allocated (m : List (UInt8 × List UInt8)) : Nat :=
  let size := (measure m 2 0).1
  size + (4 - size % 4) % 4

/-- `XIAGenericExtHeaderEncap::update`, with the memory in which the new header is allocated
(`fresh`).  What is not written keeps what the memory held. -/
def update (fresh : Nat → UInt8) (nxt : UInt8) (m : List (UInt8 × List UInt8)) : List UInt8 :=
  let (size, count) := measure m 2 0
  let padding := (4 - size % 4) % 4
  let written := nxt :: UInt8.ofNat (allocated m) :: writeEntries m count ++
    List.replicate padding 0
  written ++ (List.range (allocated m - written.length)).map fun i => fresh (written.length + i)

end ExtHeader

section

variable {hdr : ExtHeader} {key : UInt8}

theorem field_uint8 {n : UInt8} (h : hdr.map.lookup key = some [n]) :
    (hdr.field key 1).map UInt8.ofNat = .ok n := by
  rw [ExtHeader.field, h]
  simp [leNat, Except.map]

theorem ExtHeader.field_of_lookup {w n : Nat} (h : hdr.map.lookup key = some (leBytes w n))
    (hn : n < 256 ^ w) : hdr.field key w = .ok n := by
  rw [field, h]
  simp only [length_leBytes, le_refl, if_true]
  rw [List.take_of_length_le (length_leBytes w n).le, leNat_leBytes, Nat.mod_eq_of_lt hn]

theorem field_uint16 {n : UInt16} (h : hdr.map.lookup key = some (leBytes 2 n.toNat)) :
    (hdr.field key 2).map UInt16.ofNat = .ok n := by
  rw [ExtHeader.field_of_lookup h n.toNat_lt, Except.map, UInt16.ofNat_toNat]

theorem field_uint32 {n : UInt32} (h : hdr.map.lookup key = some (leBytes 4 n.toNat)) :
    (hdr.field key 4).map UInt32.ofNat = .ok n := by
  rw [ExtHeader.field_of_lookup h n.toNat_lt, Except.map, UInt32.ofNat_toNat]

end

/-! ### The transport header -/

namespace TransportHeader

def keyType : UInt8 := 0
def keyPktInfo : UInt8 := 1
def keySeqNum : UInt8 := 4
def keyAckNum : UInt8 := 5
def keyLength : UInt8 := 6

def xsockStream : UInt8 := 1
def xsockDgram : UInt8 := 2

def syn : UInt8 := 1
def synack : UInt8 := 2
def data : UInt8 := 3
def ack : UInt8 := 4

def type (h : ExtHeader) : Result UInt8 := (h.field keyType 1).map UInt8.ofNat
def pktInfo (h : ExtHeader) : Result UInt8 := (h.field keyPktInfo 1).map UInt8.ofNat
def seqNum (h : ExtHeader) : Result UInt32 := (h.field keySeqNum 4).map UInt32.ofNat
def ackNum (h : ExtHeader) : Result UInt32 := (h.field keyAckNum 4).map UInt32.ofNat
def length (h : ExtHeader) : Result UInt16 := (h.field keyLength 2).map UInt16.ofNat

/-- The fields of a transport header. -/
structure Decodes (hdr : ExtHeader) (type pktInfo : UInt8) (seqNum ackNum : UInt32)
    (length : UInt16) : Prop where
  type : TransportHeader.type hdr = .ok type
  pktInfo : TransportHeader.pktInfo hdr = .ok pktInfo
  seqNum : TransportHeader.seqNum hdr = .ok seqNum
  ackNum : TransportHeader.ackNum hdr = .ok ackNum
  length : TransportHeader.length hdr = .ok length

/-- The entries of a transport header, in the order of the keys, in which the table is iterated. -/
def entries (type pktInfo : UInt8) (seqNum ackNum : UInt32) (length : UInt16) :
    List (UInt8 × List UInt8) :=
  [(keyType, [type]), (keyPktInfo, [pktInfo]), (keySeqNum, leBytes 4 seqNum.toNat),
    (keyAckNum, leBytes 4 ackNum.toNat), (keyLength, leBytes 2 length.toNat)]

/-- `TransportHeaderEncap`: the bytes of a transport header.  All of them are written, so that it
does not matter what the memory held. -/
def encap (type pktInfo : UInt8) (seqNum ackNum : UInt32) (length : UInt16) : List UInt8 :=
  ExtHeader.update (fun _ => 0) nxtNo (entries type pktInfo seqNum ackNum length)

def makeSynHeader (seqNum ackNum : UInt32) (length : UInt16) : List UInt8 :=
  encap xsockStream syn seqNum ackNum length

def makeSynackHeader (seqNum ackNum : UInt32) (length : UInt16) : List UInt8 :=
  encap xsockStream synack seqNum ackNum length

def makeDataHeader (seqNum ackNum : UInt32) (length : UInt16) : List UInt8 :=
  encap xsockStream data seqNum ackNum length

def makeAckHeader (seqNum ackNum : UInt32) (length : UInt16) : List UInt8 :=
  encap xsockStream ack seqNum ackNum length

def makeDgramHeader (length : UInt16) : List UInt8 :=
  encap xsockDgram data (-1) (-1) length

/-- The length of every transport header (`hlen()`). -/
def size : Nat := 24

/-- The bytes of a transport header, written out, in whatever memory. -/
theorem update_entries (fresh : Nat → UInt8) (t i : UInt8) (s a : UInt32) (l : UInt16) :
    ExtHeader.update fresh nxtNo (entries t i s a l) =
      [nxtNo, 24, 2, keyType, t, 2, keyPktInfo, i] ++ (5 :: keySeqNum :: leBytes 4 s.toNat) ++
        (5 :: keyAckNum :: leBytes 4 a.toNat) ++ (3 :: keyLength :: leBytes 2 l.toNat) := by
  simp [entries, ExtHeader.update, ExtHeader.allocated, ExtHeader.measure, ExtHeader.writeEntries]

theorem encap_eq (t i : UInt8) (s a : UInt32) (l : UInt16) : encap t i s a l =
      [nxtNo, 24, 2, keyType, t, 2, keyPktInfo, i] ++ (5 :: keySeqNum :: leBytes 4 s.toNat) ++
        (5 :: keyAckNum :: leBytes 4 a.toNat) ++ (3 :: keyLength :: leBytes 2 l.toNat) :=
  update_entries _ t i s a l

@[simp] theorem length_encap (t i : UInt8) (s a : UInt32) (l : UInt16) :
    (encap t i s a l).length = size := by
  simp [encap_eq, size]

def header (t i : UInt8) (s a : UInt32) (l : UInt16) : ExtHeader where
  nxt := nxtNo
  hlen := 24
  map := ((((AList.insert keyType [t] ∅).insert keyPktInfo [i]).insert keySeqNum
    (leBytes 4 s.toNat)).insert keyAckNum (leBytes 4 a.toNat)).insert keyLength (leBytes 2 l.toNat)

section

variable (t i : UInt8) (s a : UInt32) (l : UInt16)

@[simp] theorem hlen_header : (header t i s a l).hlen = 24 := rfl

@[simp] theorem type_header : type (header t i s a l) = .ok t := field_uint8 rfl

@[simp] theorem pktInfo_header : pktInfo (header t i s a l) = .ok i := field_uint8 rfl

@[simp] theorem seqNum_header : seqNum (header t i s a l) = .ok s := field_uint32 rfl

@[simp] theorem ackNum_header : ackNum (header t i s a l) = .ok a := field_uint32 rfl

@[simp] theorem length_header : length (header t i s a l) = .ok l := field_uint16 rfl

variable {t i s a l} in
theorem Decodes.of_header {t' i' : UInt8} {s' a' : UInt32} {l' : UInt16}
    (h : Decodes (header t i s a l) t' i' s' a' l') :
    t = t' ∧ i = i' ∧ s = s' ∧ a = a' ∧ l = l' := by
  obtain ⟨h₁, h₂, h₃, h₄, h₅⟩ := h
  simp only [type_header, pktInfo_header, seqNum_header, ackNum_header, length_header,
    Except.ok.injEq] at h₁ h₂ h₃ h₄ h₅
  exact ⟨h₁, h₂, h₃, h₄, h₅⟩

/-- **A transport header is read back as it was written**, whatever follows it. -/
theorem parse_encap (d : List UInt8) :
    ExtHeader.parse (encap t i s a l ++ d) = .ok (header t i s a l) := by
  rw [encap_eq]
  rfl

end

end TransportHeader

/-! ### The content header -/

namespace ContentHeader

def keyOpcode : UInt8 := 0
def keyOffset : UInt8 := 1
def keyChunkOffset : UInt8 := 2
def keyLength : UInt8 := 3
def keyChunkLength : UInt8 := 4
def keyContextId : UInt8 := 5
def keyTtl : UInt8 := 6
def keyCacheSize : UInt8 := 7
def keyCachePolicy : UInt8 := 8

def opRequest : UInt8 := 1
def opPush : UInt8 := 6

def opcode (h : ExtHeader) : Result UInt8 := (h.field keyOpcode 1).map UInt8.ofNat
def offset (h : ExtHeader) : Result UInt16 := (h.field keyOffset 2).map UInt16.ofNat
def chunkOffset (h : ExtHeader) : Result UInt32 := (h.field keyChunkOffset 4).map UInt32.ofNat
def length (h : ExtHeader) : Result UInt16 := (h.field keyLength 2).map UInt16.ofNat
def chunkLength (h : ExtHeader) : Result UInt32 := (h.field keyChunkLength 4).map UInt32.ofNat
def contextId (h : ExtHeader) : Result UInt32 := (h.field keyContextId 4).map UInt32.ofNat
def ttl (h : ExtHeader) : Result UInt32 := (h.field keyTtl 4).map UInt32.ofNat
def cacheSize (h : ExtHeader) : Result UInt32 := (h.field keyCacheSize 4).map UInt32.ofNat
def cachePolicy (h : ExtHeader) : Result UInt32 := (h.field keyCachePolicy 4).map UInt32.ofNat

/-- `ContentHeaderEncap(opcode, chunk_offset, length)`. -/
def encap (opcode : UInt8) (chunkOffset : UInt32) (length : UInt16) : List UInt8 :=
  ExtHeader.update (fun _ => 0) nxtNo
    [(keyOpcode, [opcode]), (keyChunkOffset, leBytes 4 chunkOffset.toNat),
      (keyLength, leBytes 2 length.toNat)]

def makeRequestHeader : List UInt8 := encap opRequest 0 0

/-- The bytes of such a header, written out; the last one is padding. -/
theorem encap_eq (op : UInt8) (off : UInt32) (len : UInt16) : encap op off len =
      [nxtNo, 16, 2, keyOpcode, op] ++ (5 :: keyChunkOffset :: leBytes 4 off.toNat) ++
        (3 :: keyLength :: leBytes 2 len.toNat) ++ [0] := by
  simp [encap, ExtHeader.update, ExtHeader.allocated, ExtHeader.measure, ExtHeader.writeEntries]

@[simp] theorem length_encap (op : UInt8) (off : UInt32) (len : UInt16) :
    (encap op off len).length = 16 := by
  simp [encap_eq]

theorem encap_eq_cons (op : UInt8) (off : UInt32) (len : UInt16) :
    ∃ entries, encap op off len = nxtNo :: 16 :: entries := by
  rw [encap_eq]
  exact ⟨_, rfl⟩

/-- `ContentHeaderEncap(offset, chunk_offset, length, chunk_length, opcode, contextID, ttl,
cacheSize, cachePolicy)`. -/
def encapChunk (offset : UInt16) (chunkOffset : UInt32) (length : UInt16) (chunkLength : UInt32)
    (opcode : UInt8) (contextId ttl cacheSize cachePolicy : UInt32) : List UInt8 :=
  ExtHeader.update (fun _ => 0) nxtNo [(keyOpcode, [opcode]), (keyOffset, leBytes 2 offset.toNat),
      (keyChunkOffset, leBytes 4 chunkOffset.toNat), (keyLength, leBytes 2 length.toNat),
      (keyChunkLength, leBytes 4 chunkLength.toNat), (keyContextId, leBytes 4 contextId.toNat),
      (keyTtl, leBytes 4 ttl.toNat), (keyCacheSize, leBytes 4 cacheSize.toNat),
      (keyCachePolicy, leBytes 4 cachePolicy.toNat)]

def chunkSize : Nat := 52

section

variable (off : UInt16) (coff : UInt32) (len : UInt16) (clen : UInt32) (op : UInt8)
  (ctx time size policy : UInt32)

/-- The bytes of such a header, written out; the last three are padding. -/
theorem encapChunk_eq : encapChunk off coff len clen op ctx time size policy =
      [nxtNo, 52, 2, keyOpcode, op] ++ (3 :: keyOffset :: leBytes 2 off.toNat) ++
        (5 :: keyChunkOffset :: leBytes 4 coff.toNat) ++ (3 :: keyLength :: leBytes 2 len.toNat) ++
        (5 :: keyChunkLength :: leBytes 4 clen.toNat) ++
        (5 :: keyContextId :: leBytes 4 ctx.toNat) ++ (5 :: keyTtl :: leBytes 4 time.toNat) ++
        (5 :: keyCacheSize :: leBytes 4 size.toNat) ++
        (5 :: keyCachePolicy :: leBytes 4 policy.toNat) ++ [0, 0, 0] := by
  simp [encapChunk, ExtHeader.update, ExtHeader.allocated, ExtHeader.measure,
    ExtHeader.writeEntries]

@[simp] theorem length_encapChunk :
    (encapChunk off coff len clen op ctx time size policy).length = chunkSize := by
  simp [encapChunk_eq, chunkSize]

def chunkHeader : ExtHeader where
  nxt := nxtNo
  hlen := 52
  map := ((((((((AList.insert keyOpcode [op] ∅).insert keyOffset (leBytes 2 off.toNat)).insert
    keyChunkOffset (leBytes 4 coff.toNat)).insert keyLength (leBytes 2 len.toNat)).insert
      keyChunkLength (leBytes 4 clen.toNat)).insert keyContextId (leBytes 4 ctx.toNat)).insert
        keyTtl (leBytes 4 time.toNat)).insert keyCacheSize (leBytes 4 size.toNat)).insert
          keyCachePolicy (leBytes 4 policy.toNat)

/-- **A chunk header is read back as it was written**, whatever follows it. -/
theorem parse_encapChunk (d : List UInt8) :
    ExtHeader.parse (encapChunk off coff len clen op ctx time size policy ++ d) =
      .ok (chunkHeader off coff len clen op ctx time size policy) := by
  rw [encapChunk_eq]
  rfl

@[simp] theorem opcode_chunkHeader :
    opcode (chunkHeader off coff len clen op ctx time size policy) = .ok op := field_uint8 rfl

@[simp] theorem length_chunkHeader :
    length (chunkHeader off coff len clen op ctx time size policy) = .ok len := field_uint16 rfl

@[simp] theorem contextId_chunkHeader :
    contextId (chunkHeader off coff len clen op ctx time size policy) = .ok ctx := field_uint32 rfl

@[simp] theorem ttl_chunkHeader :
    ttl (chunkHeader off coff len clen op ctx time size policy) = .ok time := field_uint32 rfl

@[simp] theorem cacheSize_chunkHeader :
    cacheSize (chunkHeader off coff len clen op ctx time size policy) = .ok size := field_uint32 rfl

@[simp] theorem cachePolicy_chunkHeader :
    cachePolicy (chunkHeader off coff len clen op ctx time size policy) = .ok policy :=
  field_uint32 rfl

end

def ttlDefault : UInt32 := 86400
def cacheSizeDefault : UInt32 := 1024
def cachePolicyDefault : UInt32 := 0

end ContentHeader

end Xia
