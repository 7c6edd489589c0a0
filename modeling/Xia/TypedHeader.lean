import Xia.ExtHeader

/-!
# The tables of typed headers

`TransportHeaderEncap` and `ContentHeaderEncap` file the fields of a header in its table.
-/

namespace Xia

/-- Assignments `map()[key] = value`, one after the other, to an empty table. -/
def ExtHeader.assign (l : List (UInt8 × List UInt8)) : HashTable UInt8 (List UInt8) :=
  l.foldl (fun t e => t.insert e.1 e.2) ∅

namespace TransportHeader

/-- The table that `TransportHeaderEncap` fills. -/
def encapMap (type pktInfo : UInt8) (seqNum ackNum : UInt32) (length : UInt16) :
    HashTable UInt8 (List UInt8) :=
  ExtHeader.assign (entries type pktInfo seqNum ackNum length)

end TransportHeader

namespace ContentHeader

/-- The table that the first constructor of `ContentHeaderEncap` fills. -/
def encapChunkMap (offset : UInt16) (chunkOffset : UInt32) (length : UInt16)
    (chunkLength : UInt32) (opcode : UInt8) (contextId ttl cacheSize cachePolicy : UInt32) :
    HashTable UInt8 (List UInt8) :=
  ExtHeader.assign
    [(keyOffset, leBytes 2 offset.toNat), (keyChunkOffset, leBytes 4 chunkOffset.toNat),
      (keyLength, leBytes 2 length.toNat), (keyChunkLength, leBytes 4 chunkLength.toNat),
      (keyOpcode, [opcode]), (keyContextId, leBytes 4 contextId.toNat),
      (keyTtl, leBytes 4 ttl.toNat), (keyCacheSize, leBytes 4 cacheSize.toNat),
      (keyCachePolicy, leBytes 4 cachePolicy.toNat)]

/-- The table that the second constructor of `ContentHeaderEncap` fills. -/
def encapMap (opcode : UInt8) (chunkOffset : UInt32) (length : UInt16) :
    HashTable UInt8 (List UInt8) :=
  ExtHeader.assign
    [(keyChunkOffset, leBytes 4 chunkOffset.toNat), (keyLength, leBytes 2 length.toNat),
      (keyOpcode, [opcode])]

end ContentHeader

end Xia
