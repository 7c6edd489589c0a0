import Xia.Equiv.ExtHeader
import Xia.TypedHeader

/-!
# Writing and reading typed headers

The tables of the typed headers are small, so that `update` writes all of their entries in whatever
order it meets them, and every field is read back (`typedHeaders_read_back`).

A header that was received may have a shorter value under a key, and then the cast of the accessor
reads past it.  `EntriesOf` says what entries the bytes of a header have, and
`accessors_inBounds_iff` that the accessors stay in bounds exactly if the last entry of each key is
long enough.
-/

namespace Xia

open List Option AList

namespace ExtHeader

variable {m order l : List (UInt8 × List UInt8)} {size : Nat}

/-! ### Small tables -/

theorem accepted_eq_self (h : size + entriesSize m < 255) : accepted size m = m := by
  induction m generalizing size with
  | nil => rfl
  | cons e m ih =>
    simp only [entriesSize, map_cons, sum_cons] at h
    have hshort : Short e := by
      show e.2.length < 254
      omega
    have hrest : size + 2 + e.2.length + entriesSize m < 255 := by
      simp only [entriesSize]
      omega
    rw [accepted, if_pos hshort, if_pos (by omega), ih hrest]

theorem entriesSize_perm (h : order.Perm m) : entriesSize order = entriesSize m :=
  (h.map _).sum_eq

theorem lookup_of_mem (hl : (l.map Prod.fst).Nodup) {key : UInt8} {v : List UInt8}
    (h : (key, v) ∈ l) : l.lookup key = some v := by
  induction l with
  | nil => exact absurd h not_mem_nil
  | cons e l ih =>
    rw [map_cons, nodup_cons] at hl
    rw [lookup_cons]
    obtain rfl | h := mem_cons.1 h
    · rw [beq_iff_eq.2 rfl]
    · have hne : key ≠ e.1 := by
        rintro rfl
        exact hl.1 (List.mem_map.2 ⟨_, h, rfl⟩)
      rw [beq_eq_false_iff_ne.2 hne]
      exact ih hl.2 h

theorem mem_iterate (t : HashTable UInt8 (List UInt8)) (e : UInt8 × List UInt8) :
    e ∈ iterate t ↔ t.lookup e.1 = some e.2 := by
  rw [iterate, List.mem_map, ← mem_def, mem_lookup_iff]
  constructor
  · rintro ⟨⟨key, v⟩, hmem, rfl⟩
    exact hmem
  · intro hmem
    exact ⟨⟨e.1, e.2⟩, hmem, rfl⟩

/-- In whatever order a table is iterated, the same is found. -/
theorem lookup_order {t : HashTable UInt8 (List UInt8)} (horder : order.Perm (iterate t))
    (key : UInt8) : order.lookup key = t.lookup key := by
  cases hkey : t.lookup key with
  | none =>
    rw [lookup_eq_none_iff]
    intro e he
    rw [bne_iff_ne]
    rintro rfl
    rw [(mem_iterate t e).1 (horder.mem_iff.1 he)] at hkey
    cases hkey
  | some v =>
    apply lookup_of_mem ((horder.map _).nodup_iff.2 (nodup_fst_iterate t))
    exact horder.mem_iff.2 ((mem_iterate t (key, v)).2 hkey)

theorem parse_eq_ok {bytes : List UInt8} {hdr : ExtHeader} : parse bytes = .ok hdr ↔
    ∃ nxt hlen d, bytes = nxt :: hlen :: d ∧ hlen.toNat ≤ bytes.length ∧
      hdr = ⟨nxt, hlen, populateMap (d.take (hlen.toNat - 2))⟩ := by
  rcases bytes with _ | ⟨nxt, _ | ⟨hlen, d⟩⟩
  · simp [parse]
  · simp [parse]
  · rw [parse]
    constructor
    · intro h
      split at h
      · rename_i hle
        exact ⟨nxt, hlen, d, rfl, hle, (Except.ok.inj h).symm⟩
      · cases h
    · rintro ⟨nxt', hlen', d', heq, hle, rfl⟩
      simp only [List.cons.injEq] at heq
      obtain ⟨rfl, rfl, rfl⟩ := heq
      exact if_pos hle

theorem parse_append {bytes : List UInt8} {hdr : ExtHeader} (h : parse bytes = .ok hdr)
    (more : List UInt8) : parse (bytes ++ more) = .ok hdr := by
  obtain ⟨nxt, hlen, d, rfl, hle, rfl⟩ := parse_eq_ok.1 h
  refine parse_eq_ok.2 ⟨nxt, hlen, d ++ more, rfl, ?_, ?_⟩
  · rw [length_append]
    omega
  · rw [take_append_of_le_length]
    simp only [length_cons] at hle
    omega

/-- The header that `update` makes of the table, in any order and any memory, is read back with `P`,
and its length is the distance to what follows. -/
def ReadsBack (t : HashTable UInt8 (List UInt8)) (P : ExtHeader → Prop) : Prop :=
  ∀ order, order.Perm (iterate t) → ∀ fresh nxt payload, ∃ hdr,
    parse (update fresh nxt order ++ payload) = .ok hdr ∧ P hdr ∧
      hdr.hlen.toNat = (update fresh nxt order).length ∧ hdr.hlen.toNat % 4 = 0

theorem entriesSize_foldl_le (l : List (UInt8 × List UInt8)) (t : HashTable UInt8 (List UInt8)) :
    entriesSize (iterate (l.foldl (fun t e => t.insert e.1 e.2) t)) ≤
      entriesSize (iterate t) + entriesSize l := by
  induction l generalizing t with
  | nil => exact Nat.le_refl _
  | cons e l ih =>
    have hinsert : entriesSize (iterate (t.insert e.1 e.2)) ≤
        2 + e.2.length + entriesSize (iterate t) := by
      simp only [entriesSize, iterate, entries_insert, map_cons, sum_cons]
      apply Nat.add_le_add_left
      refine List.Sublist.sum_le_sum ?_ fun _ _ => Nat.zero_le _
      exact ((kerase_sublist e.1 t.entries).map _).map _
    have hrest := ih (t.insert e.1 e.2)
    simp only [entriesSize, map_cons, sum_cons, foldl_cons] at hinsert hrest ⊢
    omega

/-- **Assignments to different keys that fit are read back.** -/
theorem readsBack_assign {P : ExtHeader → Prop} (hkeys : (l.map Prod.fst).Nodup)
    (hsize : 2 + entriesSize l ≤ 252)
    (hP : ∀ hdr : ExtHeader, (∀ key, hdr.map.lookup key = l.lookup key) → P hdr) :
    ReadsBack (assign l) P := by
  intro order horder fresh nxt payload
  have hlookup (key : UInt8) : (assign l).lookup key = l.lookup key := by
    rw [assign, lookup_foldl_insert hkeys, lookup_empty, or_none]
  have hle : entriesSize (iterate (assign l)) ≤ entriesSize l := by
    have hle := entriesSize_foldl_le l ∅
    rwa [show entriesSize (iterate ∅) = 0 from rfl, Nat.zero_add] at hle
  have hall : accepted 2 order = order := by
    apply accepted_eq_self
    rw [entriesSize_perm horder]
    omega
  have hfits : acceptedSize order ≤ 252 := by
    rw [acceptedSize, hall, entriesSize_perm horder]
    omega
  have hparse := parse_update (by rw [hall]) hfits fresh nxt
  refine ⟨_, parse_append hparse payload, hP _ fun key => ?_, ?_, ?_⟩
  · dsimp only
    rw [hall, lookup_foldl_insert ((horder.map _).nodup_iff.2 (nodup_fst_iterate _)),
      lookup_empty, or_none, lookup_order horder, hlookup]
  · rw [length_update]
    exact toNat_allocated.2 hfits
  · rw [toNat_allocated.2 hfits, allocated_eq]
    omega

theorem field_of_none {hdr : ExtHeader} {key : UInt8} (h : hdr.map.lookup key = none) (w : Nat) :
    hdr.field key w = .ok 0 := by
  rw [field, h]

end ExtHeader

/-! ### The fields are read back -/

structure ContentHeader.Decodes (hdr : ExtHeader) (offset : UInt16) (chunkOffset : UInt32)
    (length : UInt16) (chunkLength : UInt32) (opcode : UInt8)
    (contextId ttl cacheSize cachePolicy : UInt32) : Prop where
  offset : ContentHeader.offset hdr = .ok offset
  chunkOffset : ContentHeader.chunkOffset hdr = .ok chunkOffset
  length : ContentHeader.length hdr = .ok length
  chunkLength : ContentHeader.chunkLength hdr = .ok chunkLength
  opcode : ContentHeader.opcode hdr = .ok opcode
  contextId : ContentHeader.contextId hdr = .ok contextId
  ttl : ContentHeader.ttl hdr = .ok ttl
  cacheSize : ContentHeader.cacheSize hdr = .ok cacheSize
  cachePolicy : ContentHeader.cachePolicy hdr = .ok cachePolicy

theorem TransportHeader.readsBack (type pktInfo : UInt8) (seqNum ackNum : UInt32)
    (length : UInt16) : ExtHeader.ReadsBack (encapMap type pktInfo seqNum ackNum length)
      fun hdr => Decodes hdr type pktInfo seqNum ackNum length := by
  have hkeys : [keyType, keyPktInfo, keySeqNum, keyAckNum, keyLength].Nodup := by decide
  refine ExtHeader.readsBack_assign hkeys (by simp [ExtHeader.entriesSize, entries]) fun hdr h => ?_
  exact ⟨field_uint8 (h _), field_uint8 (h _), field_uint32 (h _), field_uint32 (h _),
    field_uint16 (h _)⟩

theorem ContentHeader.readsBack_chunk (offset : UInt16) (chunkOffset : UInt32) (length : UInt16)
    (chunkLength : UInt32) (opcode : UInt8) (contextId ttl cacheSize cachePolicy : UInt32) :
    ExtHeader.ReadsBack (encapChunkMap offset chunkOffset length chunkLength opcode contextId ttl
        cacheSize cachePolicy)
      fun hdr => Decodes hdr offset chunkOffset length chunkLength opcode contextId ttl cacheSize
        cachePolicy := by
  have hkeys : [keyOffset, keyChunkOffset, keyLength, keyChunkLength, keyOpcode, keyContextId,
      keyTtl, keyCacheSize, keyCachePolicy].Nodup := by decide
  refine ExtHeader.readsBack_assign hkeys (by simp [ExtHeader.entriesSize]) fun hdr h => ?_
  exact ⟨field_uint16 (h _), field_uint32 (h _), field_uint16 (h _), field_uint32 (h _),
    field_uint8 (h _), field_uint32 (h _), field_uint32 (h _), field_uint32 (h _),
    field_uint32 (h _)⟩

theorem ContentHeader.readsBack_request (opcode : UInt8) (chunkOffset : UInt32) (length : UInt16) :
    ExtHeader.ReadsBack (encapMap opcode chunkOffset length)
      fun hdr => Decodes hdr 0 chunkOffset length 0 opcode 0 0 0 0 := by
  have hkeys : [keyChunkOffset, keyLength, keyOpcode].Nodup := by decide
  refine ExtHeader.readsBack_assign hkeys (by simp [ExtHeader.entriesSize]) fun hdr h => ?_
  -- the second constructor does not set the other fields
  have hzero {key : UInt8} (hkey : hdr.map.lookup key = none) (w : Nat) :
      hdr.field key w = .ok 0 := ExtHeader.field_of_none hkey w
  exact ⟨congrArg _ (hzero (h keyOffset) 2), field_uint32 (h _), field_uint16 (h _),
    congrArg _ (hzero (h keyChunkLength) 4), field_uint8 (h _),
    congrArg _ (hzero (h keyContextId) 4), congrArg _ (hzero (h keyTtl) 4),
    congrArg _ (hzero (h keyCacheSize) 4), congrArg _ (hzero (h keyCachePolicy) 4)⟩

/-- **Typed headers are read back field by field**, in whatever order their tables are iterated. -/
theorem typedHeaders_read_back : (∀ type pktInfo seqNum ackNum length,
      ExtHeader.ReadsBack (TransportHeader.encapMap type pktInfo seqNum ackNum length)
        fun hdr => TransportHeader.Decodes hdr type pktInfo seqNum ackNum length) ∧
    (∀ offset chunkOffset length chunkLength opcode contextId ttl cacheSize cachePolicy,
      ExtHeader.ReadsBack (ContentHeader.encapChunkMap offset chunkOffset length chunkLength opcode
          contextId ttl cacheSize cachePolicy)
        fun hdr => ContentHeader.Decodes hdr offset chunkOffset length chunkLength opcode contextId
          ttl cacheSize cachePolicy) ∧
    ∀ opcode chunkOffset length,
      ExtHeader.ReadsBack (ContentHeader.encapMap opcode chunkOffset length)
        fun hdr => ContentHeader.Decodes hdr 0 chunkOffset length 0 opcode 0 0 0 0 :=
  ⟨TransportHeader.readsBack, ContentHeader.readsBack_chunk, ContentHeader.readsBack_request⟩

/-! ### Headers that were received -/

namespace ExtHeader

/-- The entries of a header, from the bytes behind its length on. -/
structure EntriesOf (d : List UInt8) (es : List (UInt8 × List UInt8)) : Prop where
  length : ∀ e ∈ es, e.2.length < 255
  bytes : ∃ rest, d = es.flatMap entryBytes ++ rest ∧ Stops rest

theorem exists_entriesOf (d : List UInt8) : ∃ es, EntriesOf d es := by
  induction hn : d.length using Nat.strong_induction_on generalizing d with
  | _ n ih =>
  by_cases hstops : Stops d
  · exact ⟨[], forall_mem_nil _, d, rfl, hstops⟩
  cases d with
  | nil => exact absurd trivial hstops
  | cons kvLen d =>
    simp only [Stops, not_or, not_lt] at hstops
    obtain ⟨hzero, hle⟩ := hstops
    have hpos : 0 < kvLen.toNat := Nat.pos_of_ne_zero fun h => hzero (UInt8.toNat_inj.1 h)
    cases d with
    | nil =>
      rw [length_nil] at hle
      omega
    | cons key d =>
      rw [length_cons] at hle
      -- the first entry is as long as its length byte says
      obtain ⟨es, hes, rest, hrest, hstops⟩ := ih (d.drop (kvLen.toNat - 1)).length
        (by simp only [length_drop, length_cons] at hn ⊢; omega) _ rfl
      have hlen : (d.take (kvLen.toNat - 1)).length = kvLen.toNat - 1 := by
        rw [length_take]
        omega
      have hlt : kvLen.toNat < 256 := kvLen.toNat_lt
      refine ⟨(key, d.take (kvLen.toNat - 1)) :: es, forall_mem_cons.2 ⟨?_, hes⟩, rest, ?_, hstops⟩
      · show (d.take (kvLen.toNat - 1)).length < 255
        omega
      · rw [flatMap_cons, append_assoc, ← hrest, entryBytes, hlen,
          Nat.add_sub_cancel' hpos, UInt8.ofNat_toNat, cons_append, cons_append,
          take_append_drop]

theorem EntriesOf.populateMap_eq {d : List UInt8} (h : EntriesOf d l) :
    populateMap d = l.foldl (fun t e => t.insert e.1 e.2) ∅ := by
  obtain ⟨rest, rfl, hstops⟩ := h.bytes
  have hfuel := length_le_entriesSize l
  rw [← length_flatMap_entryBytes] at hfuel
  rw [populateMap, populateMapAux_flatMap l h.length hstops]
  rw [length_append]
  omega

theorem lookup_foldl_insert_last (l : List (UInt8 × List UInt8)) (t : HashTable UInt8 (List UInt8))
    (key : UInt8) : (l.foldl (fun t e => t.insert e.1 e.2) t).lookup key =
      (l.reverse.lookup key).or (t.lookup key) := by
  induction l generalizing t with
  | nil => simp
  | cons e l ih =>
    rw [foldl_cons, ih, HashTable.lookup_insert_eq, reverse_cons, lookup_append,
      Option.or_assoc, lookup_cons]
    by_cases hkey : key = e.1
    · simp [hkey]
    · rw [if_neg hkey, beq_eq_false_iff_ne.2 hkey, lookup_nil, none_or]

/-- The last entry of each of these keys, if there is any, has a value of the given width or more.
-/
def FieldsLong (fields : List (UInt8 × Nat)) (bytes : List UInt8) : Prop :=
  ∀ nxt hlen d es, bytes = nxt :: hlen :: d → hlen.toNat ≤ bytes.length →
    EntriesOf (d.take (hlen.toNat - 2)) es → ∀ f ∈ fields, ∀ v, es.reverse.lookup f.1 = some v →
      f.2 ≤ v.length

theorem field_inBounds_iff (hdr : ExtHeader) (key : UInt8) (w : Nat) :
    (∃ n, hdr.field key w = .ok n) ↔ ∀ v, hdr.map.lookup key = some v → w ≤ v.length := by
  unfold field
  cases hdr.map.lookup key with
  | none => simp
  | some v =>
    by_cases hw : w ≤ v.length
    · simp [hw]
    · simp [hw]

/-- **The fields of a header are in bounds exactly if the values in its bytes are long enough.** -/
theorem fields_inBounds_iff (fields : List (UInt8 × Nat)) (bytes : List UInt8) :
    (∀ hdr, parse bytes = .ok hdr → ∀ f ∈ fields, ∃ n, hdr.field f.1 f.2 = .ok n) ↔
      FieldsLong fields bytes := by
  -- what the accessors find is the last entry of the key
  have hlast {d : List UInt8} {es : List (UInt8 × List UInt8)} (hes : EntriesOf d es)
      (key : UInt8) : (populateMap d).lookup key = es.reverse.lookup key := by
    rw [hes.populateMap_eq, lookup_foldl_insert_last, lookup_empty, or_none]
  constructor
  · intro h nxt hlen d es hbytes hle hes f hf v hv
    have hparse := parse_eq_ok.2 ⟨nxt, hlen, d, hbytes, hle, rfl⟩
    exact (field_inBounds_iff _ f.1 f.2).1 (h _ hparse f hf) v ((hlast hes f.1).trans hv)
  · intro h hdr hparse f hf
    obtain ⟨nxt, hlen, d, hbytes, hle, rfl⟩ := parse_eq_ok.1 hparse
    obtain ⟨es, hes⟩ := exists_entriesOf (d.take (hlen.toNat - 2))
    rw [field_inBounds_iff]
    intro v hv
    exact h nxt hlen d es hbytes hle hes f hf v ((hlast hes f.1).symm.trans hv)

end ExtHeader

/-- The accessors of `TransportHeader` read only bytes of the values. -/
@[mk_iff]
structure TransportHeader.InBounds (hdr : ExtHeader) : Prop where
  type : ∃ n, TransportHeader.type hdr = .ok n
  pktInfo : ∃ n, TransportHeader.pktInfo hdr = .ok n
  seqNum : ∃ n, TransportHeader.seqNum hdr = .ok n
  ackNum : ∃ n, TransportHeader.ackNum hdr = .ok n
  length : ∃ n, TransportHeader.length hdr = .ok n

/-- The keys of a transport header, with the widths of their types. -/
def TransportHeader.fields : List (UInt8 × Nat) :=
  [(keyType, 1), (keyPktInfo, 1), (keySeqNum, 4), (keyAckNum, 4), (keyLength, 2)]

/-- The accessors of `ContentHeader` read only bytes of the values. -/
@[mk_iff]
structure ContentHeader.InBounds (hdr : ExtHeader) : Prop where
  opcode : ∃ n, ContentHeader.opcode hdr = .ok n
  offset : ∃ n, ContentHeader.offset hdr = .ok n
  chunkOffset : ∃ n, ContentHeader.chunkOffset hdr = .ok n
  length : ∃ n, ContentHeader.length hdr = .ok n
  chunkLength : ∃ n, ContentHeader.chunkLength hdr = .ok n
  contextId : ∃ n, ContentHeader.contextId hdr = .ok n
  ttl : ∃ n, ContentHeader.ttl hdr = .ok n
  cacheSize : ∃ n, ContentHeader.cacheSize hdr = .ok n
  cachePolicy : ∃ n, ContentHeader.cachePolicy hdr = .ok n

/-- The keys of a content header, with the widths of their types. -/
def ContentHeader.fields : List (UInt8 × Nat) :=
  [(keyOpcode, 1), (keyOffset, 2), (keyChunkOffset, 4), (keyLength, 2), (keyChunkLength, 4),
    (keyContextId, 4), (keyTtl, 4), (keyCacheSize, 4), (keyCachePolicy, 4)]

theorem map_ok_iff {α β : Type} (r : Result α) (f : α → β) :
    (∃ n, r.map f = .ok n) ↔ ∃ n, r = .ok n := by
  cases r with
  | error e => simp [Except.map]
  | ok n => simp [Except.map]

theorem TransportHeader.inBounds_iff_fields (hdr : ExtHeader) :
    InBounds hdr ↔ ∀ f ∈ fields, ∃ n, hdr.field f.1 f.2 = .ok n := by
  simp only [inBounds_iff, type, pktInfo, seqNum, ackNum, length, map_ok_iff]
  simp [fields]

theorem ContentHeader.inBounds_iff_fields (hdr : ExtHeader) :
    InBounds hdr ↔ ∀ f ∈ fields, ∃ n, hdr.field f.1 f.2 = .ok n := by
  simp only [inBounds_iff, opcode, offset, chunkOffset, length,
    chunkLength, contextId, ttl, cacheSize, cachePolicy,
    map_ok_iff]
  simp [fields]

/-- The accessors are in bounds, whichever header is read from the bytes. -/
def AccessorsInBounds (InBounds : ExtHeader → Prop) (bytes : List UInt8) : Prop :=
  ∀ hdr, ExtHeader.parse bytes = .ok hdr → InBounds hdr

/-- **The accessors read only bytes of the values exactly if the last value of each key is as long
as the type that it is cast to.** -/
theorem accessors_inBounds_iff (bytes : List UInt8) :
    (AccessorsInBounds TransportHeader.InBounds bytes ↔
      ExtHeader.FieldsLong TransportHeader.fields bytes) ∧
    (AccessorsInBounds ContentHeader.InBounds bytes ↔
      ExtHeader.FieldsLong ContentHeader.fields bytes) := by
  simp only [AccessorsInBounds, TransportHeader.inBounds_iff_fields,
    ContentHeader.inBounds_iff_fields]
  exact ⟨ExtHeader.fields_inBounds_iff _ bytes, ExtHeader.fields_inBounds_iff _ bytes⟩

/-- A sequence number, or a context, of one byte. -/
theorem not_accessors_inBounds_short :
    ¬ AccessorsInBounds TransportHeader.InBounds [nxtNo, 5, 2, TransportHeader.keySeqNum, 7] ∧
      ¬ AccessorsInBounds ContentHeader.InBounds [nxtNo, 5, 2, ContentHeader.keyContextId, 7] := by
  constructor
  · intro h
    obtain ⟨n, hn⟩ := (h _ rfl).seqNum
    cases hn
  · intro h
    obtain ⟨n, hn⟩ := (h _ rfl).contextId
    cases hn

end Xia
