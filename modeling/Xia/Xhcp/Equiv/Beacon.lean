import Xia.Nameserver.Equiv.Packet
import Xia.Xhcp.Beacon

/-!
# Beacons, read back and in bounds

The client does not look at the size of a packet.  It reads as many entries as the packet says, and
each of them up to a zero.  `parseLoop_eq_ok` says what it reads: the loop ends exactly if there are
so many entries in the buffer, and then it has stored the data of each of them under its type.

So a beacon of the server is read back (`parse_sendBeacon`), and the loop stays inside the buffers
if and only if the packet has all its entries (`parsesInside_iff`).
-/

namespace Xia

open List Result

namespace Xhcp

open Nameserver

variable {d d' : Dags} {pre mem : List UInt8} {n : Nat}

/-! ### One entry -/

def Entry.bytes (e : Entry) : List UInt8 := leBytes 2 e.type.toNat ++ terminated e.data

/-- The buffers after an entry has been read. -/
def Dags.store (d : Dags) (e : Entry) : Dags :=
  (EntryType.ofCode e.type).elim d (d.set (e.data.map Subtype.val))

theorem Entry.length_bytes (e : Entry) : e.bytes.length = 2 + (e.data.length + 1) := by
  rw [Entry.bytes, length_append, length_leBytes, length_terminated]

theorem exists_terminated {l : List UInt8} (h : 0 ∈ l) :
    ∃ (s : CBytes) (rest : List UInt8), l = terminated s ++ rest := by
  induction l with
  | nil => cases h
  | cons b l ih =>
    by_cases hb : b = 0
    · exact ⟨[], l, by rw [hb]; rfl⟩
    · obtain ⟨s, rest, rfl⟩ := ih ((mem_cons.1 h).resolve_left (Ne.symm hb))
      exact ⟨⟨b, hb⟩ :: s, rest, rfl⟩

theorem strlen_append (pre mem : List UInt8) : strlen (pre ++ mem) pre.length =
    if 0 ∈ mem then .ok (mem.idxOf 0) else .error .outOfBounds := by
  rw [strlen, drop_left]

theorem strlen_append_terminated (pre : List UInt8) (s : CBytes) (rest : List UInt8) :
    strlen (pre ++ (terminated s ++ rest)) pre.length = .ok s.length := by
  rw [strlen_append, if_pos (mem_append_left _ (zero_mem_terminated s)), idxOf_terminated]

theorem leBytes_two (a b : UInt8) : leBytes 2 (UInt16.ofNat (leNat [a, b])).toNat = [a, b] := by
  have ha := a.toNat_lt
  have hb := b.toNat_lt
  have hn : (UInt16.ofNat (leNat [a, b])).toNat = a.toNat + 256 * b.toNat := by
    rw [UInt16.toNat_ofNat']
    simp only [leNat]
    omega
  have hdiv : (a.toNat + 256 * b.toNat) / 256 = b.toNat := by omega
  rw [hn, leBytes, leBytes, leBytes, hdiv, UInt8.ofNat_toNat]
  congr 1
  apply UInt8.toNat.inj
  rw [UInt8.toNat_ofNat']
  omega

theorem ofNat_leNat_leBytes (x : UInt16) : UInt16.ofNat (leNat (leBytes 2 x.toNat)) = x := by
  have hx := x.toNat_lt
  rw [leNat_leBytes, Nat.mod_eq_of_lt (by omega), UInt16.ofNat_toNat]

theorem readAt_append (pre l rest : List UInt8) :
    readAt (pre ++ (l ++ rest)) pre.length l.length = .ok l := by
  rw [readAt_eq_ok, drop_left, take_left]
  simp only [length_append, and_true]
  omega

theorem sprintfDag_append (pre : List UInt8) (s : CBytes) (rest : List UInt8)
    (h : s.length + 1 ≤ maxDagLength) :
    sprintfDag (pre ++ (terminated s ++ rest)) pre.length = .ok (s.map Subtype.val) := by
  have hdata : ((pre ++ (terminated s ++ rest)).drop pre.length).take s.length =
      s.map Subtype.val := by
    rw [drop_left, terminated, append_assoc]
    exact take_left' (length_map _)
  rw [sprintfDag, strlen_append_terminated, ok_bind, if_pos h, hdata]

theorem storeData_append (pre : List UInt8) (e : Entry) (rest : List UInt8)
    (h : e.data.length + 1 ≤ maxDagLength) :
    storeData (pre ++ (terminated e.data ++ rest)) e.type pre.length d = .ok (d.store e) := by
  rw [storeData, Dags.store, sprintfDag_append _ _ _ h]
  cases EntryType.ofCode e.type with
  | none => rfl
  | some t => rfl

/-- **An entry that stands in the packet is stored.** -/
theorem parseEntry_bytes (e : Entry) (rest : List UInt8)
    (h : (pre ++ (e.bytes ++ rest)).length ≤ maxPacketSize) :
    parseEntry (pre ++ (e.bytes ++ rest)) pre.length d =
      .ok ((pre ++ e.bytes).length, d.store e) := by
  have hlen : e.data.length + 1 ≤ maxDagLength := by
    have := e.length_bytes
    rw [length_append, length_append] at h
    change _ ≤ 1024 at h
    change _ ≤ 1024
    omega
  have htype : readAt (pre ++ (e.bytes ++ rest)) pre.length 2 = .ok (leBytes 2 e.type.toNat) := by
    rw [Entry.bytes, append_assoc]
    exact readAt_append pre (leBytes 2 e.type.toNat) (terminated e.data ++ rest)
  -- the data begin behind the type
  have hsplit : pre ++ (e.bytes ++ rest) =
      (pre ++ leBytes 2 e.type.toNat) ++ (terminated e.data ++ rest) := by
    rw [Entry.bytes]
    simp
  have hpos : pre.length + 2 = (pre ++ leBytes 2 e.type.toNat).length := by
    rw [length_append, length_leBytes]
  have hend : (pre ++ e.bytes).length = pre.length + 2 + e.data.length + 1 := by
    rw [length_append, e.length_bytes]
    omega
  rw [parseEntry, htype, ok_bind, ofNat_leNat_leBytes, hend, hpos, hsplit,
    storeData_append _ _ _ hlen, ok_bind, strlen_append_terminated]
  rfl

theorem exists_entry {r : Nat × Dags} (h : parseEntry (pre ++ mem) pre.length d = .ok r) :
    ∃ (e : Entry) (rest : List UInt8), mem = e.bytes ++ rest := by
  obtain ⟨type, htype, h⟩ := bind_eq_ok.1 h
  obtain ⟨d₁, -, h⟩ := bind_eq_ok.1 h
  obtain ⟨n, hn, -⟩ := bind_eq_ok.1 h
  obtain ⟨hle, -⟩ := readAt_eq_ok.1 htype
  rw [length_append] at hle
  obtain ⟨a, b, text, rfl⟩ : ∃ a b text, mem = a :: b :: text := by
    cases mem with
    | nil => simp at hle
    | cons a mem =>
      cases mem with
      | nil => simp at hle
      | cons b text => exact ⟨a, b, text, rfl⟩
  have hsplit : pre ++ a :: b :: text = (pre ++ [a, b]) ++ text := by simp
  have hpos : pre.length + 2 = (pre ++ [a, b]).length := by simp
  rw [hsplit, hpos, strlen_append] at hn
  split at hn
  · rename_i hmem
    obtain ⟨s, rest, rfl⟩ := exists_terminated hmem
    refine ⟨⟨UInt16.ofNat (leNat [a, b]), s⟩, rest, ?_⟩
    rw [Entry.bytes, leBytes_two]
    rfl
  · cases hn

/-! ### The loop -/

/-- **The loop ends if and only if there are so many entries**, and then it has stored them. -/
theorem parseLoop_eq_ok (h : (pre ++ mem).length ≤ maxPacketSize) :
    parseLoop (pre ++ mem) n pre.length d = .ok d' ↔
      ∃ (es : List Entry) (rest : List UInt8), es.length = n ∧
        mem = es.flatMap Entry.bytes ++ rest ∧ d' = es.foldl Dags.store d := by
  induction n generalizing pre mem d with
  | zero =>
    rw [parseLoop, pure_eq_ok]
    constructor
    · rintro rfl
      exact ⟨[], mem, rfl, rfl, rfl⟩
    · rintro ⟨es, rest, hes, -, rfl⟩
      rw [length_eq_zero_iff.1 hes]
      rfl
  | succ n ih =>
    rw [parseLoop, bind_eq_ok]
    constructor
    · rintro ⟨⟨off, d₁⟩, hentry, hrest⟩
      obtain ⟨e, mem, rfl⟩ := exists_entry hentry
      rw [parseEntry_bytes e mem h] at hentry
      cases hentry
      rw [← append_assoc] at h hrest
      obtain ⟨es, rest, rfl, rfl, rfl⟩ := (ih h).1 hrest
      exact ⟨e :: es, rest, rfl, by simp, rfl⟩
    · rintro ⟨es, rest, hes, hmem, rfl⟩
      cases es with
      | nil => cases hes
      | cons e es =>
        rw [flatMap_cons, append_assoc] at hmem
        subst hmem
        refine ⟨_, parseEntry_bytes e _ h, ?_⟩
        rw [← append_assoc] at h ⊢
        exact (ih h).2 ⟨es, rest, by simpa using hes, rfl, rfl⟩

/-! ### Packets -/

/-- The packet in the buffer has as many entries as it says. -/
def HasEntries (pkt : List UInt8) : Prop :=
  ∃ es : List Entry, es.length = leNat ((pkt.drop 4).take 2) ∧ es.flatMap Entry.bytes <+: pkt.drop 6

theorem length_received {bytes : List UInt8} (h : bytes.length ≤ maxPacketSize) :
    (received bytes).length = maxPacketSize := by
  rw [received, length_append, length_replicate]
  omega

theorem parse_eq_ok {pkt : List UInt8} (h : pkt.length = maxPacketSize) :
    parse pkt = .ok d ↔ ∃ (es : List Entry) (rest : List UInt8),
      es.length = leNat ((pkt.drop 4).take 2) ∧ pkt.drop 6 = es.flatMap Entry.bytes ++ rest ∧
      d = es.foldl Dags.store .empty := by
  have hread : readAt pkt 4 2 = .ok ((pkt.drop 4).take 2) := by
    rw [readAt_eq_ok, h]
    exact ⟨by decide, rfl⟩
  have htake : (pkt.take 6).length = 6 := by
    rw [length_take, h]
    rfl
  rw [parse, hread, ok_bind]
  have hlen : (pkt.take 6 ++ pkt.drop 6).length ≤ maxPacketSize := by
    rw [take_append_drop, h]
  rw [← parseLoop_eq_ok hlen, take_append_drop, htake]

/-- The loop reads only inside the buffer of the packet, and writes only inside the buffers for the
DAGs. -/
def ParsesInside (bytes : List UInt8) : Prop := ∃ d, parse (received bytes) = .ok d

/-- **The client stays inside its buffers if and only if the packet has all its entries.** -/
theorem parsesInside_iff (bytes : {b : List UInt8 // b.length ≤ maxPacketSize}) :
    ParsesInside bytes ↔ HasEntries (received bytes) := by
  have hlen := length_received bytes.2
  constructor
  · rintro ⟨d, hd⟩
    obtain ⟨es, rest, hes, hmem, -⟩ := (parse_eq_ok hlen).1 hd
    exact ⟨es, hes, rest, hmem.symm⟩
  · rintro ⟨es, hes, rest, hmem⟩
    exact ⟨_, (parse_eq_ok hlen).2 ⟨es, rest, hes, hmem.symm, rfl⟩⟩

theorem three_mul_length_le (es : List Entry) :
    3 * es.length ≤ (es.flatMap Entry.bytes).length := by
  induction es with
  | nil => exact Nat.zero_le _
  | cons e es ih =>
    rw [flatMap_cons, length_append, length_cons, e.length_bytes]
    omega

/-- A packet that says it has 65535 entries, and one with a string that does not end. -/
theorem not_parsesInside : ¬ ParsesInside [0, 0, 0, 0, 255, 255] ∧
      ¬ ParsesInside ([0, 0, 0, 0, 1, 0] ++ List.replicate 1018 97) := by
  constructor
  · rintro ⟨d, hd⟩
    have hlen : (received [0, 0, 0, 0, 255, 255]).length = maxPacketSize :=
      length_received (by decide)
    obtain ⟨es, rest, hes, hmem, -⟩ := (parse_eq_ok hlen).1 hd
    have hcount : leNat (((received [0, 0, 0, 0, 255, 255]).drop 4).take 2) = 65535 := by
      decide +kernel
    have hspace := congrArg List.length hmem
    rw [length_drop, hlen, length_append] at hspace
    have hlow := three_mul_length_le es
    rw [hes, hcount] at hlow
    change 1024 - 6 = _ at hspace
    omega
  · rintro ⟨d, hd⟩
    have hfault : parse (received ([0, 0, 0, 0, 1, 0] ++ List.replicate 1018 97)) =
        .error .outOfBounds := by
      decide +kernel
    rw [hfault] at hd
    cases hd

/-! ### Beacons -/

namespace Server

variable {s : Server}

theorem flatten_parts (s : Server) :
    s.parts.flatten = leBytes 4 s.seqNum.toNat ++ leBytes 2 4 ++ s.entries.flatMap Entry.bytes := by
  simp [parts, entries, Entry.bytes]

theorem fits_copies (h : s.offset ≤ maxPacketSize) : Blit.Fits s.copies maxPacketSize := by
  rw [copies, Blit.Fits, forall_mem_cons]
  refine ⟨by simp, (Blit.fits_chain_iff s.parts (Nat.zero_le _)).2 ?_⟩
  rwa [Nat.zero_add]

theorem sendBeacon_snd {pkt : List UInt8} (hpkt : pkt.length = maxPacketSize) :
    (s.sendBeacon pkt).2 = s.parts.flatten := by
  have hclear (zeros : List UInt8) (h : zeros.length = pkt.length) :
      Blit.fill [(0, zeros)] pkt = zeros := Blit.blit_all h
  have hfill (zeros : List UInt8) : Blit.fill (Blit.chain s.parts 0) zeros =
      s.parts.flatten ++ zeros.drop s.parts.flatten.length := Blit.fill_chain s.parts [] zeros
  rw [sendBeacon, copies, ← singleton_append, Blit.fill_append,
    hclear _ (by rw [length_replicate, hpkt]), hfill]
  exact take_left

end Server

theorem foldl_store_entries (s : Server) : s.entries.foldl Dags.store .empty =
    ⟨s.myAd.map Subtype.val, s.gwRouterHid.map Subtype.val, s.gwRouter4id.map Subtype.val,
      s.ns.map Subtype.val⟩ :=
  rfl

/-- **A beacon that has space in a packet is read back**, each string under its type. -/
theorem parse_sendBeacon (s : Server) (pkt : List UInt8) (hpkt : pkt.length = maxPacketSize)
    (hfits : s.offset ≤ maxPacketSize) (hne : ∀ e ∈ s.entries, e.data ≠ []) :
    Blit.Fits s.copies maxPacketSize ∧ ∃ d, parse (received (s.sendBeacon pkt).2) = .ok d ∧
      d.selfDag = s.myAd.map Subtype.val ∧ d.gwDag = s.gwRouterHid.map Subtype.val ∧
      d.gw4id = s.gwRouter4id.map Subtype.val ∧ d.nsDag = s.ns.map Subtype.val ∧
      d.valid = true := by
  have hlen : (received s.parts.flatten).length = maxPacketSize := length_received hfits
  have hreceived : received s.parts.flatten = leBytes 4 s.seqNum.toNat ++ (leBytes 2 4 ++
      (s.entries.flatMap Entry.bytes ++
        List.replicate (maxPacketSize - s.parts.flatten.length) 0)) := by
    rw [received]
    nth_rewrite 1 [s.flatten_parts]
    simp
  have hcount : (received s.parts.flatten).drop 4 = leBytes 2 4 ++ (s.entries.flatMap Entry.bytes ++
        List.replicate (maxPacketSize - s.parts.flatten.length) 0) := by
    rw [hreceived]
    exact drop_left' (length_leBytes 4 _)
  have hentries : (received s.parts.flatten).drop 6 = s.entries.flatMap Entry.bytes ++
      List.replicate (maxPacketSize - s.parts.flatten.length) 0 := by
    rw [show 6 = 4 + 2 from rfl, ← drop_drop, hcount]
    rfl
  refine ⟨Server.fits_copies hfits, s.entries.foldl Dags.store .empty, ?_, ?_⟩
  · rw [Server.sendBeacon_snd hpkt, parse_eq_ok hlen, hcount]
    exact ⟨s.entries, _, rfl, hentries, rfl⟩
  · rw [foldl_store_entries]
    refine ⟨rfl, rfl, rfl, rfl, ?_⟩
    simp only [Server.entries, forall_mem_cons] at hne
    obtain ⟨had, hhid, h4id, hns, -⟩ := hne
    simp [Dags.valid, had, hhid, h4id, hns]

/-- Strings of one byte. -/
theorem parse_sendBeacon_short : ∃ d, parse (received
    (Server.sendBeacon ⟨7, [⟨65, by decide⟩], [⟨66, by decide⟩], [⟨67, by decide⟩],
      [⟨68, by decide⟩]⟩ (List.replicate maxPacketSize 1)).2) = .ok d ∧ d.selfDag = [65] ∧
    d.gwDag = [66] ∧ d.gw4id = [67] ∧ d.nsDag = [68] ∧ d.valid = true :=
  (parse_sendBeacon ⟨7, [⟨65, by decide⟩], [⟨66, by decide⟩], [⟨67, by decide⟩],
    [⟨68, by decide⟩]⟩ (List.replicate maxPacketSize 1) (length_replicate) (by decide)
    (by simp [Server.entries])).2

end Xhcp

end Xia
