import Xia.Xcmp.Element

/-!
# How a message is filled

`sendXCMPPacket` fills its message by copies: the payload of a ping, the addresses of a redirect,
the header and the first bytes of the packet, and its own header (`copies`).  Their places depend on
three fields of the packet that came in, and nothing compares these with the length of the packet.

All accesses are inside and the assertion holds exactly if the packet `Fits` (`message_eq`,
`fits_of_message`), and `message_determined_iff` says when the copies leave nothing of the memory in
which the message was allocated.
-/

namespace Xia

open List Result

namespace Xcmp

open Blit

variable {fresh fresh' : Nat → UInt8} {r : Received} {type code : UInt8} {q : Nat}
  {addrs : Option (Xid × Xid)} {buf msg : List UInt8} {off n : Nat}

/-! ### Accesses -/

theorem length_take_drop (h : off + n ≤ buf.length) : ((buf.drop off).take n).length = n := by
  rw [length_take, length_drop]
  omega

@[simp] theorem length_bytes (x : Xid) : x.bytes.length = xidSize := by
  simp [Xid.bytes, xidSize, xidIdLen]

theorem hdrSize_le (r : Received) : r.hdrSize ≤ r.bytes.length := by
  have hle : (r.dnode + r.snode).toNat ≤ r.dnode.toNat + r.snode.toNat := by
    rw [UInt8.toNat_add]
    exact Nat.mod_le _ _
  exact (Nat.add_le_add_left (Nat.mul_le_mul_left nodeSize hle) fixedSize).trans r.complete

/-! ### The copies -/

def headerAt : Nat := headerSize + xidSize * 2

theorem headerSize_eq : headerSize = 4 := rfl

theorem headerAt_eq : headerAt = 52 := rfl

theorem le_xlen (r : Received) (type : UInt8) : headerAt + r.hdrSize + 8 ≤ xlen r type := by
  unfold xlen headerAt
  dsimp only
  split <;> omega

theorem plen_le_xlen (r : Received) : headerSize + r.plen ≤ xlen r echoReply := by
  unfold xlen
  dsimp only
  split
  · exact Nat.le_refl _
  · rename_i h
    have := not_and.1 h rfl
    omega

def allocated (fresh : Nat → UInt8) (r : Received) (type : UInt8) : List UInt8 :=
  (List.range (xlen r type)).map fresh

def pingCopies (r : Received) (q : Nat) (type : UInt8) : List (Copy UInt8) :=
  if type = echoReply then [(0, (r.bytes.drop q).take r.plen)] else []

def addrCopies (addrs : Option (Xid × Xid)) : List (Copy UInt8) :=
  match addrs with
  | none => []
  | some (lastaddr, nxthop) => [(headerSize, lastaddr.bytes), (headerSize + xidSize, nxthop.bytes)]

def datagramCopies (r : Received) (q : Nat) : List (Copy UInt8) :=
  [(headerAt, r.bytes.take r.hdrSize), (headerAt + r.hdrSize, (r.bytes.drop q).take 8)]

/-- All copies into a message, in their order, for a packet whose payload begins at `q`. -/
def copies (r : Received) (q : Nat) (type code : UInt8) (addrs : Option (Xid × Xid)) :
    List (Copy UInt8) :=
  pingCopies r q type ++ addrCopies addrs ++ datagramCopies r q ++ [(0, [type, code, 0, 0])]

/-- The checksum is put in last. -/
def sealed (msg : List UInt8) : List UInt8 := blit 2 (inCksum msg) msg

/-- A message about the packet can be made: there are not too many nodes, the payload of a ping is
not too long, and the packet has eight bytes of payload and the payload of a ping as a whole. -/
structure Fits (r : Received) (type : UInt8) (q : Nat) : Prop where
  payload : r.payload = .ok q
  nodes : (r.dnode + r.snode).toNat ≤ 51
  room : type = echoReply → r.plen < 1496
  datagram : q + 8 ≤ r.bytes.length
  ping : type = echoReply → q + r.plen ≤ r.bytes.length

theorem xlen_lt_iff : xlen r type < 1500 ↔
    (r.dnode + r.snode).toNat ≤ 51 ∧ (type = echoReply → r.plen < 1496) := by
  unfold xlen
  simp only [Received.hdrSize, headerSize, xidSize, fixedSize, nodeSize]
  by_cases htype : type = echoReply
  · simp only [htype, true_and, forall_const]
    split_ifs <;> omega
  · simp only [htype, false_and, if_false, false_implies, and_true]
    omega

/-! ### The parts of a message -/

theorem putPing_eq (h : Fits r type q) (hlen : msg.length = xlen r type) :
    putPing r type msg = .ok (fill (pingCopies r q type) msg) := by
  unfold putPing pingCopies
  split
  · rename_i htype
    have hread : readAt r.bytes q r.plen = .ok ((r.bytes.drop q).take r.plen) :=
      readAt_eq_ok.2 ⟨h.ping htype, rfl⟩
    have hplen := plen_le_xlen r
    rw [h.payload, ok_bind, hread, ok_bind]
    refine writeAt_eq_ok.2 ⟨?_, rfl⟩
    rw [length_take_drop (h.ping htype), hlen, htype]
    omega
  · rfl

theorem putAddrs_eq (addrs : Option (Xid × Xid)) (hlen : headerAt ≤ msg.length) :
    putAddrs addrs msg = .ok (fill (addrCopies addrs) msg) := by
  unfold headerAt at hlen
  cases addrs with
  | none => rfl
  | some a =>
    obtain ⟨lastaddr, nxthop⟩ := a
    have hfst : headerSize + lastaddr.bytes.length ≤ msg.length := by
      rw [length_bytes]
      omega
    have hsnd : headerSize + xidSize + nxthop.bytes.length ≤
        (blit headerSize lastaddr.bytes msg).length := by
      rw [length_blit hfst, length_bytes]
      omega
    have h₁ := writeAt_eq_ok.2 ⟨hfst, rfl⟩
    have h₂ := writeAt_eq_ok.2 ⟨hsnd, rfl⟩
    simp only [putAddrs]
    rw [h₁, ok_bind, h₂]
    rfl

theorem putDatagram_eq (h : Fits r type q) (hlen : msg.length = xlen r type) :
    putDatagram r msg = .ok (fill (datagramCopies r q) msg) := by
  have hle := le_xlen r type
  have hread₁ : readAt r.bytes 0 r.hdrSize = .ok (r.bytes.take r.hdrSize) :=
    readAt_eq_ok.2 ⟨by simpa using hdrSize_le r, rfl⟩
  have hread₂ : readAt r.bytes q 8 = .ok ((r.bytes.drop q).take 8) :=
    readAt_eq_ok.2 ⟨h.datagram, rfl⟩
  have hfst : headerAt + (r.bytes.take r.hdrSize).length ≤ msg.length := by
    rw [length_take_of_le (hdrSize_le r)]
    omega
  have hsnd : headerAt + r.hdrSize + ((r.bytes.drop q).take 8).length ≤
      (blit headerAt (r.bytes.take r.hdrSize) msg).length := by
    rw [length_blit hfst, length_take_drop h.datagram]
    omega
  have h₁ := writeAt_eq_ok.2 ⟨hfst, rfl⟩
  have h₂ := writeAt_eq_ok.2 ⟨hsnd, rfl⟩
  unfold headerAt at h₁ h₂
  rw [putDatagram, hread₁, ok_bind, h₁, ok_bind, h.payload, ok_bind, hread₂, ok_bind, h₂]
  rfl

theorem putHeader_eq (hlen : headerSize ≤ msg.length) :
    putHeader type code msg = .ok (sealed (fill [(0, [type, code, 0, 0])] msg)) := by
  unfold headerSize at hlen
  have hfst : 0 + [type, code, 0, 0].length ≤ msg.length := by simpa using hlen
  have hsnd : 2 + (inCksum (blit 0 [type, code, 0, 0] msg)).length ≤
      (blit 0 [type, code, 0, 0] msg).length := by
    rw [length_blit hfst, inCksum, length_leBytes]
    omega
  have h₁ := writeAt_eq_ok.2 ⟨hfst, rfl⟩
  have h₂ := writeAt_eq_ok.2 ⟨hsnd, rfl⟩
  rw [putHeader, h₁, ok_bind, h₂]
  rfl

/-! ### The whole message -/

theorem length_allocated (fresh : Nat → UInt8) (r : Received) (type : UInt8) :
    (allocated fresh r type).length = xlen r type := by
  simp [allocated]

theorem fits_copies (h : Fits r type q) (code : UInt8) (addrs : Option (Xid × Xid)) :
    Blit.Fits (copies r q type code addrs) (xlen r type) := by
  have hle := le_xlen r type
  have hhdr := hdrSize_le r
  unfold headerAt at hle
  intro c hc
  simp only [copies, mem_append, mem_singleton] at hc
  rcases hc with ((hc | hc) | hc) | rfl
  · unfold pingCopies at hc
    split at hc
    · rename_i htype
      have hplen := plen_le_xlen r
      rw [mem_singleton] at hc
      rw [hc, length_take_drop (h.ping htype), htype]
      omega
    · cases hc
  · cases addrs with
    | none => cases hc
    | some a =>
      simp only [addrCopies, mem_cons, not_mem_nil, or_false] at hc
      rcases hc with rfl | rfl <;> simp only [length_bytes] <;> omega
  · simp only [datagramCopies, headerAt, mem_cons, not_mem_nil, or_false] at hc
    rcases hc with rfl | rfl
    · simp only [length_take_of_le hhdr]
      omega
    · simp only [length_take_drop h.datagram]
      omega
  · simp only [length_cons, length_nil]
    omega

/-- The message that `sendXCMPPacket` makes. -/
def filled (fresh : Nat → UInt8) (r : Received) (q : Nat) (type code : UInt8)
    (addrs : Option (Xid × Xid)) : List UInt8 :=
  fill (copies r q type code addrs) (allocated fresh r type)

theorem length_filled (h : Fits r type q) :
    (filled fresh r q type code addrs).length = xlen r type := by
  have hfits := fits_copies h code addrs
  rw [← length_allocated fresh] at hfits ⊢
  exact length_fill hfits

theorem message_eq (h : Fits r type q) (fresh : Nat → UInt8) (code : UInt8)
    (addrs : Option (Xid × Xid)) :
    message fresh r type code addrs = .ok (sealed (filled fresh r q type code addrs)) := by
  have hle := le_xlen r type
  have hall := fits_copies h code addrs
  have hlen {cs : List (Copy UInt8)} (hcs : cs ⊆ copies r q type code addrs) :
      (fill cs (allocated fresh r type)).length = xlen r type := by
    rw [← length_allocated fresh] at hall ⊢
    exact length_fill fun c hc => hall c (hcs hc)
  have h₃ : pingCopies r q type ++ addrCopies addrs ++ datagramCopies r q ⊆
      copies r q type code addrs := subset_append_left _ _
  have h₂ := List.Subset.trans (subset_append_left _ _) h₃
  have h₁ := List.Subset.trans (subset_append_left _ _) h₂
  rw [message, if_pos (xlen_lt_iff.2 ⟨h.nodes, h.room⟩), filled, copies, fill_append, fill_append,
    fill_append]
  dsimp only
  rw [← allocated, putPing_eq h (length_allocated fresh r type), ok_bind, putAddrs_eq,
    ok_bind, putDatagram_eq h, ok_bind, putHeader_eq]
  · rw [← fill_append, ← fill_append, ← append_assoc, hlen h₃]
    unfold headerAt at hle
    omega
  · rw [← fill_append, hlen h₂]
  · rw [hlen h₁]
    omega

theorem fits_of_message (h : message fresh r type code addrs = .ok msg) : ∃ q, Fits r type q := by
  unfold message at h
  split at h
  · rename_i hlt
    obtain ⟨hnodes, hroom⟩ := xlen_lt_iff.1 hlt
    obtain ⟨m₁, hping, h⟩ := bind_eq_ok.1 h
    obtain ⟨m₂, -, h⟩ := bind_eq_ok.1 h
    obtain ⟨m₃, hdatagram, -⟩ := bind_eq_ok.1 h
    obtain ⟨_, -, hdatagram⟩ := bind_eq_ok.1 hdatagram
    obtain ⟨_, -, hdatagram⟩ := bind_eq_ok.1 hdatagram
    obtain ⟨q, hpay, hdatagram⟩ := bind_eq_ok.1 hdatagram
    obtain ⟨_, hread, -⟩ := bind_eq_ok.1 hdatagram
    refine ⟨q, hpay, hnodes, hroom, (readAt_eq_ok.1 hread).1, fun htype => ?_⟩
    rw [putPing, if_pos htype, hpay, ok_bind] at hping
    obtain ⟨_, hread', -⟩ := bind_eq_ok.1 hping
    exact (readAt_eq_ok.1 hread').1
  · cases h

/-! ### What is left of the memory -/

theorem covers_copies_iff (h : Fits r type q) {i : Nat} :
    Covers (copies r q type code addrs) i ↔ i < headerSize ∨ (type = echoReply ∧ i < r.plen) ∨
      (addrs.isSome ∧ i < headerAt) ∨ (headerAt ≤ i ∧ i < headerAt + r.hdrSize + 8) := by
  have hhdr : (r.bytes.take r.hdrSize).length = r.hdrSize := length_take_of_le (hdrSize_le r)
  have hpay := length_take_drop h.datagram
  have hping : Covers (pingCopies r q type) i ↔ type = echoReply ∧ i < r.plen := by
    unfold pingCopies
    split
    · rename_i htype
      simp [Covers, Copy.Reaches, htype, length_take_drop (h.ping htype)]
    · rename_i htype
      simp [Covers, htype]
  have haddrs : Covers (addrCopies addrs) i ↔ addrs.isSome ∧ headerSize ≤ i ∧ i < headerAt := by
    cases addrs with
    | none => simp [Covers, addrCopies]
    | some a =>
      simp only [Covers, addrCopies, Copy.Reaches, mem_cons, not_mem_nil, or_false,
        exists_eq_or_imp, exists_eq_left, length_bytes, headerAt, headerSize, xidSize,
        Option.isSome_some, true_and]
      omega
  have hdatagram : Covers (datagramCopies r q) i ↔ headerAt ≤ i ∧ i < headerAt + r.hdrSize + 8 := by
    simp only [Covers, datagramCopies, Copy.Reaches, mem_cons, not_mem_nil, or_false,
      exists_eq_or_imp, exists_eq_left, hhdr, hpay]
    omega
  have hheader : Copy.Reaches (0, [type, code, 0, 0]) i ↔ i < headerSize := by
    simp [Copy.Reaches, headerSize]
  rw [copies, covers_concat, covers_append, covers_append, hping, haddrs, hdatagram, hheader]
  by_cases hsize : i < headerSize
  · simp [hsize]
  · simp only [hsize, or_false, false_or, Nat.le_of_not_lt hsize, true_and, or_assoc]

/-- The copies leave no gap: the room for the addresses is used, by a redirect or by the payload of
a ping, and the payload of a ping does not reach behind the rest of the message. -/
def Gapless (r : Received) (type : UInt8) (addrs : Option (Xid × Xid)) : Prop :=
  (addrs.isSome ∨ type = echoReply ∧ headerAt ≤ r.plen) ∧
    (type = echoReply → headerSize + r.plen ≤ headerAt + r.hdrSize + 8)

theorem gapless_iff (h : Fits r type q) (code : UInt8) :
    Gapless r type addrs ↔ ∀ i < xlen r type, Covers (copies r q type code addrs) i := by
  have hle := le_xlen r type
  simp only [covers_copies_iff h]
  constructor
  · rintro ⟨haddrs, hroom⟩ i hi
    have hlt : i < headerAt + r.hdrSize + 8 := by
      unfold xlen at hi
      dsimp only at hi
      split at hi
      · rename_i hlong
        exact hi.trans_le (hroom hlong.1)
      · unfold headerAt
        exact hi
    rcases Nat.lt_or_ge i headerAt with hi' | hi'
    · rcases haddrs with haddrs | ⟨htype, hplen⟩
      · exact .inr (.inr (.inl ⟨haddrs, hi'⟩))
      · exact .inr (.inl ⟨htype, hi'.trans_le hplen⟩)
    · exact .inr (.inr (.inr ⟨hi', hlt⟩))
  · intro hall
    constructor
    -- the first byte behind the header and the payload of a ping
    · by_contra hgap
      obtain ⟨haddrs, hgap⟩ := not_or.1 hgap
      by_cases htype : type = echoReply
      · have hplen : r.plen < headerAt := Nat.lt_of_not_le fun hle => hgap ⟨htype, hle⟩
        rw [headerAt_eq] at *
        rcases hall (max headerSize r.plen) (by rw [headerSize_eq]; omega) with
          hcov | ⟨-, hcov⟩ | ⟨hsome, -⟩ | ⟨hcov, -⟩
        · omega
        · omega
        · exact haddrs hsome
        · rw [headerSize_eq] at hcov
          omega
      · rw [headerAt_eq] at *
        rcases hall headerSize (by rw [headerSize_eq]; omega) with
          hcov | ⟨heq, -⟩ | ⟨hsome, -⟩ | ⟨hcov, -⟩
        · omega
        · exact htype heq
        · exact haddrs hsome
        · rw [headerSize_eq] at hcov
          omega
    -- the last byte
    · intro htype
      by_contra hlong
      have hplen := plen_le_xlen r
      rw [← htype, headerSize_eq] at hplen
      rw [headerAt_eq, headerSize_eq] at *
      rcases hall (4 + r.plen - 1) (by omega) with hcov | ⟨-, hcov⟩ | ⟨-, hcov⟩ | ⟨-, hcov⟩
      all_goals omega

theorem getElem?_sealed (hlen : headerSize ≤ msg.length) {i : Nat} (hi : headerSize ≤ i) :
    (sealed msg)[i]? = msg[i]? := by
  unfold headerSize at hlen hi
  have hcksum : (inCksum msg).length = 2 := by simp [inCksum]
  refine getElem?_blit_of_not_reaches (by omega) ?_
  rintro ⟨-, hlt⟩
  dsimp only at hlt
  omega

/-- **When a message shows nothing of the memory that it was allocated in**: exactly if the copies
leave no gap. -/
theorem message_determined_iff (h : Fits r type q) (code : UInt8) (addrs : Option (Xid × Xid)) :
    (∀ fresh fresh', message fresh r type code addrs = message fresh' r type code addrs) ↔
      Gapless r type addrs := by
  have hfits := fits_copies h code addrs
  rw [gapless_iff h code]
  simp only [message_eq h, Except.ok.injEq]
  constructor
  · intro hdet i hi
    by_contra hcov
    -- two memories that differ at a position that is not written
    have hsize : headerSize ≤ i := by
      by_contra hlt
      exact hcov ((covers_copies_iff h).2 (.inl (Nat.lt_of_not_le hlt)))
    have hmsg (b : UInt8) : (sealed (filled (fun _ => b) r q type code addrs))[i]? = some b := by
      rw [getElem?_sealed (by rw [length_filled h]; omega) hsize, filled,
        getElem?_fill_of_not_covers (by rw [length_allocated]; exact hfits) hcov, allocated,
        getElem?_map, getElem?_range hi, Option.map_some]
    have heq := hmsg 0
    rw [hdet (fun _ => 0) (fun _ => 1), hmsg 1] at heq
    cases heq
  · intro hall fresh fresh'
    rw [filled, filled,
      fill_eq_of_covers hfits (length_allocated _ _ _) (length_allocated _ _ _) hall]

end Xcmp

end Xia
