import Xia.Transport.Step

/-!
# What the socket functions change

One lemma for each function on `DagInfo`: which fields it changes, and what the packet that it
emits carries.  The source path is rewritten in many places; `Relocated` says how.
-/

namespace Xia

open Result
open TransportHeader (Decodes data header hlen_header length_encap makeDataHeader parse_encap size
  xsockStream)

/-! ### What a packet carries -/

namespace Packet

/-- The packet starts with the given transport header. -/
structure HasHeader (p : Packet) (t i : UInt8) (s a : UInt32) (l : UInt16) : Prop where
  nxt : p.nxt = nxtTrn
  body : ∃ d, p.body = TransportHeader.encap t i s a l ++ d

/-- The packet consists of the given transport header and payload, and its length field covers
exactly these. -/
structure Carries (p : Packet) (t i : UInt8) (s a : UInt32) (l : UInt16) (payload : List UInt8) :
    Prop where
  body : p.body = TransportHeader.encap t i s a l ++ payload
  plen : p.plen.toNat = payload.length + size
  nxt : p.nxt = nxtTrn

variable {p : Packet} {t i : UInt8} {s a : UInt32} {l : UInt16} {payload : List UInt8}

theorem HasHeader.extHeader (h : p.HasHeader t i s a l) : p.extHeader = .ok (header t i s a l) := by
  obtain ⟨d, hd⟩ := h.body
  rw [Packet.extHeader, hd, parse_encap]

theorem Carries.hasHeader (h : p.Carries t i s a l payload) : p.HasHeader t i s a l :=
  ⟨h.nxt, payload, h.body⟩

theorem Carries.extPayload (h : p.Carries t i s a l payload) :
    p.extPayload (header t i s a l) = payload := by
  rw [Packet.extPayload, h.body, hlen_header, List.drop_left' (by rw [length_encap]; rfl)]

theorem Carries.readString (h : p.Carries t i s a l payload) (beyond : Nat → UInt8) :
    Xia.readString beyond (p.extPayload (header t i s a l))
      ((p.plen.toNat : Int) - (header t i s a l).hlen.toNat) = payload := by
  have hlen : ((p.plen.toNat : Int) - (header t i s a l).hlen.toNat) = (payload.length : Int) := by
    rw [h.plen, hlen_header]
    simp [size]
  rw [hlen, h.extPayload, Xia.readString, if_neg (by omega), Int.toNat_natCast, readBytes_length]

def IsData (p : Packet) (seqNum : UInt32) : Prop :=
  ∃ ackNum, p.HasHeader xsockStream data seqNum ackNum 0

def CarriesData (p : Packet) (seqNum : UInt32) (payload : List UInt8) : Prop :=
  ∃ ackNum, p.Carries xsockStream data seqNum ackNum 0 payload

end Packet

/-! ### Functions on a socket -/

namespace DagInfo

variable {env : Env} {beyond : Nat → UInt8} {localAddr : XiaPath} {hlim : UInt8}
variable {d d' : DagInfo} {p q : Packet}

/-- The path `q` is the local address followed by the last XID of `p`, as `parse_re` reads it. -/
def Rewritten (localAddr p q : XiaPath) : Prop :=
  ∃ x t, p.destXid = .ok x ∧ localAddr.unparseRe = .ok t ∧
    q = (XiaPath.parseRe (t ++ [' '] ++ x.unparse)).2

/-- The path is the local address followed by a random XID, as `parse_re` reads it. -/
def Ephemeral (env : Env) (localAddr path : XiaPath) : Prop :=
  ∃ t, localAddr.unparseRe = .ok t ∧ path = (XiaPath.parseRe (t ++ [' '] ++ randomXid env.rand)).2

/-- The source and the destination path with which a socket connects. -/
structure ConnectPaths (env : Env) (localAddr : XiaPath) (dest : Text) (d : DagInfo)
    (src dst : XiaPath) : Prop where
  dst : dst = (XiaPath.empty.parse dest).2
  bound : d.sdag ≠ [] → src = d.srcPath
  unbound : d.sdag = [] → Ephemeral env localAddr src

/-- The path was rewritten any number of times. -/
def Relocated (localAddr : XiaPath) : XiaPath → XiaPath → Prop :=
  Relation.ReflTransGen (Rewritten localAddr)

theorem rewritten_of_localSource {str : Text} (h : d.localSource localAddr = .ok str) :
    Rewritten localAddr d.srcPath (XiaPath.parseRe str).2 := by
  simp only [localSource, bind_eq_ok, pure_eq_ok] at h
  obtain ⟨x, hx, t, ht, rfl⟩ := h
  exact ⟨x, t, hx, ht, rfl⟩

theorem recalculate_eq_ok (h : d.recalculate localAddr = .ok d') :
    ∃ path, Relocated localAddr d.srcPath path ∧ d' = { d with srcPath := path } := by
  simp only [recalculate, bind_eq_ok] at h
  obtain ⟨str, hstr, dagstr, -, h⟩ := h
  split at h
  · exact ⟨_, .single (rewritten_of_localSource hstr), (pure_eq_ok.1 h).symm⟩
  · exact ⟨d.srcPath, .refl, (pure_eq_ok.1 h).symm⟩

theorem completeSrcPath_eq_ok (h : d.completeSrcPath localAddr = .ok d') :
    ∃ path, Relocated localAddr d.srcPath path ∧
      d' = { d with srcPath := path, fullSrcDag := true } := by
  simp only [completeSrcPath] at h
  split at h
  · rename_i hfull
    refine ⟨d.srcPath, .refl, ?_⟩
    rw [← pure_eq_ok.1 h, ← hfull]
  · simp only [bind_eq_ok] at h
    obtain ⟨str, hstr, h⟩ := h
    exact ⟨_, .single (rewritten_of_localSource hstr), (pure_eq_ok.1 h).symm⟩

/-- `copy_packet` changes the source path of the socket and nothing else, and the copy differs
from the original only in its paths and in what follows the header. -/
theorem copyPacket_eq_ok (h : d.copyPacket beyond localAddr p = .ok (d', q)) :
    ∃ path thdr t i n a l, Relocated localAddr d.srcPath path ∧ d' = { d with srcPath := path } ∧
      p.extHeader = .ok thdr ∧ Decodes thdr t i n a l ∧ q.nxt = p.nxt ∧ q.plen = p.plen ∧
      q.body = TransportHeader.encap t i n a l ++
        readBytes beyond (p.extPayload thdr) (p.plen.toNat - thdr.hlen.toNat) := by
  simp only [copyPacket, bind_eq_ok] at h
  obtain ⟨d₁, hd₁, thdr, hthdr, t, ht, i, hi, n, hn, a, ha, l, hl, h⟩ := h
  obtain ⟨path, hpath, rfl⟩ := recalculate_eq_ok hd₁
  split at h
  · cases h
  · simp only [bind_eq_ok, pure_eq_ok, Prod.mk.injEq] at h
    obtain ⟨copy, hcopy, rfl, rfl⟩ := h
    obtain ⟨dnode, snode, -, -, rfl⟩ := Packet.encap_eq_ok hcopy
    exact ⟨path, thdr, t, i, n, a, l, hpath, rfl, hthdr, ⟨ht, hi, hn, ha, hl⟩, rfl, by simp, rfl⟩

theorem copyPacket_source (h : d.copyPacket beyond localAddr p = .ok (d', q)) :
    d.recalculate localAddr = .ok d' ∧ d'.srcPath.wireNodes = .ok q.snode := by
  simp only [copyPacket, bind_eq_ok] at h
  obtain ⟨d₁, hd₁, thdr, -, t, -, i, -, n, -, a, -, l, -, h⟩ := h
  split at h
  · cases h
  · simp only [bind_eq_ok, pure_eq_ok, Prod.mk.injEq] at h
    obtain ⟨copy, hcopy, rfl, rfl⟩ := h
    obtain ⟨dnode, snode, -, hsnode, rfl⟩ := Packet.encap_eq_ok hcopy
    exact ⟨hd₁, hsnode⟩

theorem copyPacket_hasHeader {t i : UInt8} {s a : UInt32} {l : UInt16}
    (h : d.copyPacket beyond localAddr p = .ok (d', q)) (hp : p.HasHeader t i s a l) :
    q.HasHeader t i s a l := by
  obtain ⟨path, thdr, t', i', s', a', l', -, -, hthdr, hfields, hnxt, -, hbody⟩ :=
    copyPacket_eq_ok h
  rw [hp.extHeader] at hthdr
  cases hthdr
  obtain ⟨rfl, rfl, rfl, rfl, rfl⟩ := hfields.of_header
  exact ⟨hnxt.trans hp.nxt, _, hbody⟩

/-- **The copy of a packet carries the same header and the same payload.** -/
theorem copyPacket_carries {t i : UInt8} {s a : UInt32} {l : UInt16} {payload : List UInt8}
    (h : d.copyPacket beyond localAddr p = .ok (d', q)) (hp : p.Carries t i s a l payload) :
    q.Carries t i s a l payload := by
  obtain ⟨path, thdr, t', i', s', a', l', -, -, hthdr, hfields, hnxt, hplen, hbody⟩ :=
    copyPacket_eq_ok h
  rw [hp.hasHeader.extHeader] at hthdr
  cases hthdr
  obtain ⟨rfl, rfl, rfl, rfl, rfl⟩ := hfields.of_header
  have hlen : p.plen.toNat - (header t i s a l).hlen.toNat = payload.length := by
    rw [hp.plen, hlen_header]
    simp [size]
  rw [hp.extPayload, hlen, readBytes_length] at hbody
  exact ⟨hbody, by rw [hplen, hp.plen], by rw [hnxt, hp.nxt]⟩

theorem copyContentPacket_eq_ok {chdr : List UInt8}
    (h : d.copyContentPacket beyond localAddr p chdr = .ok (d', q)) :
    ∃ path, Relocated localAddr d.srcPath path ∧ d' = { d with srcPath := path } := by
  simp only [copyContentPacket, bind_eq_ok, pure_eq_ok, Prod.mk.injEq] at h
  obtain ⟨d₁, hd₁, _, -, _, -, rfl, -⟩ := h
  exact recalculate_eq_ok hd₁

theorem copyContentPacket_source {chdr : List UInt8}
    (h : d.copyContentPacket beyond localAddr p chdr = .ok (d', q)) :
    d.recalculate localAddr = .ok d' ∧ d'.srcPath.wireNodes = .ok q.snode := by
  simp only [copyContentPacket, bind_eq_ok, pure_eq_ok, Prod.mk.injEq] at h
  obtain ⟨d₁, hd₁, _, -, copy, hcopy, rfl, rfl⟩ := h
  obtain ⟨dnode, snode, -, hsnode, rfl⟩ := Packet.encap_eq_ok hcopy
  exact ⟨hd₁, hsnode⟩

/-- The packet `q` is a response `p` as the element keeps it: the extension header is written anew
and the data behind it copied. -/
def IsResponseCopy (beyond : Nat → UInt8) (q p : Packet) : Prop :=
  ∃ chdr bytes op off len, p.extHeader = .ok chdr ∧ p.payload = .ok bytes ∧
    ContentHeader.opcode chdr = .ok op ∧ ContentHeader.chunkOffset chdr = .ok off ∧
    ContentHeader.length chdr = .ok len ∧ q.nxt = p.nxt ∧ q.plen = p.plen ∧
    q.body = ContentHeader.encap op off len ++ readBytes beyond bytes p.plen.toNat

theorem copyCidResponsePacket_eq_ok (h : d.copyCidResponsePacket beyond localAddr p = .ok (d', q)) :
    ∃ path, Relocated localAddr d.srcPath path ∧ d' = { d with srcPath := path } ∧
      IsResponseCopy beyond q p := by
  simp only [copyCidResponsePacket, copyContentPacket, bind_eq_ok, pure_eq_ok, Prod.mk.injEq] at h
  obtain ⟨chdr, hchdr, op, hop, off, hoff, len, hlen, d₁, hd₁, bytes, hbytes, copy, hcopy, rfl,
    rfl⟩ := h
  obtain ⟨path, hpath, rfl⟩ := recalculate_eq_ok hd₁
  obtain ⟨dnode, snode, -, -, rfl⟩ := Packet.encap_eq_ok hcopy
  exact ⟨path, hpath, rfl, chdr, bytes, op, off, len, hchdr, hbytes, hop, hoff, hlen, rfl, by simp,
    rfl⟩

/-- `Xsend` on a connected socket: the packet and its stored copy carry the next sequence
number. -/
theorem xsend_eq_ok {payload : List UInt8} (h : d.xsend env localAddr hlim payload = .ok (d', p)) :
    ∃ path copy, Relocated localAddr d.srcPath path ∧ d' = { d with
        srcPath := path, fullSrcDag := true
        sentPkt := Function.update d.sentPkt (Fin.ofNat maxWinSize d.seqNum.toNat) (some copy)
        seqNum := d.seqNum + 1, nextSeqnum := d.nextSeqnum + 1
        timerOn := true, dataackWaiting := true, numRetransmitTries := 0
        expiry := env.now + ackDelay } ∧
      p.IsData d.nextSeqnum ∧ copy.IsData d.nextSeqnum ∧
      (payload.length + size < 2 ^ 16 →
        p.CarriesData d.nextSeqnum payload ∧ copy.CarriesData d.nextSeqnum payload) := by
  simp only [xsend, bind_eq_ok] at h
  obtain ⟨d₁, hd₁, d₂, hd₂, p', hp', ⟨d₃, copy⟩, hcopy, h⟩ := h
  obtain ⟨path₁, hpath₁, rfl⟩ := recalculate_eq_ok hd₁
  obtain ⟨path₂, hpath₂, rfl⟩ := completeSrcPath_eq_ok hd₂
  obtain ⟨path₃, thdr, t, i, n, a, l, hpath₃, rfl, -⟩ := copyPacket_eq_ok hcopy
  obtain ⟨rfl, rfl⟩ := pure_pair_eq_ok.1 h
  obtain ⟨dnode, snode, -, -, hfields⟩ := Packet.encap_eq_ok hp'
  have hbody : p'.body = makeDataHeader d.nextSeqnum d.ackNum 0 ++ payload := by
    rw [hfields]
  have hnxt : p'.nxt = nxtTrn := by rw [hfields]
  refine ⟨path₃, copy, (hpath₁.trans hpath₂).trans hpath₃, rfl, ⟨_, hnxt, payload, hbody⟩,
    ⟨_, copyPacket_hasHeader hcopy ⟨hnxt, payload, hbody⟩⟩, fun hlen => ?_⟩
  -- the length field has 16 bits; a longer payload does not fit it
  have hp : p'.Carries xsockStream data d.nextSeqnum d.ackNum 0 payload := by
    refine ⟨hbody, ?_, hnxt⟩
    rw [hfields]
    simpa using hlen
  exact ⟨⟨_, hp⟩, ⟨_, copyPacket_carries hcopy hp⟩⟩

/-! ### Acknowledgements -/

/-- The slot that the ACK loop visits at `i`. -/
def slotOf (i : Int) : Fin maxWinSize := Fin.ofNat maxWinSize (i.tmod maxWinSize).toNat

/-- The loop succeeds when it stays inside the array, and then empties the slots that it
visits. -/
theorem clearAcked_eq_ok {n : Nat} {i : Int} {ring ring' : Fin maxWinSize → Option Packet} :
    clearAcked n i ring = .ok ring' ↔ (∀ k < n, 0 ≤ (i + k).tmod maxWinSize) ∧
        ∀ slot, ring' slot = if ∃ k < n, slotOf (i + k) = slot then none else ring slot := by
  induction n generalizing i ring with
  | zero =>
    simp only [clearAcked, Except.ok.injEq, Nat.not_lt_zero, false_and, exists_false, if_false,
      IsEmpty.forall_iff, implies_true, true_and]
    exact ⟨fun h slot => by rw [h], fun h => (funext h).symm⟩
  | succ n ih =>
    have hshift : ∀ k : Nat, i + 1 + (k : Int) = i + ((k + 1 : Nat) : Int) := by
      intro k
      omega
    rw [clearAcked]
    by_cases hneg : i.tmod maxWinSize < 0
    · rw [if_pos hneg]
      refine ⟨fun h => (by cases h), fun h => ?_⟩
      exact absurd (h.1 0 (Nat.succ_pos n)) (by simpa using hneg)
    · rw [if_neg hneg, ih]
      -- both conditions split into the one at `i` and those from `i + 1` on
      have hbound : (∀ k < n, 0 ≤ (i + 1 + (k : Int)).tmod maxWinSize) ↔
          ∀ k < n + 1, 0 ≤ (i + (k : Int)).tmod maxWinSize := by
        constructor
        · intro h k hk
          cases k with
          | zero => simpa using hneg
          | succ k => exact hshift k ▸ h k (by omega)
        · intro h k hk
          exact hshift k ▸ h (k + 1) (by omega)
      have hvisit : ∀ slot, (∃ k < n + 1, slotOf (i + (k : Int)) = slot) ↔
          slotOf i = slot ∨ ∃ k < n, slotOf (i + 1 + (k : Int)) = slot := by
        intro slot
        constructor
        · rintro ⟨k, hk, hs⟩
          cases k with
          | zero => exact .inl (by simpa using hs)
          | succ k => exact .inr ⟨k, by omega, hshift k ▸ hs⟩
        · rintro (hs | ⟨k, hk, hs⟩)
          · exact ⟨0, by omega, by simpa using hs⟩
          · exact ⟨k + 1, by omega, hshift k ▸ hs⟩
      rw [hbound]
      refine and_congr_right fun _ => forall_congr' fun slot => ?_
      simp only [hvisit]
      by_cases hs : slotOf i = slot
      · subst hs
        simp [slotOf]
      · have hne : slot ≠ Fin.ofNat maxWinSize (i.tmod maxWinSize).toNat := fun h => hs h.symm
        simp only [hs, false_or]
        rw [Function.update_of_ne hne]

theorem receiveAck_eq_ok {now : Nat} {srcPath : XiaPath} {a : UInt32} {reset : Bool}
    (h : d.receiveAck now srcPath a = .ok (d', reset)) :
    ∃ ring, clearAcked (toInt a - toInt d.base).toNat (toInt d.base) d.sentPkt = .ok ring ∧
      reset = decide (toInt d.base < toInt a) ∧
      d' = { d with
        dstPath := srcPath, sentPkt := ring, base := a
        timerOn := if toInt d.base < toInt a then decide (a ≠ d.nextSeqnum) else d.timerOn
        dataackWaiting :=
          if toInt d.base < toInt a then decide (a ≠ d.nextSeqnum) else d.dataackWaiting
        numRetransmitTries :=
          if toInt d.base < toInt a ∧ a = d.nextSeqnum then 0 else d.numRetransmitTries
        expiry := if toInt d.base < toInt a then now + ackDelay else d.expiry } := by
  simp only [receiveAck, bind_eq_ok] at h
  obtain ⟨ring, hring, h⟩ := h
  refine ⟨ring, hring, ?_⟩
  -- the loop runs at all, and then reaches `next_seqnum` or not
  by_cases hlt : toInt d.base < toInt a
  · rw [if_pos (by simpa using hlt)] at h
    by_cases heq : a = d.nextSeqnum
    · rw [if_pos heq, pure_eq_ok, Prod.mk.injEq] at h
      obtain ⟨rfl, rfl⟩ := h
      subst heq
      simp [hlt]
    · rw [if_neg heq, pure_eq_ok, Prod.mk.injEq] at h
      obtain ⟨rfl, rfl⟩ := h
      simp [hlt, heq]
  · rw [if_neg (by simpa using hlt), pure_eq_ok, Prod.mk.injEq] at h
    obtain ⟨rfl, rfl⟩ := h
    simp [hlt]

/-- The requests of a socket, and its chunks, stay. -/
structure SameChunkTables (d d' : DagInfo) : Prop where
  xidToCidReqPkt : d'.xidToCidReqPkt = d.xidToCidReqPkt
  xidToStatus : d'.xidToStatus = d.xidToStatus
  xidToReadReq : d'.xidToReadReq = d.xidToReadReq
  xidToCidResponsePkt : d'.xidToCidResponsePkt = d.xidToCidResponsePkt

end DagInfo

end Xia
