import Xia.Transport.Equiv.Chunk

/-!
# Retransmitted chunk requests

The length field of a chunk request counts the request header, and `XIAHeader::payload` points
behind it.  So `copy_cid_req_packet`, which copies that many bytes from there and puts a new header
before them, makes a packet that is longer than the request by a header (`IsRequestCopy`).  The copy
of such a copy is of the same length.

`requests_step` says that all requests which a socket stores are copies of this kind, and
`request_unfaithful` that neither they nor what the timer sends agree with a request.
-/

namespace Xia

open List HashTable

/-! ### Requests and copies -/

theorem length_readBytes (beyond : Nat → UInt8) (buf : List UInt8) (n : Nat) :
    (readBytes beyond buf n).length = n := by
  simp only [readBytes, length_append, length_take, length_map, length_range]
  omega

namespace Packet

open ContentHeader (makeRequestHeader)

variable {p c : Packet} {payload bytes : List UInt8}

/-- A chunk request as `XrequestChunk` sends it. -/
structure IsRequest (p : Packet) (payload : List UInt8) : Prop where
  nxt : p.nxt = nxtCid
  plen : p.plen = UInt16.ofNat (makeRequestHeader ++ payload).length
  body : p.body = makeRequestHeader ++ payload

/-- A chunk request as it is stored: behind the header there are as many bytes as the length field
says. -/
structure IsRequestCopy (c : Packet) : Prop where
  nxt : c.nxt = nxtCid
  body : ∃ bytes, c.body = makeRequestHeader ++ bytes ∧ bytes.length = c.plen.toNat

/-- The second packet is as long as the first one and has the same length field, the same request
header and the same payload. -/
structure SameRequest (p c : Packet) : Prop where
  length : c.hdrBytes.length + c.body.length = p.hdrBytes.length + p.body.length
  plen : c.plen = p.plen
  header : c.body.take makeRequestHeader.length = p.body.take makeRequestHeader.length
  payload : c.body.drop makeRequestHeader.length = p.body.drop makeRequestHeader.length

instance (p c : Packet) : Decidable (SameRequest p c) :=
  decidable_of_iff (_ ∧ _ ∧ _ ∧ _)
    ⟨fun h => ⟨h.1, h.2.1, h.2.2.1, h.2.2.2⟩, fun h => ⟨h.1, h.2, h.3, h.4⟩⟩

theorem length_makeRequestHeader : makeRequestHeader.length = 16 := ContentHeader.length_encap _ _ _

theorem payload_of_request (hnxt : p.nxt = nxtCid) (hbody : p.body = makeRequestHeader ++ bytes) :
    p.payload = .ok bytes := by
  rw [Packet.payload, hbody, hnxt]
  exact skipExtHeaders_append (by decide) (ContentHeader.encap_eq _ _ _)
    (ContentHeader.length_encap _ _ _) (by decide) (by decide)

/-- The length field of a request wraps, so it is never the length of the payload. -/
theorem not_sameRequest_of_copy (hp : p.IsRequest payload) (hc : c.IsRequestCopy) :
    ¬ SameRequest p c := by
  intro h
  obtain ⟨bytes, hbody, hlen⟩ := hc.body
  have hbytes := h.payload
  rw [hbody, hp.body, drop_left, drop_left] at hbytes
  rw [h.plen, hp.plen, hbytes, length_append, length_makeRequestHeader, UInt16.toNat_ofNat'] at hlen
  omega

theorem not_sameRequest_of_transport {t i : UInt8} {s a : UInt32} {l : UInt16}
    (hp : p.IsRequest payload) (hc : c.body = TransportHeader.encap t i s a l ++ bytes) :
    ¬ SameRequest p c := by
  intro h
  have hheader := congrArg (·[1]?) h.header
  rw [hc, hp.body, take_left, TransportHeader.encap_eq, length_makeRequestHeader] at hheader
  exact absurd hheader (of_decide_eq_true rfl)

end Packet

namespace DagInfo

open Packet

open ContentHeader (makeRequestHeader)

variable {env : Env} {beyond : Nat → UInt8} {localAddr : XiaPath} {d d' : DagInfo}
  {p c : Packet} {bytes : List UInt8}

theorem copyCidReqPacket_body (h : d.copyCidReqPacket beyond localAddr p = .ok (d', c))
    (hnxt : p.nxt = nxtCid) (hbody : p.body = makeRequestHeader ++ bytes) :
    c.nxt = nxtCid ∧ c.plen = p.plen ∧
      c.body = makeRequestHeader ++ readBytes beyond bytes p.plen.toNat := by
  simp only [copyCidReqPacket, copyContentPacket, Result.bind_eq_ok, payload_of_request hnxt hbody,
    Result.ok_bind] at h
  obtain ⟨d₁, -, copy, hcopy, h⟩ := h
  cases h
  obtain ⟨dnode, snode, -, -, rfl⟩ := Packet.encap_eq_ok hcopy
  exact ⟨hnxt, by simp, rfl⟩

theorem isRequestCopy_of_copy (h : d.copyCidReqPacket beyond localAddr p = .ok (d', c))
    (hnxt : p.nxt = nxtCid) (hbody : p.body = makeRequestHeader ++ bytes) : c.IsRequestCopy := by
  obtain ⟨hnxt', hplen, hbody'⟩ := copyCidReqPacket_body h hnxt hbody
  refine ⟨hnxt', _, hbody', ?_⟩
  rw [length_readBytes, hplen]

def RequestsCopied (d : DagInfo) : Prop :=
  ∀ cid c, d.xidToCidReqPkt.lookup cid = some c → c.IsRequestCopy

theorem RequestsCopied.cidTimeouts {cids : List Xid} {e e' : Nat} {copies : List Packet}
    (hd : d.RequestsCopied) (h : d.cidTimeouts env localAddr cids e = .ok (d', e', copies)) :
    ∀ c ∈ copies, c.IsRequestCopy := by
  refine (cidTimeouts_invariant (I := RequestsCopied) (fun d d₁ cid p c hd _ hp hcopy => ?_) hd h).2
  have hc := hd cid p hp
  obtain ⟨bytes, hbody, -⟩ := hc.body
  have hcopied := isRequestCopy_of_copy hcopy hc.nxt hbody
  obtain ⟨path, -, rfl⟩ := copyContentPacket_eq_ok hcopy
  exact ⟨hd, hcopied⟩

theorem Timeout.transport {out : List Output} {tear : Bool}
    (h : Timeout env localAddr d d' out tear) (hc : .network c ∈ out) :
    ∃ t i s a l bytes, c.body = TransportHeader.encap t i s a l ++ bytes := by
  have hcopy : ∀ p, IsCopy c p →
      ∃ t i s a l bytes, c.body = TransportHeader.encap t i s a l ++ bytes := by
    rintro p ⟨_, _, _, _, hcopy⟩
    obtain ⟨_, thdr, t, i, n, a, l, -, -, -, -, -, -, hbody⟩ := copyPacket_eq_ok hcopy
    exact ⟨_, _, _, _, _, _, hbody⟩
  cases h with
  | synResend path p q _ _ _ _ _ hq =>
    obtain rfl : c = q := by simpa using hc
    exact hcopy p hq
  | dataResend path copies _ _ _ _ _ _ hcopies =>
    obtain ⟨p, -, hp⟩ := (isCopy_of_forall₂ hcopies).2 c (by simpa using hc)
    exact hcopy p hp
  | _ => cases hc

end DagInfo

namespace XTransport

open Packet

variable {sha1 : Sha1} {env : Env} {s s' s'' : XTransport} {port q : UInt16} {d d' : DagInfo}
  {p : Packet} {payload : List UInt8} {out : List Output}

/-! ### Stored requests -/

def cidRequests (s : XTransport) (port : UInt16) : HashTable Xid Packet :=
  ((s.portToDagInfo.lookup port).map DagInfo.xidToCidReqPkt).getD ∅

theorem cidRequests_of_lookup (hd : s.portToDagInfo.lookup port = some d) :
    s.cidRequests port = d.xidToCidReqPkt := by
  simp [cidRequests, hd]

/-- The socket that a call works on has the requests of its port, also if it is a new one. -/
theorem cidRequests_getD (s : XTransport) (q : UInt16) (junk : DagInfo) :
    ((s.portToDagInfo.lookup q).getD (DagInfo.new junk)).xidToCidReqPkt = s.cidRequests q := by
  unfold cidRequests
  cases s.portToDagInfo.lookup q <;> rfl

/-- Every request that is stored was stored before or is a new copy. -/
def Gains (s s' : XTransport) : Prop :=
  ∀ port cid c, (s'.cidRequests port).lookup cid = some c →
    (s.cidRequests port).lookup cid = some c ∨ c.IsRequestCopy

theorem gains_of_eq (h : s'.portToDagInfo = s.portToDagInfo) : Gains s s' := by
  intro port cid c hc
  rw [cidRequests, h] at hc
  exact .inl hc

theorem Gains.trans (h : Gains s s') (h' : Gains s' s'') : Gains s s'' := by
  intro port cid c hc
  rcases h' port cid c hc with hc | hc
  · exact h port cid c hc
  · exact .inr hc

/-- It is enough to look at the socket that an event stores. -/
theorem Touched.gains (ht : Touched s s' q d') (h : ∀ cid c, d'.xidToCidReqPkt.lookup cid = some c →
    (s.cidRequests q).lookup cid = some c ∨ c.IsRequestCopy) : Gains s s' := by
  intro port cid c hc
  rw [cidRequests, ht.lookup] at hc
  split at hc
  · rename_i heq
    rw [heq]
    exact h cid c hc
  · exact .inl hc

theorem Touched.gains_same (ht : Touched s s' q d') (h : d'.xidToCidReqPkt = s.cidRequests q) :
    Gains s s' :=
  ht.gains fun _ _ hc => .inl (h ▸ hc)

theorem Touched.gains_fresh (ht : Touched s s' q d') (h : d'.xidToCidReqPkt = ∅) : Gains s s' := by
  refine ht.gains fun cid c hc => ?_
  rw [h] at hc
  cases hc

/-- A socket that is made by a SYN or by default has no requests. -/
structure Unrequested (s : XTransport) : Prop where
  pending : ∀ d ∈ s.pendingConnectionBuf, d.xidToCidReqPkt = ∅
  noDagInfo : s.noDagInfo.xidToCidReqPkt = ∅

theorem unrequested_step {e : Event} (hun : Unrequested s)
    (h : s.handle sha1 env e = .ok (s', out)) : Unrequested s' := by
  refine ⟨forall_pending_step (fun _ _ => rfl) hun.pending h, ?_⟩
  rw [(handle_framed h).noDagInfo]
  exact hun.noDagInfo

theorem Dispatched.gains {pair : XidPair} {thdr : ExtHeader} {v : Verdict}
    (h : Dispatched env s p pair thdr s' out v) : Gains s s' := by
  rcases h.touched with hsame | ⟨d, d', hd, ht, -, htables⟩
  · exact gains_of_eq hsame
  · exact ht.gains_same (by rw [htables.xidToCidReqPkt, cidRequests_of_lookup hd])

theorem Delivered.gains {thdr : ExtHeader} {v : Verdict} (h : Delivered env s p thdr v s' out)
    (hno : s.noDagInfo.xidToCidReqPkt = ∅) : Gains s s' := by
  -- the socket that is stored has the requests of its port, also if it is the default one
  have hget : (s.portToDagInfo.get s.noDagInfo v.dport).xidToCidReqPkt = s.cidRequests v.dport := by
    unfold HashTable.get cidRequests
    cases s.portToDagInfo.lookup v.dport
    · exact hno
    · rfl
  rcases h.touched with rfl | ht
  · exact gains_of_eq rfl
  · exact ht.gains_same hget

theorem Cached.gains {ch : ExtHeader} {sid cid : Xid}
    (h : Cached sha1 env s p ch sid cid s' out) : Gains s s' := by
  -- an arrival drops the request for its chunk
  have hdrop : ∀ d d', s.portToDagInfo.lookup (s.pairPort ⟨sid, cid⟩) = some d →
      d'.xidToCidReqPkt = d.xidToCidReqPkt.erase cid →
      Gains s (s.setDagInfo (s.pairPort ⟨sid, cid⟩) d') := by
    intro d d' hd hd'
    refine (touched_setDagInfo _ _ ⟨rfl, rfl, rfl⟩).gains fun x c hc => .inl ?_
    rw [hd', lookup_erase_eq] at hc
    rw [cidRequests_of_lookup hd]
    split at hc
    · cases hc
    · exact hc
  cases h with
  | pushUnknown | pushed | unknown => exact gains_of_eq rfl
  | handed d _ _ _ _ hd => exact hdrop d _ hd rfl
  | stored d _ _ _ _ _ hd => exact hdrop d _ hd rfl

theorem gains_timer (h : s.runTimer env = .ok (s', out)) : Gains s s' := by
  intro port cid c hc
  cases hd : s.portToDagInfo.lookup port with
  | none =>
    rw [cidRequests, runTimer_none h hd] at hc
    cases hc
  | some d =>
    obtain ⟨o, hv, -⟩ := runTimer_some h hd
    cases hd' : s'.portToDagInfo.lookup port with
    | none =>
      rw [cidRequests, hd'] at hc
      cases hc
    | some d' =>
      rw [hd'] at hv
      rw [cidRequests_of_lookup hd', hv.sameChunkTables.xidToCidReqPkt] at hc
      exact .inl (by rw [cidRequests_of_lookup hd, hc])

/-! ### New requests -/

theorem xrequestChunk_gains {dags : List Text}
    (h : s.xrequestChunk env q payload dags = .ok (s', out)) :
    Gains s s' ∧ ∀ o ∈ out, ∃ p, o = .network p ∧ p.IsRequest payload := by
  rw [xrequestChunk_eq_run] at h
  refine Machine.run_outputs (I := Gains s) (fun s₁ dag s₂ o hgains h₁ => ?_) (gains_of_eq rfl) h
  obtain ⟨d, path, sid, cid, copy, p, hreq, rfl⟩ := requestOne_eq_ok h₁
  have hp : p.IsRequest payload := ⟨hreq.nxt, hreq.plen, hreq.body⟩
  have hnew : copy.IsRequestCopy := DagInfo.isRequestCopy_of_copy hreq.copied hp.nxt hp.body
  refine ⟨hgains.trans (hreq.touched.gains fun x c hc => ?_),
    fun o ho => ⟨p, by simpa using ho, hp⟩⟩
  rw [lookup_insert_eq] at hc
  split at hc
  · cases hc
    exact .inr hnew
  · obtain ⟨_, rfl⟩ := hreq.exists_srcPath
    rw [← cidRequests_getD s₁ q env.junk]
    exact .inl hc

/-- **An event stores no other requests than copies.** -/
theorem requests_step {e : Event} (hun : Unrequested s) (h : s.handle sha1 env e = .ok (s', out)) :
    Gains s s' := by
  cases e with
  | xsocket q t => exact (xsocket_eq_ok h).1.gains_fresh rfl
  | xsetsockopt | xgetChunkStatus | xchangead | xhcp | writeParam =>
    exact gains_of_eq (handle_sparesSockets rfl h).1
  | xbind | xbindPush | xsendto | xpushChunkto =>
    obtain ⟨q, _, ⟨_, _, _, _, _, rfl⟩, ht, -⟩ := handle_names rfl h
    exact ht.gains_same (cidRequests_getD s q env.junk)
  | xclose q =>
    obtain ⟨d, hd, ht, -⟩ := xclose_eq_ok h
    exact ht.gains_same (cidRequests_of_lookup hd).symm
  | xconnect q ddag =>
    obtain ⟨d, _, _, _, _, _, _, p, rfl, -, -, -, -, -, -, ht, -⟩ := xconnect_eq_ok h
    exact ht.gains_same (cidRequests_getD s q env.junk)
  | xaccept q =>
    cases hpend : s.pendingConnectionBuf with
    | nil => exact gains_of_eq (xaccept_nil h hpend).1.portToDagInfo
    | cons pending rest =>
      obtain ⟨x, y, dag, -, -, ht, -⟩ := xaccept_cons h hpend
      exact ht.gains_fresh (hun.pending pending (by simp [hpend]))
  | xsend q payload =>
    rcases xsend_eq_ok h with ⟨rfl, -⟩ | ⟨d, d', p, hd, -, hsend, ht, -⟩
    · exact gains_of_eq rfl
    · obtain ⟨path, copy, -, rfl, -⟩ := DagInfo.xsend_eq_ok hsend
      exact ht.gains_same (cidRequests_of_lookup hd).symm
  | xrequestChunk q payload dags => exact (xrequestChunk_gains h).1
  | xreadChunk q dag =>
    obtain ⟨d, d', cid, hd, -, hread, rfl⟩ := xreadChunk_outcome h
    refine (touched_setDagInfo _ _ ⟨rfl, rfl, rfl⟩).gains_same ?_
    rw [cidRequests_of_lookup hd]
    cases hread <;> rfl
  | network p =>
    obtain ⟨x, y, thdr, -, -, -, ⟨-, rfl, -⟩ | ⟨-, s₁, o₁, v, o₂, hdisp, hdel, -⟩⟩ :=
      processNetworkPacket_eq_ok h
    · exact gains_of_eq rfl
    · refine hdisp.gains.trans (hdel.gains ?_)
      rw [hdisp.noDagInfo.1]
      exact hun.noDagInfo
  | cache p =>
    obtain ⟨sid, cid, ch, -, -, -, hcached⟩ := processCachePacket_outcome h
    exact hcached.gains
  | timer => exact gains_timer h

/-- All requests that are stored are copies. -/
structure RequestsCopied (s : XTransport) : Prop extends Unrequested s where
  copied : ∀ q d, s.portToDagInfo.lookup q = some d → d.RequestsCopied

theorem requestsCopied_step {e : Event} (hs : RequestsCopied s)
    (h : s.handle sha1 env e = .ok (s', out)) : RequestsCopied s' := by
  refine ⟨unrequested_step hs.toUnrequested h, fun q d hd cid c hc => ?_⟩
  rw [← cidRequests_of_lookup hd] at hc
  rcases requests_step hs.toUnrequested h q cid c hc with hc | hc
  · cases hd₀ : s.portToDagInfo.lookup q with
    | none =>
      rw [cidRequests, hd₀] at hc
      cases hc
    | some d₀ =>
      rw [cidRequests_of_lookup hd₀] at hc
      exact hs.copied q d₀ hd₀ cid c hc
  · exact hc

theorem requestsCopied_run {is : List Input} (hs : RequestsCopied s)
    (h : Machine.run (step sha1) s is = .ok (s', out)) : RequestsCopied s' :=
  Machine.run_invariant (fun _ _ _ _ hI hstep => requestsCopied_step hI hstep) hs h

theorem Reachable.requestsCopied (hs : Reachable sha1 s) : RequestsCopied s := by
  obtain ⟨localAddr, junk, is, out, hrun⟩ := hs
  refine requestsCopied_run ⟨⟨by simp [init], rfl⟩, fun q d hd => ?_⟩ hrun
  simp [init] at hd

/-! ### The promise -/

theorem not_sameRequest_of_timer (hs : RequestsCopied s) (hp : p.IsRequest payload)
    (h : s.runTimer env = .ok (s', out)) : ∀ c, .network c ∈ out → ¬ SameRequest p c := by
  intro c hc
  obtain ⟨q, -, d, d', os, hd, hv, hmem⟩ := (runTimer_visits h).pushed _ hc
  cases hv with
  | removed htimeout =>
    obtain ⟨_, _, _, _, _, _, hbody⟩ := htimeout.transport hmem
    exact not_sameRequest_of_transport hp hbody
  | @kept d₁ _ _ _ _ _ htimeout hcid =>
    rcases mem_append.1 hmem with hmem | hmem
    · obtain ⟨_, _, _, _, _, _, hbody⟩ := htimeout.transport hmem
      exact not_sameRequest_of_transport hp hbody
    · -- the connection of the socket has nothing to do with its requests
      have hd₁ : d₁.RequestsCopied := by
        have hsame : d₁.xidToCidReqPkt = d.xidToCidReqPkt := by cases htimeout <;> rfl
        intro cid c' hc'
        rw [hsame] at hc'
        exact hs.copied q d hd cid c' hc'
      exact not_sameRequest_of_copy hp (hd₁.cidTimeouts hcid c (by simpa using hmem))

/-- **A chunk request is never repeated as it was sent**: no packet that is stored for a request,
and none that the timer sends, at whatever time, is the same as a packet that `XrequestChunk` sent.
-/
theorem request_unfaithful {dags : List Text} (hs : Reachable sha1 s)
    (hreq : s.xrequestChunk env q payload dags = .ok (s', out)) (hp : .network p ∈ out) :
    (∀ port d cid c, s'.portToDagInfo.lookup port = some d →
      d.xidToCidReqPkt.lookup cid = some c → ¬ SameRequest p c) ∧
    ∀ is s₁ o₁ env₂ s₂ o₂, Machine.run (step sha1) s' is = .ok (s₁, o₁) →
      s₁.runTimer env₂ = .ok (s₂, o₂) → ∀ c, .network c ∈ o₂ → ¬ SameRequest p c := by
  obtain ⟨p', heq, hp'⟩ := (xrequestChunk_gains hreq).2 _ hp
  obtain rfl := Output.network.inj heq
  have hstep : s.handle sha1 env (.xrequestChunk q payload dags) = .ok (s', out) := hreq
  have hs' := requestsCopied_step hs.requestsCopied hstep
  constructor
  · intro port d cid c hd hc
    exact not_sameRequest_of_copy hp' (hs'.copied port d hd cid c hc)
  · intro is s₁ o₁ env₂ s₂ o₂ hrun htimer
    exact not_sameRequest_of_timer (requestsCopied_run hs' hrun) hp' htimer

def requester : XTransport := Machine.last (step Sha1.zero) host [⟨.zero 0, .xsocket 1 4⟩]

theorem reachable_requester : Reachable Sha1.zero requester := by
  obtain ⟨out, hrun⟩ := Machine.run_last (step Sha1.zero) host [⟨.zero 0, .xsocket 1 4⟩] rfl
  exact ⟨_, _, _, out, hrun⟩

/-- The memory behind every packet holds nines. -/
def nines (now : Nat) : Env := { Env.zero now with beyond := fun _ => 9 }

def requestCall : Handled := requester.xrequestChunk (nines 0) 1 [7] [chunkDag]

theorem request_unfaithful_oneByte : ∃ s' out p, requestCall = .ok (s', out) ∧
    .network p ∈ out ∧ ∀ port d cid c, s'.portToDagInfo.lookup port = some d →
      d.xidToCidReqPkt.lookup cid = some c → ¬ SameRequest p c := by
  obtain ⟨⟨s', out⟩, hreq, hout⟩ :=
    (by decide +kernel : ∃ r, requestCall = .ok r ∧ netPackets r.2 ≠ [])
  obtain ⟨p, hp⟩ := exists_mem_of_ne_nil _ hout
  have hp' := mem_netPackets.1 hp
  exact ⟨s', out, p, hreq, hp', (request_unfaithful reachable_requester hreq hp').1⟩

/-- The stored request and the one that the timer sends have 16 bytes more, from behind the
packet. -/
theorem not_sameRequest_oneByte : Reachable Sha1.zero requester ∧ ∃ r, requestCall = .ok r ∧
    (netPackets r.2).map Packet.body = [ContentHeader.makeRequestHeader ++ [7]] ∧
    ∃ t, r.1.runTimer (nines ackDelay) = .ok t ∧ (netPackets t.2).map Packet.body =
        [ContentHeader.makeRequestHeader ++ 7 :: List.replicate 16 9] ∧
      ∀ p ∈ netPackets r.2, ∀ c ∈ netPackets t.2, ¬ SameRequest p c := by
  refine ⟨reachable_requester, ?_⟩
  decide +kernel

end XTransport

end Xia
