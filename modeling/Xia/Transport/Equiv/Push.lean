import Xia.Transport.Equiv.Handlers

/-!
# Pushed chunks

`XpushChunkto` builds the content header of a chunk with nine positional arguments.  It passes the
time to live in the place of the context and leaves the last three arguments to their defaults, and
the payload length of the packet counts the header.  The receiver takes that number of bytes from
behind the header, so what it hands up is never what was pushed (`pushChunk_unfaithful`), although
the header itself is read back as it was written (`ContentHeader.parse_encapChunk`).
-/

namespace Xia

open List
open ContentHeader (cachePolicyDefault cacheSizeDefault chunkHeader chunkSize length_encapChunk
  opPush opcode_chunkHeader ttlDefault)

namespace XTransport

/-- The message hands on what was pushed: the payload with its length and the cache parameters. -/
def Faithful (payload : List UInt8) (params : CacheParams) : ApiMsg → Prop
  | .pushchunkto _ payload' cachePolicy ttl cacheSize contextId length _ =>
    payload' = payload ∧ length.toNat = payload.length ∧
      contextId = params.contextId.toUInt32 ∧ ttl = params.ttl.toUInt32 ∧
      cacheSize = params.cacheSize.toUInt32 ∧ cachePolicy = params.cachePolicy.toUInt32
  | _ => False

variable {sha1 : Sha1} {env : Env} {r r' : XTransport} {out : List Output} {p : Packet}
  {payload : List UInt8} {ttl : Int32}

theorem extHeader_pushBody (hbody : p.body = pushBody payload ttl) :
    p.extHeader = .ok (chunkHeader 0 0 (UInt16.ofNat payload.length)
      (UInt32.ofNat payload.length) opPush ttl.toUInt32 ttlDefault
      cacheSizeDefault cachePolicyDefault) := by
  rw [Packet.extHeader, hbody, pushBody]
  exact ContentHeader.parse_encapChunk ..

theorem payload_pushBody (hnxt : p.nxt = nxtCid) (hbody : p.body = pushBody payload ttl) :
    p.payload = .ok payload := by
  rw [Packet.payload, hbody, hnxt, pushBody]
  exact Packet.skipExtHeaders_append (by decide) (ContentHeader.encapChunk_eq ..)
    (length_encapChunk ..) (by decide) (by decide)

theorem pushed_message (hnxt : p.nxt = nxtCid) (hbody : p.body = pushBody payload ttl)
    (h : r.processCachePacket sha1 env p = .ok (r', out)) :
    out = [] ∨ ∃ port cid ddag, out = [.api port (.pushchunkto cid
      (readBytes env.beyond payload p.plen.toNat) cachePolicyDefault
      ttlDefault cacheSizeDefault ttl.toUInt32
      (UInt16.ofNat payload.length) ddag)] := by
  obtain ⟨sid, cid, ch, -, -, hch, hcached⟩ := processCachePacket_outcome h
  rw [extHeader_pushBody hbody, Except.ok.injEq] at hch
  subst hch
  cases hcached with
  | pushUnknown => exact .inl rfl
  | pushed bytes ddag _ _ hbytes hpolicy htime hsize hctx hlen =>
    rw [payload_pushBody hnxt hbody, Except.ok.injEq] at hbytes
    subst hbytes
    simp only [ContentHeader.cachePolicy_chunkHeader, ContentHeader.ttl_chunkHeader,
      ContentHeader.cacheSize_chunkHeader, ContentHeader.contextId_chunkHeader,
      ContentHeader.length_chunkHeader, Except.ok.injEq] at hpolicy htime hsize hctx hlen
    subst hpolicy htime hsize hctx hlen
    exact .inr ⟨r.xidToPushPort.get 0 sid, cid.unparse, ddag, rfl⟩
  | unknown hop => exact absurd (opcode_chunkHeader ..) hop
  | handed _ _ _ hop => exact absurd (opcode_chunkHeader ..) hop
  | stored _ _ _ _ hop => exact absurd (opcode_chunkHeader ..) hop

/-- The length field counts the header, and wraps: it is never the length of the payload. -/
theorem plen_pushBody_ne (payload : List UInt8) (ttl : Int32) :
    (UInt16.ofNat (pushBody payload ttl).length).toNat ≠ payload.length := by
  have hlen : (pushBody payload ttl).length = 52 + payload.length := by
    rw [pushBody, length_append, length_encapChunk, chunkSize]
  rw [hlen, UInt16.toNat_ofNat']
  omega

/-- **A pushed chunk never arrives as it was pushed**: whatever `XpushChunkto` is given, a receiver
that hands the emitted packet up hands up a payload of another length. -/
theorem pushChunk_unfaithful {s s' : XTransport} {env env' : Env} {sport : UInt16}
    {cid ddag : Text} {params : CacheParams}
    (hsend : s.xpushChunkto env sport cid ddag payload params = .ok (s', [.network p]))
    (hrecv : r.processCachePacket sha1 env' p = .ok (r', out)) :
    ∀ port m, .api port m ∈ out → ¬ Faithful payload params m := by
  intro port m hmem hfaithful
  obtain ⟨path, x, y, q, hnxt, hplen, hbody, -, -, -, -, -, hout⟩ := xpushChunkto_eq_ok hsend
  obtain rfl : p = q := by simpa using hout
  rcases pushed_message hnxt hbody hrecv with rfl | ⟨port', cid', ddag', rfl⟩
  · cases hmem
  · obtain ⟨-, rfl⟩ : port = port' ∧ m = _ := by simpa using hmem
    -- the length of the copied bytes is the one of the header field
    have hlen := congrArg List.length hfaithful.1
    apply plen_pushBody_ne payload params.ttl
    rw [← hplen]
    simp only [readBytes, length_append, length_take, length_map, length_range] at hlen
    omega

/-- A chunk of one byte is pushed with the parameters 1, 2, 3 and 4. -/
def pushCall : Handled :=
  host.xpushChunkto (.zero 0) 1 "0b".toList "RE AD:03 HID:04 SID:0a".toList [7] ⟨1, 2, 3, 4⟩

/-- `peer` is bound for it. -/
def bindPushCalls : List Input :=
  [⟨.zero 0, .xsocket 1 4⟩, ⟨.zero 0, .xbindPush 1 "RE AD:03 HID:04 SID:0a".toList⟩]

/-- What the application at `peer` receives: 53 bytes, the context 2 and the defaults. -/
def pushedMessage : ApiMsg :=
  .pushchunkto ("CID:0b".toList ++ List.replicate 38 '0') (7 :: List.replicate 52 0)
    0 86400 1024 2 1 ("RE AD:03".toList ++ List.replicate 38 '0' ++ " HID:04".toList ++
      List.replicate 38 '0' ++ " SID:0a".toList ++ List.replicate 38 '0')

theorem pushCall_delivered : ∃ (s : XTransport) (p : Packet) (r r' : XTransport)
    (o : List Output), pushCall = .ok (s, [.network p]) ∧
      Machine.run (step Sha1.zero) peer bindPushCalls = .ok (r, o) ∧
      r.processCachePacket Sha1.zero (.zero 0) p = .ok (r', [.api 1 pushedMessage]) := by
  obtain ⟨s, out, hsend, p, hp, r, o, hbind, r', _, hrecv, rfl⟩ :
      ∃ s out, pushCall = .ok (s, out) ∧ ∃ p, (netPackets out).head? = some p ∧ ∃ r o,
        Machine.run (step Sha1.zero) peer bindPushCalls = .ok (r, o) ∧ ∃ r' out',
          r.processCachePacket Sha1.zero (.zero 0) p = .ok (r', out') ∧
          out' = [.api 1 pushedMessage] := by decide +kernel
  obtain ⟨_, _, _, q, -, -, -, -, -, -, -, -, rfl⟩ := xpushChunkto_eq_ok hsend
  obtain rfl : q = p := by simpa [netPackets] using hp
  exact ⟨s, q, r, r', o, hsend, hbind, hrecv⟩

theorem pushChunk_unfaithful_oneByte : ∃ (s : XTransport) (p : Packet) (r r' : XTransport)
    (out : List Output),
    pushCall = .ok (s, [.network p]) ∧
      r.processCachePacket Sha1.zero (.zero 0) p = .ok (r', out) ∧ .api 1 pushedMessage ∈ out ∧
      ¬ Faithful [7] ⟨1, 2, 3, 4⟩ pushedMessage := by
  obtain ⟨s, p, r, r', o, hsend, -, hrecv⟩ := pushCall_delivered
  exact ⟨s, p, r, r', _, hsend, hrecv, mem_singleton_self _,
    pushChunk_unfaithful hsend hrecv 1 pushedMessage (mem_singleton_self _)⟩

/-- The chunk of one byte arrives with 52 bytes of whatever the memory holds behind it. -/
theorem not_faithful_oneByte : ∃ (s : XTransport) (p : Packet) (r r' : XTransport)
    (o : List Output), pushCall = .ok (s, [.network p]) ∧
      Machine.run (step Sha1.zero) peer bindPushCalls = .ok (r, o) ∧
      r.processCachePacket Sha1.zero (.zero 0) p = .ok (r', [.api 1 pushedMessage]) ∧
      ¬ Faithful [7] ⟨1, 2, 3, 4⟩ pushedMessage := by
  obtain ⟨s, p, r, r', o, hsend, hbind, hrecv⟩ := pushCall_delivered
  refine ⟨s, p, r, r', o, hsend, hbind, hrecv, fun h => ?_⟩
  have hpayload : 7 :: List.replicate 52 (0 : UInt8) = [7] := h.1
  exact absurd hpayload (by decide)

end XTransport

end Xia
