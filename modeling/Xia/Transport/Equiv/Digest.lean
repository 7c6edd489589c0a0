import Xia.Equiv.Xid
import Xia.Transport.Equiv.Chunk

/-!
# The digest of a chunk

A CID is the SHA-1 digest of the chunk that it names.  `ProcessCachePacket` compares the two, but
the outcome is only a status, or a line in the log: the payload reaches the application all the
same, at once for a pending read and for a pushed chunk, later through `XreadChunk`.

`chunksVerified_of_genuine` shows that the tables keep a payload intact from its arrival to the
read, so that the chunks that are handed up are the ones that their CIDs name if all those that
arrive are.
-/

namespace Xia

open List hiding Vector
open HashTable

def Xid.ofDigest (digest : Vector UInt8 xidIdLen) : Xid := ⟨htonl Xid.typeCid, digest⟩

theorem XTransport.hashText_eq_iff {digest : Vector UInt8 xidIdLen} {cid : Xid} :
    hashText digest = cid.unparse ↔ cid = Xid.ofDigest digest := by
  have htext : hashText digest = (Xid.ofDigest digest).unparse := by
    rw [hashText, Xid.unparse, Xid.ofDigest,
      show Xid.unparseType (htonl Xid.typeCid) = ['C', 'I', 'D'] by decide]
    rfl
  rw [htext, eq_comm]
  exact Xid.unparse_eq_iff (show Xid.Named (htonl Xid.typeCid) by decide)

/-! ### Stored packets -/

/-- The packet holds `payload` behind a content header. -/
structure Packet.HoldsChunk (p : Packet) (payload : List UInt8) : Prop where
  nxt : p.nxt < nxtNo
  plen : p.plen.toNat = payload.length
  body : ∃ op off len, p.body = ContentHeader.encap op off len ++ payload

namespace Packet.HoldsChunk

variable {beyond : Nat → UInt8} {p q : Packet} {payload bytes : List UInt8}

theorem payload_eq (h : p.HoldsChunk payload) : p.payload = .ok payload := by
  obtain ⟨op, off, len, hbody⟩ := h.body
  obtain ⟨entries, hencap⟩ := ContentHeader.encap_eq_cons op off len
  rw [Packet.payload, hbody]
  exact skipExtHeaders_append h.nxt hencap (ContentHeader.length_encap op off len) (by decide)
    (by decide)

theorem of_copy (hcopy : DagInfo.IsResponseCopy beyond q p) (hnxt : p.nxt < nxtNo)
    (hbytes : p.payload = .ok bytes) : q.HoldsChunk (readBytes beyond bytes p.plen.toNat) := by
  obtain ⟨chdr, bytes', _, _, _, -, hbytes', -, -, -, hqnxt, hplen, hbody⟩ := hcopy
  rw [hbytes, Except.ok.injEq] at hbytes'
  subst hbytes'
  refine ⟨hqnxt ▸ hnxt, ?_, _, _, _, hbody⟩
  simp only [hplen, readBytes, length_append, length_take, length_map, length_range]
  omega

theorem copy (h : p.HoldsChunk payload) (hcopy : DagInfo.IsResponseCopy beyond q p) :
    q.HoldsChunk payload := by
  have hq := of_copy hcopy h.nxt h.payload_eq
  rwa [h.plen, readBytes_length] at hq

end Packet.HoldsChunk

/-! ### Chunks that are what their CID says -/

namespace Chunks

open XTransport

/-- Every stored packet holds the chunk that its CID names. -/
def Verified (sha1 : Sha1) (c : Chunks) : Prop :=
  ∀ cid pkt, c.responsePkt.lookup cid = some pkt →
    ∃ payload, pkt.HoldsChunk payload ∧ cid = Xid.ofDigest (sha1 payload)

/-- The element's own check passes for the payload that it reads. -/
def Matches (sha1 : Sha1) (env : Env) (cid : Xid) (p : Packet) : Prop :=
  ∀ bytes, p.payload = .ok bytes → hashText (sha1 (payloadRead env p bytes)) = cid.unparse

/-- The condition on an event: the check passes for a chunk that arrives, and a chunk that may be
stored comes in a packet with a content header. -/
def Genuine (sha1 : Sha1) (env : Env) : Act → Prop
  | .arrive cid p => p.nxt < nxtNo ∧ Matches sha1 env cid p
  | .push cid p => Matches sha1 env cid p
  | _ => True

variable {sha1 : Sha1} {env : Env} {a : Act} {c c' : Chunks} {out : List (List UInt8)}

/-- The tables hold nothing but chunks that match, as long as nothing else arrives. -/
theorem Step.verified (h : Step sha1 env a c c' out) (hc : c.Verified sha1)
    (ha : Genuine sha1 env a) : c'.Verified sha1 := by
  cases h with
  | same => exact hc
  | fresh => exact fun cid pkt hpkt => by cases hpkt
  | request _ _ _ hpkt =>
    intro cid pkt hcid
    rw [hpkt] at hcid
    exact hc cid pkt hcid
  | recorded => exact hc
  | read _ cid =>
    intro x pkt hx
    rw [lookup_erase_eq] at hx
    split at hx
    · cases hx
    · exact hc x pkt hx
  | handed => exact hc
  | stored _ cid p copy bytes hbytes _ hcopy =>
    intro x pkt hx
    rw [lookup_insert_eq] at hx
    split at hx
    · rename_i heq
      cases hx
      exact ⟨_, .of_copy hcopy ha.1 hbytes, heq.trans (hashText_eq_iff.1 (ha.2 bytes hbytes))⟩
    · exact hc x pkt hx
  | pushed => exact hc

/-- Each payload that is handed up is the chunk of the CID that the event is about. -/
theorem Step.handsUp (h : Step sha1 env a c c' out) (hc : c.Verified sha1)
    (ha : Genuine sha1 env a) :
    ∀ payload ∈ out, a.cid = some (Xid.ofDigest (sha1 payload)) := by
  intro payload hmem
  cases h with
  | same => cases hmem
  | fresh => cases hmem
  | request => cases hmem
  | recorded => cases hmem
  | read _ cid pkt copy bytes _ hpkt hcopy hbytes =>
    obtain ⟨stored, hstored, hcid⟩ := hc cid pkt hpkt
    -- the packet is copied once more on its way out
    have hcopied := hstored.copy hcopy
    rw [hcopied.payload_eq, Except.ok.injEq] at hbytes
    subst hbytes
    rw [mem_singleton.1 hmem, payloadRead, hcopied.plen, readBytes_length]
    exact congrArg some hcid
  | handed _ cid p bytes hbytes =>
    rw [mem_singleton.1 hmem]
    exact congrArg some (hashText_eq_iff.1 (ha.2 bytes hbytes))
  | stored => cases hmem
  | pushed _ cid p bytes hbytes =>
    rw [mem_singleton.1 hmem]
    exact congrArg some (hashText_eq_iff.1 (ha bytes hbytes))

end Chunks

namespace XTransport

def BringsGenuine (sha1 : Sha1) (s : XTransport) (i : Input) : Prop :=
  ∀ port, Chunks.Genuine sha1 i.env (s.chunkAct port i.event)

/-- Every chunk that the step hands to an application has the digest that its CID is. -/
def HandsUpVerified (sha1 : Sha1) (s : XTransport) (i : Input) : Prop :=
  ∀ s' out, step sha1 s i = .ok (s', out) → ∀ port, ∀ payload ∈ chunkPayloads port out,
    (s.chunkAct port i.event).cid = some (Xid.ofDigest (sha1 payload))

/-- **The element hands up what the CID names, if nothing else ever arrives**: in a run to which the
cache brings genuine chunks only, every payload handed to an application, at once, after a read or
by a push, has its CID as digest. -/
theorem chunksVerified_of_genuine (sha1 : Sha1) (localAddr : XiaPath) (junk : DagInfo)
    (is : List Input)
    (h : Machine.AllSteps (step sha1) (BringsGenuine sha1) (init localAddr junk) is) :
    Machine.AllSteps (step sha1) (HandsUpVerified sha1) (init localAddr junk) is := by
  refine Machine.allSteps_of_allSteps
    (I := fun s => Unread s ∧ ∀ port, (s.chunks port).Verified sha1) ?_ ?_ h
  · rintro s i s' out ⟨hun, hver⟩ hgen hs
    refine ⟨⟨unread_step hun hs, fun port =>
      (chunk_step hun hs port).verified (hver port) (hgen port)⟩, ?_⟩
    intro s₁ o₁ hs₁ port
    exact (chunk_step hun hs₁ port).handsUp (hver port) (hgen port)
  · exact ⟨unread_init localAddr junk, fun port cid pkt hpkt => by cases hpkt⟩

def genuinePacket (sha1 : Sha1) (env : Env) (p : Packet) : Bool :=
  match p.srcPath.destXid, p.payload with
  | .ok cid, .ok bytes =>
    p.nxt < nxtNo && hashText (sha1 (Chunks.payloadRead env p bytes)) = cid.unparse
  | _, _ => false

theorem genuine_cacheAct {sha1 : Sha1} {env : Env} {p : Packet}
    (h : genuinePacket sha1 env p = true) (s : XTransport) (port : UInt16) :
    Chunks.Genuine sha1 env (s.cacheAct port p) := by
  unfold genuinePacket at h
  split at h
  · rename_i cid bytes hcid hbytes
    rw [Bool.and_eq_true, decide_eq_true_eq, decide_eq_true_eq] at h
    have hmatch : Chunks.Matches sha1 env cid p := by
      intro bytes' hbytes'
      rw [hbytes, Except.ok.injEq] at hbytes'
      rw [← hbytes']
      exact h.2
    unfold cacheAct
    split
    · rename_i sid cid' ch hsid hcid' hch
      rw [hcid, Except.ok.injEq] at hcid'
      subst hcid'
      split_ifs
      · trivial
      · exact hmatch
      · trivial
      · exact ⟨h.1, hmatch⟩
      · trivial
    · trivial
  · cases h

/-- A chunk whose CID is the digest of its payload. -/
theorem chunksVerified_fetch : Machine.AllSteps (step Sha1.zero) (HandsUpVerified Sha1.zero) host
      (fetchChunk "RE AD:03 HID:04 CID:00".toList [7]) := by
  have hgen : (fetchChunk "RE AD:03 HID:04 CID:00".toList [7]).all (fun i =>
      match i.event with
      | .cache p => genuinePacket Sha1.zero i.env p
      | _ => true) = true := by decide +kernel
  refine chunksVerified_of_genuine Sha1.zero _ _ _
    (Machine.allSteps_of_forall fun i hi s port => ?_)
  have hi' := all_eq_true.1 hgen i hi
  obtain ⟨env, e⟩ := i
  cases e with
  | cache p => exact genuine_cacheAct hi' s port
  | xrequestChunk q payload dags =>
    simp only [chunkAct]
    split <;> trivial
  | xreadChunk q dag =>
    simp only [chunkAct]
    split
    · split <;> trivial
    · trivial
  | _ => trivial

/-- A payload with another digest than its CID, requested and read. -/
theorem not_handsUpVerified_mismatch : ∃ s o s' out,
    Machine.run (step Sha1.zero) host (arriveChunk chunkDag [7]) = .ok (s, o) ∧
      step Sha1.zero s (readCall chunkDag) = .ok (s', out) ∧ chunkPayloads 1 out = [[7]] ∧
      ¬ HandsUpVerified Sha1.zero s (readCall chunkDag) := by
  obtain ⟨s, o, hr, s', out, hs, hout, hcid⟩ : ∃ s o,
      Machine.run (step Sha1.zero) host (arriveChunk chunkDag [7]) = .ok (s, o) ∧ ∃ s' out,
        step Sha1.zero s (readCall chunkDag) = .ok (s', out) ∧ chunkPayloads 1 out = [[7]] ∧
        (s.chunkAct 1 (readCall chunkDag).event).cid ≠ some (Xid.ofDigest (Sha1.zero [7])) := by
    decide +kernel
  exact ⟨s, o, s', out, hr, hs, hout, fun h => hcid (h s' out hs 1 [7] (by rw [hout]; simp))⟩

end XTransport

end Xia
