import Xia.Faults
import Xia.Transport.Chunk
import Xia.Transport.Equiv.Stream

/-!
# Chunks along a run

`chunk_step` says that every step of the element is a transition of the chunk tables of every
socket.  From it follow the two results about chunks.

A status that tells of a chunk is no promise that the packet is there: a read drops the packet and
keeps the status, and an arrival that answers a pending read sets the status and stores nothing.
`chunksPresent_iff` lists the steps that break the promise.

The hash of a chunk decides its status, and no status keeps it from the application.
`chunksVerified_of_genuine` says what has to be true of the arriving packets for every chunk that is
handed up to be the one that its CID names.
-/

namespace Xia

open List Option HashTable AList

theorem DagInfo.SameChunkTables.chunks {d d' : DagInfo} (h : DagInfo.SameChunkTables d d') :
    d'.chunks = d.chunks := by
  simp only [DagInfo.chunks, h.xidToStatus, h.xidToReadReq, h.xidToCidResponsePkt]

namespace XTransport

variable {sha1 : Sha1} {env : Env} {s s' : XTransport} {port q : UInt16} {d d' : DagInfo}
  {out : List Output}

/-- A socket that is made by a SYN or by default has no chunks. -/
structure Unread (s : XTransport) : Prop where
  pending : ∀ d ∈ s.pendingConnectionBuf, d.chunks = .empty
  noDagInfo : s.noDagInfo.chunks = .empty

theorem unread_init (localAddr : XiaPath) (junk : DagInfo) : Unread (init localAddr junk) :=
  ⟨by simp [init], rfl⟩

theorem unread_step {e : Event} (hun : Unread s) (h : s.handle sha1 env e = .ok (s', out)) :
    Unread s' := by
  refine ⟨forall_pending_step (fun _ _ => rfl) hun.pending h, ?_⟩
  rw [(handle_framed h).noDagInfo]
  exact hun.noDagInfo

/-! ### The tables of one port -/

theorem chunks_of_lookup (hd : s.portToDagInfo.lookup port = some d) :
    s.chunks port = d.chunks := by
  simp [chunks, hd]

theorem chunks_congr (h : s'.portToDagInfo.lookup port = s.portToDagInfo.lookup port) :
    s'.chunks port = s.chunks port := by
  rw [chunks, h, chunks]

/-- The socket that a call works on has the chunks of its port, also if it is a new one. -/
theorem chunks_getD (s : XTransport) (q : UInt16) (junk : DagInfo) :
    ((s.portToDagInfo.lookup q).getD (DagInfo.new junk)).chunks = s.chunks q := by
  unfold chunks
  cases s.portToDagInfo.lookup q <;> rfl

theorem Touched.chunks (ht : Touched s s' q d') (port : UInt16) :
    s'.chunks port = if port = q then d'.chunks else s.chunks port := by
  unfold XTransport.chunks
  rw [ht.lookup]
  split <;> rfl

theorem Touched.chunks_same (ht : Touched s s' q d') (hsame : d'.chunks = s.chunks q)
    (port : UInt16) : s'.chunks port = s.chunks port := by
  rw [ht.chunks]
  split
  · rename_i heq
    rw [heq, hsame]
  · rfl

theorem chunkPayloads_append (port : UInt16) (o₁ o₂ : List Output) :
    chunkPayloads port (o₁ ++ o₂) = chunkPayloads port o₁ ++ chunkPayloads port o₂ := by
  simp [chunkPayloads]

theorem chunkPayloads_network (port : UInt16) (p : Packet) :
    chunkPayloads port [.network p] = [] := rfl

theorem chunkPayloads_api (port q : UInt16) (m : ApiMsg) :
    chunkPayloads port [.api q m] = if q = port then (chunkPayload m).toList else [] := by
  unfold chunkPayloads apiMsgs
  by_cases heq : q = port
  · cases hm : chunkPayload m <;> simp [heq, hm]
  · simp [heq]

/-! ### Calls and packets that leave the chunks alone -/

theorem chunks_renamed (h : d.Renamed d') : d'.chunks = d.chunks := by
  obtain ⟨_, _, _, _, _, rfl⟩ := h
  rfl

theorem Dispatched.chunks {p : Packet} {pair : XidPair} {thdr : ExtHeader} {v : Verdict}
    (h : Dispatched env s p pair thdr s' out v) (port : UInt16) :
    s'.chunks port = s.chunks port ∧ chunkPayloads port out = [] := by
  have hout : chunkPayloads port out = [] := by cases h <;> rfl
  refine ⟨?_, hout⟩
  rcases h.touched with hsame | ⟨d, d', hd, ht, -, htables⟩
  · exact chunks_congr (by rw [hsame])
  · exact ht.chunks_same (htables.chunks.trans (chunks_of_lookup hd).symm) port

theorem Delivered.chunks {p : Packet} {thdr : ExtHeader} {v : Verdict}
    (h : Delivered env s p thdr v s' out) (hno : s.noDagInfo.chunks = .empty) (port : UInt16) :
    s'.chunks port = s.chunks port ∧ chunkPayloads port out = [] := by
  -- the socket that is stored has the chunks of its port, also if it is the default one
  have hget : (s.portToDagInfo.get s.noDagInfo v.dport).chunks = s.chunks v.dport := by
    unfold HashTable.get XTransport.chunks
    cases s.portToDagInfo.lookup v.dport
    · exact hno
    · rfl
  have hout : chunkPayloads port out = [] := by
    cases h with
    | dropped | moved => rfl
    | first | handed =>
      rw [chunkPayloads_api]
      simp [chunkPayload]
  refine ⟨?_, hout⟩
  rcases h.touched with rfl | ht
  · rfl
  · exact ht.chunks_same hget port

theorem chunks_network {p : Packet} (hun : Unread s)
    (h : s.processNetworkPacket env p = .ok (s', out)) (port : UInt16) :
    s'.chunks port = s.chunks port ∧ chunkPayloads port out = [] := by
  obtain ⟨x, y, thdr, -, -, -, ⟨-, rfl, dag, str, rfl⟩ | ⟨-, s₁, o₁, v, o₂, hdisp, hdel, rfl⟩⟩ :=
    processNetworkPacket_eq_ok h
  · refine ⟨rfl, ?_⟩
    -- an XCMP message goes to the listeners as it is
    have hrecv : ∀ m ∈ apiMsgs port (s'.xcmpListeners.map fun q => .api q (.recv dag str)),
        chunkPayload m = none := by
      intro m hm
      simp only [apiMsgs, mem_filterMap, List.mem_map] at hm
      obtain ⟨_, ⟨q, -, rfl⟩, hm⟩ := hm
      dsimp only at hm
      split at hm
      · cases hm
        rfl
      · cases hm
    exact filterMap_eq_nil_iff.2 hrecv
  · obtain ⟨hc₁, ho₁⟩ := hdisp.chunks port
    obtain ⟨hc₂, ho₂⟩ := hdel.chunks (by rw [hdisp.noDagInfo.1]; exact hun.noDagInfo) port
    exact ⟨hc₂.trans hc₁, by rw [chunkPayloads_append, ho₁, ho₂, append_nil]⟩

theorem chunks_timer (h : s.runTimer env = .ok (s', out)) (port : UInt16) :
    s'.chunks port = s.chunks port ∨ s'.chunks port = .empty := by
  cases hd : s.portToDagInfo.lookup port with
  | none => exact .inl (chunks_congr (by rw [runTimer_none h hd, hd]))
  | some d =>
    obtain ⟨o, hv, -⟩ := runTimer_some h hd
    cases hd' : s'.portToDagInfo.lookup port with
    | none => exact .inr (by simp [chunks, hd'])
    | some d' =>
      rw [hd'] at hv
      exact .inl (by rw [chunks_of_lookup hd', hv.sameChunkTables.chunks, chunks_of_lookup hd])

/-! ### Requests, reads and arrivals -/

/-- The request of a list of chunks is a request of each: it sets statuses and stores no
response. -/
theorem chunks_xrequestChunk {payload : List UInt8} {dags : List Text}
    (h : s.xrequestChunk env q payload dags = .ok (s', out)) :
    ((∀ port, port ≠ q → s'.chunks port = s.chunks port) ∧
      (∀ x, (s'.chunks q).status.lookup x = (s.chunks q).status.lookup x ∨
        (s'.chunks q).status.lookup x = some waitingForChunk) ∧
      (s'.chunks q).responsePkt = (s.chunks q).responsePkt) ∧
      ∀ o ∈ out, ∃ p, o = .network p := by
  rw [xrequestChunk_eq_run] at h
  refine Machine.run_outputs (I := fun s₁ => (∀ port, port ≠ q → s₁.chunks port = s.chunks port) ∧
    (∀ x, (s₁.chunks q).status.lookup x = (s.chunks q).status.lookup x ∨
      (s₁.chunks q).status.lookup x = some waitingForChunk) ∧
    (s₁.chunks q).responsePkt = (s.chunks q).responsePkt) ?_
    ⟨fun _ _ => rfl, fun _ => .inl rfl, rfl⟩ h
  rintro s₁ dag s₂ o ⟨hother, hstatus, hpkt⟩ h₁
  obtain ⟨d, path, sid, cid, copy, p, hreq, rfl⟩ := requestOne_eq_ok h₁
  have ht := hreq.touched
  obtain ⟨_, rfl⟩ := hreq.exists_srcPath
  have hcid : (s₂.chunks q).status = (s₁.chunks q).status.insert cid waitingForChunk := by
    rw [ht.chunks, if_pos rfl, ← chunks_getD s₁ q env.junk]
    rfl
  have hresp : (s₂.chunks q).responsePkt = (s₁.chunks q).responsePkt := by
    rw [ht.chunks, if_pos rfl, ← chunks_getD s₁ q env.junk]
    rfl
  refine ⟨⟨fun port hne => ?_, fun x => ?_, hresp.trans hpkt⟩, fun o ho => ⟨p, by simpa using ho⟩⟩
  · rw [ht.chunks, if_neg hne, hother port hne]
  · rw [hcid, lookup_insert_eq]
    split
    · exact .inr rfl
    · exact hstatus x

theorem ChunkRead.step {cid : Xid} (h : ChunkRead env s.localAddr q d cid d' out) :
    Chunks.Step sha1 env (.read cid) d.chunks d'.chunks (chunkPayloads q out) := by
  cases h with
  | recorded hstatus => exact .recorded d.chunks cid hstatus
  | handed path pkt copy dag bytes hstatus hpkt hpath hcopy hbytes =>
    rw [chunkPayloads_api, if_pos rfl]
    exact .read d.chunks cid pkt copy bytes hstatus hpkt hcopy hbytes

theorem Cached.step {p : Packet} {ch : ExtHeader} {sid cid : Xid}
    (hsid : p.dstPath.destXid = .ok sid)
    (hcid : p.srcPath.destXid = .ok cid) (hch : p.extHeader = .ok ch)
    (h : Cached sha1 env s p ch sid cid s' out) (port : UInt16) :
    Chunks.Step sha1 env (s.cacheAct port p) (s.chunks port) (s'.chunks port)
      (chunkPayloads port out) := by
  rw [cacheAct, hsid, hcid, hch]
  dsimp only
  cases h with
  | pushUnknown hop hport =>
    rw [if_pos hop, hport]
    split_ifs with h0 h0'
    · exact .same _
    · exact absurd h0'.symm h0
    · exact .same _
  | pushed bytes ddag hop hport hbytes =>
    rw [if_pos hop, chunkPayloads_api]
    split_ifs with h0 heq heq
    · exact absurd (heq.trans h0) hport
    · exact .same _
    · exact .pushed _ cid p bytes hbytes
    · exact .same _
  | unknown hop hport =>
    rw [if_neg hop, hport]
    split_ifs with h0 h0'
    · exact .same _
    · exact absurd h0'.symm h0
    · exact .same _
  | handed d bytes dag hop hport hd hbytes hreq =>
    rw [if_neg hop, chunkPayloads_api, (touched_setDagInfo _ _ ⟨rfl, rfl, rfl⟩).chunks]
    by_cases heq : s.pairPort ⟨sid, cid⟩ = port
    · subst heq
      rw [if_neg hport, if_pos rfl, if_pos rfl, if_pos rfl, chunks_of_lookup hd]
      exact .handed d.chunks cid p bytes hbytes hreq
    · rw [if_neg heq, if_neg heq, if_neg (Ne.symm heq), ite_self]
      exact .same _
  | stored d path copy bytes hop hport hd hbytes hreq hpath hcopy =>
    rw [if_neg hop, (touched_setDagInfo _ _ ⟨rfl, rfl, rfl⟩).chunks]
    by_cases heq : s.pairPort ⟨sid, cid⟩ = port
    · subst heq
      rw [if_neg hport, if_pos rfl, if_pos rfl, chunks_of_lookup hd]
      exact .stored d.chunks cid p copy bytes hbytes hreq hcopy
    · rw [if_neg heq, if_neg (Ne.symm heq), ite_self]
      exact .same _

/-! ### The refinement -/

theorem chunk_same (hsame : s'.chunks port = s.chunks port) (hout : chunkPayloads port out = []) :
    Chunks.Step sha1 env .other (s.chunks port) (s'.chunks port) (chunkPayloads port out) := by
  rw [hsame, hout]
  exact .same _

theorem Touched.chunk_fresh (ht : Touched s s' q d') (hempty : d'.chunks = .empty)
    (hout : chunkPayloads port out = []) :
    Chunks.Step sha1 env .other (s.chunks port) (s'.chunks port) (chunkPayloads port out) := by
  rw [hout, ht.chunks]
  split
  · rw [hempty]
    exact .fresh _
  · exact .same _

theorem chunkPayloads_answer (port q : UInt16) {m : ApiMsg} (hm : chunkPayload m = none) :
    chunkPayloads port [.api q m] = [] := by
  rw [chunkPayloads_api, hm]
  simp

/-- **Every step of the element is a transition of the chunk tables of every socket.** -/
theorem chunk_step {e : Event} (hun : Unread s) (h : s.handle sha1 env e = .ok (s', out))
    (port : UInt16) :
    Chunks.Step sha1 env (s.chunkAct port e) (s.chunks port) (s'.chunks port)
      (chunkPayloads port out) := by
  cases e with
  | xsocket q t =>
    obtain ⟨ht, -, -, -, rfl⟩ := xsocket_eq_ok h
    exact ht.chunk_fresh rfl (chunkPayloads_answer port q rfl)
  | xsetsockopt q t i =>
    obtain ⟨hsame, -, rfl⟩ := xsetsockopt_eq_ok h
    exact chunk_same (chunks_congr (by rw [hsame.portToDagInfo])) (chunkPayloads_answer port q rfl)
  | xbind | xbindPush | xsendto | xpushChunkto =>
    obtain ⟨q, d', hd', ht, -, -, -, hout⟩ := handle_names rfl h
    refine chunk_same (ht.chunks_same ?_ port) ?_
    · rw [chunks_renamed hd', chunks_getD]
    · rcases hout with ⟨p, rfl⟩ | ⟨c, rc, ec, rfl⟩
      · exact chunkPayloads_network port p
      · exact chunkPayloads_answer port q rfl
  | xclose q =>
    obtain ⟨d, hd, ht, -, -, -, rfl⟩ := xclose_eq_ok h
    refine chunk_same (ht.chunks_same ?_ port) (chunkPayloads_answer port q rfl)
    rw [chunks_of_lookup hd]
    rfl
  | xconnect q ddag =>
    obtain ⟨d, _, _, _, _, _, _, p, rfl, -, -, -, -, -, -, ht, -, -, -, rfl⟩ := xconnect_eq_ok h
    refine chunk_same (ht.chunks_same ?_ port) (chunkPayloads_network port p)
    rw [← chunks_getD s q env.junk]
    rfl
  | xaccept q =>
    cases hpend : s.pendingConnectionBuf with
    | nil =>
      obtain ⟨hsame, -, rfl, -⟩ := xaccept_nil h hpend
      exact chunk_same (chunks_congr (by rw [hsame.portToDagInfo]))
        (chunkPayloads_answer port q rfl)
    | cons pending rest =>
      obtain ⟨x, y, dag, -, -, ht, -, -, -, rfl, -⟩ := xaccept_cons h hpend
      exact ht.chunk_fresh (hun.pending pending (by simp [hpend])) (chunkPayloads_answer port q rfl)
  | xsend q payload =>
    rcases xsend_eq_ok h with ⟨rfl, rfl, -⟩ | ⟨d, d', p, hd, -, hsend, ht, -, rfl, -⟩
    · exact chunk_same rfl rfl
    · refine chunk_same (ht.chunks_same ?_ port) (chunkPayloads_network port p)
      obtain ⟨path, copy, -, rfl, -⟩ := DagInfo.xsend_eq_ok hsend
      rw [chunks_of_lookup hd]
      rfl
  | xrequestChunk q payload dags =>
    obtain ⟨⟨hother, hstatus, hpkt⟩, hout⟩ := chunks_xrequestChunk h
    rw [chunkAct, chunkPayloads, apiMsgs_of_network hout, filterMap_nil]
    split
    · rename_i heq
      subst heq
      exact .request _ _ hstatus hpkt
    · rename_i hne
      rw [hother port (Ne.symm hne)]
      exact .same _
  | xreadChunk q dag =>
    obtain ⟨d, d', cid, hd, hcid, hread, rfl⟩ := xreadChunk_outcome h
    have ht : Touched s (s.setDagInfo q d') q d' := touched_setDagInfo _ _ ⟨rfl, rfl, rfl⟩
    rw [chunkAct, hcid, ht.chunks]
    dsimp only
    by_cases heq : q = port
    · subst heq
      rw [if_pos rfl, if_pos rfl, chunks_of_lookup hd]
      exact hread.step
    · rw [if_neg heq, if_neg (Ne.symm heq)]
      -- the chunk, if there is one, goes to the port of the call
      have hout : chunkPayloads port out = [] := by
        cases hread with
        | recorded => rfl
        | handed => rw [chunkPayloads_api, if_neg heq]
      rw [hout]
      exact .same _
  | xgetChunkStatus q dags =>
    obtain ⟨rfl, status, payload, rfl⟩ := xgetChunkStatus_eq_ok h
    exact chunk_same rfl (chunkPayloads_answer port q rfl)
  | network p =>
    obtain ⟨hsame, hout⟩ := chunks_network hun h port
    exact chunk_same hsame hout
  | cache p =>
    obtain ⟨sid, cid, ch, hsid, hcid, hch, hcached⟩ := processCachePacket_outcome h
    exact hcached.step hsid hcid hch port
  | timer =>
    have hout : chunkPayloads port out = [] := by
      rw [chunkPayloads, runTimer_noApi h]
      rfl
    rcases chunks_timer h port with hsame | hempty
    · exact chunk_same hsame hout
    · rw [hout, hempty]
      exact .fresh _
  | xchangead | xhcp | writeParam =>
    obtain ⟨-, rfl⟩ := handle_readdresses rfl h
    exact chunk_same (chunks_congr (by rw [(handle_sparesSockets rfl h).1])) rfl

end XTransport

/-! ### Readable chunks -/

namespace Chunks

open XTransport

/-- For every CID with a status that tells of a chunk, the packet is there. -/
def Present (c : Chunks) : Prop :=
  ∀ cid, Readable (c.status.lookup cid) → (c.responsePkt.lookup cid).isSome

/-- The exact condition on an event: no chunk that is there is read, and no chunk arrives for a
read that waits for it, unless an older packet of the CID is still stored. -/
def KeepsPresent : Act → Chunks → Prop
  | .read cid, c => ¬ Readable (c.status.lookup cid)
  | .arrive cid _, c => c.readReq.lookup cid = some true → (c.responsePkt.lookup cid).isSome
  | _, _ => True

theorem not_readable_none : ¬ Readable none := by
  rintro (h | h) <;> cases h

theorem not_readable_waiting : ¬ Readable (some waitingForChunk) := by
  decide

theorem Step.present_iff {sha1 : Sha1} {env : Env} {a : Act} {c c' : Chunks}
    {out : List (List UInt8)} (h : Step sha1 env a c c' out) (hc : c.Present) :
    c'.Present ↔ KeepsPresent a c := by
  cases h with
  | same => exact iff_of_true hc trivial
  | fresh => exact iff_of_true (fun cid hcid => absurd hcid not_readable_none) trivial
  | request _ _ hstatus hpkt =>
    refine iff_of_true (fun cid hcid => ?_) trivial
    rw [hpkt]
    rcases hstatus cid with hsame | hwait
    · exact hc cid (hsame ▸ hcid)
    · exact absurd (hwait ▸ hcid) not_readable_waiting
  | recorded _ cid hstatus => exact iff_of_true hc hstatus
  | read _ cid pkt copy bytes hstatus hpkt =>
    refine iff_of_false (fun hc' => ?_) (fun hno => hno hstatus)
    have hgone := hc' cid hstatus
    simp [lookup_erase] at hgone
  | handed _ cid p bytes hbytes hreq =>
    constructor
    · intro hc' _
      refine hc' cid ?_
      rw [lookup_insert]
      exact readable_arrivalStatus sha1 _ cid
    · intro hkept x hx
      rw [lookup_insert_eq] at hx
      split at hx
      · rename_i heq
        subst heq
        exact hkept hreq
      · exact hc x hx
  | stored _ cid p copy bytes hbytes hreq =>
    refine iff_of_true (fun x hx => ?_) (fun hreq' => absurd hreq' hreq)
    rw [lookup_insert_eq] at hx ⊢
    split at hx
    · rename_i heq
      rw [if_pos heq]
      rfl
    · rename_i hne
      rw [if_neg hne]
      exact hc x hx
  | pushed => exact iff_of_true hc trivial

end Chunks

namespace DagInfo

open Result

theorem localSource_avoids (localAddr : XiaPath) (d : DagInfo) :
    (d.localSource localAddr).Avoids .nullDeref := by
  unfold localSource
  exact d.srcPath.destXid_avoids.bind fun x _ =>
    localAddr.unparseRe_avoids.bind fun str _ => avoids_pure _

theorem recalculate_avoids (localAddr : XiaPath) (d : DagInfo) :
    (d.recalculate localAddr).Avoids .nullDeref := by
  unfold recalculate
  refine (d.localSource_avoids localAddr).bind fun str _ => ?_
  refine d.srcPath.unparseRe_avoids.bind fun dagstr _ => ?_
  exact avoids_ite (avoids_pure _) (avoids_pure _)

theorem copyCidResponsePacket_avoids (beyond : Nat → UInt8) (localAddr : XiaPath) (p : Packet)
    (d : DagInfo) : (d.copyCidResponsePacket beyond localAddr p).Avoids .nullDeref := by
  unfold copyCidResponsePacket copyContentPacket
  refine p.extHeader_avoids.bind fun chdr _ => ?_
  refine (chdr.map_field_avoids _ _ _).bind fun opcode _ => ?_
  refine (chdr.map_field_avoids _ _ _).bind fun chunkOffset _ => ?_
  refine (chdr.map_field_avoids _ _ _).bind fun length _ => ?_
  refine (d.recalculate_avoids localAddr).bind fun d₁ _ => ?_
  refine p.payload_avoids.bind fun bytes _ => ?_
  exact (Packet.encap_avoids _ _ _ _ _ _ _).bind fun copy _ => avoids_pure _

end DagInfo

namespace XTransport

variable {sha1 : Sha1} {env : Env} {s s' : XTransport} {port q : UInt16} {d d' : DagInfo}
  {out : List Output}

open Result

/-- `XreadChunk` runs into a missing packet only where the status promises one. -/
theorem xreadChunk_avoids (hpres : (s.chunks q).Present)
    (hd : s.portToDagInfo.lookup q = some d) (env : Env) (dag : Text) :
    (s.xreadChunk env q dag).Avoids .nullDeref := by
  unfold xreadChunk
  refine (XiaPath.destXid_avoids _).bind fun cid _ => ?_
  refine (deref_avoids.2 (by simp [hd])).bind fun d₁ hd₁ => ?_
  rw [hd] at hd₁
  cases hd₁
  dsimp only
  split
  · simp
  · rename_i status hstatus
    split
    · simp
    · rename_i hread
      have hreadable : Readable (d.xidToStatus.lookup cid) := by
        rw [Readable, hstatus, some_inj, some_inj]
        omega
      rw [chunks_of_lookup hd] at hpres
      refine (deref_avoids.2 (hpres cid hreadable)).bind fun pkt _ => ?_
      refine (DagInfo.copyCidResponsePacket_avoids _ _ _ _).bind fun r _ => ?_
      refine (XiaPath.unparse_avoids _).bind fun src _ => ?_
      exact (Packet.payload_avoids _).bind fun bytes _ => avoids_pure _

/-- **A readable chunk is really there**, on every socket, so that no read misses it. -/
structure ChunksPresent (s : XTransport) : Prop where
  present : ∀ port, (s.chunks port).Present
  reads : ∀ env q dag d, s.portToDagInfo.lookup q = some d →
    (s.xreadChunk env q dag).Avoids .nullDeref

theorem chunksPresent_iff_present : ChunksPresent s ↔ ∀ port, (s.chunks port).Present :=
  ⟨fun h => h.present, fun h => ⟨h, fun env q dag _ hd => xreadChunk_avoids (h q) hd env dag⟩⟩

/-- The condition on an input of the element. -/
def KeepsChunks (s : XTransport) (i : Input) : Prop :=
  ∀ port, Chunks.KeepsPresent (s.chunkAct port i.event) (s.chunks port)

/-- **A readable chunk stays there exactly along the runs in which none is read and none answers a
pending read**: in every other run some state promises a chunk that is gone. -/
theorem chunksPresent_iff (sha1 : Sha1) (localAddr : XiaPath) (junk : DagInfo) (is : List Input) :
    Machine.AllStates (step sha1) ChunksPresent (init localAddr junk) is ↔
      Machine.AllSteps (step sha1) KeepsChunks (init localAddr junk) is := by
  refine Machine.allStates_iff_allSteps (I := Unread) (E := fun _ => True) ?_ (fun _ _ => trivial)
    (unread_init localAddr junk) ?_
  · intro s i s' out _ hun hpres h
    refine ⟨unread_step hun h, ?_⟩
    rw [chunksPresent_iff_present]
    exact forall_congr' fun port => (chunk_step hun h port).present_iff (hpres.present port)
  · rw [chunksPresent_iff_present]
    intro port cid hcid
    exact absurd hcid Chunks.not_readable_none

/-- A packet that answers a chunk request: the paths are exchanged. -/
def chunkResponse (payload : List UInt8) (request : Packet) : Packet :=
  { request with
    dnode := request.snode, snode := request.dnode, plen := UInt16.ofNat payload.length
    body := ContentHeader.encap 2 0 (UInt16.ofNat payload.length) ++ payload }

def chunkDag : Text := "RE AD:03 HID:04 CID:0b".toList

def requestChunk (dag : Text) : List Input :=
  [⟨.zero 0, .xsocket 1 4⟩, ⟨.zero 0, .xrequestChunk 1 [] [dag]⟩]

def arriveChunk (dag : Text) (payload : List UInt8) : List Input :=
  requestChunk dag ++ (host.arrivals (requestChunk dag)).map fun p =>
    ⟨.zero 0, .cache (chunkResponse payload p)⟩

def readCall (dag : Text) : Input := ⟨.zero 0, .xreadChunk 1 dag⟩

def fetchChunk (dag : Text) (payload : List UInt8) : List Input :=
  arriveChunk dag payload ++ [readCall dag]

/-- A chunk that was requested, has arrived and is read: a second read misses it. -/
theorem not_chunksPresent_after_read : ∃ s out,
    Machine.run (step Sha1.zero) host (fetchChunk chunkDag [7]) = .ok (s, out) ∧
      chunkPayloads 1 out = [[7]] ∧ s.xreadChunk (.zero 0) 1 chunkDag = .error .nullDeref ∧
      ¬ ChunksPresent s := by
  obtain ⟨s, out, hr, hout, hfault, d, hd, -⟩ : ∃ s out,
      Machine.run (step Sha1.zero) host (fetchChunk chunkDag [7]) = .ok (s, out) ∧
      chunkPayloads 1 out = [[7]] ∧ s.xreadChunk (.zero 0) 1 chunkDag = .error .nullDeref ∧
      ∃ d, s.portToDagInfo.lookup 1 = some d ∧ True := by decide +kernel
  exact ⟨s, out, hr, hout, hfault, fun h => h.reads _ 1 _ d hd hfault⟩

end XTransport

end Xia
