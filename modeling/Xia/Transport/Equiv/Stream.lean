import Xia.Transport.Stream

/-!
# The element refines the stream transitions

`stream_step`: every step of the element takes the stream of every socket through the transition
that `streamEvent` names.  `stream_born` is the same for a port that had no socket.  Both need
that the templates from which sockets are made are idle (`Clean`), which every step preserves.
-/

namespace Xia

open List Option
open TransportHeader (ackNum data pktInfo seqNum syn synack type xsockStream)

theorem Stream.Step.isSome_of_ne_timer {now : Nat} {e : StreamEvent} {st : Stream}
    {st' : Option Stream} (h : Stream.Step now e st st') : e = .timer ∨ st'.isSome := by
  cases h with
  | timer => exact .inl rfl
  | _ => exact .inr rfl

namespace XTransport

variable {sha1 : Sha1} {env : Env} {s s' : XTransport} {port q : UInt16} {out : List Output}
variable {dags : List Text} {d₀ : DagInfo} {e : Event}
variable {d d' : DagInfo}

/-- The pending connections and the default socket have no waiting flag set. -/
structure Clean (s : XTransport) : Prop where
  pending : ∀ d ∈ s.pendingConnectionBuf, d.stream.Idle
  noDagInfo : s.noDagInfo.stream.Idle

theorem clean_init (localAddr : XiaPath) (junk : DagInfo) : Clean (init localAddr junk) :=
  ⟨by simp [init], ⟨rfl, rfl, rfl⟩⟩

theorem idle_new (junk : DagInfo) : (DagInfo.new junk).stream.Idle := ⟨rfl, rfl, rfl⟩

/-! ### Sockets that keep their stream -/

theorem stream_renamed (h : d.Renamed d') : d'.stream = d.stream := by
  obtain ⟨_, _, _, _, _, rfl⟩ := h
  rfl

theorem stream_requestOne {payload : List UInt8} {dag : Text}
    (h : s.requestOne env q payload dag = .ok (s', out)) :
    ∃ d', Touched s s' q d' ∧ s'.portToActive = s.portToActive ∧
      s'.pendingConnectionBuf = s.pendingConnectionBuf ∧
      d'.stream = ((s.portToDagInfo.lookup q).getD (DagInfo.new env.junk)).stream := by
  obtain ⟨d, path, sid, cid, copy, p, hreq, -⟩ := requestOne_eq_ok h
  obtain ⟨_, rfl⟩ := hreq.exists_srcPath
  exact ⟨_, hreq.touched, hreq.portToActive, hreq.pendingConnectionBuf, rfl⟩

theorem Touched.stream (ht : Touched s s' q d')
    (hsame : ∀ d₀, s.portToDagInfo.lookup q = some d₀ → d'.stream = d₀.stream)
    (hd : s.portToDagInfo.lookup port = some d) :
    (s'.portToDagInfo.lookup port).map DagInfo.stream = some d.stream := by
  rw [ht.lookup]
  split
  · rename_i heq
    subst heq
    rw [map_some, hsame d hd]
  · rw [hd, map_some]

theorem stream_xrequestChunk {payload : List UInt8}
    (h : s.xrequestChunk env q payload dags = .ok (s', out))
    (hd : s.portToDagInfo.lookup port = some d) :
    (s'.portToDagInfo.lookup port).map DagInfo.stream = some d.stream := by
  rw [xrequestChunk_eq_run] at h
  refine Machine.run_invariant
    (I := fun s₁ => (s₁.portToDagInfo.lookup port).map DagInfo.stream = some d.stream)
    (fun s₁ dag s₂ o hI h₁ => ?_) (by rw [hd, map_some]) h
  obtain ⟨d₁, hd₁, heq⟩ := map_eq_some_iff.1 hI
  obtain ⟨d', ht, -, -, hsame⟩ := stream_requestOne h₁
  rw [ht.stream (fun d₀ hd₀ => by rw [hsame, hd₀, getD_some]) hd₁, heq]

/-! ### The timer -/

theorem tick_of_visited {localAddr : XiaPath} {d'? : Option DagInfo} {o : List Output}
    (h : DagInfo.Visited env localAddr d d'? o) :
    Stream.Tick env.now d.stream (d'?.map DagInfo.stream) := by
  cases h with
  | removed h =>
    cases h with
    | tearDown hon hsyn hdata htear hdue => exact .removed hon hsyn hdata ⟨htear, hdue⟩
  | kept h hcid =>
    obtain ⟨path, t₁, t₂, -, rfl⟩ := DagInfo.cidTimeouts_eq_ok hcid
    cases h with
    | idle h => exact .idle h
    | synResend path p q hon hsyn hdue htries hp hq hpath =>
      exact .synResend hon ⟨hsyn, hdue⟩ htries
    | synGiveUp hon hsyn hdue htries => exact .synGiveUp hon ⟨hsyn, hdue⟩ htries
    | dataResend path copies hon hsyn hdata hdue htries hheld hcopies hpath =>
      refine .dataResend hon (fun h => hsyn h.1) ⟨hdata, hdue⟩ ?_
      rintro (hle | hnil)
      · exact absurd hle (by simpa [DagInfo.stream] using htries)
      · exact hheld hnil
    | dataStop path hon hsyn hdata hdue htries hpath =>
      exact .dataStop hon (fun h => hsyn h.1) ⟨hdata, hdue⟩ htries

/-! ### Packets -/

variable {p : Packet} {pair : XidPair} {thdr : ExtHeader} {v : Verdict}

theorem packetKey_eq_some {x y : Xid} (hx : p.lastXid = .ok x) (hy : p.srcPath.destXid = .ok y)
    (hthdr : p.extHeader = .ok thdr) : packetKey p = some (⟨x, y⟩, thdr) := by
  simp [packetKey, hx, hy, hthdr]

theorem of_packetKey_eq_some (h : packetKey p = some (pair, thdr)) :
    p.lastXid = .ok pair.src ∧ p.srcPath.destXid = .ok pair.dst ∧ p.extHeader = .ok thdr := by
  rw [packetKey] at h
  split at h
  · rename_i x y t hx hy hthdr
    cases h
    exact ⟨hx, hy, hthdr⟩
  · cases h

theorem packetEvent_xcmp (h : p.nxt = nxtXcmp) : s.packetEvent port p = .other := by
  rw [packetEvent]
  split
  · rfl
  · rw [if_pos (.inl h)]

/-- A packet never opens, connects or closes a socket. -/
theorem packetEvent_cases (s : XTransport) (port : UInt16) (p : Packet) :
    s.packetEvent port p = .other ∨ s.packetEvent port p = .synack ∨
      (∃ n, s.packetEvent port p = .data n) ∨ ∃ n, s.packetEvent port p = .ack n := by
  rw [packetEvent]
  split
  · simp
  · rename_i thdr _
    cases (seqNum thdr).toOption <;> cases (ackNum thdr).toOption <;> split_ifs <;> simp

theorem packetEvent_ne_timer : s.packetEvent port p ≠ .timer := by
  rcases s.packetEvent_cases port p with h | h | ⟨n, h⟩ | ⟨n, h⟩ <;> simp [h]

theorem isKind_iff {i : UInt8} (hkey : packetKey p = some (pair, thdr)) (hnxt : p.nxt ≠ nxtXcmp) :
    isKind i p = true ↔ IsStream thdr i := by
  simp [isKind, hkey, hnxt, IsStream]

theorem packetEvent_eq {i : UInt8} (hkey : packetKey p = some (pair, thdr))
    (hnxt : p.nxt ≠ nxtXcmp) (hkind : IsStream thdr i) :
    s.packetEvent port p =
      if s.pairPort pair ≠ port then .other
      else if i = synack then .synack
      else if (s.portToActive.lookup port).isSome then
        if i = data then (seqNum thdr).toOption.elim .other .data
        else if i = TransportHeader.ack then (ackNum thdr).toOption.elim .other .ack
        else .other
      else .other := by
  obtain ⟨htype, hinfo⟩ := hkind
  simp only [packetEvent, hkey, hnxt, htype, hinfo, ne_eq, not_true_eq_false, false_or,
    Except.ok.injEq]

theorem packetEvent_other (hkey : packetKey p = some (pair, thdr))
    (hsynack : ¬ IsStream thdr synack)
    (hdata : ¬ IsStream thdr data) (hack : ¬ IsStream thdr TransportHeader.ack) :
    s.packetEvent port p = .other := by
  by_cases htype : type thdr = .ok xsockStream
  · have h1 : pktInfo thdr ≠ .ok synack := fun h => hsynack ⟨htype, h⟩
    have h2 : pktInfo thdr ≠ .ok data := fun h => hdata ⟨htype, h⟩
    have h3 : pktInfo thdr ≠ .ok TransportHeader.ack := fun h => hack ⟨htype, h⟩
    simp [packetEvent, hkey, h1, h2, h3]
  · simp [packetEvent, hkey, htype]

theorem Delivered.stream (h : Delivered env s p thdr v s' out)
    (hd : s.portToDagInfo.lookup port = some d) :
    (s'.portToDagInfo.lookup port).map DagInfo.stream = some d.stream := by
  rcases h.touched with rfl | ht
  · rw [hd, map_some]
  · refine ht.stream (fun d₀ hd₀ => ?_) hd
    rw [HashTable.get_of_lookup hd₀]
    rfl

theorem stream_receiveData (srcPath : XiaPath) (n : UInt32) (d : DagInfo) :
    (d.receiveData srcPath n).1.stream = { d.stream with
      expectedSeqnum := if n = d.stream.expectedSeqnum then d.stream.expectedSeqnum + 1
        else d.stream.expectedSeqnum } := by
  by_cases hseq : n = d.expectedSeqnum
  · simp [DagInfo.receiveData, DagInfo.stream, hseq]
  · simp [DagInfo.receiveData, DagInfo.stream, hseq]

theorem stream_setDagInfo {s₁ : XTransport} (hun : Untouched s s₁)
    (hd : s.portToDagInfo.lookup port = some d) :
    ((s₁.setDagInfo q d').portToDagInfo.lookup port).map DagInfo.stream =
      some (if q = port then d'.stream else d.stream) := by
  rw [(touched_setDagInfo q d' hun).lookup]
  by_cases heq : port = q
  · simp [heq]
  · rw [if_neg heq, if_neg (Ne.symm heq), hd, map_some]

theorem Dispatched.stream (h : Dispatched env s p pair thdr s' out v)
    (hkey : packetKey p = some (pair, thdr)) (hnxt : p.nxt ≠ nxtXcmp)
    (hd : s.portToDagInfo.lookup port = some d) :
    Stream.Step env.now (s.packetEvent port p) d.stream
      ((s'.portToDagInfo.lookup port).map DagInfo.stream) := by
  -- each branch changes at most the socket of the pair
  cases h with
  | syn q hkind =>
    rw [packetEvent_eq hkey hnxt hkind, if_neg (by decide : ¬ TransportHeader.syn = _),
      if_neg (by decide : ¬ TransportHeader.syn = _),
      if_neg (by decide : ¬ TransportHeader.syn = _)]
    simp only [ite_self, hd, map_some]
    exact .other _
  | synack d₀ hkind hd₀ =>
    rw [packetEvent_eq hkey hnxt hkind, if_pos rfl, stream_setDagInfo ⟨rfl, rfl, rfl⟩ hd]
    by_cases heq : s.pairPort pair = port
    · rw [heq, hd] at hd₀
      cases hd₀
      rw [if_neg (not_not.2 heq), if_pos heq]
      exact .synack _
    · rw [if_pos heq, if_neg heq]
      exact .other _
  | data d₀ q hkind hactive hd₀ hq hn =>
    rw [packetEvent_eq hkey hnxt hkind, if_neg (by decide : ¬ TransportHeader.data = _),
      stream_setDagInfo ⟨rfl, rfl, rfl⟩ hd]
    by_cases heq : s.pairPort pair = port
    · rw [IsActive, heq] at hactive
      rw [heq, hd] at hd₀
      cases hd₀
      rw [if_neg (not_not.2 heq), if_pos heq, if_pos hactive, if_pos rfl, hn]
      rw [stream_receiveData]
      exact .data _ _
    · rw [if_pos heq, if_neg heq]
      exact .other _
  | ack d₀ d' reset t hkind hactive hd₀ hack hn =>
    rw [packetEvent_eq hkey hnxt hkind, if_neg (by decide : ¬ TransportHeader.ack = _),
      if_neg (by decide : ¬ TransportHeader.ack = _),
      stream_setDagInfo (show Untouched s { s with timer := t } from ⟨rfl, rfl, rfl⟩) hd]
    by_cases heq : s.pairPort pair = port
    · rw [IsActive, heq] at hactive
      rw [heq, hd] at hd₀
      cases hd₀
      rw [if_neg (not_not.2 heq), if_pos heq, if_pos hactive, if_pos rfl, hn]
      obtain ⟨ring, hring, -, rfl⟩ := DagInfo.receiveAck_eq_ok hack
      exact .ack d.stream _ ring hring
    · rw [if_pos heq, if_neg heq]
      exact .other _
  | inactive hkind hactive =>
    have hother : s.packetEvent port p = .other := by
      rw [IsActive] at hactive
      by_cases heq : s.pairPort pair = port
      · rw [heq] at hactive
        rcases hkind with hkind | hkind <;>
          simp [packetEvent_eq hkey hnxt hkind, heq, hactive, TransportHeader.data,
            TransportHeader.synack, TransportHeader.ack]
      · rcases hkind with hkind | hkind <;> simp [packetEvent_eq hkey hnxt hkind, heq]
    rw [hother, hd, map_some]
    exact .other _
  | other send hsyn hsynack hdata hack =>
    rw [packetEvent_other hkey hsynack hdata hack, hd, map_some]
    exact .other _

theorem stream_network (h : s.processNetworkPacket env p = .ok (s', out))
    (hd : s.portToDagInfo.lookup port = some d) :
    Stream.Step env.now (s.packetEvent port p) d.stream
      ((s'.portToDagInfo.lookup port).map DagInfo.stream) := by
  obtain ⟨x, y, thdr, hx, hy, hthdr, ⟨hxcmp, rfl, -⟩ | ⟨hnxt, s₁, o₁, v, o₂, hdisp, hdel, -⟩⟩ :=
    processNetworkPacket_eq_ok h
  · rw [packetEvent_xcmp hxcmp, hd, map_some]
    exact .other _
  · have hstep := hdisp.stream (packetKey_eq_some hx hy hthdr) hnxt hd
    cases hd₁ : s₁.portToDagInfo.lookup port with
    | none =>
      -- only the timer removes a socket
      rw [hd₁, map_none] at hstep
      exact absurd hstep.isSome_of_ne_timer (by simp [packetEvent_ne_timer])
    | some d₁ =>
      rw [hdel.stream hd₁]
      rwa [hd₁, map_some] at hstep

/-! ### The refinement -/

theorem Touched.step_other {now : Nat} (ht : Touched s s' q d') (hne : q ≠ port)
    (hd : s.portToDagInfo.lookup port = some d) :
    Stream.Step now .other d.stream ((s'.portToDagInfo.lookup port).map DagInfo.stream) := by
  rw [ht.other (Ne.symm hne), hd]
  exact .other _

theorem Touched.step_getD {now : Nat} (ht : Touched s s' q d')
    (hsame : d'.stream = ((s.portToDagInfo.lookup q).getD d₀).stream)
    (hd : s.portToDagInfo.lookup port = some d) :
    Stream.Step now .other d.stream ((s'.portToDagInfo.lookup port).map DagInfo.stream) := by
  rw [ht.stream (fun d₁ hd₁ => ?_) hd]
  · exact .other _
  · rw [hsame, hd₁, getD_some]

theorem Touched.step_same {now : Nat} (ht : Touched s s' q d')
    (hd₀ : s.portToDagInfo.lookup q = some d₀) (hsame : d'.stream = d₀.stream)
    (hd : s.portToDagInfo.lookup port = some d) :
    Stream.Step now .other d.stream ((s'.portToDagInfo.lookup port).map DagInfo.stream) := by
  have hkept : d'.stream = ((s.portToDagInfo.lookup q).getD d₀).stream := by
    rw [hd₀, hsame, getD_some]
  exact ht.step_getD hkept hd

/-- **Every step of the element is a transition of every stream.** -/
theorem stream_step (hclean : Clean s) (h : s.handle sha1 env e = .ok (s', out))
    (hd : s.portToDagInfo.lookup port = some d) :
    Stream.Step env.now (s.streamEvent port e) d.stream
      ((s'.portToDagInfo.lookup port).map DagInfo.stream) := by
  cases e with
  | xsocket q t =>
    obtain ⟨ht, -⟩ := xsocket_eq_ok h
    rw [streamEvent]
    split
    · rename_i heq
      subst heq
      rw [ht.self]
      exact .opened _ _ ⟨rfl, rfl, rfl⟩
    · rename_i hne
      exact ht.step_other hne hd
  | xsetsockopt | xgetChunkStatus | xchangead | xhcp | writeParam =>
    rw [(handle_sparesSockets rfl h).1, hd]
    exact .other _
  | xbind | xbindPush | xsendto | xpushChunkto =>
    obtain ⟨q, d', hd', ht, -⟩ := handle_names rfl h
    exact ht.step_getD (stream_renamed hd') hd
  | xclose q =>
    obtain ⟨d₀, hd₀, ht, -⟩ := xclose_eq_ok h
    rw [streamEvent]
    split
    · rename_i heq
      subst heq
      rw [hd] at hd₀
      cases hd₀
      rw [ht.self]
      exact .close d.stream
    · rename_i hne
      exact ht.step_other hne hd
  | xconnect q ddag =>
    obtain ⟨d₀, path, path', dst, x, y, copy, p, rfl, -, -, -, -, -, -, ht, -⟩ := xconnect_eq_ok h
    rw [streamEvent]
    split
    · rename_i heq
      subst heq
      rw [ht.self, hd]
      exact .connect d.stream copy
    · rename_i hne
      exact ht.step_other hne hd
  | xaccept q =>
    rw [streamEvent]
    cases hpend : s.pendingConnectionBuf with
    | nil =>
      obtain ⟨hun, -⟩ := xaccept_nil h hpend
      rw [if_neg (by simp), hun.portToDagInfo, hd]
      exact .other _
    | cons pending rest =>
      obtain ⟨x, y, dag, -, -, ht, -⟩ := xaccept_cons h hpend
      by_cases heq : q = port
      · subst heq
        rw [if_pos ⟨rfl, by simp⟩, ht.self]
        exact .accepted _ _ (hclean.pending pending (by simp [hpend]))
      · rw [if_neg (fun hand => heq hand.1)]
        exact ht.step_other heq hd
  | xsend q payload =>
    rw [streamEvent]
    rcases xsend_eq_ok h with ⟨rfl, -, hnot⟩ | ⟨d₀, d', p, hd₀, hconn, hsend, ht, -⟩
    -- a socket that is not connected sends nothing
    · rw [if_neg, hd]
      · exact .other _
      · rintro ⟨rfl, hconn⟩
        simp [isConnected, hd, hnot d hd] at hconn
    · by_cases heq : q = port
      · subst heq
        rw [hd] at hd₀
        cases hd₀
        rw [if_pos ⟨rfl, by simp [isConnected, hd, hconn]⟩, ht.self]
        obtain ⟨path, copy, -, rfl, -, hcopy, -⟩ := DagInfo.xsend_eq_ok hsend
        exact .send d.stream copy hcopy
      · rw [if_neg (fun hand => heq hand.1)]
        exact ht.step_other heq hd
  | xrequestChunk q payload dags =>
    rw [stream_xrequestChunk h hd]
    exact .other _
  | xreadChunk q dag =>
    obtain ⟨d₀, path, t₁, t₂, hd₀, -, ht, -⟩ := xreadChunk_eq_ok h
    exact ht.step_same hd₀ rfl hd
  | network p => exact stream_network h hd
  | cache p =>
    obtain ⟨x, y, -, -, ⟨rfl, -⟩ | ⟨d₀, path, t₁, t₂, status, -, hd₀, -, ht, -⟩⟩ :=
      processCachePacket_eq_ok h
    · rw [hd]
      exact .other _
    · exact ht.step_same hd₀ rfl hd
  | timer =>
    obtain ⟨o, hv, -⟩ := runTimer_some h hd
    exact .timer _ _ (tick_of_visited hv)

/-! ### Pending connections and the default socket -/

theorem Dispatched.pendingConnectionBuf (h : Dispatched env s p pair thdr s' out v)
    (hkey : packetKey p = some (pair, thdr)) (hnxt : p.nxt ≠ nxtXcmp) :
    s'.pendingConnectionBuf = s.pendingConnectionBuf ++ newPending env (.network p) := by
  have hsyn : isSyn p = true ↔ IsStream thdr TransportHeader.syn := isKind_iff hkey hnxt
  have hnot : ∀ i, IsStream thdr i → i ≠ TransportHeader.syn → isSyn p = false := by
    intro i hk hi
    rw [Bool.eq_false_iff, Ne, hsyn]
    exact fun hs => hi (hk.unique hs)
  rw [newPending]
  cases h with
  | syn q hkind => rw [if_pos (hsyn.2 hkind)]
  | synack d hkind => rw [hnot _ hkind (by decide)]; simp [setDagInfo]
  | data d q hkind => rw [hnot _ hkind (by decide)]; simp [setDagInfo]
  | ack d d' reset t hkind => rw [hnot _ hkind (by decide)]; simp [setDagInfo]
  | inactive hkind =>
    rcases hkind with hkind | hkind <;> rw [hnot _ hkind (by decide)] <;> simp
  | other send hno => rw [if_neg (fun hs => hno (hsyn.1 hs)), append_nil]

theorem Delivered.sameDemux (h : Delivered env s p thdr v s' out) : SameDemux s s' := by
  cases h <;> exact ⟨rfl, rfl, rfl⟩

theorem Dispatched.noDagInfo (h : Dispatched env s p pair thdr s' out v) :
    s'.noDagInfo = s.noDagInfo ∧ s'.portToActive = s.portToActive := by
  cases h <;> exact ⟨rfl, rfl⟩

theorem Delivered.noDagInfo (h : Delivered env s p thdr v s' out) : s'.noDagInfo = s.noDagInfo := by
  cases h <;> rfl

/-- What an event leaves alone: the default socket, the pending connections but for those that it
takes and adds, and the active ports but for that of a new socket.  The timer may erase ports. -/
structure Framed (env : Env) (e : Event) (s s' : XTransport) : Prop where
  noDagInfo : s'.noDagInfo = s.noDagInfo
  pending : s'.pendingConnectionBuf = s.pendingConnectionBuf.drop (taken e) ++ newPending env e
  active : e ≠ .timer → ∀ q, s'.IsActive q → s.IsActive q ∨ (s'.portToDagInfo.lookup q).isSome

theorem Framed.of_same (hno : s'.noDagInfo = s.noDagInfo)
    (hactive : s'.portToActive = s.portToActive)
    (hpend : s'.pendingConnectionBuf = s.pendingConnectionBuf) (htaken : taken e = 0)
    (hnew : newPending env e = []) : Framed env e s s' :=
  ⟨hno, by rw [hpend, htaken, hnew, drop_zero, append_nil],
    fun _ q hq => .inl (by rwa [IsActive, hactive] at hq)⟩

theorem Touched.active (ht : Touched s s' q d')
    (hactive : s'.portToActive = s.portToActive.insert q true) {t : UInt16} (hq : s'.IsActive t) :
    s.IsActive t ∨ (s'.portToDagInfo.lookup t).isSome := by
  rw [IsActive, hactive, HashTable.lookup_insert_eq] at hq
  split at hq
  · rename_i heq
    exact .inr (by rw [heq, ht.self]; rfl)
  · exact .inl hq

theorem framed_xrequestChunk {payload : List UInt8}
    (h : s.xrequestChunk env q payload dags = .ok (s', out)) :
    Framed env (.xrequestChunk q payload dags) s s' := by
  rw [xrequestChunk_eq_run] at h
  obtain ⟨ha, hb, hc⟩ := Machine.run_invariant (I := fun s₁ => s₁.noDagInfo = s.noDagInfo ∧
    s₁.portToActive = s.portToActive ∧ s₁.pendingConnectionBuf = s.pendingConnectionBuf)
    (fun s₁ dag s₂ o hI h₁ => by
      obtain ⟨d', ht, hactive, hpending, -⟩ := stream_requestOne h₁
      exact ⟨ht.noDagInfo.trans hI.1, hactive.trans hI.2.1, hpending.trans hI.2.2⟩)
    ⟨rfl, rfl, rfl⟩ h
  exact .of_same ha hb hc rfl rfl

theorem handle_framed (h : s.handle sha1 env e = .ok (s', out)) : Framed env e s s' := by
  cases e with
  | xsocket q t =>
    obtain ⟨ht, -, hactive, hpend, -⟩ := xsocket_eq_ok h
    exact ⟨ht.noDagInfo, by simpa [taken, newPending] using hpend, fun _ _ => ht.active hactive⟩
  | xsetsockopt | xgetChunkStatus | xchangead | xhcp | writeParam =>
    obtain ⟨-, hno, hsame⟩ := handle_sparesSockets rfl h
    exact .of_same hno hsame.portToActive hsame.pendingConnectionBuf rfl rfl
  | xbind | xbindPush | xsendto | xpushChunkto =>
    obtain ⟨_, _, -, ht, hactive, hpend, -⟩ := handle_names rfl h
    exact .of_same ht.noDagInfo hactive hpend rfl rfl
  | xclose q =>
    obtain ⟨_, -, ht, hsame, -⟩ := xclose_eq_ok h
    exact .of_same ht.noDagInfo hsame.portToActive hsame.pendingConnectionBuf rfl rfl
  | xconnect q ddag =>
    obtain ⟨_, _, _, _, _, _, _, _, -, -, -, -, -, -, -, ht, -, hactive, hpend, -⟩ :=
      xconnect_eq_ok h
    exact .of_same ht.noDagInfo hactive hpend rfl rfl
  | xaccept q =>
    cases hpend : s.pendingConnectionBuf with
    | nil =>
      obtain ⟨hun, hsame, -⟩ := xaccept_nil h hpend
      exact ⟨hun.noDagInfo, by simpa [taken, newPending, hpend] using hsame.pendingConnectionBuf,
        fun _ q hq => .inl (by rwa [IsActive, hsame.portToActive] at hq)⟩
    | cons pending rest =>
      obtain ⟨_, _, _, -, -, ht, -, hactive, hrest, -⟩ := xaccept_cons h hpend
      exact ⟨ht.noDagInfo, by simpa [taken, newPending, hpend] using hrest,
        fun _ _ => ht.active hactive⟩
  | xsend q payload =>
    rcases xsend_eq_ok h with ⟨rfl, -⟩ | ⟨_, _, _, -, -, -, ht, hsame, -⟩
    · exact .of_same rfl rfl rfl rfl rfl
    · exact .of_same ht.noDagInfo hsame.portToActive hsame.pendingConnectionBuf rfl rfl
  | xrequestChunk q payload dags => exact framed_xrequestChunk h
  | xreadChunk q dag =>
    obtain ⟨_, _, _, _, -, -, ht, hsame, -⟩ := xreadChunk_eq_ok h
    exact .of_same ht.noDagInfo hsame.portToActive hsame.pendingConnectionBuf rfl rfl
  | network p =>
    obtain ⟨_, _, _, hx, hy, hthdr, ⟨hxcmp, rfl, -⟩ | ⟨hnxt, _, _, _, _, hdisp, hdel, -⟩⟩ :=
      processNetworkPacket_eq_ok h
    · refine .of_same rfl rfl rfl rfl ?_
      simp [newPending, isSyn, isKind, packetKey_eq_some hx hy hthdr, hxcmp]
    · obtain ⟨hno, hactive⟩ := hdisp.noDagInfo
      refine ⟨hdel.noDagInfo.trans hno, ?_, fun _ q hq => .inl ?_⟩
      · rw [hdel.sameDemux.3, hdisp.pendingConnectionBuf (packetKey_eq_some hx hy hthdr) hnxt]
        rfl
      · rwa [IsActive, hdel.sameDemux.portToActive, hactive] at hq
  | cache p =>
    obtain ⟨_, _, -, -, ⟨rfl, -⟩ | ⟨_, _, _, _, _, -, -, -, ht, hsame, -⟩⟩ :=
      processCachePacket_eq_ok h
    · exact .of_same rfl rfl rfl rfl rfl
    · exact .of_same ht.noDagInfo hsame.portToActive hsame.pendingConnectionBuf rfl rfl
  | timer =>
    have hv := runTimer_visits h
    exact ⟨hv.noDagInfo, by simpa [taken, newPending] using hv.pendingConnectionBuf,
      fun hno => absurd rfl hno⟩

/-- **The pending connections are a queue**: a SYN appends an entry, an `Xaccept` takes the first,
and nothing else changes them. -/
theorem pending_step (h : s.handle sha1 env e = .ok (s', out)) :
    s'.pendingConnectionBuf = s.pendingConnectionBuf.drop (taken e) ++ newPending env e :=
  (handle_framed h).pending

theorem forall_pending_step {P : DagInfo → Prop} (hP : ∀ junk p, P (DagInfo.pending junk p))
    (hpend : ∀ d ∈ s.pendingConnectionBuf, P d) (h : s.handle sha1 env e = .ok (s', out)) :
    ∀ d ∈ s'.pendingConnectionBuf, P d := by
  intro d hd
  rw [pending_step h] at hd
  rcases mem_append.1 hd with hd | hd
  · exact hpend d (mem_of_mem_drop hd)
  · cases e with
    | network p =>
      rw [newPending] at hd
      split at hd
      · rw [mem_singleton.1 hd]
        exact hP _ _
      · cases hd
    | _ => cases hd

theorem clean_step (hclean : Clean s) (h : s.handle sha1 env e = .ok (s', out)) : Clean s' := by
  refine ⟨forall_pending_step (fun _ _ => ⟨rfl, rfl, rfl⟩) hclean.pending h, ?_⟩
  rw [(handle_framed h).noDagInfo]
  exact hclean.noDagInfo

/-! ### New sockets -/

section

variable (hnone : s.portToDagInfo.lookup port = none)
include hnone

theorem Touched.born (ht : Touched s s' q d₀)
    (hd : s'.portToDagInfo.lookup port = some d) : port = q ∧ d = d₀ := by
  rw [ht.lookup] at hd
  split at hd
  · rename_i heq
    exact ⟨heq, (Option.some.inj hd).symm⟩
  · rw [hnone] at hd
    cases hd

theorem Touched.not_born {d₁ : DagInfo} (ht : Touched s s' q d₀)
    (hd₁ : s.portToDagInfo.lookup q = some d₁) : s'.portToDagInfo.lookup port = none := by
  rw [ht.other (by rintro rfl; rw [hnone] at hd₁; cases hd₁), hnone]

theorem Touched.born_idle (ht : Touched s s' q d₀)
    (hsame : d₀.stream = ((s.portToDagInfo.lookup q).getD (DagInfo.new env.junk)).stream)
    (hd : s'.portToDagInfo.lookup port = some d) :
    d.stream.Idle := by
  obtain ⟨rfl, rfl⟩ := ht.born hnone hd
  rw [hsame, hnone]
  exact idle_new env.junk

theorem idle_xrequestChunk {payload : List UInt8}
    (h : s.xrequestChunk env q payload dags = .ok (s', out))
    (hd : s'.portToDagInfo.lookup port = some d) :
    d.stream.Idle := by
  rw [xrequestChunk_eq_run] at h
  refine Machine.run_invariant
    (I := fun s₁ => ∀ d, s₁.portToDagInfo.lookup port = some d → d.stream.Idle)
    (fun s₁ dag s₂ o hI h₁ d₂ hd₂ => ?_) (fun d₀ hd₀ => ?_) h d hd
  · obtain ⟨d₁, ht, -, -, hsame⟩ := stream_requestOne h₁
    -- the socket comes from this request or from an earlier one
    cases hmid : s₁.portToDagInfo.lookup port with
    | none => exact ht.born_idle hmid hsame hd₂
    | some d₀ =>
      have hkeep := ht.stream (fun d hd => by rw [hsame, hd, getD_some]) hmid
      rw [hd₂, map_some, some_inj] at hkeep
      exact hkeep ▸ hI d₀ hmid
  · rw [hnone] at hd₀
    cases hd₀

theorem Dispatched.not_born (h : Dispatched env s p pair thdr s' out v) :
    s'.portToDagInfo.lookup port = none := by
  rcases h.touched with hsame | ⟨d, d', hd, ht, -, -⟩
  · rw [hsame, hnone]
  · exact ht.not_born hnone hd

theorem Delivered.idle (h : Delivered env s p thdr v s' out) (hidle : s.noDagInfo.stream.Idle)
    (hd : s'.portToDagInfo.lookup port = some d) :
    d.stream.Idle := by
  rcases h.touched with rfl | ht
  · rw [hnone] at hd
    cases hd
  · obtain ⟨heq, rfl⟩ := ht.born hnone hd
    -- the socket of a free port is made from the default one
    have hget : s.portToDagInfo.get s.noDagInfo v.dport = s.noDagInfo := by
      rw [HashTable.get, ← heq, hnone]
      rfl
    rw [hget]
    exact hidle

/-- **A new socket** waits for nothing, or its timer is on. -/
theorem stream_born (hclean : Clean s) (h : s.handle sha1 env e = .ok (s', out))
    (hd : s'.portToDagInfo.lookup port = some d) :
    d.stream.Idle ∨ d.stream.timerOn = true := by
  -- most events make no socket at all
  have hcontra : s'.portToDagInfo.lookup port = none → d.stream.Idle ∨ d.stream.timerOn = true := by
    intro hnone'
    rw [hnone'] at hd
    cases hd
  cases e with
  | xsocket q t =>
    obtain ⟨-, rfl⟩ := (xsocket_eq_ok h).1.born hnone hd
    exact .inl ⟨rfl, rfl, rfl⟩
  | xsetsockopt | xgetChunkStatus | xchangead | xhcp | writeParam =>
    exact hcontra (by rw [(handle_sparesSockets rfl h).1, hnone])
  | xbind | xbindPush | xsendto | xpushChunkto =>
    obtain ⟨_, d', hd', ht, -⟩ := handle_names rfl h
    exact .inl (ht.born_idle hnone (stream_renamed hd') hd)
  | xclose q =>
    obtain ⟨d₀, hd₀, ht, -⟩ := xclose_eq_ok h
    exact hcontra (ht.not_born hnone hd₀)
  | xconnect q ddag =>
    obtain ⟨_, _, _, _, _, _, _, _, -, -, -, -, -, -, -, ht, -⟩ := xconnect_eq_ok h
    obtain ⟨-, rfl⟩ := ht.born hnone hd
    exact .inr rfl
  | xaccept q =>
    cases hpend : s.pendingConnectionBuf with
    | nil => exact hcontra (by rw [(xaccept_nil h hpend).1.portToDagInfo, hnone])
    | cons pending rest =>
      obtain ⟨x, y, dag, -, -, ht, -⟩ := xaccept_cons h hpend
      obtain ⟨-, rfl⟩ := ht.born hnone hd
      exact .inl (hclean.pending pending (by simp [hpend]))
  | xsend q payload =>
    rcases xsend_eq_ok h with ⟨rfl, -⟩ | ⟨d₀, d', p, hd₀, -, -, ht, -⟩
    · exact hcontra hnone
    · exact hcontra (ht.not_born hnone hd₀)
  | xrequestChunk q payload dags => exact .inl (idle_xrequestChunk hnone h hd)
  | xreadChunk q dag =>
    obtain ⟨d₀, path, t₁, t₂, hd₀, -, ht, -⟩ := xreadChunk_eq_ok h
    exact hcontra (ht.not_born hnone hd₀)
  | network p =>
    obtain ⟨_, _, _, -, -, -, ⟨-, rfl, -⟩ | ⟨-, s₁, _, _, _, hdisp, hdel, -⟩⟩ :=
      processNetworkPacket_eq_ok h
    · exact hcontra hnone
    -- a name may be filed for a port without a socket: the default one is stored there
    · exact .inl (hdel.idle (hdisp.not_born hnone)
        (by rw [hdisp.noDagInfo.1]; exact hclean.noDagInfo) hd)
  | cache p =>
    obtain ⟨_, _, -, -, ⟨rfl, -⟩ | ⟨d₀, _, _, _, _, -, hd₀, -, ht, -⟩⟩ := processCachePacket_eq_ok h
    · exact hcontra hnone
    · exact hcontra (ht.not_born hnone hd₀)
  | timer => exact hcontra (runTimer_none h hnone)

end

theorem Reachable.clean (h : Reachable sha1 s) : Clean s := by
  obtain ⟨localAddr, junk, is, out, h⟩ := h
  exact Machine.run_invariant (fun _ _ _ _ hclean hs => clean_step hclean hs)
    (clean_init localAddr junk) h

end XTransport

end Xia
