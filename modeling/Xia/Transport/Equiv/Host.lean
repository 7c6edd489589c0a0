import Xia.Transport.Connection
import Xia.Transport.Equiv.Stream

/-!
# A host that takes part in one connection

`Host port home log s` describes the host of one side: its connected socket is that of `port`, the
names it is known by are bound to `home`, and `log` is what the application has sent.  The client's
socket has the names itself; on the server they belong to the listening socket.

Every event of the system keeps this (`Host.xsend`, `Host.timer`, `Host.network`, `Host.xaccept`),
and `Effect` says what it does to the counters of the socket, to the network and to the application.
-/

namespace Xia

open List Option HashTable Function
open TransportHeader (ackNum_header header pktInfo_header seqNum_header size type_header
  xsockStream)

/-! ### What a packet says -/

def Segment.pktInfo : Segment → UInt8
  | .syn => TransportHeader.syn
  | .synack => TransportHeader.synack
  | .data _ _ => TransportHeader.data
  | .ack _ => TransportHeader.ack

namespace Packet

/-- The packet is one that the element builds for the segment. -/
def Says (p : Packet) : Segment → Prop
  | .syn => p.HasHeader xsockStream TransportHeader.syn 0 (-1) 0
  | .synack => p.HasHeader xsockStream TransportHeader.synack 0 0 0
  | .data n payload => p.CarriesData n payload
  | .ack n => p.HasHeader xsockStream TransportHeader.ack 0 n 0

variable {p q : Packet} {g : Segment}

theorem Says.hasHeader (h : p.Says g) : ∃ n a, p.HasHeader xsockStream g.pktInfo n a 0 := by
  cases g with
  | syn => exact ⟨_, _, h⟩
  | synack => exact ⟨_, _, h⟩
  | data n payload =>
    obtain ⟨a, h⟩ := h
    exact ⟨_, _, h.hasHeader⟩
  | ack n => exact ⟨_, _, h⟩

theorem Says.nxt (h : p.Says g) : p.nxt = nxtTrn := by
  obtain ⟨n, a, hp⟩ := h.hasHeader
  exact hp.nxt

theorem Says.segment (h : p.Says g) : p.segment = some g := by
  cases g with
  | syn => simp [Packet.segment, HasHeader.extHeader h]
  | synack =>
    have hne : TransportHeader.synack ≠ TransportHeader.syn := by decide
    simp [Packet.segment, HasHeader.extHeader h, hne]
  | data n payload =>
    obtain ⟨a, h⟩ := h
    have hne : TransportHeader.data ≠ TransportHeader.syn := by decide
    have hne' : TransportHeader.data ≠ TransportHeader.synack := by decide
    simp [Packet.segment, h.hasHeader.extHeader, h.extPayload, hne, hne', Except.toOption]
  | ack n =>
    have hne : TransportHeader.ack ≠ TransportHeader.syn := by decide
    have hne' : TransportHeader.ack ≠ TransportHeader.synack := by decide
    have hne'' : TransportHeader.ack ≠ TransportHeader.data := by decide
    simp [Packet.segment, HasHeader.extHeader h, hne, hne', hne'', Except.toOption]

theorem Says.arrive (h : p.Says g) (hlim : UInt8) : (p.arrive hlim).Says g := by
  cases g with
  | syn => exact ⟨h.nxt, h.body⟩
  | synack => exact ⟨h.nxt, h.body⟩
  | data n payload =>
    obtain ⟨a, h⟩ := h
    exact ⟨a, h.body, h.plen, h.nxt⟩
  | ack n => exact ⟨h.nxt, h.body⟩

theorem Says.copy (h : p.Says g) (hcopy : DagInfo.IsCopy q p) : q.Says g := by
  cases g with
  | data n payload =>
    obtain ⟨a, h⟩ := h
    exact ⟨a, hcopy.carries h⟩
  | _ =>
    obtain ⟨_, _, _, _, hcopy⟩ := hcopy
    exact DagInfo.copyPacket_hasHeader hcopy h

end Packet

/-! ### The host -/

/-- A socket that sends nothing of its own accord. -/
structure DagInfo.Calm (d : DagInfo) : Prop where
  timerOn : d.timerOn = false
  xidToTimerOn : d.xidToTimerOn = ∅

/-- The connected socket: what it has stored is part of what was sent. -/
structure DagInfo.Sends (isClient : Prop) (log : List (List UInt8)) (d : DagInfo) : Prop where
  isConnected : d.isConnected = true
  initialized : d.initialized = true
  teardownWaiting : d.teardownWaiting = false
  xidToTimerOn : d.xidToTimerOn = ∅
  synPkt : d.synackWaiting = true → isClient ∧ ∀ p, d.synPkt = some p → p.Says .syn
  seqNum : d.seqNum = d.nextSeqnum
  nextSeqnum : d.nextSeqnum.toNat = log.length
  ring : ∀ k p, d.sentPkt k = some p →
    ∃ (n : UInt32) (payload : List UInt8), p.Says (.data n payload) ∧ log[n.toNat]? = some payload

namespace XTransport

structure Host (port home : UInt16) (log : List (List UInt8)) (s : XTransport) : Prop where
  pairs : ∀ pair q, s.xidPairToPort.lookup pair = some q → q = port
  names : ∀ x q, s.xidToPort.lookup x = some q → q = home
  inactive : s.portToActive.lookup 0 = none
  others : ∀ q d, s.portToDagInfo.lookup q = some d → q ≠ port → d.Calm
  template : s.noDagInfo.Calm
  socket : ∀ d, s.portToDagInfo.lookup port = some d → d.Sends (port = home) log
  absent : s.portToDagInfo.lookup port = none → log = []
  pending : ∀ d ∈ s.pendingConnectionBuf, ∃ junk p, d = DagInfo.pending junk p

/-- The packet is one that a host with this log may send of its own accord. -/
def MaySend (port home : UInt16) (log : List (List UInt8)) (p : Packet) : Prop :=
  p.Says .syn ∧ port = home ∨ p.Says .synack ∨
    ∃ (n : UInt32) (payload : List UInt8), p.Says (.data n payload) ∧ log[n.toNat]? = some payload

/-- What an event does: to the counters `base` and `expected_seqnum` of the socket, to the log, to
the network and to the application.  The event may be the arrival of a segment. -/
inductive Effect (port home : UInt16) (log : List (List UInt8)) (s s' : XTransport) :
    Option Segment → List (List UInt8) → List Output → Prop
  /-- a new DATA packet -/
  | send {out : List Output} (payload : List UInt8) (p : Packet) (n : UInt32)
      (hn : n.toNat = log.length) (hp : p.Says (.data n payload)) (hnet : netPackets out = [p])
      (hmsgs : payloadsTo port out = []) (hsame : s'.counters port = s.counters port) :
      Effect port home log s s' none (log ++ [payload]) out
  /-- packets that were sent before, or that answer a SYN -/
  | resend {g : Option Segment} {out : List Output}
      (hnet : ∀ p ∈ netPackets out, MaySend port home log p)
      (hmsgs : g ≠ some .synack → payloadsTo port out = [])
      (hsame : s'.counters port = s.counters port) : Effect port home log s s' g log out
  /-- the expected DATA packet -/
  | take {out : List Output} (b n : UInt32) (payload : List UInt8) (p : Packet)
      (hp : p.Says (.ack (n + 1))) (hnet : netPackets out = [p])
      (hmsgs : payloadsTo port out = [payload]) (hold : s.counters port = some (b, n))
      (hnew : s'.counters port = some (b, n + 1)) :
      Effect port home log s s' (some (.data n payload)) log out
  /-- another DATA packet -/
  | discard {out : List Output} (b e n : UInt32) (payload : List UInt8) (p : Packet)
      (hp : p.Says (.ack e)) (hnet : netPackets out = [p]) (hmsgs : payloadsTo port out = [])
      (hold : s.counters port = some (b, e)) (hnew : s'.counters port = some (b, e)) :
      Effect port home log s s' (some (.data n payload)) log out
  | ack {out : List Output} (b e n : UInt32) (hnet : netPackets out = [])
      (hmsgs : payloadsTo port out = []) (hold : s.counters port = some (b, e))
      (hnew : s'.counters port = some (n, e)) : Effect port home log s s' (some (.ack n)) log out

variable {sha1 : Sha1} {env : Env} {s s' : XTransport} {port home q : UInt16}
variable {localAddr : XiaPath} {n : UInt32}
variable {log log' : List (List UInt8)} {d d' : DagInfo} {out : List Output}

theorem counters_of_lookup (hd : s.portToDagInfo.lookup port = some d) :
    s.counters port = some (d.base, d.expectedSeqnum) := by
  rw [counters, hd]
  rfl

theorem Effect.isSome_counters {seg : Option Segment} (h : Effect port home log s s' seg log' out) :
    (s'.counters port).isSome = (s.counters port).isSome := by
  cases h with
  | send _ _ _ _ _ _ _ hsame => rw [hsame]
  | resend _ _ hsame => rw [hsame]
  | take _ _ _ _ _ _ _ hold hnew => rw [hold, hnew, isSome_some, isSome_some]
  | discard _ _ _ _ _ _ _ _ hold hnew => rw [hold, hnew]
  | ack _ _ _ _ _ hold hnew => rw [hold, hnew, isSome_some, isSome_some]

/-- Every packet that an event sends is one of the connection; a SYN comes from the client. -/
theorem Effect.segments {seg : Option Segment} (h : Effect port home log s s' seg log' out) :
    ∀ p ∈ netPackets out, ∃ seg', p.Says seg' ∧ (seg' = .syn → port = home) := by
  have hone {p : Packet} {seg' : Segment} (hp : p.Says seg') (hnet : netPackets out = [p])
      (hne : seg' ≠ .syn) :
      ∀ p ∈ netPackets out, ∃ seg', p.Says seg' ∧ (seg' = .syn → port = home) := by
    rw [hnet, forall_mem_singleton]
    exact ⟨seg', hp, fun heq => absurd heq hne⟩
  cases h with
  | send payload p n _ hp hnet => exact hone hp hnet (by simp)
  | resend hnet =>
    intro p' hp'
    rcases hnet p' hp' with ⟨hp, hclient⟩ | hp | ⟨n, payload, hp, -⟩
    · exact ⟨_, hp, fun _ => hclient⟩
    · exact ⟨_, hp, fun hno => by cases hno⟩
    · exact ⟨_, hp, fun hno => by cases hno⟩
  | take b n payload p hp hnet => exact hone hp hnet (by simp)
  | discard b e n payload p hp hnet => exact hone hp hnet (by simp)
  | ack _ _ _ hnet =>
    intro p' hp'
    rw [hnet] at hp'
    cases hp'

theorem Host.touched (h : Host port home log s) (ht : Touched s s' port d')
    (hpairs : ∀ pair q, s'.xidPairToPort.lookup pair = some q → q = port)
    (hnames : s'.xidToPort = s.xidToPort) (hactive : s'.portToActive.lookup 0 = none)
    (hpending : ∀ d ∈ s'.pendingConnectionBuf, d ∈ s.pendingConnectionBuf)
    (hd' : d'.Sends (port = home) log') : Host port home log' s' where
  pairs := hpairs
  names x q hx := h.names x q (hnames ▸ hx)
  inactive := hactive
  others q d hd hq := h.others q d (by rwa [ht.other hq] at hd) hq
  template := ht.noDagInfo ▸ h.template
  socket d hd := by
    rw [ht.self, Option.some.injEq] at hd
    exact hd ▸ hd'
  absent hnone := by
    rw [ht.self] at hnone
    cases hnone
  pending d hd := h.pending d (hpending d hd)

theorem Host.touched_of_same (h : Host port home log s) (ht : Touched s s' port d')
    (hdemux : SameDemux s s') (hnames : s'.xidToPort = s.xidToPort)
    (hd' : d'.Sends (port = home) log') : Host port home log' s' :=
  h.touched ht (fun pair q hpair => h.pairs pair q (hdemux.xidPairToPort ▸ hpair)) hnames
    (by rw [hdemux.portToActive, h.inactive]) (fun d hd => hdemux.pendingConnectionBuf ▸ hd) hd'

theorem Host.touched_other (h : Host port home log s) (hq : q ≠ port) (ht : Touched s s' q d')
    (hpairs : s'.xidPairToPort = s.xidPairToPort) (hnames : s'.xidToPort = s.xidToPort)
    (hactive : s'.portToActive = s.portToActive)
    (hpending : ∀ d ∈ s'.pendingConnectionBuf, d ∈ s.pendingConnectionBuf) (hd' : d'.Calm) :
    Host port home log s' where
  pairs pair q hpair := h.pairs pair q (hpairs ▸ hpair)
  names x q hx := h.names x q (hnames ▸ hx)
  inactive := by rw [hactive, h.inactive]
  others q' d hd hq' := by
    rw [ht.lookup] at hd
    split at hd
    · cases hd
      exact hd'
    · exact h.others q' d hd hq'
  template := ht.noDagInfo ▸ h.template
  socket d hd := h.socket d (by rwa [ht.other (Ne.symm hq)] at hd)
  absent hnone := h.absent (by rwa [ht.other (Ne.symm hq)] at hnone)
  pending d hd := h.pending d (hpending d hd)

/-! ### Sending -/

theorem Host.xsend {payload : List UInt8} (h : Host port home log s)
    (hd : s.portToDagInfo.lookup port = some d) (hlen : payload.length ≤ xiaMaxbuf)
    (hlog : log.length + 1 < 2 ^ 32) (hs : s.xsend env port payload = .ok (s', out)) :
    Host port home (log ++ [payload]) s' ∧
      Effect port home log s s' none (log ++ [payload]) out := by
  have hsock := h.socket d hd
  -- the socket is connected, so the request is not refused
  rcases xsend_eq_ok hs with ⟨-, -, hno⟩ | ⟨d₀, d', p, hd₀, -, hsend, ht, hdemux, rfl, hnames⟩
  · exact absurd hsock.isConnected (by simp [hno d hd])
  rw [hd, Option.some.injEq] at hd₀
  subst hd₀
  obtain ⟨path, copy, -, rfl, -, -, hcarries⟩ := DagInfo.xsend_eq_ok hsend
  -- the length field of the packet is 16 bits wide
  have hshort : payload.length + size < 2 ^ 16 := by
    rw [xiaMaxbuf] at hlen
    rw [size]
    omega
  obtain ⟨hp, hcopy⟩ := hcarries hshort
  have hnext := hsock.nextSeqnum
  refine ⟨h.touched_of_same ht hdemux hnames ?_, ?_⟩
  · -- the stored copies are those of before and the new one
    refine ⟨hsock.isConnected, hsock.initialized, hsock.teardownWaiting, hsock.xidToTimerOn,
      hsock.synPkt, by rw [hsock.seqNum], ?_, fun k p' hp' => ?_⟩
    · rw [UInt32.toNat_add, hnext, length_append]
      exact Nat.mod_eq_of_lt hlog
    · change Function.update d.sentPkt _ (some copy) k = some p' at hp'
      by_cases hk : k = Fin.ofNat maxWinSize d.seqNum.toNat
      · subst hk
        rw [update_self, Option.some.injEq] at hp'
        subst hp'
        exact ⟨d.nextSeqnum, payload, hcopy, by simp [hnext]⟩
      · rw [update_of_ne hk] at hp'
        obtain ⟨n, a, hsaid, hlog'⟩ := hsock.ring k p' hp'
        refine ⟨n, a, hsaid, ?_⟩
        rw [getElem?_append_left (List.getElem?_eq_some_iff.1 hlog').1, hlog']
  · refine .send payload p d.nextSeqnum hnext hp rfl rfl ?_
    rw [counters_of_lookup ht.self, counters_of_lookup hd]

/-! ### The timer -/

theorem cidTimeouts_of_empty {e e' : Nat} {copies : List Packet}
    (h : d.cidTimeouts env localAddr d.xidToTimerOn.keys e = .ok (d', e', copies))
    (hempty : d.xidToTimerOn = ∅) : d' = d ∧ copies = [] := by
  rw [hempty, AList.keys_empty] at h
  cases h
  exact ⟨rfl, rfl⟩

theorem Calm.visited {d'? : Option DagInfo} (hcalm : d.Calm)
    (h : DagInfo.Visited env localAddr d d'? out) : d'? = some d ∧ out = [] := by
  have hoff : ¬ d.timerOn = true := by simp [hcalm.timerOn]
  cases h with
  | removed h =>
    cases h with
    | tearDown hon => exact absurd hon hoff
  | kept h hcid =>
    cases h with
    | idle =>
      obtain ⟨rfl, rfl⟩ := cidTimeouts_of_empty hcid hcalm.xidToTimerOn
      exact ⟨rfl, rfl⟩
    | synResend _ _ _ hon => exact absurd hon hoff
    | synGiveUp hon => exact absurd hon hoff
    | dataResend _ _ hon => exact absurd hon hoff
    | dataStop _ hon => exact absurd hon hoff

theorem Sends.visited {d'? : Option DagInfo} (hd : d.Sends (port = home) log)
    (h : DagInfo.Visited env localAddr d d'? out) :
    ∃ d', d'? = some d' ∧ d'.Sends (port = home) log ∧ d'.base = d.base ∧
      d'.expectedSeqnum = d.expectedSeqnum ∧
      ∀ o ∈ out, ∃ p, o = .network p ∧ MaySend port home log p := by
  cases h with
  | removed h =>
    -- only a closed socket is removed
    cases h with
    | tearDown _ _ _ htear => exact absurd htear (by simp [hd.teardownWaiting])
  | kept h hcid =>
    cases h with
    | idle =>
      obtain ⟨rfl, rfl⟩ := cidTimeouts_of_empty hcid hd.xidToTimerOn
      exact ⟨_, rfl, hd, rfl, rfl, by simp⟩
    | synResend path p copy hon hsyn hdue htries hp hcopy hpath =>
      obtain ⟨rfl, rfl⟩ := cidTimeouts_of_empty hcid hd.xidToTimerOn
      obtain ⟨hclient, hsaid⟩ := hd.synPkt hsyn
      refine ⟨_, rfl, { hd with }, rfl, rfl, fun o ho => ?_⟩
      obtain rfl : o = .network copy := by simpa using ho
      exact ⟨copy, rfl, .inl ⟨(hsaid p hp).copy hcopy, hclient⟩⟩
    | synGiveUp =>
      obtain ⟨rfl, rfl⟩ := cidTimeouts_of_empty hcid hd.xidToTimerOn
      exact ⟨_, rfl, { hd with synPkt := fun hno => by cases hno }, rfl, rfl, by simp⟩
    | dataResend path copies hon hsyn hdata hdue htries hheld hcopies hpath =>
      obtain ⟨rfl, rfl⟩ := cidTimeouts_of_empty hcid hd.xidToTimerOn
      refine ⟨_, rfl, { hd with }, rfl, rfl, fun o ho => ?_⟩
      obtain ⟨copy, hmem, rfl⟩ : ∃ copy ∈ copies, Output.network copy = o := by simpa using ho
      -- a copy of a packet of the ring
      obtain ⟨p, hp, hcopy⟩ := (DagInfo.isCopy_of_forall₂ hcopies).2 copy hmem
      obtain ⟨k, -, hk⟩ := mem_filterMap.1 hp
      obtain ⟨n, payload, hsaid, hlog⟩ := hd.ring _ p hk
      exact ⟨copy, rfl, .inr (.inr ⟨n, payload, hsaid.copy hcopy, hlog⟩)⟩
    | dataStop =>
      obtain ⟨rfl, rfl⟩ := cidTimeouts_of_empty hcid hd.xidToTimerOn
      exact ⟨_, rfl, { hd with }, rfl, rfl, by simp⟩

theorem payloadsTo_of_network (h : ∀ o ∈ out, ∃ p, o = Output.network p) :
    payloadsTo port out = [] := by
  rw [payloadsTo, apiMsgs_of_network h]
  rfl

section

variable (h : Host port home log s) (hs : s.runTimer env = .ok (s', out))
include h hs

theorem Host.timer_other (hq : q ≠ port) :
    s'.portToDagInfo.lookup q = s.portToDagInfo.lookup q := by
  cases hd : s.portToDagInfo.lookup q with
  | none => exact runTimer_none hs hd
  | some d =>
    obtain ⟨o, hv, -⟩ := runTimer_some hs hd
    exact (Calm.visited (h.others q d hd hq) hv).1

theorem Host.timer_socket (hd : s.portToDagInfo.lookup port = some d) :
    ∃ d', s'.portToDagInfo.lookup port = some d' ∧ d'.Sends (port = home) log ∧
      d'.base = d.base ∧ d'.expectedSeqnum = d.expectedSeqnum := by
  obtain ⟨o, hv, -⟩ := runTimer_some hs hd
  obtain ⟨d', hd', hsends, hbase, hexp, -⟩ := Sends.visited (h.socket d hd) hv
  exact ⟨d', hd', hsends, hbase, hexp⟩

/-- The timer removes no socket of the host: none is closed. -/
theorem Host.not_removed (q : UInt16) (d : DagInfo) : ¬ Removed s s' q d := by
  rintro ⟨hd, hnone⟩
  by_cases hq : q = port
  · subst hq
    obtain ⟨d', hd', -⟩ := h.timer_socket hs hd
    rw [hnone] at hd'
    cases hd'
  · rw [h.timer_other hs hq, hd] at hnone
    cases hnone

theorem Host.timer_pushed : ∀ o ∈ out, ∃ p, o = .network p ∧ MaySend port home log p := by
  intro o ho
  obtain ⟨q, -, d, d', os, hd, hv, hmem⟩ := (runTimer_visits hs).pushed o ho
  by_cases hq : q = port
  · subst hq
    obtain ⟨_, _, _, _, _, hall⟩ := Sends.visited (h.socket d hd) hv
    exact hall o hmem
  · rw [(Calm.visited (h.others q d hd hq) hv).2] at hmem
    cases hmem

theorem Host.timer : Host port home log s' ∧ Effect port home log s s' none log out := by
  have ht := runTimer_visits hs
  have hkept := h.not_removed hs
  have hout := h.timer_pushed hs
  refine ⟨⟨?_, ?_, ?_, ?_, ht.noDagInfo ▸ h.template, ?_, ?_, ?_⟩, .resend ?_ ?_ ?_⟩
  · exact fun pair q hpair => h.pairs pair q (ht.xidPairToPort ▸ hpair)
  · intro x q hx
    rw [ht.filed x fun q' d hr => absurd hr (hkept q' d)] at hx
    exact h.names x q hx
  · rw [ht.active 0 fun d => hkept 0 d, h.inactive]
  · exact fun q d hd hq => h.others q d (by rwa [h.timer_other hs hq] at hd) hq
  · intro d' hd'
    cases hd : s.portToDagInfo.lookup port with
    | none =>
      rw [runTimer_none hs hd] at hd'
      cases hd'
    | some d =>
      obtain ⟨d₁, hd₁, hsends, -⟩ := h.timer_socket hs hd
      rw [hd', Option.some.injEq] at hd₁
      exact hd₁ ▸ hsends
  · intro hnone
    cases hd : s.portToDagInfo.lookup port with
    | none => exact h.absent hd
    | some d => exact absurd ⟨hd, hnone⟩ (hkept port d)
  · exact fun d hd => h.pending d (ht.pendingConnectionBuf ▸ hd)
  · intro p hp
    obtain ⟨p', heq, hmay⟩ := hout _ (mem_netPackets.1 hp)
    cases heq
    exact hmay
  · exact fun _ => payloadsTo_of_network fun o ho => (hout o ho).imp fun p hp => hp.1
  · cases hd : s.portToDagInfo.lookup port with
    | none => rw [counters, counters, runTimer_none hs hd, hd]
    | some d =>
      obtain ⟨d', hd', -, hbase, hexp⟩ := h.timer_socket hs hd
      rw [counters_of_lookup hd', counters_of_lookup hd, hbase, hexp]

end

/-! ### Packets from the network -/

variable {p : Packet} {g : Segment} {pair : XidPair} {thdr : ExtHeader} {v : Verdict}
variable {o₁ o₂ : List Output} {s₁ : XTransport}

theorem payloadsTo_network (q : Packet) (o : List Output) :
    payloadsTo port (.network q :: o) = payloadsTo port o := rfl

theorem payloadsTo_recv (dag : Text) (payload : List UInt8) :
    payloadsTo port [.api port (.recv dag payload)] = [payload] := by
  simp [payloadsTo, apiMsgs]

theorem payloadsTo_other {msg : ApiMsg} (hq : q ≠ port) : payloadsTo port [.api q msg] = [] := by
  simp [payloadsTo, apiMsgs, hq]

theorem Host.pairPort_eq (h : Host port home log s) (hactive : s.IsActive (s.pairPort pair)) :
    s.pairPort pair = port := by
  cases hpair : s.xidPairToPort.lookup pair with
  | none =>
    have hzero : s.pairPort pair = 0 := by simp [pairPort, HashTable.get, hpair]
    rw [IsActive, hzero, h.inactive] at hactive
    cases hactive
  | some q =>
    rw [pairPort, get_of_lookup hpair]
    exact h.pairs pair q hpair

theorem isStream_header (i : UInt8) (n a : UInt32) (l : UInt16) :
    IsStream (header xsockStream i n a l) i :=
  ⟨type_header _ _ _ _ _, pktInfo_header _ _ _ _ _⟩

theorem Sends.receiveData {path : XiaPath} (hd : d.Sends (port = home) log) :
    (d.receiveData path n).1.Sends (port = home) log := by
  rw [DagInfo.receiveData]
  split
  · exact { hd with }
  · exact { hd with }

theorem Host.data {a : UInt32} {payload : List UInt8} (h : Host port home log s) (hport : port ≠ 0)
    (hp : p.Carries xsockStream TransportHeader.data n a 0 payload)
    (h₁ : Dispatched env s p pair (header xsockStream TransportHeader.data n a 0) s₁ o₁ v)
    (h₂ : Delivered env s₁ p (header xsockStream TransportHeader.data n a 0) v s' o₂) :
    Host port home log s' ∧ Effect port home log s s' (some (.data n payload)) log (o₁ ++ o₂) := by
  have hkind : IsStream (header xsockStream TransportHeader.data n a 0)
      TransportHeader.data := isStream_header _ _ _ _
  cases h₁ with
  | syn _ hk => exact absurd (hk.unique hkind) (by decide)
  | synack _ hk => exact absurd (hk.unique hkind) (by decide)
  | ack _ _ _ _ hk => exact absurd (hk.unique hkind) (by decide)
  | other _ _ _ hno => exact absurd hkind hno
  | inactive =>
    obtain ⟨rfl, rfl⟩ := h₂.eq_of_not_sent rfl
    exact ⟨h, .resend (by simp [netPackets]) (fun _ => rfl) rfl⟩
  | data d q _ hactive hd hq hn =>
    have heq := h.pairPort_eq hactive
    rw [heq] at hd h₂
    rw [seqNum_header, Except.ok.injEq] at hn
    subst hn
    have htouched : Touched s (s.setDagInfo port (d.receiveData p.srcPath n).1) port
        (d.receiveData p.srcPath n).1 := touched_setDagInfo _ _ ⟨rfl, rfl, rfl⟩
    have hsends : (d.receiveData p.srcPath n).1.Sends (port = home) log :=
      Sends.receiveData (h.socket d hd)
    have hhost := h.touched_of_same htouched ⟨rfl, rfl, rfl⟩ rfl hsends
    by_cases hn : n = d.expectedSeqnum
    · -- it is handed up to the application: the port is a real one
      obtain ⟨rfl, hcase⟩ := h₂.eq_of_initialized hp.nxt htouched.self hsends.initialized
      obtain ⟨-, hno⟩ | ⟨-, -, dag, rfl⟩ := hcase
      · rcases hno with hno | hno
        · exact absurd hno hport
        · simp [DagInfo.receiveData, hn] at hno
      · refine ⟨hhost, .take d.base n payload q ?_ rfl ?_ ?_ ?_⟩
        · have hexp : (d.receiveData p.srcPath n).1.expectedSeqnum = n + 1 := by
            simp [DagInfo.receiveData, hn]
          rw [hexp] at hq
          exact hq
        · rw [singleton_append, payloadsTo_network, hp.readString env.beyond, payloadsTo_recv]
        · rw [counters_of_lookup hd, hn]
        · rw [counters_of_lookup htouched.self]
          simp [DagInfo.receiveData, hn]
    · -- the ACK repeats the number that is still expected
      have hsame : (d.receiveData p.srcPath n).1.expectedSeqnum = d.expectedSeqnum ∧
          (d.receiveData p.srcPath n).1.base = d.base ∧ (d.receiveData p.srcPath n).2 = false := by
        simp [DagInfo.receiveData, hn]
      obtain ⟨rfl, rfl⟩ := h₂.eq_of_not_sent hsame.2.2
      rw [hsame.1] at hq
      refine ⟨hhost, .discard d.base d.expectedSeqnum n payload q hq rfl rfl
        (counters_of_lookup hd) ?_⟩
      rw [counters_of_lookup htouched.self, hsame.1, hsame.2.1]

/-- An ACK empties slots of the ring and moves `base`. -/
theorem Sends.receiveAck {now : Nat} {path : XiaPath} {reset : Bool}
    (hd : d.Sends (port = home) log) (h : d.receiveAck now path n = .ok (d', reset)) :
    d'.Sends (port = home) log ∧ d'.base = n ∧ d'.expectedSeqnum = d.expectedSeqnum := by
  obtain ⟨ring, hring, -, rfl⟩ := DagInfo.receiveAck_eq_ok h
  refine ⟨{ hd with ring := fun k p hp => ?_ }, rfl, rfl⟩
  have hk : ring k = some p := hp
  rw [(DagInfo.clearAcked_eq_ok.1 hring).2 k] at hk
  split at hk
  · cases hk
  · exact hd.ring k p hk

theorem Host.ack (h : Host port home log s) (h₁ : Dispatched env s p pair
      (header xsockStream TransportHeader.ack 0 n 0) s₁ o₁ v)
    (h₂ : Delivered env s₁ p (header xsockStream TransportHeader.ack 0 n 0) v s' o₂) :
    Host port home log s' ∧ Effect port home log s s' (some (.ack n)) log (o₁ ++ o₂) := by
  have hkind : IsStream (header xsockStream TransportHeader.ack 0 n 0)
      TransportHeader.ack := isStream_header _ _ _ _
  cases h₁ with
  | syn _ hk => exact absurd (hk.unique hkind) (by decide)
  | synack _ hk => exact absurd (hk.unique hkind) (by decide)
  | data _ _ hk => exact absurd (hk.unique hkind) (by decide)
  | other _ _ _ _ hno => exact absurd hkind hno
  | inactive =>
    obtain ⟨rfl, rfl⟩ := h₂.eq_of_not_sent rfl
    exact ⟨h, .resend (by simp [netPackets]) (fun _ => rfl) rfl⟩
  | ack d d' _ t _ hactive hd hack hn =>
    have heq := h.pairPort_eq hactive
    rw [heq] at hd h₂
    obtain ⟨rfl, rfl⟩ := h₂.eq_of_not_sent rfl
    rw [ackNum_header, Except.ok.injEq] at hn
    subst hn
    obtain ⟨hsends, hbase, hexp⟩ := Sends.receiveAck (h.socket d hd) hack
    have htouched : Touched s ({ s with timer := t }.setDagInfo port d') port d' :=
      touched_setDagInfo _ _ ⟨rfl, rfl, rfl⟩
    refine ⟨h.touched_of_same htouched ⟨rfl, rfl, rfl⟩ rfl hsends,
      .ack d.base d.expectedSeqnum n rfl rfl (counters_of_lookup hd) ?_⟩
    rw [counters_of_lookup htouched.self, hbase, hexp]

theorem Delivered.eq_of_dport_eq_zero (h : Delivered env s p thdr v s' out) (hv : v.dport = 0) :
    s' = s ∧ out = [] := by
  cases h with
  | dropped => exact ⟨rfl, rfl⟩
  | moved _ hport => exact absurd hv hport
  | first _ _ hport => exact absurd hv hport
  | handed _ hport => exact absurd hv hport

theorem Host.synack (h : Host port home log s) (hnxt : p.nxt = nxtTrn) (h₁ : Dispatched env s p pair
      (header xsockStream TransportHeader.synack 0 0 0) s₁ o₁ v)
    (h₂ : Delivered env s₁ p (header xsockStream TransportHeader.synack 0 0 0) v s' o₂) :
    Host port home log s' ∧ Effect port home log s s' (some .synack) log (o₁ ++ o₂) := by
  have hkind : IsStream (header xsockStream TransportHeader.synack 0 0 0)
      TransportHeader.synack := isStream_header _ _ _ _
  cases h₁ with
  | syn _ hk => exact absurd (hk.unique hkind) (by decide)
  | data _ _ hk => exact absurd (hk.unique hkind) (by decide)
  | ack _ _ _ _ hk => exact absurd (hk.unique hkind) (by decide)
  | inactive hk =>
    rcases hk with hk | hk
    · exact absurd (hk.unique hkind) (by decide)
    · exact absurd (hk.unique hkind) (by decide)
  | other _ _ hno => exact absurd hkind hno
  | synack d _ hd =>
    have htouched : Touched s (s.setDagInfo (s.pairPort pair)
        { d with timerOn := false, synackWaiting := false }) (s.pairPort pair)
        { d with timerOn := false, synackWaiting := false } :=
      touched_setDagInfo _ _ ⟨rfl, rfl, rfl⟩
    by_cases hq : s.pairPort pair = port
    · -- the application of the socket is told, whatever it waits for
      rw [hq] at hd h₂ htouched
      have hsock := h.socket d hd
      have hsends : ({ d with timerOn := false, synackWaiting := false } : DagInfo).Sends
          (port = home) log :=
        { hsock with synPkt := fun hno => by cases hno }
      have hcounters : (s.setDagInfo port
          { d with timerOn := false, synackWaiting := false }).counters port = s.counters port := by
        rw [counters_of_lookup htouched.self, counters_of_lookup hd]
      obtain ⟨rfl, hcase⟩ := h₂.eq_of_initialized hnxt htouched.self hsock.initialized
      refine ⟨h.touched_of_same htouched ⟨rfl, rfl, rfl⟩ rfl hsends,
        .resend ?_ (fun hno => absurd rfl hno) hcounters⟩
      rcases hcase with ⟨rfl, -⟩ | ⟨-, -, dag, rfl⟩
      · exact fun p hp => absurd hp not_mem_nil
      · exact fun p hp => absurd hp not_mem_nil
    · -- a pair that is not in the table is looked up as port 0
      have hzero : s.pairPort pair = 0 := by
        cases hpair : s.xidPairToPort.lookup pair with
        | none => simp [pairPort, HashTable.get, hpair]
        | some q =>
          rw [pairPort, get_of_lookup hpair] at hq
          exact absurd (h.pairs pair q hpair) hq
      obtain ⟨rfl, rfl⟩ := h₂.eq_of_dport_eq_zero hzero
      refine ⟨h.touched_other hq htouched rfl rfl rfl (fun d hd => hd)
        ⟨rfl, (h.others _ d hd hq).xidToTimerOn⟩,
        .resend (fun p hp => absurd hp not_mem_nil) (fun _ => rfl) ?_⟩
      rw [counters, counters, htouched.other (Ne.symm hq)]

theorem Host.syn {a : UInt32} (h : Host port home log s) (hne : home ≠ port) (hnxt : p.nxt = nxtTrn)
    (h₁ : Dispatched env s p pair (header xsockStream TransportHeader.syn 0 a 0) s₁ o₁ v)
    (h₂ : Delivered env s₁ p (header xsockStream TransportHeader.syn 0 a 0) v s' o₂) :
    Host port home log s' ∧ Effect port home log s s' (some .syn) log (o₁ ++ o₂) := by
  have hkind : IsStream (header xsockStream TransportHeader.syn 0 a 0)
      TransportHeader.syn := isStream_header _ _ _ _
  cases h₁ with
  | synack _ hk => exact absurd (hk.unique hkind) (by decide)
  | data _ _ hk => exact absurd (hk.unique hkind) (by decide)
  | ack _ _ _ _ hk => exact absurd (hk.unique hkind) (by decide)
  | inactive hk =>
    rcases hk with hk | hk
    · exact absurd (hk.unique hkind) (by decide)
    · exact absurd (hk.unique hkind) (by decide)
  | other _ hno => exact absurd hkind hno
  | syn q _ hq =>
    have hhost : Host port home log { s with
        pendingConnectionBuf := s.pendingConnectionBuf ++ [DagInfo.pending env.junk p]
        xidPairToConnectPending := s.xidPairToConnectPending.insert pair true } := by
      refine ⟨h.pairs, h.names, h.inactive, h.others, h.template, h.socket, h.absent,
        fun d hd => ?_⟩
      rcases mem_append.1 hd with hd | hd
      · exact h.pending d hd
      · exact ⟨env.junk, p, mem_singleton.1 hd⟩
    have hnet : ∀ o, netPackets o = [] →
        ∀ p ∈ netPackets ([Output.network q] ++ o), MaySend port home log p := by
      intro o ho p hp
      rw [mem_netPackets, mem_append] at hp
      rcases hp with hp | hp
      · -- the SYNACK
        obtain rfl : p = q := by simpa using hp
        exact .inr (.inl hq)
      · rw [← mem_netPackets, ho] at hp
        cases hp
    -- the names are bound to the listening socket
    have hhome : s.xidToPort.get 0 pair.src ≠ 0 → s.xidToPort.get 0 pair.src = home := by
      intro hne0
      cases hx : s.xidToPort.lookup pair.src with
      | none => exact absurd (by simp [HashTable.get, hx]) hne0
      | some q =>
        rw [get_of_lookup hx]
        exact h.names _ q hx
    cases h₂ with
    | dropped => exact ⟨hhost, .resend (hnet [] rfl) (fun _ => rfl) rfl⟩
    | moved _ _ _ _ h22 =>
      rw [hnxt] at h22
      exact absurd h22 (by decide)
    | handed dag hport =>
      refine ⟨hhost, .resend (hnet _ rfl) (fun _ => ?_) rfl⟩
      rw [singleton_append, payloadsTo_network, payloadsTo_other]
      exact fun heq => hne ((hhome hport).symm.trans heq)
    | first d' dag hport _ _ hd' =>
      have hq' : s.xidToPort.get 0 pair.src ≠ port := fun heq =>
        hne ((hhome hport).symm.trans heq)
      have hcalm : (s.portToDagInfo.get s.noDagInfo (s.xidToPort.get 0 pair.src)).Calm := by
        cases hd : s.portToDagInfo.lookup (s.xidToPort.get 0 pair.src) with
        | none =>
          rw [HashTable.get, hd]
          exact h.template
        | some d =>
          rw [get_of_lookup hd]
          exact h.others _ d hd hq'
      have htouched := touched_setDagInfo (s := { s with
        pendingConnectionBuf := s.pendingConnectionBuf ++ [DagInfo.pending env.junk p]
        xidPairToConnectPending := s.xidPairToConnectPending.insert pair true })
        (s.xidToPort.get 0 pair.src) d' ⟨rfl, rfl, rfl⟩
      refine ⟨hhost.touched_other hq' htouched rfl rfl rfl (fun d hd => hd) ?_,
        .resend (hnet _ rfl) (fun _ => ?_) ?_⟩
      · rw [hd']
        exact ⟨hcalm.timerOn, hcalm.xidToTimerOn⟩
      · rw [singleton_append, payloadsTo_network, payloadsTo_other hq']
      · rw [counters, counters, htouched.other (Ne.symm hq')]

/-- **A packet of the connection arrives.** -/
theorem Host.network (h : Host port home log s) (hport : port ≠ 0) (hsaid : p.Says g)
    (hsyn : g = .syn → home ≠ port) (hs : s.processNetworkPacket env p = .ok (s', out)) :
    Host port home log s' ∧ Effect port home log s s' (some g) log out := by
  obtain ⟨x, y, thdr, -, -, hthdr, ⟨hxcmp, -⟩ | ⟨-, s₁, o₁, v, o₂, h₁, h₂, rfl⟩⟩ :=
    processNetworkPacket_eq_ok hs
  · rw [hsaid.nxt] at hxcmp
    exact absurd hxcmp (by decide)
  cases g with
  | syn =>
    rw [Packet.HasHeader.extHeader hsaid, Except.ok.injEq] at hthdr
    subst hthdr
    exact h.syn (hsyn rfl) hsaid.nxt h₁ h₂
  | synack =>
    rw [Packet.HasHeader.extHeader hsaid, Except.ok.injEq] at hthdr
    subst hthdr
    exact h.synack hsaid.nxt h₁ h₂
  | data n payload =>
    obtain ⟨a, hp⟩ := hsaid
    rw [hp.hasHeader.extHeader, Except.ok.injEq] at hthdr
    subst hthdr
    exact h.data hport hp h₁ h₂
  | ack n =>
    rw [Packet.HasHeader.extHeader hsaid, Except.ok.injEq] at hthdr
    subst hthdr
    exact h.ack h₁ h₂

/-! ### Accepting -/

/-- `Xaccept`, before there is a connected socket: it makes one if a connection is pending. -/
theorem Host.xaccept (h : Host port home log s) (hport : port ≠ 0)
    (hnone : s.counters port = none) (hs : s.xaccept port = .ok (s', out)) :
    Host port home log s' ∧ netPackets out = [] ∧ payloadsTo port out = [] ∧
      s'.counters port = if s.pendingConnectionBuf.isEmpty then none else some (0, 0) := by
  have hlookup : s.portToDagInfo.lookup port = none := map_eq_none_iff.1 hnone
  have hlog := h.absent hlookup
  cases hbuf : s.pendingConnectionBuf with
  | nil =>
    obtain ⟨hun, hdemux, rfl, hnames⟩ := xaccept_nil hs hbuf
    refine ⟨⟨?_, ?_, ?_, ?_, hun.noDagInfo ▸ h.template, ?_, fun _ => hlog, ?_⟩, rfl, ?_, ?_⟩
    · exact fun pair q hpair => h.pairs pair q (hdemux.xidPairToPort ▸ hpair)
    · exact fun x q hx => h.names x q (hnames ▸ hx)
    · rw [hdemux.portToActive, h.inactive]
    · exact fun q d hd => h.others q d (hun.portToDagInfo ▸ hd)
    · exact fun d hd => h.socket d (hun.portToDagInfo ▸ hd)
    · exact fun d hd => h.pending d (hdemux.pendingConnectionBuf ▸ hd)
    · simp [payloadsTo, apiMsgs]
    · rw [counters, hun.portToDagInfo, hlookup]
      rfl
  | cons d rest =>
    obtain ⟨x, y, dag, -, -, ht, hpairs, hactive, hpending, rfl, -, hnames⟩ :=
      xaccept_cons hs hbuf
    obtain ⟨junk, p, rfl⟩ := h.pending d (by rw [hbuf]; exact mem_cons_self)
    refine ⟨h.touched ht (fun pair q hpair => ?_) hnames ?_ (fun d hd => ?_) ?_, rfl, ?_, ?_⟩
    · rw [hpairs] at hpair
      exact (eq_or_lookup_of_insert hpair).elim id (h.pairs pair q)
    · rw [hactive, lookup_insert_eq, if_neg (Ne.symm hport), h.inactive]
    · rw [hpending] at hd
      rw [hbuf]
      exact mem_cons_of_mem _ hd
    · -- a pending connection has an empty ring and has sent nothing
      subst hlog
      exact ⟨rfl, rfl, rfl, rfl, fun hno => (by cases hno), rfl, rfl, fun k p hp => (by cases hp)⟩
    · simp [payloadsTo, apiMsgs]
    · rw [counters_of_lookup ht.self]
      rfl

/-! ### Before the connection -/

/-- A host that has opened one socket, on port `q`, and has perhaps bound it. -/
structure Opened (q : UInt16) (s : XTransport) : Prop where
  pairs : ∀ pair, s.xidPairToPort.lookup pair = none
  names : ∀ x q', s.xidToPort.lookup x = some q' → q' = q
  inactive : s.portToActive.lookup 0 = none
  present : (s.portToDagInfo.lookup q).isSome
  sockets : ∀ q' d, s.portToDagInfo.lookup q' = some d →
    q' = q ∧ d.Calm ∧ d.teardownWaiting = false ∧ ∀ k, d.sentPkt k = none
  template : s.noDagInfo.Calm
  pending : s.pendingConnectionBuf = []

theorem xbind_names {sdag : Text} (h : s.xbind q sdag = .ok (s', out)) {x : Xid} {q' : UInt16}
    (hx : s'.xidToPort.lookup x = some q') : q' = q ∨ s.xidToPort.lookup x = some q' := by
  simp only [XTransport.xbind, Result.bind_eq_ok] at h
  obtain ⟨d, -, ⟨d', x?⟩, -, h⟩ := h
  cases x? with
  | none =>
    cases h
    exact .inr hx
  | some y =>
    cases h
    exact eq_or_lookup_of_insert hx

theorem xconnect_names {ddag : Text} (h : s.xconnect env q ddag = .ok (s', out)) {x : Xid}
    {q' : UInt16} (hx : s'.xidToPort.lookup x = some q') :
    q' = q ∨ s.xidToPort.lookup x = some q' := by
  simp only [XTransport.xconnect, Result.bind_eq_ok] at h
  obtain ⟨d₁, -, y, -, z, -, ⟨d₂, p⟩, -, h⟩ := h
  cases h
  exact eq_or_lookup_of_insert hx

theorem opened_xsocket {junk : DagInfo} {t : Int} (hq : q ≠ 0)
    (h : (init localAddr junk).xsocket env q t = .ok (s', out)) :
    Opened q s' ∧ netPackets out = [] := by
  obtain ⟨ht, hpairs, hactive, hpending, rfl⟩ := xsocket_eq_ok h
  have hnames : s'.xidToPort = (init localAddr junk).xidToPort := by
    cases h
    rfl
  refine ⟨⟨fun pair => ?_, fun x q' hx => ?_, ?_, ?_, fun q' d hd => ?_, ?_, hpending⟩, rfl⟩
  · rw [hpairs]
    rfl
  · rw [hnames] at hx
    cases hx
  · rw [hactive, lookup_insert_eq, if_neg (Ne.symm hq)]
    rfl
  · rw [ht.self]
    rfl
  · rw [ht.lookup] at hd
    split at hd
    · rename_i heq
      cases hd
      exact ⟨heq, ⟨rfl, rfl⟩, rfl, fun _ => rfl⟩
    · cases hd
  · rw [ht.noDagInfo]
    exact ⟨rfl, rfl⟩

theorem Opened.xbind {sdag : Text} (h : Opened q s) (hs : s.xbind q sdag = .ok (s', out)) :
    Opened q s' ∧ netPackets out = [] := by
  obtain ⟨d, d', x, hd, hbind, ht, hdemux, rc, ec, rfl⟩ := xbind_eq_ok hs
  obtain ⟨path, c, i, t, b, rfl⟩ := bindSocket_eq_ok hbind
  obtain ⟨-, hcalm, htear, hring⟩ := h.sockets q d hd
  refine ⟨⟨fun pair => ?_, fun x q' hx => ?_, ?_, ?_, fun q' d' hd' => ?_,
    ht.noDagInfo ▸ h.template, ?_⟩, rfl⟩
  · rw [hdemux.xidPairToPort, h.pairs]
  · exact (xbind_names hs hx).elim id (h.names x q')
  · rw [hdemux.portToActive, h.inactive]
  · rw [ht.self]
    rfl
  · rw [ht.lookup] at hd'
    split at hd'
    · rename_i heq
      cases hd'
      exact ⟨heq, ⟨hcalm.timerOn, hcalm.xidToTimerOn⟩, htear, hring⟩
    · exact h.sockets q' d' hd'
  · rw [hdemux.pendingConnectionBuf, h.pending]

theorem Opened.xbinds {binds : List (Env × Text)} (h : Opened q s)
    (hs : Machine.run (step sha1) s (binds.map fun b => ⟨b.1, .xbind q b.2⟩) = .ok (s', out)) :
    Opened q s' ∧ netPackets out = [] := by
  induction binds generalizing s out with
  | nil =>
    cases hs
    exact ⟨h, rfl⟩
  | cons b binds ih =>
    obtain ⟨s₁, o₁, o₂, h₁, h₂, rfl⟩ := Machine.run_cons_eq_ok.1 hs
    obtain ⟨hopened, hout⟩ := h.xbind h₁
    obtain ⟨hopened', hout'⟩ := ih hopened h₂
    exact ⟨hopened', by rw [netPackets_append, hout, hout', append_nil]⟩

/-- `Xconnect` makes the socket the connected one of the client, and sends a SYN. -/
theorem Opened.xconnect {ddag : Text} (h : Opened q s)
    (hs : s.xconnect env q ddag = .ok (s', out)) :
    Host q q [] s' ∧ s'.counters q = some (0, 0) ∧ ∃ p, netPackets out = [p] ∧ p.Says .syn := by
  obtain ⟨d, path, path', dst, x, y, copy, p, hd, -, -, -, -, hp, hcopy, ht, hpairs, hactive,
    hpending, rfl⟩ := xconnect_eq_ok hs
  obtain ⟨d₀, hd₀⟩ := isSome_iff_exists.1 h.present
  rw [hd₀, getD_some] at hd
  subst hd
  obtain ⟨-, hcalm, htear, hring⟩ := h.sockets q d hd₀
  refine ⟨⟨fun pair q' hpair => ?_, fun x q' hx => ?_, ?_, fun q' d' hd' hne => ?_,
    ht.noDagInfo ▸ h.template, fun d' hd' => ?_, fun hnone => ?_, fun d' hd' => ?_⟩, ?_, p, rfl, hp⟩
  · rw [hpairs] at hpair
    rcases eq_or_lookup_of_insert hpair with heq | hold
    · exact heq
    · rw [h.pairs] at hold
      cases hold
  · exact (xconnect_names hs hx).elim id (h.names x q')
  · rw [hactive, h.inactive]
  · rw [ht.other hne] at hd'
    exact absurd (h.sockets q' d' hd').1 hne
  · -- the counters start at 0 and nothing is stored but the SYN
    rw [ht.self, Option.some.injEq] at hd'
    subst hd'
    refine ⟨rfl, rfl, htear, hcalm.xidToTimerOn, fun _ => ⟨rfl, fun p hp => ?_⟩, rfl, rfl,
      fun k p hp => ?_⟩
    · cases hp
      exact hcopy
    · have hk : d.sentPkt k = some p := hp
      rw [hring k] at hk
      cases hk
  · rw [ht.self] at hnone
  · rw [hpending, h.pending] at hd'
    cases hd'
  · rw [counters_of_lookup ht.self]

theorem Opened.host (h : Opened home s) (hne : port ≠ home) :
    Host port home [] s ∧ s.counters port = none := by
  have hnone : s.portToDagInfo.lookup port = none := by
    cases hd : s.portToDagInfo.lookup port with
    | none => rfl
    | some d => exact absurd (h.sockets port d hd).1 hne
  refine ⟨⟨fun pair q hpair => ?_, h.names, h.inactive, fun q d hd _ => (h.sockets q d hd).2.1,
    h.template, fun d hd => ?_, fun _ => rfl, fun d hd => ?_⟩, by rw [counters, hnone]; rfl⟩
  · rw [h.pairs] at hpair
    cases hpair
  · rw [hnone] at hd
    cases hd
  · rw [h.pending] at hd
    cases hd

end XTransport

end Xia
