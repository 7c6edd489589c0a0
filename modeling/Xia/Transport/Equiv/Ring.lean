import Xia.Transport.Equiv.Stream

/-!
# The ring of stored packets

A sender stores its packets in a ring of `MAX_WIN_SIZE` slots, the packet with sequence number `n`
in slot `n % MAX_WIN_SIZE`.  `Xsend` does not look at how many packets are outstanding, and an ACK
moves `base` to the number that it carries, also back.

`unacked_held_iff`: every unacknowledged packet stays in the ring exactly as long as no `Xsend`
meets a full window and no ACK walks over the slot of an unacknowledged packet.
`ack_forward_iff`: when a single ACK moves `base` forward and clears acknowledged packets only.
-/

namespace Xia

open Option Function
open Machine (last run withGhost)
open DagInfo (clearAcked clearAcked_eq_ok slotOf stream toInt)

/-! ### Sequence numbers of packets -/

def Packet.seqNum (p : Packet) : Option UInt32 :=
  (p.extHeader >>= TransportHeader.seqNum).toOption

theorem Packet.IsData.seqNum_eq {p : Packet} {n : UInt32} (h : p.IsData n) : p.seqNum = some n := by
  obtain ⟨a, h⟩ := h
  rw [Packet.seqNum, h.extHeader, Result.ok_bind, TransportHeader.seqNum_header, Except.toOption]

theorem Packet.IsData.unique {p : Packet} {n m : UInt32} (hn : p.IsData n) (hm : p.IsData m) :
    n = m := by
  rw [← some_inj, ← hn.seqNum_eq, hm.seqNum_eq]

namespace Stream

variable {now h : Nat} {st st' : Stream} {n : UInt32}

def slot (n : Nat) : Fin maxWinSize := Fin.ofNat maxWinSize n

theorem slot_eq_iff {n m : Nat} : slot n = slot m ↔ n % 100 = m % 100 := by
  simp [slot, Fin.ext_iff]

/-- The packet with sequence number `n` is in its slot. -/
def Holds (st : Stream) (n : Nat) : Prop :=
  ∃ p, st.sentPkt (slot n) = some p ∧ p.IsData (UInt32.ofNat n)

/-- Every packet from `h` up to `next_seqnum` is in its slot. -/
def HoldsFrom (h : Nat) (st : Stream) : Prop :=
  ∀ n, h ≤ n → n < st.nextSeqnum.toNat → st.Holds n

def Walks (st : Stream) (ackNum : UInt32) (k : Fin maxWinSize) : Prop :=
  ∃ i, toInt st.base ≤ i ∧ i < toInt ackNum ∧ slotOf i = k

theorem ring_of_clearAcked (st : Stream) {ring : Fin maxWinSize → Option Packet}
    (hring : clearAcked (toInt n - toInt st.base).toNat
      (toInt st.base) st.sentPkt = .ok ring) (k : Fin maxWinSize) :
    (st.Walks n k → ring k = none) ∧ (¬ st.Walks n k → ring k = st.sentPkt k) := by
  have hk := (clearAcked_eq_ok.1 hring).2 k
  have hwalk : (∃ j < (toInt n - toInt st.base).toNat,
      slotOf (toInt st.base + (j : Int)) = k) ↔ st.Walks n k := by
    constructor
    · rintro ⟨j, hj, hs⟩
      exact ⟨_, by omega, by omega, hs⟩
    · rintro ⟨i, hlo, hhi, hs⟩
      refine ⟨(i - toInt st.base).toNat, by omega, ?_⟩
      rw [show toInt st.base + ((i - toInt st.base).toNat : Int) = i by omega]
      exact hs
  exact ⟨fun hw => by rw [hk, if_pos (hwalk.2 hw)],
    fun hw => by rw [hk, if_neg fun hex => hw (hwalk.1 hex)]⟩

/-- What an event has to satisfy so that the unacknowledged packets stay in the ring, when `h` is
the highest ACK so far. -/
def KeepsFrom (h : Nat) (st : Stream) : StreamEvent → Prop
  | .send => st.nextSeqnum.toNat + 1 < 2 ^ 32 → st.nextSeqnum.toNat < h + maxWinSize
  | .ack n => ∀ m, max h n.toNat ≤ m → m < st.nextSeqnum.toNat → ¬ st.Walks n (slot m)
  | _ => True

def highestAck (h : Nat) : StreamEvent → Nat
  | .ack n => max h n.toNat
  | _ => h

/-- `Xsend` overwrites the slot of an unacknowledged packet exactly if the window is full. -/
theorem holdsFrom_send_iff {copy : Packet} (hseq : st.seqNum = st.nextSeqnum)
    (hcopy : copy.IsData st.nextSeqnum) (hst : st.HoldsFrom h)
    (hring : st'.sentPkt = Function.update st.sentPkt (slot st.seqNum.toNat) (some copy))
    (hnext : st'.nextSeqnum = st.nextSeqnum + 1) :
    st'.HoldsFrom h ↔ st.KeepsFrom h .send := by
  have hlt : st.nextSeqnum.toNat < 2 ^ 32 := st.nextSeqnum.toNat_lt
  have hwin : maxWinSize = 100 := rfl
  rw [hseq] at hring
  simp only [HoldsFrom, KeepsFrom, hnext, UInt32.toNat_add, UInt32.toNat_one]
  by_cases hwrap : st.nextSeqnum.toNat + 1 < 2 ^ 32
  · rw [Nat.mod_eq_of_lt hwrap]
    constructor
    · intro hall _
      by_contra hfull
      -- the packet that is a whole window older had the slot before
      obtain ⟨p, hp, hdata⟩ := hall (st.nextSeqnum.toNat - maxWinSize) (by omega) (by omega)
      have hslot : slot (st.nextSeqnum.toNat - maxWinSize) = slot st.nextSeqnum.toNat := by
        rw [slot_eq_iff]
        omega
      rw [hring, hslot, update_self, some_inj] at hp
      subst hp
      have heq := congrArg UInt32.toNat (hdata.unique hcopy)
      rw [UInt32.toNat_ofNat_of_lt' (by simp only [UInt32.size]; omega)] at heq
      omega
    · intro hfree m hlo hhi
      by_cases heq : m = st.nextSeqnum.toNat
      · subst heq
        refine ⟨copy, by rw [hring, update_self], ?_⟩
        rwa [UInt32.ofNat_toNat]
      · obtain ⟨p, hp, hdata⟩ := hst m hlo (by omega)
        refine ⟨p, ?_, hdata⟩
        rw [hring, update_of_ne, hp]
        rw [Ne, slot_eq_iff]
        have := hfree hwrap
        omega
  · -- the counter wraps to zero, and no packet counts as outstanding
    have hlast : st.nextSeqnum.toNat + 1 = 2 ^ 32 := by omega
    have hzero : (st.nextSeqnum.toNat + 1) % 2 ^ 32 = 0 := by
      rw [hlast, Nat.mod_self]
    rw [hzero]
    exact ⟨fun _ hno => absurd hno hwrap, fun _ m _ hm => absurd hm (by omega)⟩

/-- An ACK keeps the unacknowledged packets exactly if it does not walk over their slots. -/
theorem holdsFrom_ack_iff {ring : Fin maxWinSize → Option Packet} (hst : st.HoldsFrom h)
    (hring : clearAcked (toInt n - toInt st.base).toNat (toInt st.base) st.sentPkt = .ok ring) :
    (st.acked now n ring).HoldsFrom (max h n.toNat) ↔ st.KeepsFrom h (.ack n) := by
  constructor
  · intro hall m hlo hhi hwalk
    obtain ⟨p, hp, -⟩ := hall m hlo hhi
    have hnone : ring (slot m) = none := (ring_of_clearAcked st hring _).1 hwalk
    rw [show (st.acked now n ring).sentPkt = ring from rfl, hnone] at hp
    cases hp
  · intro hkeep m hlo hhi
    obtain ⟨p, hp, hdata⟩ := hst m (le_trans (le_max_left _ _) hlo) hhi
    have hsame : ring (slot m) = st.sentPkt (slot m) :=
      (ring_of_clearAcked st hring _).2 (hkeep m hlo hhi)
    exact ⟨p, hsame.trans hp, hdata⟩

theorem Step.holdsFrom_iff {e : StreamEvent} (hstep : Step now e st (some st'))
    (hopened : e ≠ .opened) (hconnect : e ≠ .connect) (haccepted : e ≠ .accepted)
    (hseq : st.seqNum = st.nextSeqnum) (hst : st.HoldsFrom h) :
    st'.seqNum = st'.nextSeqnum ∧ (st'.HoldsFrom (highestAck h e) ↔ st.KeepsFrom h e) := by
  cases hstep with
  | opened => exact absurd rfl hopened
  | connect => exact absurd rfl hconnect
  | accepted => exact absurd rfl haccepted
  | send _ copy hcopy =>
    exact ⟨by simp [hseq], holdsFrom_send_iff hseq hcopy hst rfl rfl⟩
  | ack _ n ring hring => exact ⟨hseq, holdsFrom_ack_iff hst hring⟩
  | timer _ st' htick =>
    cases htick <;> exact ⟨hseq, iff_of_true hst trivial⟩
  | other => exact ⟨hseq, iff_of_true hst trivial⟩
  | close => exact ⟨hseq, iff_of_true hst trivial⟩
  | synack => exact ⟨hseq, iff_of_true hst trivial⟩
  | data => exact ⟨hseq, iff_of_true hst trivial⟩

end Stream

namespace XTransport

variable {sha1 : Sha1} {env : Env} {s s' : XTransport} {port : UInt16} {out : List Output}

/-! ### Runs of a connection -/

/-- `Xsend`, an ACK or the timer. -/
def isTransfer : Event → Bool
  | .xsend _ _ | .timer => true
  | .network p => isAck p
  | _ => false

/-- Every packet from the highest ACK up to `next_seqnum` is in the ring of the socket. -/
def UnackedHeld (port : UInt16) : XTransport × Nat → Prop
  | (s, h) => ∀ d, s.portToDagInfo.lookup port = some d → d.stream.HoldsFrom h

/-- The event meets a window that is not full, or walks over no unacknowledged packet. -/
def RingSafe (port : UInt16) : XTransport × Nat → Input → Prop
  | (s, h), i => ∀ d, s.portToDagInfo.lookup port = some d →
      d.stream.KeepsFrom h (s.streamEvent port i.event)

/-- The highest ACK that the socket has received, as a record of the run. -/
def recordAck (port : UInt16) (s : XTransport) (i : Input) (_ : XTransport) (h : Nat) : Nat :=
  Stream.highestAck h (s.streamEvent port i.event)

theorem ack_eq_ok {p : Packet} (hack : isAck p = true)
    (h : s.processNetworkPacket env p = .ok (s', out)) :
    (s' = s ∧ out = []) ∨ ∃ q d d' t, s.portToDagInfo.lookup q = some d ∧
      s' = { s with timer := t }.setDagInfo q d' ∧ out = [] := by
  obtain ⟨x, y, thdr, hx, hy, hthdr, ⟨hxcmp, -⟩ | ⟨hnxt, s₁, o₁, v, o₂, hdisp, hdel, rfl⟩⟩ :=
    processNetworkPacket_eq_ok h
  · simp [isAck, isKind, packetKey_eq_some hx hy hthdr, hxcmp] at hack
  · have hkind : IsStream thdr TransportHeader.ack :=
      (isKind_iff (packetKey_eq_some hx hy hthdr) hnxt).1 hack
    cases hdisp with
    | ack d d' reset t _ _ hd =>
      obtain ⟨rfl, rfl⟩ := hdel.eq_of_not_sent rfl
      exact .inr ⟨_, d, d', t, hd, rfl, rfl⟩
    | inactive =>
      obtain ⟨rfl, rfl⟩ := hdel.eq_of_not_sent rfl
      exact .inl ⟨rfl, rfl⟩
    | syn q hk => exact absurd (hk.unique hkind) (by decide)
    | synack d hk => exact absurd (hk.unique hkind) (by decide)
    | data d q hk => exact absurd (hk.unique hkind) (by decide)
    | other send _ _ _ hno => exact absurd hkind hno

theorem lookup_none_of_isTransfer {e : Event} (he : isTransfer e = true)
    (h : s.handle sha1 env e = .ok (s', out)) (hnone : s.portToDagInfo.lookup port = none) :
    s'.portToDagInfo.lookup port = none := by
  cases e with
  | xsend q payload =>
    rcases xsend_eq_ok h with ⟨rfl, -⟩ | ⟨d, d', p, hd, -, -, ht, -⟩
    · exact hnone
    · rw [ht.other (by rintro rfl; rw [hnone] at hd; cases hd), hnone]
  | network p =>
    rcases ack_eq_ok he h with ⟨rfl, -⟩ | ⟨q, d, d', t, hd, rfl, -⟩
    · exact hnone
    · rw [lookup_setDagInfo, if_neg (by rintro rfl; rw [hnone] at hd; cases hd)]
      exact hnone
  | timer => exact runTimer_none h hnone
  | _ => cases he

theorem streamEvent_of_isTransfer (s : XTransport) (port : UInt16) {e : Event}
    (he : isTransfer e = true) :
    s.streamEvent port e ≠ .opened ∧ s.streamEvent port e ≠ .connect ∧
      s.streamEvent port e ≠ .accepted := by
  cases e with
  | xsend q payload =>
    rw [streamEvent]
    split <;> simp
  | network p =>
    rw [streamEvent]
    rcases s.packetEvent_cases port p with h | h | ⟨n, h⟩ | ⟨n, h⟩ <;> simp [h]
  | timer => simp [streamEvent]
  | _ => cases he

theorem unackedHeld_step {i : Input} {h : Nat} (he : isTransfer i.event = true) (hclean : Clean s)
    (hseq : ∀ d, s.portToDagInfo.lookup port = some d → d.seqNum = d.nextSeqnum)
    (hheld : UnackedHeld port (s, h)) (hs : step sha1 s i = .ok (s', out)) :
    (∀ d, s'.portToDagInfo.lookup port = some d → d.seqNum = d.nextSeqnum) ∧
      (UnackedHeld port (s', recordAck port s i s' h) ↔ RingSafe port (s, h) i) := by
  cases hd : s.portToDagInfo.lookup port with
  | none =>
    have hnone := lookup_none_of_isTransfer he hs hd
    refine ⟨?_, iff_of_true ?_ ?_⟩
    · intro d hd'
      rw [hnone] at hd'
      cases hd'
    · intro d hd'
      rw [hnone] at hd'
      cases hd'
    · intro d hd'
      rw [hd] at hd'
      cases hd'
  | some d =>
    have hstep := stream_step hclean hs hd
    have hsafe : RingSafe port (s, h) i ↔ d.stream.KeepsFrom h (s.streamEvent port i.event) := by
      simp [RingSafe, hd]
    rw [hsafe]
    cases hd' : s'.portToDagInfo.lookup port with
    | none =>
      -- the timer has removed the socket
      rw [hd', map_none] at hstep
      have htimer : s.streamEvent port i.event = .timer := by simpa using hstep.isSome_of_ne_timer
      refine ⟨fun d' h' => (by cases h'), iff_of_true ?_ ?_⟩
      · intro d' h'
        rw [hd'] at h'
        cases h'
      · rw [htimer]
        trivial
    | some d' =>
      rw [hd', map_some] at hstep
      obtain ⟨ho, hc, ha⟩ := streamEvent_of_isTransfer s port he
      obtain ⟨hseq', hiff⟩ := hstep.holdsFrom_iff ho hc ha (hseq d hd) (hheld d hd)
      have hheld' : UnackedHeld port (s', recordAck port s i s' h) ↔
          d'.stream.HoldsFrom (Stream.highestAck h (s.streamEvent port i.event)) := by
        simp [UnackedHeld, hd', recordAck]
      refine ⟨fun d'' h' => ?_, hheld'.trans hiff⟩
      cases h'
      exact hseq'

theorem nothing_sent {i : Input} (hs : step sha1 s i = .ok (s', out))
    (hopen : s.streamEvent port i.event = .connect ∨ s.streamEvent port i.event = .accepted) :
    ∀ d, s'.portToDagInfo.lookup port = some d → d.seqNum = 0 ∧ d.nextSeqnum = 0 := by
  obtain ⟨env, e⟩ := i
  intro d hd
  cases e with
  | xconnect q ddag =>
    obtain rfl : q = port := by
      by_contra hne
      simp [streamEvent, hne] at hopen
    obtain ⟨d₀, path, path', dst, x, y, copy, p, -, -, -, -, -, -, -, ht, -⟩ := xconnect_eq_ok hs
    rw [ht.self] at hd
    cases hd
    exact ⟨rfl, rfl⟩
  | xaccept q =>
    obtain ⟨rfl, hne⟩ : q = port ∧ s.pendingConnectionBuf ≠ [] := by
      by_contra hno
      simp [streamEvent, hno] at hopen
    obtain ⟨pending, rest, hcons⟩ := List.exists_cons_of_ne_nil hne
    obtain ⟨x, y, dag, -, -, ht, -⟩ := xaccept_cons hs hcons
    rw [ht.self] at hd
    cases hd
    exact ⟨rfl, rfl⟩
  | network p =>
    rw [streamEvent] at hopen
    rcases s.packetEvent_cases port p with h | h | ⟨n, h⟩ | ⟨n, h⟩ <;> simp [h] at hopen
  -- no other event connects or accepts
  | xsocket q t => exact absurd hopen (by rw [streamEvent]; split <;> simp)
  | xclose q => exact absurd hopen (by rw [streamEvent]; split <;> simp)
  | xsend q payload => exact absurd hopen (by rw [streamEvent]; split <;> simp)
  | _ => simp [streamEvent] at hopen

/-- **No unacknowledged packet is lost**: after `port` was connected or accepted, in a run of
`Xsend` calls, ACKs and timer ticks, every packet from the highest ACK up to `next_seqnum` stays in
the ring in every state, exactly if no `Xsend` meets `MAX_WIN_SIZE` unacknowledged packets and no
ACK walks over the slot of one. -/
theorem unacked_held_iff {s₀ : XTransport} {i₀ : Input} {is : List Input}
    (hreach : Reachable sha1 s₀) (h₀ : step sha1 s₀ i₀ = .ok (s, out))
    (hopen : s₀.streamEvent port i₀.event = .connect ∨ s₀.streamEvent port i₀.event = .accepted)
    (his : ∀ i ∈ is, isTransfer i.event = true) :
    Machine.AllStates (withGhost (step sha1) (recordAck port)) (UnackedHeld port) (s, 0) is ↔
      Machine.AllSteps (withGhost (step sha1) (recordAck port)) (RingSafe port) (s, 0) is := by
  have hzero := nothing_sent h₀ hopen
  have hclean₀ : Clean s := clean_step hreach.clean h₀
  refine Machine.allStates_iff_allSteps (I := fun sg => Clean sg.1 ∧
      ∀ d, sg.1.portToDagInfo.lookup port = some d → d.seqNum = d.nextSeqnum)
    (E := fun i => isTransfer i.event = true) ?_ his
    ⟨hclean₀, fun d hd => by rw [(hzero d hd).1, (hzero d hd).2]⟩ ?_
  -- one step
  · rintro ⟨s, h⟩ i ⟨s', h'⟩ out he ⟨hclean, hseq⟩ hheld hs
    obtain ⟨hs₁, rfl⟩ := Machine.withGhost_eq_ok.1 hs
    obtain ⟨hseq', hiff⟩ := unackedHeld_step he hclean hseq hheld hs₁
    exact ⟨⟨clean_step hclean hs₁, hseq'⟩, hiff⟩
  -- at the start no packet is outstanding
  · intro d hd n _ hn
    have hnext : d.stream.nextSeqnum = 0 := (hzero d hd).2
    rw [hnext] at hn
    exact absurd hn (by simp)

/-- A connection that sends one packet and retransmits it. -/
theorem unacked_held_one_send : ∃ s out,
    step Sha1.zero (last (step Sha1.zero) host [⟨.zero 0, .xsocket 1 1⟩]) connectCall =
      .ok (s, out) ∧
    Machine.AllStates (withGhost (step Sha1.zero) (recordAck 1)) (UnackedHeld 1) (s, 0)
      [⟨.zero 0, .xsend 1 [1, 2, 3]⟩, ⟨.zero 300, .timer⟩] := by
  obtain ⟨o, hrun⟩ := Machine.run_last (step Sha1.zero) host [⟨.zero 0, .xsocket 1 1⟩]
    (by decide +kernel)
  obtain ⟨s, out, h₀, -⟩ : ∃ s out,
      step Sha1.zero (last (step Sha1.zero) host [⟨.zero 0, .xsocket 1 1⟩]) connectCall =
        .ok (s, out) ∧ True := by decide +kernel
  refine ⟨s, out, h₀, (unacked_held_iff ⟨_, _, _, _, hrun⟩ h₀ (.inl rfl) (by decide)).2 ?_⟩
  refine fun s₁ o₁ _ => ⟨fun d hd => ?_, fun s₂ o₂ _ => ⟨fun d hd => trivial, trivial⟩⟩
  have hnext : d.stream.nextSeqnum = 0 := (nothing_sent h₀ (.inl rfl) d hd).2
  rw [streamEvent]
  split
  · intro _
    rw [hnext]
    decide
  · trivial

/-- With 101 packets outstanding the first one is gone: its slot holds the packet 100. -/
theorem not_unackedHeld_after_101_sends : ∃ s out,
    run (withGhost (step Sha1.zero) (recordAck 1)) (host, 0)
      (⟨.zero 0, .xsocket 1 1⟩ :: connectCall :: List.replicate 101 ⟨.zero 0, .xsend 1 [1]⟩) =
        .ok ((s, 0), out) ∧ ¬ UnackedHeld 1 (s, 0) := by
  obtain ⟨s, _, out, hrun, rfl, d, hd, hnext, hslot⟩ : ∃ s h out,
      run (withGhost (step Sha1.zero) (recordAck 1)) (host, 0)
        (⟨.zero 0, .xsocket 1 1⟩ :: connectCall :: List.replicate 101 ⟨.zero 0, .xsend 1 [1]⟩) =
          .ok ((s, h), out) ∧ h = 0 ∧ ∃ d, s.portToDagInfo.lookup 1 = some d ∧
        d.nextSeqnum = 101 ∧ (d.sentPkt 0).bind Packet.seqNum = some 100 := by decide +kernel
  refine ⟨s, out, hrun, fun hheld => ?_⟩
  obtain ⟨p, hp, hdata⟩ := hheld d hd 0 le_rfl (by
    rw [show d.stream.nextSeqnum = 101 from hnext]
    decide)
  have hp : d.sentPkt 0 = some p := hp
  rw [hp, bind_some, hdata.seqNum_eq] at hslot
  exact absurd hslot (by decide)

/-! ### One acknowledgement -/

theorem packetEvent_eq_ack {p : Packet} {n : UInt32} (h : s.packetEvent port p = .ack n) :
    ∃ pair thdr, packetKey p = some (pair, thdr) ∧ p.nxt ≠ nxtXcmp ∧
      IsStream thdr TransportHeader.ack ∧ s.pairPort pair = port ∧ s.IsActive port ∧
      TransportHeader.ackNum thdr = .ok n := by
  rw [packetEvent] at h
  split at h
  · cases h
  · rename_i pair thdr hkey
    split_ifs at h with hno hsynack hactive hdata hack
    · cases hn : (TransportHeader.seqNum thdr).toOption <;> simp [hn] at h
    · rw [not_or, not_or, not_not, not_not] at hno
      cases hn : TransportHeader.ackNum thdr with
      | error f => simp [hn, Except.toOption] at h
      | ok m =>
        rw [hn] at h
        cases h
        exact ⟨pair, thdr, hkey, hno.1, ⟨hno.2.1, hack⟩, hno.2.2, hactive, hn⟩

/-- An ACK is processed whenever its loop stays inside the array. -/
theorem processNetworkPacket_ack_isOk (env : Env) {p : Packet} {n : UInt32} {d : DagInfo}
    {ring : Fin maxWinSize → Option Packet} (h : s.packetEvent port p = .ack n)
    (hd : s.portToDagInfo.lookup port = some d)
    (hring : clearAcked (toInt n - toInt d.base).toNat (toInt d.base) d.sentPkt = .ok ring) :
    ∃ s' out, s.processNetworkPacket env p = .ok (s', out) := by
  obtain ⟨pair, thdr, hkey, hnxt, ⟨htype, hinfo⟩, hport, hactive, hn⟩ := packetEvent_eq_ack h
  obtain ⟨hx, hy, hthdr⟩ := of_packetKey_eq_some hkey
  -- the loop is the only part that can fault
  obtain ⟨d', reset, hack⟩ : ∃ d' reset, d.receiveAck env.now p.srcPath n = .ok (d', reset) := by
    simp only [DagInfo.receiveAck, Result.bind_eq_ok, hring, Except.ok.injEq, exists_eq_left']
    split_ifs <;> exact ⟨_, _, rfl⟩
  subst hport
  have hactive : (s.portToActive.lookup (s.xidPairToPort.get 0 pair)).isSome = true := hactive
  have hd : s.portToDagInfo.lookup (s.xidPairToPort.get 0 pair) = some d := hd
  have hdisp : ∃ s' v, s.dispatch env p pair thdr = .ok (s', [], v) ∧
      v.sendToApplication = false := by
    simp only [dispatch, htype, hinfo, Result.ok_bind]
    rw [if_pos trivial, if_neg (by decide), if_neg (by decide), if_neg (by decide), if_pos trivial]
    simp only [receiveAck, hactive, if_true, hd, hn, deref_some, Result.bind_eq_ok,
      Except.ok.injEq, exists_eq_left', hack]
    exact ⟨_, _, rfl, rfl⟩
  obtain ⟨s', v, hdisp, hv⟩ := hdisp
  refine ⟨s', [], ?_⟩
  simp only [processNetworkPacket, hx, hy, hthdr, Result.bind_eq_ok, Except.ok.injEq,
    exists_eq_left', if_neg hnxt, hdisp]
  exact ⟨(s', []), by rw [deliver, if_neg (by simp [hv])]; rfl, rfl⟩

/-- The packet is processed, `base` does not move back, and only packets with a sequence number
below `n` leave the ring. -/
def AckForward (env : Env) (s : XTransport) (port : UInt16) (p : Packet) (n : UInt32) : Prop :=
  ∃ d s' out d', s.portToDagInfo.lookup port = some d ∧
    s.processNetworkPacket env p = .ok (s', out) ∧ s'.portToDagInfo.lookup port = some d' ∧
    d.base ≤ d'.base ∧ ∀ k q, d.sentPkt k = some q → d'.sentPkt k = none →
      ∃ m, q.seqNum = some m ∧ m < n

/-- **When an ACK only moves forward**: its number is not below `base`, and its loop stays inside
the array and meets no packet with a sequence number from `n` on. -/
theorem ack_forward_iff {p : Packet} {n : UInt32} {d : DagInfo}
    (hp : s.packetEvent port p = .ack n) (hd : s.portToDagInfo.lookup port = some d) :
    AckForward env s port p n ↔ d.base ≤ n ∧ ∀ i, toInt d.base ≤ i → i < toInt n →
        0 ≤ i.tmod maxWinSize ∧
          ∀ q, d.sentPkt (slotOf i) = some q → ∃ m, q.seqNum = some m ∧ m < n := by
  -- what a processed ACK does to the socket
  have hdone : ∀ s' out, s.processNetworkPacket env p = .ok (s', out) →
      ∃ d' ring, s'.portToDagInfo.lookup port = some d' ∧ d'.base = n ∧ d'.sentPkt = ring ∧
        clearAcked (toInt n - toInt d.base).toNat (toInt d.base) d.sentPkt = .ok ring := by
    intro s' out h
    have hstep := stream_network h hd
    rw [hp] at hstep
    generalize hd' : (s'.portToDagInfo.lookup port).map stream = st' at hstep
    cases hstep with
    | ack _ _ ring hring =>
      obtain ⟨d', hd', heq⟩ := map_eq_some_iff.1 hd'
      exact ⟨d', ring, hd', congrArg Stream.base heq, congrArg Stream.sentPkt heq, hring⟩
  constructor
  · rintro ⟨d₀, s', out, d', hd₀, hok, hd', hbase, hclear⟩
    rw [hd] at hd₀
    cases hd₀
    obtain ⟨d₁, ring, hd₁, rfl, rfl, hring⟩ := hdone s' out hok
    rw [hd'] at hd₁
    cases hd₁
    refine ⟨hbase, fun i hlo hhi => ⟨?_, fun q hq => ?_⟩⟩
    · have hbound := (clearAcked_eq_ok.1 hring).1 (i - toInt d.base).toNat (by omega)
      rwa [show toInt d.base + ((i - toInt d.base).toNat : Int) = i by omega] at hbound
    · exact hclear _ q hq ((Stream.ring_of_clearAcked d.stream hring _).1 ⟨i, hlo, hhi, rfl⟩)
  · rintro ⟨hbase, hwalk⟩
    have hring : ∃ ring, clearAcked (toInt n - toInt d.base).toNat
        (toInt d.base) d.sentPkt = .ok ring :=
      ⟨_, clearAcked_eq_ok.2 ⟨fun k hk => (hwalk _ (by omega) (by omega)).1, fun _ => rfl⟩⟩
    obtain ⟨ring, hring⟩ := hring
    obtain ⟨s', out, hok⟩ := processNetworkPacket_ack_isOk env hp hd hring
    obtain ⟨d', ring', hd', rfl, rfl, hring'⟩ := hdone s' out hok
    refine ⟨d, s', out, d', hd, hok, hd', hbase, fun k q hq hnone => ?_⟩
    -- a slot that the loop does not visit keeps its packet
    by_contra hno
    have hkeep := (Stream.ring_of_clearAcked d.stream hring' k).2 fun ⟨i, hlo, hhi, hk⟩ =>
      hno ((hwalk i hlo hhi).2 q (by rw [hk, hq]))
    rw [hnone] at hkeep
    exact absurd (hkeep.trans hq) (by simp)

/-- The first of the two ACKs, in order. -/
theorem ack_forward_in_order : ∃ p, answersToTwoSends[1]? = some p ∧
    AckForward (.zero 0) (last (step Sha1.zero) host twoSends) 1 p 1 := by
  have hp : answersToTwoSends[1]?.map
      ((last (step Sha1.zero) host twoSends).packetEvent 1) = some (.ack 1) := by
    decide +kernel
  have hd : ((last (step Sha1.zero) host twoSends).portToDagInfo.lookup 1).map
      (fun d => (d.base, (d.sentPkt 0).bind Packet.seqNum)) = some (0, some 0) := by decide +kernel
  obtain ⟨p, hmem, hp⟩ := map_eq_some_iff.1 hp
  obtain ⟨d, hd, heq⟩ := map_eq_some_iff.1 hd
  obtain ⟨hbase, hslot⟩ := Prod.mk.inj heq
  refine ⟨p, hmem, (ack_forward_iff hp hd).2 ⟨by rw [hbase]; decide, fun i hlo hhi => ?_⟩⟩
  obtain rfl : i = 0 := by
    rw [hbase, show toInt 0 = 0 by decide] at hlo
    rw [show toInt 1 = 1 by decide] at hhi
    omega
  refine ⟨by decide, fun q hq => ⟨0, ?_, by decide⟩⟩
  rw [show slotOf 0 = 0 by decide] at hq
  rwa [hq] at hslot

/-- The sender after the second of the two ACKs. -/
def afterLaterAck : XTransport :=
  last (step Sha1.zero) host
    (twoSends ++ answersToTwoSends[2]?.toList.map fun p => ⟨.zero 0, .network p⟩)

/-- The first ACK then moves `base` from 2 back to 1. -/
theorem not_ackForward_stale : ∃ p, answersToTwoSends[1]? = some p ∧
    afterLaterAck.packetEvent 1 p = .ack 1 ∧
    (afterLaterAck.portToDagInfo.lookup 1).map DagInfo.base = some 2 ∧
    (∃ s out, afterLaterAck.processNetworkPacket (.zero 0) p = .ok (s, out) ∧
      (s.portToDagInfo.lookup 1).map DagInfo.base = some 1) ∧
    ¬ AckForward (.zero 0) afterLaterAck 1 p 1 := by
  obtain ⟨p, hp, hevent, hbefore, s, out, hs, hafter⟩ : ∃ p, answersToTwoSends[1]? = some p ∧
      afterLaterAck.packetEvent 1 p = .ack 1 ∧
      (afterLaterAck.portToDagInfo.lookup 1).map DagInfo.base = some 2 ∧
      ∃ s out, afterLaterAck.processNetworkPacket (.zero 0) p = .ok (s, out) ∧
        (s.portToDagInfo.lookup 1).map DagInfo.base = some 1 := by decide +kernel
  refine ⟨p, hp, hevent, hbefore, ⟨s, out, hs, hafter⟩, ?_⟩
  rintro ⟨d, s', out', d', hd, hs', hd', hle, -⟩
  rw [hs] at hs'
  cases hs'
  rw [hd, map_some, some_inj] at hbefore
  rw [hd', map_some, some_inj] at hafter
  rw [hbefore, hafter] at hle
  exact absurd hle (by decide)

end XTransport

end Xia
