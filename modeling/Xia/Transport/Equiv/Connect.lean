import Xia.Transport.Equiv.Stream

/-!
# The outcome of `Xconnect`

After `Xconnect` a socket waits for a SYNACK and sends its SYN again at every expiry, up to a limit.
The first SYNACK is reported to the application; the end of the retries is not, because the report
is the body of `if (DEBUG)`.

`waitOutcome` reads off the inputs how the wait ends, and `connect_outcome_iff` says that the
application hears of it exactly if it ends with a SYNACK.
-/

namespace Xia

open List

/-- How the wait for a SYNACK ends, with `tries` retransmissions left and the next one due at
`expiry`: `some true` with a SYNACK, `some false` with the tick that finds no try left, `none` if it
goes on. -/
def waitOutcome : Nat → Nat → List Input → Option Bool
  | _, _, [] => none
  | tries, expiry, i :: is =>
    match i.event with
    | .timer =>
      if expiry ≤ i.env.now then
        match tries with
        | 0 => some false
        | tries + 1 => waitOutcome tries (i.env.now + ackDelay) is
      else waitOutcome tries expiry is
    | _ => some true

namespace XTransport

variable {sha1 : Sha1} {env : Env} {s s' : XTransport} {port : UInt16} {out : List Output}
variable {d : DagInfo}

def IsTickOrSynack (s : XTransport) (port : UInt16) (i : Input) : Prop :=
  i.event = .timer ∨ ∃ p, i.event = .network p ∧ s.packetEvent port p = .synack ∧ p.nxt = nxtTrn

/-! ### One input -/

theorem packetEvent_eq_synack {p : Packet} (h : s.packetEvent port p = .synack) :
    ∃ pair thdr, packetKey p = some (pair, thdr) ∧ p.nxt ≠ nxtXcmp ∧
      IsStream thdr TransportHeader.synack ∧ s.pairPort pair = port := by
  rw [packetEvent] at h
  split at h
  · cases h
  · rename_i pair thdr hkey
    split_ifs at h with hno hsynack
    · rw [not_or, not_or, not_not, not_not] at hno
      exact ⟨pair, thdr, hkey, hno.1, ⟨hno.2.1, hsynack⟩, hno.2.2⟩
    · cases hn : (TransportHeader.seqNum thdr).toOption <;> simp [hn] at h
    · cases hn : (TransportHeader.ackNum thdr).toOption <;> simp [hn] at h

/-- Whether a packet is a SYNACK for the port depends on `XIDpairToPort` only. -/
theorem packetEvent_synack_congr {p : Packet} (hsame : s'.xidPairToPort = s.xidPairToPort)
    (h : s.packetEvent port p = .synack) : s'.packetEvent port p = .synack := by
  obtain ⟨pair, thdr, hkey, hnxt, hkind, hport⟩ := packetEvent_eq_synack h
  rw [packetEvent_eq hkey hnxt hkind, if_neg, if_pos rfl]
  rw [pairPort, hsame]
  exact not_not.2 hport

theorem synack_eq_ok {p : Packet} (hp : s.packetEvent port p = .synack) (hnxt : p.nxt = nxtTrn)
    (hport : port ≠ 0) (hd : s.portToDagInfo.lookup port = some d) (hinit : d.initialized = true)
    (h : s.processNetworkPacket env p = .ok (s', out)) :
    s'.portToDagInfo.lookup port = some { d with timerOn := false, synackWaiting := false } ∧
      s'.xidPairToPort = s.xidPairToPort ∧
      ∃ dag payload, apiMsgs port out = if d.synackWaiting then [.recv dag payload] else [] := by
  obtain ⟨pair, thdr, hkey, hxcmp, hkind, rfl⟩ := packetEvent_eq_synack hp
  obtain ⟨hx, hy, hthdr⟩ := of_packetKey_eq_some hkey
  obtain ⟨x, y, thdr', hx', hy', hthdr', ⟨hno, -⟩ | ⟨-, s₁, o₁, v, o₂, hdisp, hdel, rfl⟩⟩ :=
    processNetworkPacket_eq_ok h
  · exact absurd hno hxcmp
  · rw [hx] at hx'
    rw [hy] at hy'
    rw [hthdr] at hthdr'
    cases hx'
    cases hy'
    cases hthdr'
    cases hdisp with
    -- the socket is initialized, so what follows changes it no more
    | synack d₀ _ hd₀ =>
      obtain rfl : d = d₀ := Option.some.inj (hd.symm.trans hd₀)
      have hself : (s.setDagInfo (s.pairPort pair)
          { d with timerOn := false, synackWaiting := false }).portToDagInfo.lookup
            (s.pairPort pair) = some { d with timerOn := false, synackWaiting := false } := by
        rw [lookup_setDagInfo, if_pos rfl]
      obtain ⟨rfl, ⟨rfl, hno⟩ | ⟨-, hsend, dag, rfl⟩⟩ := hdel.eq_of_initialized hnxt hself hinit
      · have hw : d.synackWaiting = false := hno.resolve_left hport
        exact ⟨hself, rfl, [], [], by rw [hw]; rfl⟩
      · refine ⟨hself, rfl, dag, readString env.beyond (p.extPayload thdr)
          ((p.plen.toNat : Int) - thdr.hlen.toNat), ?_⟩
        rw [if_pos hsend]
        simp [apiMsgs]
    | syn q hk => exact absurd (hk.unique hkind) (by decide)
    | data d q hk => exact absurd (hk.unique hkind) (by decide)
    | ack d d' reset t hk => exact absurd (hk.unique hkind) (by decide)
    | inactive hk =>
      rcases hk with hk | hk
      · exact absurd (hk.unique hkind) (by decide)
      · exact absurd (hk.unique hkind) (by decide)
    | other send _ hno => exact absurd hkind hno

/-! ### The wait -/

structure Waiting (s : XTransport) (port : UInt16) (d : DagInfo) (tries expiry : Nat) : Prop where
  lookup : s.portToDagInfo.lookup port = some d
  initialized : d.initialized = true
  timerOn : d.timerOn = true
  synackWaiting : d.synackWaiting = true
  teardownWaiting : d.teardownWaiting = false
  expiry : d.expiry = expiry
  tries : d.numConnectTries + tries = maxConnectTries + 1

/-- The socket of the port has stopped waiting. -/
structure Stopped (s : XTransport) (port : UInt16) (d : DagInfo) : Prop where
  lookup : s.portToDagInfo.lookup port = some d
  initialized : d.initialized = true
  timerOn : d.timerOn = false
  synackWaiting : d.synackWaiting = false

/-- A tick before the expiry changes nothing; a later one uses up a try or ends the wait. -/
theorem Waiting.tick {tries expiry : Nat} (hw : Waiting s port d tries expiry)
    (h : s.runTimer env = .ok (s', out)) :
    (env.now < expiry ∧ ∃ d', Waiting s' port d' tries expiry) ∨
      (expiry ≤ env.now ∧ ∃ t d', tries = t + 1 ∧ Waiting s' port d' t (env.now + ackDelay)) ∨
      (expiry ≤ env.now ∧ tries = 0 ∧ ∃ d', Stopped s' port d') := by
  obtain ⟨hd, hinit, hon, hsyn, htear, rfl, htries⟩ := hw
  obtain ⟨o, hv, -⟩ := runTimer_some h hd
  generalize hd' : s'.portToDagInfo.lookup port = d'? at hv
  cases hv with
  | removed hout =>
    cases hout with
    | tearDown _ _ _ hw => rw [htear] at hw; cases hw
  | kept hout hcid =>
    obtain ⟨path, t₁, t₂, -, rfl⟩ := DagInfo.cidTimeouts_eq_ok hcid
    cases hout with
    | idle hno =>
      refine .inl ⟨?_, _, hd', hinit, hon, hsyn, htear, rfl, htries⟩
      have hnot := (hno hon).1
      simp only [hsyn, true_and] at hnot
      omega
    | synResend _ _ _ _ _ hdue hle =>
      -- the counter of the source runs up, `tries` down
      have hpos : 0 < tries := by omega
      obtain ⟨t, rfl⟩ : ∃ t, tries = t + 1 := ⟨tries - 1, by omega⟩
      refine .inr (.inl ⟨hdue, t, _, rfl, hd', hinit, hon, hsyn, htear, rfl, ?_⟩)
      simp only
      omega
    | synGiveUp _ _ hdue hgt =>
      exact .inr (.inr ⟨hdue, by omega, _, hd', hinit, rfl, rfl⟩)
    | dataResend _ _ _ hnosyn => exact absurd hsyn hnosyn
    | dataStop _ _ hnosyn => exact absurd hsyn hnosyn

theorem Stopped.tick (hw : Stopped s port d) (h : s.runTimer env = .ok (s', out)) :
    ∃ d', Stopped s' port d' := by
  obtain ⟨hd, hinit, hoff, hsyn⟩ := hw
  have hcontra : ¬ d.timerOn := by simp [hoff]
  obtain ⟨o, hv, -⟩ := runTimer_some h hd
  generalize hd' : s'.portToDagInfo.lookup port = d'? at hv
  cases hv with
  | removed hout =>
    cases hout with
    | tearDown hon => exact absurd hon hcontra
  | kept hout hcid =>
    obtain ⟨path, t₁, t₂, -, rfl⟩ := DagInfo.cidTimeouts_eq_ok hcid
    cases hout with
    | idle => exact ⟨_, hd', hinit, hoff, hsyn⟩
    | synResend _ _ _ hon => exact absurd hon hcontra
    | synGiveUp hon => exact absurd hon hcontra
    | dataResend _ _ hon => exact absurd hon hcontra
    | dataStop _ hon => exact absurd hon hcontra

/-- Ticks and SYNACKs leave `XIDpairToPort` alone. -/
theorem isTickOrSynack_congr {i : Input} (hsame : s'.xidPairToPort = s.xidPairToPort)
    (h : IsTickOrSynack s port i) : IsTickOrSynack s' port i := by
  rcases h with h | ⟨p, hi, hp, hnxt⟩
  · exact .inl h
  · exact .inr ⟨p, hi, packetEvent_synack_congr hsame hp, hnxt⟩

theorem Stopped.run {is : List Input} (hw : Stopped s port d) (hport : port ≠ 0)
    (his : ∀ i ∈ is, IsTickOrSynack s port i) (h : Machine.run (step sha1) s is = .ok (s', out)) :
    apiMsgs port out = [] := by
  induction is generalizing s d out with
  | nil =>
    cases h
    rfl
  | cons i is ih =>
    obtain ⟨s₁, o₁, o₂, h₁, h₂, rfl⟩ := Machine.run_cons_eq_ok.1 h
    obtain ⟨env, e⟩ := i
    rw [apiMsgs_append]
    rcases his _ mem_cons_self with rfl | ⟨p, rfl, hp, hnxt⟩
    · obtain ⟨d₁, hw₁⟩ := hw.tick h₁
      have hsame : s₁.xidPairToPort = s.xidPairToPort := (runTimer_visits h₁).xidPairToPort
      rw [runTimer_noApi h₁, ih hw₁
        (fun i hi => isTickOrSynack_congr hsame (his i (mem_cons_of_mem _ hi))) h₂]
      rfl
    · obtain ⟨hd₁, hsame, dag, payload, hmsg⟩ :=
        synack_eq_ok hp hnxt hport hw.lookup hw.initialized h₁
      rw [hw.synackWaiting] at hmsg
      rw [hmsg, ih ⟨hd₁, hw.initialized, rfl, rfl⟩
        (fun i hi => isTickOrSynack_congr hsame (his i (mem_cons_of_mem _ hi))) h₂]
      rfl

/-- **What the application hears during the wait**: one message if the wait ends with a SYNACK,
otherwise none. -/
theorem Waiting.run {tries expiry : Nat} {is : List Input} (hw : Waiting s port d tries expiry)
    (hport : port ≠ 0) (his : ∀ i ∈ is, IsTickOrSynack s port i)
    (h : Machine.run (step sha1) s is = .ok (s', out)) :
    if waitOutcome tries expiry is = some true then
      ∃ dag payload, apiMsgs port out = [.recv dag payload]
    else apiMsgs port out = [] := by
  induction is generalizing s d tries expiry out with
  | nil =>
    cases h
    rfl
  | cons i is ih =>
    obtain ⟨s₁, o₁, o₂, h₁, h₂, rfl⟩ := Machine.run_cons_eq_ok.1 h
    obtain ⟨env, e⟩ := i
    rw [apiMsgs_append]
    have hrest : s₁.xidPairToPort = s.xidPairToPort → ∀ i ∈ is, IsTickOrSynack s₁ port i :=
      fun hsame i hi => isTickOrSynack_congr hsame (his i (mem_cons_of_mem _ hi))
    -- a tick reports nothing; a SYNACK ends the wait with its message
    rcases his _ mem_cons_self with rfl | ⟨p, rfl, hp, hnxt⟩
    · have hsame : s₁.xidPairToPort = s.xidPairToPort := (runTimer_visits h₁).xidPairToPort
      rw [runTimer_noApi h₁, nil_append]
      rcases hw.tick h₁ with ⟨hlt, d₁, hw₁⟩ | ⟨hle, t, d₁, rfl, hw₁⟩ | ⟨hle, rfl, d₁, hw₁⟩
      · have hout : waitOutcome tries expiry (⟨env, .timer⟩ :: is) =
            waitOutcome tries expiry is := by
          simp [waitOutcome, Nat.not_le.2 hlt]
        rw [hout]
        exact ih hw₁ (hrest hsame) h₂
      · have hout : waitOutcome (t + 1) expiry (⟨env, .timer⟩ :: is) =
            waitOutcome t (env.now + ackDelay) is := by
          simp [waitOutcome, hle]
        rw [hout]
        exact ih hw₁ (hrest hsame) h₂
      · have hout : waitOutcome 0 expiry (⟨env, .timer⟩ :: is) = some false := by
          simp [waitOutcome, hle]
        rw [hout, if_neg (by simp)]
        exact hw₁.run hport (hrest hsame) h₂
    · obtain ⟨hd₁, hsame, dag, payload, hmsg⟩ :=
        synack_eq_ok hp hnxt hport hw.lookup hw.initialized h₁
      have hstop : Stopped s₁ port { d with timerOn := false, synackWaiting := false } :=
        ⟨hd₁, hw.initialized, rfl, rfl⟩
      rw [hw.synackWaiting, if_pos rfl] at hmsg
      have hout : waitOutcome tries expiry (⟨env, .network p⟩ :: is) = some true := rfl
      rw [hout, if_pos rfl, hmsg, hstop.run hport (hrest hsame) h₂]
      exact ⟨dag, payload, rfl⟩

/-- A fresh socket waits after `Xconnect`, with all retransmissions left. -/
theorem waiting_of_xconnect {junk : DagInfo} {t : Int} {ddag : Text}
    (hd : s.portToDagInfo.lookup port = some d)
    (hfresh : d.stream = (DagInfo.xsocket junk t).stream)
    (h : s.xconnect env port ddag = .ok (s', out)) :
    (∃ d', Waiting s' port d' 30 (env.now + ackDelay)) ∧ apiMsgs port out = [] := by
  obtain ⟨d₀, path, path', dst, x, y, copy, p, rfl, -, -, -, -, -, -, ht, -, -, -, rfl⟩ :=
    xconnect_eq_ok h
  refine ⟨⟨_, ht.self, rfl, rfl, rfl, ?_, rfl, ?_⟩, rfl⟩
  · rw [hd]
    exact congrArg Stream.teardownWaiting hfresh
  · have htries : d.numConnectTries = 0 := congrArg Stream.numConnectTries hfresh
    rw [hd, Option.getD_some, htries]
    rfl

/-- **The outcome of one `Xconnect`** on a fresh socket, after any ticks and SYNACKs: the
application never hears more than one message, and once the wait is over it has heard one, exactly
if the wait did not end with the 31st tick that found the SYN unanswered. -/
theorem connect_outcome_iff {s₀ : XTransport} {d junk : DagInfo} {t : Int} {ddag : Text}
    {o : List Output} {is : List Input} (hport : port ≠ 0)
    (hd : s₀.portToDagInfo.lookup port = some d)
    (hfresh : d.stream = (DagInfo.xsocket junk t).stream)
    (hconnect : s₀.xconnect env port ddag = .ok (s, o))
    (his : ∀ i ∈ is, IsTickOrSynack s port i)
    (hrun : Machine.run (step sha1) s is = .ok (s', out)) :
    (apiMsgs port (o ++ out)).length ≤ 1 ∧
      ((waitOutcome 30 (env.now + ackDelay) is ≠ none → (apiMsgs port (o ++ out)).length = 1) ↔
        waitOutcome 30 (env.now + ackDelay) is ≠ some false) := by
  obtain ⟨⟨d', hw⟩, hnone⟩ := waiting_of_xconnect hd hfresh hconnect
  have hmsgs := hw.run hport his hrun
  rw [apiMsgs_append, hnone, nil_append]
  cases hout : waitOutcome 30 (env.now + ackDelay) is with
  | none =>
    rw [hout, if_neg (by simp)] at hmsgs
    simp [hmsgs]
  | some granted =>
    cases granted with
    | true =>
      rw [hout, if_pos rfl] at hmsgs
      obtain ⟨dag, payload, hmsg⟩ := hmsgs
      simp [hmsg]
    | false =>
      rw [hout, if_neg (by simp)] at hmsgs
      simp [hmsgs]

def freshSocket : XTransport := Machine.last (step Sha1.zero) host [⟨.zero 0, .xsocket 1 1⟩]

/-- One SYNACK, and one message. -/
theorem connect_outcome_granted : ∃ p s o s' out, answersToTwoSends[0]? = some p ∧
    freshSocket.xconnect (.zero 0) 1 "RE AD:03 HID:04 SID:0a".toList = .ok (s, o) ∧
    Machine.run (step Sha1.zero) s [⟨.zero 300, .timer⟩, ⟨.zero 301, .network p⟩] = .ok (s', out) ∧
    (apiMsgs 1 (o ++ out)).length = 1 := by
  obtain ⟨p, hp, s, o, hconnect, hsynack, hnxt, s', out, hrun, -⟩ :
      ∃ p, answersToTwoSends[0]? = some p ∧ ∃ s o,
        freshSocket.xconnect (.zero 0) 1 "RE AD:03 HID:04 SID:0a".toList = .ok (s, o) ∧
        s.packetEvent 1 p = .synack ∧ p.nxt = nxtTrn ∧ ∃ s' out,
          Machine.run (step Sha1.zero) s [⟨.zero 300, .timer⟩, ⟨.zero 301, .network p⟩] =
            .ok (s', out) ∧ True := by decide +kernel
  have hd : freshSocket.portToDagInfo.lookup 1 = some (DagInfo.xsocket DagInfo.zero 1) := rfl
  have hwait : waitOutcome 30 (0 + ackDelay) [⟨.zero 300, .timer⟩, ⟨.zero 301, .network p⟩] =
      some true := rfl
  have hcount := connect_outcome_iff (by decide) hd rfl hconnect (fun i hi => ?_) hrun
  · refine ⟨p, s, o, s', out, hp, hconnect, hrun, hcount.2.2 ?_ ?_⟩
    · exact fun hno => by cases hwait.symm.trans hno
    · exact fun hno => by cases hwait.symm.trans hno
  · rcases mem_cons.1 hi with rfl | hi
    · exact .inl rfl
    · obtain rfl := mem_singleton.1 hi
      exact .inr ⟨p, rfl, hsynack, hnxt⟩

/-- No SYNACK at all: after 31 expired ticks the socket has stopped waiting, and the application has
heard nothing. -/
theorem connect_failure_not_reported : ∃ s o s' out d,
    freshSocket.xconnect (.zero 0) 1 "RE AD:03 HID:04 SID:0a".toList = .ok (s, o) ∧
    Machine.run (step Sha1.zero) s
      ((List.range 31).map fun k => ⟨.zero (300 * (k + 1)), .timer⟩) = .ok (s', out) ∧
    s'.portToDagInfo.lookup 1 = some d ∧ d.synackWaiting = false ∧ d.timerOn = false ∧
    apiMsgs 1 (o ++ out) = [] := by
  simp only [exists_and_left]
  decide +kernel

end XTransport

end Xia
