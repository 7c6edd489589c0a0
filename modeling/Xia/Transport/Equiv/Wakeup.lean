import Xia.Deadline
import Xia.Transport.Equiv.Stream

/-!
# The one timer and its deadlines

A socket whose `timer_on` is set and that waits for a SYNACK or an ACK has to be looked after at its
`expiry`, and a chunk request whose flag is set at the time of the request.  All of them share one
timer, and `WakesUp` says that it fires in time for each.

The timer itself finds the earliest deadline (`wakesUp_runTimer`), and every handler that sets a
deadline arms the timer for it, except one: `Xclose` sets `timer_on` and arms the timer for the
teardown only.  If a socket still waits for something while its `timer_on` is not set, it becomes a
deadline again that nobody has armed the timer for.  `wakesUp_iff` says that nothing else goes
wrong.
-/

namespace Xia

open AList HashTable List Option Result

open Deadline

namespace DagInfo

variable {env : Env} {localAddr : XiaPath} {d d' : DagInfo} {B B' : Nat → Prop} {acc acc' : Nat}
  {copies : List Packet}

/-- All deadlines of a socket are of this kind: that of the stream, and those of the requests. -/
structure AllDeadlines (B : Nat → Prop) (d : DagInfo) : Prop where
  stream : d.timerOn → d.synackWaiting ∨ d.dataackWaiting → B d.expiry
  request : ∀ cid, d.xidToTimerOn.lookup cid = some true →
    ∃ e, d.xidToExpiryTime.lookup cid = some e ∧ B e

theorem AllDeadlines.mono (h : d.AllDeadlines B) (hB : ∀ e, B e → B' e) : d.AllDeadlines B' := by
  refine ⟨fun hon hwaits => hB _ (h.stream hon hwaits), fun cid hcid => ?_⟩
  obtain ⟨e, he, hBe⟩ := h.request cid hcid
  exact ⟨e, he, hB e hBe⟩

/-- A socket that waits for nothing and has no requests. -/
structure Blank (d : DagInfo) : Prop where
  idle : d.stream.Idle
  requests : d.xidToTimerOn = ∅

theorem Blank.allDeadlines (h : d.Blank) : d.AllDeadlines B := by
  constructor
  · rintro - (hw | hw)
    · exact absurd (hw.symm.trans h.idle.1) (by decide)
    · exact absurd (hw.symm.trans h.idle.2.1) (by decide)
  · intro cid hcid
    rw [h.requests] at hcid
    cases hcid

theorem blank_new (junk : DagInfo) : (DagInfo.new junk).Blank := ⟨⟨rfl, rfl, rfl⟩, rfl⟩

/-! ### The search of the timer -/

theorem Timeout.expiry_gt {out : List Output} (h : Timeout env localAddr d d' out false)
    (hon : d'.timerOn) (hwaits : d'.synackWaiting ∨ d'.dataackWaiting) : env.now < d'.expiry := by
  have hnext : env.now < env.now + ackDelay := Nat.lt_add_of_pos_right (by decide)
  cases h with
  | idle hdue =>
    obtain ⟨hsyn, hdata, -⟩ := hdue hon
    by_contra hle
    exact hwaits.elim (fun hw => hsyn ⟨hw, not_lt.1 hle⟩) fun hw => hdata ⟨hw, not_lt.1 hle⟩
  | synResend => exact hnext
  | synGiveUp => cases hon
  | dataResend => exact hnext
  | dataStop => cases hon

theorem le_nextExpiry (h : env.now ≤ acc) : env.now ≤ d.nextExpiry env.now acc := by
  unfold nextExpiry
  split
  · exact le_earlier (le_earlier h)
  · exact h

theorem found_nextExpiry {e : Nat} (h : Found env.now acc e) :
    Found env.now (d.nextExpiry env.now acc) e := by
  unfold nextExpiry
  split
  · exact (h.earlier _).earlier _
  · exact h

theorem lookup_cidTimeouts {cids : List Xid}
    (h : d.cidTimeouts env localAddr cids acc = .ok (d', acc', copies)) (cid : Xid) :
    d'.xidToTimerOn.lookup cid = d.xidToTimerOn.lookup cid := by
  refine (cidTimeouts_invariant (P := fun _ => True)
    (I := fun d₁ => d₁.xidToTimerOn.lookup cid = d.xidToTimerOn.lookup cid) ?_ rfl h).1
  intro d₁ d₂ c p copy hsame hon _ hcopy
  obtain ⟨path, -, rfl⟩ := copyContentPacket_eq_ok hcopy
  refine ⟨?_, trivial⟩
  rw [lookup_insert_eq]
  split
  · rename_i heq
    rw [← hsame, heq, hon]
  · exact hsame

/-- **The loop over the requests** meets the deadlines of its list, and serves those from before. -/
theorem found_cidTimeouts {cids : List Xid}
    (h : d.cidTimeouts env localAddr cids acc = .ok (d', acc', copies)) (hacc : env.now ≤ acc) :
    env.now ≤ acc' ∧ (∀ e, Found env.now acc e → Found env.now acc' e) ∧
      ∀ cid, d.xidToTimerOn.lookup cid = some true →
        (cid ∈ cids ∨ ∃ e, d.xidToExpiryTime.lookup cid = some e ∧ Found env.now acc e) →
        ∃ e, d'.xidToExpiryTime.lookup cid = some e ∧ Found env.now acc' e := by
  induction cids generalizing d acc copies with
  | nil =>
    cases h
    exact ⟨hacc, fun _ => id, fun cid _ hcid => hcid.resolve_left not_mem_nil⟩
  | cons c cids ih =>
    simp only [cidTimeouts, bind_eq_ok] at h
    obtain ⟨on, hon, expiry, hexpiry, h⟩ := h
    rw [deref_eq_ok] at hon hexpiry
    split at h
    · rename_i hdue
      simp only [bind_eq_ok] at h
      obtain ⟨pkt, -, ⟨d₁, copy⟩, hcopy, ⟨d₂, e₂, rest⟩, hrest, h⟩ := h
      cases h
      obtain ⟨path, -, rfl⟩ := copyContentPacket_eq_ok hcopy
      have hnext : env.now < env.now + ackDelay := Nat.lt_add_of_pos_right (by decide)
      obtain ⟨hacc', hkeep, hmet⟩ := ih hrest (le_earlier hacc)
      refine ⟨hacc', fun e he => hkeep e (he.earlier _), fun cid hcid hor => hmet cid ?_ ?_⟩
      · rw [lookup_insert_eq]
        split
        · rfl
        · exact hcid
      · by_cases heq : cid = c
        · refine .inr ⟨env.now + ackDelay, ?_, found_earlier_self hacc hnext⟩
          rw [lookup_insert_eq, if_pos heq]
        · refine hor.imp (fun hmem => (mem_cons.1 hmem).resolve_left heq) ?_
          rintro ⟨e, he, hfound⟩
          refine ⟨e, ?_, hfound.earlier _⟩
          rwa [lookup_insert_eq, if_neg heq]
    · rename_i hdue
      have hle : env.now ≤ if on = true then earlier env.now acc expiry else acc := by
        split
        · exact le_earlier hacc
        · exact hacc
      have hfound : ∀ e, Found env.now acc e →
          Found env.now (if on = true then earlier env.now acc expiry else acc) e := by
        intro e he
        split
        · exact he.earlier _
        · exact he
      obtain ⟨hacc', hkeep, hmet⟩ := ih h hle
      refine ⟨hacc', fun e he => hkeep e (hfound e he), fun cid hcid hor => hmet cid hcid ?_⟩
      by_cases heq : cid = c
      · subst heq
        rw [hcid, some_inj] at hon
        refine .inr ⟨expiry, hexpiry, ?_⟩
        rw [if_pos hon.symm]
        exact found_earlier_self hacc (not_le.1 fun hle => hdue ⟨hon.symm, hle⟩)
      · refine hor.imp (fun hmem => (mem_cons.1 hmem).resolve_left heq) ?_
        rintro ⟨e, he, hbefore⟩
        exact ⟨e, he, hfound e hbefore⟩

end DagInfo

namespace XTransport

variable {sha1 : Sha1} {env : Env} {s s' : XTransport} {sport port : UInt16} {out : List Output}
  {d d' : DagInfo} {acc acc' : Nat}

/-! ### The timer -/

theorem timer_tearDown (h : s.tearDown sport d = .ok s') : s'.timer = s.timer := by
  simp only [tearDown, bind_eq_ok, pure_eq_ok] at h
  obtain ⟨s₁, h₁, rfl⟩ := h
  unfold unfile at h₁
  split at h₁
  · cases h₁
    rfl
  · simp only [bind_eq_ok] at h₁
    obtain ⟨x, -, h₁⟩ := h₁
    split at h₁
    · cases h₁
      rfl
    · cases h₁
      rfl

/-- What one visit means for the search: the deadlines of the socket are met. -/
structure Searched (env : Env) (sports : List UInt16) (s s' : XTransport) (acc acc' : Nat) :
    Prop where
  timer : s'.timer = s.timer
  le : env.now ≤ acc'
  keep : ∀ e, Found env.now acc e → Found env.now acc' e
  met : ∀ q ∈ sports, ∀ d, s'.portToDagInfo.lookup q = some d → d.AllDeadlines (Found env.now acc')

theorem searched_timerSocket (h : s.timerSocket env sport acc = .ok (s', acc', out))
    (hacc : env.now ≤ acc) : Searched env [sport] s s' acc acc' := by
  simp only [timerSocket, bind_eq_ok] at h
  obtain ⟨d, hd, ⟨d₁, o, tear⟩, htimeout, h⟩ := h
  have hcase := DagInfo.timeout_eq_ok htimeout
  cases tear with
  | true =>
    simp only [if_true, bind_eq_ok, pure_eq_ok, Prod.mk.injEq] at h
    obtain ⟨s₁, htear, rfl, rfl, -⟩ := h
    refine ⟨timer_tearDown htear, hacc, fun _ => id, fun q hq d' hd' => ?_⟩
    rw [mem_singleton.1 hq, (tearDown_eq_ok htear).2.1, lookup_erase_eq, if_pos rfl] at hd'
    cases hd'
  | false =>
    simp only [Bool.false_eq_true, if_false, bind_eq_ok, pure_eq_ok, Prod.mk.injEq] at h
    obtain ⟨⟨d₂, e₂, copies⟩, hcid, rfl, rfl, -⟩ := h
    obtain ⟨hle, hkeep, hmet⟩ := DagInfo.found_cidTimeouts hcid (DagInfo.le_nextExpiry hacc)
    refine ⟨rfl, hle, fun e he => hkeep e (DagInfo.found_nextExpiry he), fun q hq d' hd' => ?_⟩
    rw [mem_singleton.1 hq, lookup_setDagInfo, if_pos rfl, some_inj] at hd'
    subst hd'
    constructor
    · -- the deadline of the stream is met before the requests are looked at
      intro hon hwaits
      obtain ⟨path, t₁, t₂, -, rfl⟩ := DagInfo.cidTimeouts_eq_ok hcid
      have hlt := hcase.expiry_gt hon hwaits
      refine hkeep _ ?_
      rw [DagInfo.nextExpiry, if_pos hon]
      exact (found_earlier_self hacc hlt).earlier _
    · intro cid hcid'
      rw [DagInfo.lookup_cidTimeouts hcid] at hcid'
      exact hmet cid hcid' (.inl (mem_keys_iff.2 ⟨_, hcid'⟩))

theorem searched_timerSockets {sports : List UInt16} (hnodup : sports.Nodup)
    (h : timerSockets env sports s acc = .ok (s', acc', out)) (hacc : env.now ≤ acc) :
    Searched env sports s s' acc acc' := by
  induction sports generalizing s acc out with
  | nil =>
    cases h
    exact ⟨rfl, hacc, fun _ => id, fun q hq => absurd hq not_mem_nil⟩
  | cons sport sports ih =>
    simp only [timerSockets, bind_eq_ok] at h
    obtain ⟨⟨s₁, e₁, o₁⟩, h₁, ⟨s₂, e₂, o₂⟩, h₂, h⟩ := h
    cases h
    obtain ⟨hnotin, hnodup'⟩ := nodup_cons.1 hnodup
    have hfirst := searched_timerSocket h₁ hacc
    have hrest := ih hnodup' h₂ hfirst.le
    refine ⟨hrest.timer.trans hfirst.timer, hrest.le, fun e he => hrest.keep e (hfirst.keep e he),
      fun q hq d hd => ?_⟩
    rcases mem_cons.1 hq with rfl | hq
    · -- the later visits leave the socket alone
      rw [(timerSockets_eq_ok hnodup' h₂).other q hnotin] at hd
      exact (hfirst.met q (mem_singleton_self q) d hd).mono hrest.keep
    · exact hrest.met q hq d hd

/-- The timer fires in time for all sockets and requests. -/
def WakesUp (s : XTransport) : Prop :=
  ∀ port d, s.portToDagInfo.lookup port = some d → d.AllDeadlines (Before s.timer)

/-- **The timer schedules itself in time**, whatever was scheduled before. -/
theorem wakesUp_runTimer (h : s.runTimer env = .ok (s', out)) : WakesUp s' := by
  have hvisits := runTimer_visits h
  simp only [runTimer, bind_eq_ok] at h
  obtain ⟨⟨s₁, e, o⟩, h₁, h⟩ := h
  obtain ⟨hs', rfl⟩ := pure_pair_eq_ok.1 h
  have hsearched := searched_timerSockets s.portToDagInfo.keys_nodup h₁ le_rfl
  have hnone : s₁.timer = none := hsearched.timer
  have htimer : s'.timer = if env.now < e then some e else none := by
    rw [← hs']
    split
    · rfl
    · exact hnone
  have hlookup : s'.portToDagInfo = s₁.portToDagInfo := by
    rw [← hs']
    split <;> rfl
  intro q d hd
  have hmem : q ∈ s.portToDagInfo.keys := by
    by_contra hnot
    rw [hvisits.other q hnot, lookup_eq_none.2 (mt AList.mem_keys.1 hnot)] at hd
    cases hd
  rw [hlookup] at hd
  refine (hsearched.met q hmem d hd).mono fun x hx => ?_
  rw [htimer]
  exact hx.before

/-- What an event has to satisfy so that no deadline is missed: a socket that is closed while it
waits for a SYNACK or an ACK is looked after anyway. -/
def KeepsWakeup (s : XTransport) (i : Input) : Prop :=
  match i.event with
  | .xclose port => ∀ d, s.portToDagInfo.lookup port = some d →
      d.synackWaiting ∨ d.dataackWaiting →
        d.timerOn ∨ Before s.timer d.expiry ∨ i.env.now + teardownDelay ≤ d.expiry
  | _ => True

/-! ### Handlers that keep the deadlines -/

/-- What new sockets are made of. -/
structure Fresh (s : XTransport) : Prop where
  pending : ∀ d ∈ s.pendingConnectionBuf, d.Blank
  noDagInfo : s.noDagInfo.Blank

theorem fresh_init (localAddr : XiaPath) (junk : DagInfo) : Fresh (init localAddr junk) :=
  ⟨fun _ hd => absurd hd not_mem_nil, DagInfo.blank_new junk⟩

theorem fresh_step {e : Event} (hfresh : Fresh s) (h : s.handle sha1 env e = .ok (s', out)) :
    Fresh s' := by
  refine ⟨forall_pending_step (fun _ _ => ⟨⟨rfl, rfl, rfl⟩, rfl⟩) hfresh.pending h, ?_⟩
  rw [(handle_framed h).noDagInfo]
  exact hfresh.noDagInfo

namespace WakesUp

variable (h : WakesUp s)
include h

theorem untouched (hdag : s'.portToDagInfo = s.portToDagInfo) (htimer : s'.timer = s.timer) :
    WakesUp s' := by
  intro q d hd
  rw [hdag] at hd
  rw [htimer]
  exact h q d hd

theorem touched (ht : Touched s s' sport d') (htimer : ∀ x, Before s.timer x → Before s'.timer x)
    (hd' : d'.AllDeadlines (Before s'.timer)) : WakesUp s' := by
  intro q d hd
  rw [ht.lookup] at hd
  split at hd
  · rw [some_inj] at hd
    exact hd ▸ hd'
  · exact (h q d hd).mono htimer

theorem touched_same (ht : Touched s s' sport d') (htimer : s'.timer = s.timer)
    (hd' : d'.AllDeadlines (Before s.timer)) : WakesUp s' := by
  rw [← htimer] at hd'
  exact h.touched ht (fun x hx => by rwa [htimer]) hd'

theorem getD {d₀ : DagInfo} (h₀ : d₀.Blank) (q : UInt16) :
    ((s.portToDagInfo.lookup q).getD d₀).AllDeadlines (Before s.timer) := by
  cases hd : s.portToDagInfo.lookup q with
  | none => exact h₀.allDeadlines
  | some d => exact h q d hd

theorem names {e : Event} (he : e.names = true) (hs : s.handle sha1 env e = .ok (s', out)) :
    WakesUp s' := by
  obtain ⟨q, _, ⟨_, _, _, _, _, rfl⟩, ht, -, -, htimer, -⟩ := handle_names he hs
  have hall := h.getD (DagInfo.blank_new env.junk) q
  exact h.touched_same ht htimer ⟨hall.stream, hall.request⟩

theorem xaccept (hfresh : Fresh s) (hs : s.xaccept sport = .ok (s', out)) : WakesUp s' := by
  cases hpend : s.pendingConnectionBuf with
  | nil =>
    obtain ⟨hun, hsame, -⟩ := xaccept_nil hs hpend
    exact h.untouched hun.portToDagInfo hsame.timer
  | cons pending rest =>
    obtain ⟨_, _, _, -, -, ht, -, -, -, -, htimer, -⟩ := xaccept_cons hs hpend
    obtain ⟨hidle, hrequests⟩ := hfresh.pending pending (by rw [hpend]; exact mem_cons_self)
    have hblank : pending.xaccept.Blank := ⟨hidle, hrequests⟩
    exact h.touched_same ht htimer hblank.allDeadlines

theorem xreadChunk {dag : Text} (hs : s.xreadChunk env sport dag = .ok (s', out)) : WakesUp s' := by
  obtain ⟨d, _, _, _, hd, -, ht, hsame, -⟩ := xreadChunk_eq_ok hs
  have hall := h sport d hd
  exact h.touched_same ht hsame.timer ⟨hall.stream, hall.request⟩

theorem processCachePacket {p : Packet} (hs : s.processCachePacket sha1 env p = .ok (s', out)) :
    WakesUp s' := by
  obtain ⟨x, y, -, -, ⟨rfl, -⟩ | ⟨d, _, _, _, _, -, hd, -, ht, hsame, -⟩⟩ :=
    processCachePacket_eq_ok hs
  · exact h
  · have hall := h _ d hd
    refine h.touched_same ht hsame.timer ⟨hall.stream, fun cid hcid => ?_⟩
    change (d.xidToTimerOn.erase y).lookup cid = some true at hcid
    change ∃ e, (d.xidToExpiryTime.erase y).lookup cid = some e ∧ _
    rw [lookup_erase_eq] at hcid ⊢
    split at hcid
    · cases hcid
    · rename_i hne
      rw [if_neg hne]
      exact hall.request cid hcid

end WakesUp

/-! ### Handlers that schedule the timer -/

theorem before_arm {timer : Option Nat} {e x : Nat} :
    Before (arm timer e) x ↔ e ≤ x ∨ Before timer x := by
  have heq : arm timer e = Deadline.arm timer e := by
    cases timer with
    | none => rfl
    | some t => rfl
  rw [heq, before_arm_iff]

theorem before_of_armed {timer timer' : Option Nat} {e : Nat} (htimer : timer' = arm timer e) :
    Before timer' e ∧ ∀ x, Before timer x → Before timer' x := by
  simp only [htimer, before_arm]
  exact ⟨.inl le_rfl, fun x => .inr⟩

theorem timer_xclose (h : s.xclose env sport = .ok (s', out)) :
    s'.timer = arm s.timer (env.now + teardownDelay) := by
  simp only [xclose, bind_eq_ok] at h
  obtain ⟨d, -, h⟩ := h
  cases h
  rfl

theorem timer_xconnect {ddag : Text} (h : s.xconnect env sport ddag = .ok (s', out)) :
    s'.timer = arm s.timer (env.now + ackDelay) := by
  simp only [xconnect, bind_eq_ok] at h
  obtain ⟨d₁, -, x, -, y, -, ⟨d₂, p⟩, hsyn, h⟩ := h
  cases h
  obtain ⟨_, _, -, -, -, rfl⟩ := sendSyn_eq_ok hsyn
  rfl

theorem timer_xsend {payload : List UInt8} (h : s.xsend env sport payload = .ok (s', out)) :
    s' = s ∨ s'.timer = arm s.timer (env.now + ackDelay) := by
  rw [xsend] at h
  split at h
  · cases h
    exact .inl rfl
  · split at h
    · simp only [bind_eq_ok] at h
      obtain ⟨⟨d', p⟩, hsend, h⟩ := h
      cases h
      obtain ⟨_, _, -, rfl, -⟩ := DagInfo.xsend_eq_ok hsend
      exact .inr rfl
    · cases h
      exact .inl rfl

theorem dispatch_of_ack {p : Packet} {pair : XidPair} {thdr : ExtHeader}
    (h : IsStream thdr TransportHeader.ack) :
    s.dispatch env p pair thdr = s.receiveAck env p pair thdr := by
  rw [dispatch, h.1, ok_bind, if_pos rfl, h.2]
  rfl

namespace WakesUp

variable (h : WakesUp s)
variable {p : Packet} {v : Verdict}
include h

theorem xconnect {ddag : Text} (hs : s.xconnect env sport ddag = .ok (s', out)) : WakesUp s' := by
  have htimer := timer_xconnect hs
  obtain ⟨d, _, _, _, _, _, _, _, rfl, -, -, -, -, -, -, ht, -⟩ := xconnect_eq_ok hs
  have hall := h.getD (DagInfo.blank_new env.junk) sport
  obtain ⟨hnew, hkeep⟩ := before_of_armed htimer
  exact h.touched ht hkeep ⟨fun _ _ => hnew, (hall.mono hkeep).request⟩

theorem xsend {payload : List UInt8} (hs : s.xsend env sport payload = .ok (s', out)) :
    WakesUp s' := by
  rcases timer_xsend hs with rfl | htimer
  · exact h
  rcases xsend_eq_ok hs with ⟨rfl, -⟩ | ⟨d, d', p, hd, -, hsend, ht, -⟩
  · exact h
  obtain ⟨_, _, -, rfl, -⟩ := DagInfo.xsend_eq_ok hsend
  obtain ⟨hnew, hkeep⟩ := before_of_armed htimer
  exact h.touched ht hkeep ⟨fun _ _ => hnew, ((h sport d hd).mono hkeep).request⟩

theorem requestOne {payload : List UInt8} {dag : Text}
    (hs : s.requestOne env sport payload dag = .ok (s', out)) : WakesUp s' := by
  obtain ⟨d, path, sid, cid, copy, p, hreq, -⟩ := requestOne_eq_ok hs
  have ht := hreq.touched
  obtain ⟨_, rfl⟩ := hreq.exists_srcPath
  obtain ⟨hnew, hkeep⟩ := before_of_armed hreq.timer
  have hall := (h.getD (DagInfo.blank_new env.junk) sport).mono hkeep
  refine h.touched ht hkeep ⟨hall.stream, fun c hc => ?_⟩
  rw [lookup_insert_eq] at hc
  rw [lookup_insert_eq]
  by_cases heq : c = cid
  · exact ⟨_, if_pos heq, hnew⟩
  · rw [if_neg heq] at hc
    rw [if_neg heq]
    exact hall.request c hc

theorem xrequestChunk {payload : List UInt8} {dags : List Text}
    (hs : s.xrequestChunk env sport payload dags = .ok (s', out)) : WakesUp s' := by
  rw [xrequestChunk_eq_run] at hs
  exact Machine.run_invariant (fun _ _ _ _ hI h₁ => requestOne hI h₁) h hs

theorem receiveAck {pair : XidPair} {thdr : ExtHeader}
    (hs : s.receiveAck env p pair thdr = .ok (s', out, v)) : WakesUp s' := by
  simp only [XTransport.receiveAck] at hs
  split at hs
  · simp only [bind_eq_ok] at hs
    obtain ⟨d, hd, a, -, ⟨d', reset⟩, hack, hs⟩ := hs
    cases hs
    obtain ⟨ring, -, hreset, rfl⟩ := DagInfo.receiveAck_eq_ok hack
    have hall := h _ d (deref_eq_ok.1 hd)
    by_cases hlt : DagInfo.toInt d.base < DagInfo.toInt a
    · -- the deadline is a new one, whether everything is acknowledged or not
      rw [decide_eq_true hlt] at hreset
      subst hreset
      simp only [hlt, if_true]
      obtain ⟨hnew, hkeep⟩ := before_of_armed (rfl : arm s.timer (env.now + ackDelay) = _)
      exact h.touched (touched_setDagInfo _ _ ⟨rfl, rfl, rfl⟩) hkeep
        ⟨fun _ _ => hnew, (hall.mono hkeep).request⟩
    · rw [decide_eq_false hlt] at hreset
      subst hreset
      simp only [hlt, if_false, Bool.false_eq_true]
      exact h.touched_same (touched_setDagInfo _ _ ⟨rfl, rfl, rfl⟩) rfl ⟨hall.stream, hall.request⟩
  · cases hs
    exact h

theorem dispatch {pair : XidPair} {thdr : ExtHeader}
    (hs : s.dispatch env p pair thdr = .ok (s', out, v)) : WakesUp s' := by
  cases dispatch_eq_ok hs with
  | syn => exact h.untouched rfl rfl
  | synack d _ hd =>
    exact h.touched_same (touched_setDagInfo _ _ ⟨rfl, rfl, rfl⟩) rfl
      ⟨fun hon => absurd hon Bool.false_ne_true, (h _ d hd).request⟩
  | data d _ _ _ hd =>
    have hall := h _ d hd
    refine h.touched_same (touched_setDagInfo _ _ ⟨rfl, rfl, rfl⟩) rfl ?_
    unfold DagInfo.receiveData
    split
    · exact ⟨hall.stream, hall.request⟩
    · exact ⟨hall.stream, hall.request⟩
  | ack _ _ _ _ hkind =>
    rw [dispatch_of_ack hkind] at hs
    exact h.receiveAck hs
  | inactive => exact h
  | other => exact h

theorem delivered {thdr : ExtHeader} (hblank : s.noDagInfo.Blank)
    (hs : Delivered env s p thdr v s' out) : WakesUp s' := by
  have htimer : s'.timer = s.timer := by
    cases hs <;> rfl
  rcases hs.touched with rfl | ht
  · exact h
  · have hall := h.getD hblank v.dport
    exact h.touched_same ht htimer ⟨hall.stream, hall.request⟩

theorem processNetworkPacket (hfresh : Fresh s)
    (hs : s.processNetworkPacket env p = .ok (s', out)) : WakesUp s' := by
  simp only [XTransport.processNetworkPacket, bind_eq_ok] at hs
  obtain ⟨x, -, y, -, thdr, -, hs⟩ := hs
  split at hs
  · simp only [receiveXcmp, bind_eq_ok] at hs
    obtain ⟨dag, -, bytes, -, hs⟩ := hs
    cases hs
    exact h
  · simp only [bind_eq_ok] at hs
    obtain ⟨⟨s₁, o₁, v⟩, h₁, ⟨s₂, o₂⟩, h₂, hs⟩ := hs
    cases hs
    have hblank : s₁.noDagInfo.Blank := by
      rw [(dispatch_eq_ok h₁).noDagInfo.1]
      exact hfresh.noDagInfo
    exact (h.dispatch h₁).delivered hblank (deliver_eq_ok h₂)

/-- **`Xclose` arms the timer for the teardown only**, and `timer_on` brings the other deadline of
the socket back. -/
theorem xclose_iff (hs : s.xclose env sport = .ok (s', out)) :
    WakesUp s' ↔ KeepsWakeup s ⟨env, .xclose sport⟩ := by
  have htimer := timer_xclose hs
  obtain ⟨d, hd, ht, -⟩ := xclose_eq_ok hs
  obtain ⟨-, hkeep⟩ := before_of_armed htimer
  have hall := h sport d hd
  constructor
  · intro h' d₀ hd₀ hwaits
    rw [hd, some_inj] at hd₀
    subst hd₀
    have hserved : Before s'.timer d.expiry := (h' sport _ ht.self).stream rfl hwaits
    rw [htimer, before_arm] at hserved
    exact .inr hserved.symm
  · intro hclose
    refine h.touched ht hkeep ⟨fun _ hwaits => ?_, (hall.mono hkeep).request⟩
    rcases hclose d hd hwaits with hon | hserved | hlate
    · exact hkeep _ (hall.stream hon hwaits)
    · exact hkeep _ hserved
    · rw [htimer, before_arm]
      exact .inl hlate

end WakesUp

/-! ### Runs -/

theorem wakesUp_init (localAddr : XiaPath) (junk : DagInfo) : WakesUp (init localAddr junk) := by
  intro port d hd
  cases hd

/-- **The condition is exact for one event.** -/
theorem wakesUp_step {i : Input} (hfresh : Fresh s) (h : WakesUp s)
    (hs : step sha1 s i = .ok (s', out)) : WakesUp s' ↔ KeepsWakeup s i := by
  obtain ⟨env, e⟩ := i
  cases e with
  | xsocket sport sockType =>
    have htimer : s'.timer = s.timer := by
      cases hs
      rfl
    have hblank : (DagInfo.xsocket env.junk sockType).Blank := ⟨⟨rfl, rfl, rfl⟩, rfl⟩
    exact iff_of_true (h.touched_same (xsocket_eq_ok hs).1 htimer hblank.allDeadlines) trivial
  | xsetsockopt | xgetChunkStatus | xchangead | xhcp | writeParam =>
    obtain ⟨hdag, -, hsame⟩ := handle_sparesSockets rfl hs
    exact iff_of_true (h.untouched hdag hsame.timer) trivial
  | xbind | xbindPush | xsendto | xpushChunkto => exact iff_of_true (h.names rfl hs) trivial
  | xclose sport => exact h.xclose_iff hs
  | xconnect sport ddag => exact iff_of_true (h.xconnect hs) trivial
  | xaccept sport => exact iff_of_true (h.xaccept hfresh hs) trivial
  | xsend sport payload => exact iff_of_true (h.xsend hs) trivial
  | xrequestChunk sport payload dags => exact iff_of_true (h.xrequestChunk hs) trivial
  | xreadChunk sport dag => exact iff_of_true (h.xreadChunk hs) trivial
  | network p => exact iff_of_true (h.processNetworkPacket hfresh hs) trivial
  | cache p => exact iff_of_true (h.processCachePacket hs) trivial
  | timer => exact iff_of_true (wakesUp_runTimer hs) trivial

/-- **No wake-up is lost**, in any state of a run from a configured element, exactly if no `Xclose`
of the run meets a socket that waits unattended. -/
theorem wakesUp_iff (sha1 : Sha1) (localAddr : XiaPath) (junk : DagInfo) (is : List Input) :
    Machine.AllStates (step sha1) WakesUp (init localAddr junk) is ↔
      Machine.AllSteps (step sha1) KeepsWakeup (init localAddr junk) is :=
  Machine.allStates_iff_allSteps (I := Fresh) (E := fun _ => True)
    (fun _ _ _ _ _ hfresh h hs => ⟨fresh_step hfresh hs, wakesUp_step hfresh h hs⟩)
    (fun _ _ => trivial) (fresh_init localAddr junk) (wakesUp_init localAddr junk)

/-- A duplicate of the SYNACK switches the timer of unacknowledged data off.  The timer finds
nothing to do at 300, and the socket is closed at 301: it has a deadline that has passed, and the
timer is scheduled for the teardown. -/
theorem not_wakesUp_after_close : ∃ p s out d, answersToTwoSends[0]? = some p ∧
    Machine.run (step Sha1.zero) host [⟨.zero 0, .xsocket 1 1⟩, connectCall, ⟨.zero 0, .network p⟩,
      ⟨.zero 0, .xsend 1 [1]⟩, ⟨.zero 0, .network p⟩, ⟨.zero 300, .timer⟩,
      ⟨.zero 301, .xclose 1⟩] = .ok (s, out) ∧
    s.portToDagInfo.lookup 1 = some d ∧ d.timerOn = true ∧ d.dataackWaiting = true ∧
    d.expiry = 300 ∧ s.timer = some 240301 ∧ ¬ WakesUp s := by
  obtain ⟨p, hp, s, out, hrun, d, hd, hon, hdata, hexpiry, htimer⟩ :
      ∃ p, answersToTwoSends[0]? = some p ∧ ∃ s out,
        Machine.run (step Sha1.zero) host [⟨.zero 0, .xsocket 1 1⟩, connectCall,
          ⟨.zero 0, .network p⟩, ⟨.zero 0, .xsend 1 [1]⟩, ⟨.zero 0, .network p⟩,
          ⟨.zero 300, .timer⟩, ⟨.zero 301, .xclose 1⟩] = .ok (s, out) ∧
        ∃ d, s.portToDagInfo.lookup 1 = some d ∧ d.timerOn = true ∧ d.dataackWaiting = true ∧
          d.expiry = 300 ∧ s.timer = some 240301 := by decide +kernel
  refine ⟨p, s, out, d, hp, hrun, hd, hon, hdata, hexpiry, htimer, fun h => ?_⟩
  have hserved := (h 1 d hd).stream hon (.inr hdata)
  rw [htimer, hexpiry, before_some] at hserved
  exact absurd hserved (by decide)

end XTransport

end Xia
