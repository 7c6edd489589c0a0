import Xia.Transport.Equiv.Stream

/-!
# Waiting sockets and their timer

Three waiting flags of a socket share one flag `timer_on`, and a socket whose `timer_on` is not set
is passed over by `run_timer`.  A SYNACK, an ACK of everything and a timer that gives up clear
`timer_on`, whatever else the socket waits for.

`serviced_iff`: in a run from a configured element every waiting socket has its timer on in every
state, exactly if none of these events meets a socket that waits for something else.  Where the
timer is on, a closed socket is removed after finitely many ticks and unacknowledged data is sent
again at every expiry.
-/

namespace Xia

open List Option

namespace Stream

variable {now : Nat} {st st' : Stream}

def Armed (st : Stream) : Prop :=
  st.synackWaiting ∨ st.dataackWaiting ∨ st.teardownWaiting → st.timerOn

/-- What an event has to satisfy so that a socket stays armed: where it clears `timer_on`, the
socket waits for nothing else. -/
def KeepsArmed (now : Nat) (st : Stream) : StreamEvent → Prop
  | .synack => ¬ st.dataackWaiting ∧ ¬ st.teardownWaiting
  | .ack n => DagInfo.toInt st.base < DagInfo.toInt n → n = st.nextSeqnum →
      ¬ st.synackWaiting ∧ ¬ st.teardownWaiting
  | .timer => st.timerOn →
      (st.SynDue now → maxConnectTries < st.numConnectTries →
        ¬ st.dataackWaiting ∧ ¬ st.teardownWaiting) ∧
      (¬ st.SynDue now → st.DataDue now → st.Exhausted → ¬ st.teardownWaiting)
  | _ => True

theorem Idle.armed (h : st.Idle) : st.Armed := by
  rintro (hw | hw | hw)
  · rw [h.1] at hw
    cases hw
  · rw [h.2.1] at hw
    cases hw
  · rw [h.2.2] at hw
    cases hw

/-- The timer was switched off: the socket may wait for nothing. -/
theorem armed_iff_of_timerOn_eq_false (h : st.timerOn = false) :
    st.Armed ↔ ¬ st.synackWaiting ∧ ¬ st.dataackWaiting ∧ ¬ st.teardownWaiting := by
  simp only [Armed, h, Bool.false_eq_true, imp_false, not_or]

theorem Tick.armed_iff (h : Tick now st (some st')) (harm : st.Armed) :
    st'.Armed ↔ st.KeepsArmed now .timer := by
  cases h with
  | idle hdue =>
    refine iff_of_true harm fun hon => ?_
    obtain ⟨hsyn, hdata, -⟩ := hdue hon
    exact ⟨fun h => absurd h hsyn, fun _ h => absurd h hdata⟩
  | synResend hon hdue htries =>
    exact iff_of_true (fun _ => hon)
      fun _ => ⟨fun _ hgt => absurd hgt (Int.not_lt.2 htries), fun h => absurd hdue h⟩
  | synGiveUp hon hdue htries =>
    rw [armed_iff_of_timerOn_eq_false rfl]
    constructor
    · rintro ⟨-, hdata, htear⟩ -
      exact ⟨fun _ _ => ⟨hdata, htear⟩, fun h => absurd hdue h⟩
    · intro hkeep
      obtain ⟨hdata, htear⟩ := (hkeep hon).1 hdue htries
      exact ⟨by simp, hdata, htear⟩
  | dataResend hon hsyn hdue htries =>
    exact iff_of_true (fun _ => hon)
      fun _ => ⟨fun h => absurd h hsyn, fun _ _ hex => absurd hex htries⟩
  | dataStop hon hsyn hdue htries =>
    -- the two waits share one expiry, so the SYN is not waited for
    have hnosyn : ¬ st.synackWaiting := fun hw => hsyn ⟨hw, hdue.2⟩
    rw [armed_iff_of_timerOn_eq_false rfl]
    constructor
    · rintro ⟨-, -, htear⟩ -
      exact ⟨fun h => absurd h hsyn, fun _ _ _ => htear⟩
    · exact fun hkeep => ⟨hnosyn, by simp, (hkeep hon).2 hsyn hdue htries⟩

theorem Tick.keepsArmed_of_removed (h : Tick now st none) : st.KeepsArmed now .timer := by
  cases h with
  | removed hon hsyn hdata hdue =>
    exact fun _ => ⟨fun h => absurd h hsyn, fun _ h => absurd h hdata⟩

/-- An ACK that acknowledges everything switches the timer off, any other one leaves the socket
armed. -/
theorem acked_armed_iff {n : UInt32} {ring : Fin maxWinSize → Option Packet} (harm : st.Armed) :
    (st.acked now n ring).Armed ↔ st.KeepsArmed now (.ack n) := by
  by_cases hlt : DagInfo.toInt st.base < DagInfo.toInt n
  · by_cases heq : n = st.nextSeqnum
    · have hoff : (st.acked now n ring).timerOn = false := by
        simpa [acked, if_pos hlt] using heq
      have hdata : (st.acked now n ring).dataackWaiting = false := by
        simpa [acked, if_pos hlt] using heq
      rw [armed_iff_of_timerOn_eq_false hoff, hdata]
      constructor
      · rintro ⟨hsyn, -, htear⟩ - -
        exact ⟨hsyn, htear⟩
      · intro hkeep
        obtain ⟨hsyn, htear⟩ := hkeep hlt heq
        exact ⟨hsyn, by simp, htear⟩
    · exact iff_of_true (fun _ => by simp [acked, hlt, heq]) fun _ h => absurd h heq
  · refine iff_of_true ?_ fun h => absurd h hlt
    simpa [Armed, acked, hlt] using harm

/-- **The condition is exact for one transition.** -/
theorem Step.armed_iff {e : StreamEvent} (h : Step now e st (some st')) (harm : st.Armed) :
    st'.Armed ↔ st.KeepsArmed now e := by
  cases h with
  | other => exact iff_of_true harm trivial
  | opened _ _ hidle => exact iff_of_true hidle.armed trivial
  | connect => exact iff_of_true (fun _ => rfl) trivial
  | accepted _ _ hidle => exact iff_of_true hidle.armed trivial
  | close => exact iff_of_true (fun _ => rfl) trivial
  | send => exact iff_of_true (fun _ => rfl) trivial
  | synack =>
    rw [armed_iff_of_timerOn_eq_false rfl]
    exact ⟨fun h => h.2, fun h => ⟨by simp, h⟩⟩
  | data => exact iff_of_true harm trivial
  | ack _ n ring hring => exact acked_armed_iff harm
  | timer _ _ htick => exact htick.armed_iff harm

/-! ### Closed sockets -/

/-- How often the timer can still send something again for the socket. -/
def triesLeft (st : Stream) : Nat :=
  (maxConnectTries + 1 - st.numConnectTries).toNat +
    (maxRetransmitTries - st.numRetransmitTries).toNat

theorem Tick.triesLeft_lt (h : Tick now st (some st')) (harm : st.Armed)
    (hkeep : st.KeepsArmed now .timer) (htear : st.teardownWaiting)
    (hdue : st.teardownExpiry ≤ now) :
    st'.teardownWaiting ∧ st'.teardownExpiry = st.teardownExpiry ∧ st'.Armed ∧
      st'.triesLeft < st.triesLeft := by
  have hon : st.timerOn := harm (.inr (.inr htear))
  have harm' : st'.Armed := (h.armed_iff harm).2 hkeep
  cases h with
  | idle hno => exact absurd ⟨htear, hdue⟩ (hno hon).2.2
  | synResend _ _ htries =>
    refine ⟨htear, rfl, harm', ?_⟩
    simp only [triesLeft]
    omega
  | synGiveUp _ hsyn htries => exact absurd htear ((hkeep hon).1 hsyn htries).2
  | dataResend _ _ _ htries =>
    refine ⟨htear, rfl, harm', ?_⟩
    have hlt : st.numRetransmitTries < maxRetransmitTries := by
      by_contra hge
      exact htries (.inl (by omega))
    simp only [triesLeft]
    omega
  | dataStop _ hsyn hdata htries => exact absurd htear ((hkeep hon).2 hsyn hdata htries)

end Stream

namespace XTransport

variable {sha1 : Sha1} {env : Env} {s s' : XTransport} {port : UInt16} {out : List Output}

/-- The socket of the port, if there is one, is armed. -/
def Armed (port : UInt16) (s : XTransport) : Prop :=
  ∀ d, s.portToDagInfo.lookup port = some d → d.stream.Armed

def KeepsArmed (port : UInt16) (s : XTransport) (i : Input) : Prop :=
  ∀ d, s.portToDagInfo.lookup port = some d →
    d.stream.KeepsArmed i.env.now (s.streamEvent port i.event)

def ticks (envs : List Env) : List Input := envs.map fun env => ⟨env, .timer⟩

/-- What it means for the socket of a port that the timer looks after it. -/
structure Serviced (sha1 : Sha1) (port : UInt16) (s : XTransport) : Prop where
  armed : Armed port s
  /-- a closed socket is removed by ticks that keep it armed, at the latest when nothing can be
  sent again -/
  removed : ∀ d envs s' out, s.portToDagInfo.lookup port = some d → d.teardownWaiting →
    (∀ env ∈ envs, d.teardownExpiry ≤ env.now) → d.stream.triesLeft < envs.length →
    Machine.run (step sha1) s (ticks envs) = .ok (s', out) →
    Machine.AllSteps (step sha1) (KeepsArmed port) s (ticks envs) →
    s'.portToDagInfo.lookup port = none
  /-- unacknowledged data that is due is sent again and stays due, up to the limit -/
  resent : ∀ d env s' out, s.portToDagInfo.lookup port = some d → d.dataackWaiting →
    ¬ d.synackWaiting → d.expiry ≤ env.now → d.numRetransmitTries < maxRetransmitTries →
    d.held ≠ [] → s.runTimer env = .ok (s', out) →
    (∀ p ∈ d.held, ∃ q, .network q ∈ out ∧ DagInfo.IsCopy q p) ∧
      ∃ d', s'.portToDagInfo.lookup port = some d' ∧ d'.timerOn ∧ d'.dataackWaiting ∧
        d'.expiry = env.now + ackDelay

theorem armed_init (localAddr : XiaPath) (junk : DagInfo) : Armed port (init localAddr junk) := by
  intro d hd
  simp [init] at hd

theorem armed_step {i : Input} (hclean : Clean s) (harm : Armed port s)
    (hs : step sha1 s i = .ok (s', out)) : Armed port s' ↔ KeepsArmed port s i := by
  cases hd : s.portToDagInfo.lookup port with
  | none =>
    -- a socket that the event makes is armed from the start
    refine iff_of_true (fun d' hd' => ?_) (fun d hd' => by rw [hd] at hd'; cases hd')
    rcases stream_born hd hclean hs hd' with hidle | hon
    · exact hidle.armed
    · exact fun _ => hon
  | some d =>
    have hstep := stream_step hclean hs hd
    have hkeeps : KeepsArmed port s i ↔
        d.stream.KeepsArmed i.env.now (s.streamEvent port i.event) := by
      simp [KeepsArmed, hd]
    rw [hkeeps]
    cases hd' : s'.portToDagInfo.lookup port with
    | none =>
      -- the socket was removed, which only the timer does
      rw [hd', map_none] at hstep
      refine iff_of_true (fun d' h' => by rw [hd'] at h'; cases h') ?_
      generalize s.streamEvent port i.event = e at hstep
      cases hstep with
      | timer _ _ htick => exact htick.keepsArmed_of_removed
    | some d' =>
      rw [hd', map_some] at hstep
      have harm' : Armed port s' ↔ d'.stream.Armed := by simp [Armed, hd']
      rw [harm']
      exact hstep.armed_iff (harm d hd)

theorem lookup_none_ticks {envs : List Env}
    (h : Machine.run (step sha1) s (ticks envs) = .ok (s', out))
    (hnone : s.portToDagInfo.lookup port = none) : s'.portToDagInfo.lookup port = none := by
  induction envs generalizing s out with
  | nil =>
    cases h
    exact hnone
  | cons env envs ih =>
    obtain ⟨s₁, o₁, o₂, h₁, h₂, -⟩ := Machine.run_cons_eq_ok.1 h
    exact ih h₂ (runTimer_none h₁ hnone)

/-- **A closed socket is removed** by ticks that keep it armed. -/
theorem removed_of_ticks {envs : List Env} {d : DagInfo} (harm : Armed port s)
    (hd : s.portToDagInfo.lookup port = some d) (htear : d.teardownWaiting)
    (hdue : ∀ env ∈ envs, d.teardownExpiry ≤ env.now) (hmany : d.stream.triesLeft < envs.length)
    (h : Machine.run (step sha1) s (ticks envs) = .ok (s', out))
    (hkeeps : Machine.AllSteps (step sha1) (KeepsArmed port) s (ticks envs)) :
    s'.portToDagInfo.lookup port = none := by
  -- every tick removes the socket or uses up one of the tries that are left
  induction envs generalizing s d out with
  | nil => simp at hmany
  | cons env envs ih =>
    obtain ⟨s₁, o₁, o₂, h₁, h₂, -⟩ := Machine.run_cons_eq_ok.1 h
    obtain ⟨hkeep, hkeeps₁⟩ := hkeeps s₁ o₁ h₁
    obtain ⟨o, hv, -⟩ := runTimer_some h₁ hd
    have htick := tick_of_visited hv
    cases hd₁ : s₁.portToDagInfo.lookup port with
    | none => exact lookup_none_ticks h₂ hd₁
    | some d₁ =>
      rw [hd₁, map_some] at htick
      obtain ⟨htear₁, hexp₁, harm₁, hlt⟩ := htick.triesLeft_lt (harm d hd) (hkeep d hd) htear
        (hdue env mem_cons_self)
      have hexp₁ : d₁.teardownExpiry = d.teardownExpiry := hexp₁
      refine ih (fun d₂ hd₂ => ?_) hd₁ htear₁ (fun env' henv' => ?_) ?_ h₂ hkeeps₁
      · rw [hd₁] at hd₂
        cases hd₂
        exact harm₁
      · rw [hexp₁]
        exact hdue env' (mem_cons_of_mem _ henv')
      · rw [length_cons] at hmany
        omega

/-- **Unacknowledged data is sent again** at every expiry, up to the limit. -/
theorem resent_of_armed {d : DagInfo} (harm : Armed port s)
    (hd : s.portToDagInfo.lookup port = some d) (hdata : d.dataackWaiting)
    (hsyn : ¬ d.synackWaiting) (hdue : d.expiry ≤ env.now)
    (htries : d.numRetransmitTries < maxRetransmitTries) (hheld : d.held ≠ [])
    (h : s.runTimer env = .ok (s', out)) :
    (∀ p ∈ d.held, ∃ q, .network q ∈ out ∧ DagInfo.IsCopy q p) ∧
      ∃ d', s'.portToDagInfo.lookup port = some d' ∧ d'.timerOn ∧ d'.dataackWaiting ∧
        d'.expiry = env.now + ackDelay := by
  have hon : d.timerOn := harm d hd (.inr (.inl hdata))
  -- of all that the timer can do to the socket, only the retransmission is left
  obtain ⟨o, hv, ho⟩ := runTimer_some h hd
  generalize hd' : s'.portToDagInfo.lookup port = d'? at hv
  cases hv with
  | removed hout =>
    cases hout with
    | tearDown _ _ hnodata => exact absurd ⟨hdata, hdue⟩ hnodata
  | kept hout hcid =>
    obtain ⟨path, t₁, t₂, -, rfl⟩ := DagInfo.cidTimeouts_eq_ok hcid
    cases hout with
    | idle hno => exact absurd ⟨hdata, hdue⟩ (hno hon).2.1
    | synResend _ _ _ _ hw => exact absurd hw hsyn
    | synGiveUp _ hw => exact absurd hw hsyn
    | dataStop _ _ _ _ _ hex =>
      rcases hex with hge | hnil
      · omega
      · exact absurd hnil hheld
    | dataResend path' copies _ _ _ _ _ _ hcopies =>
      refine ⟨fun p hp => ?_, _, rfl, hon, hdata, rfl⟩
      obtain ⟨q, hq, hcopy⟩ := (DagInfo.isCopy_of_forall₂ hcopies).1 p hp
      exact ⟨q, ho (mem_append_left _ (List.mem_map_of_mem hq)), hcopy⟩

theorem serviced_of_armed (harm : Armed port s) : Serviced sha1 port s where
  armed := harm
  removed _ _ _ _ hd htear hdue hmany h hkeeps := removed_of_ticks harm hd htear hdue hmany h hkeeps
  resent _ _ _ _ hd hdata hsyn hdue htries hheld h :=
    resent_of_armed harm hd hdata hsyn hdue htries hheld h

/-- **A waiting socket has its timer on**, and so is looked after, in every state of a run, exactly
if no event of the run switches the timer off under a wait. -/
theorem serviced_iff (sha1 : Sha1) (localAddr : XiaPath) (junk : DagInfo) (port : UInt16)
    (is : List Input) :
    Machine.AllStates (step sha1) (Serviced sha1 port) (init localAddr junk) is ↔
      Machine.AllSteps (step sha1) (KeepsArmed port) (init localAddr junk) is := by
  have hiff : Machine.AllStates (step sha1) (Armed port) (init localAddr junk) is ↔
      Machine.AllSteps (step sha1) (KeepsArmed port) (init localAddr junk) is :=
    Machine.allStates_iff_allSteps (I := Clean) (E := fun _ => True)
      (fun s i s' out _ hclean harm hs => ⟨clean_step hclean hs, armed_step hclean harm hs⟩)
      (fun _ _ => trivial) (clean_init localAddr junk) (armed_init localAddr junk)
  rw [← hiff]
  exact ⟨fun h => h.mono fun _ hs => hs.armed, fun h => h.mono fun _ hs => serviced_of_armed hs⟩

/-- A duplicate of the SYNACK arrives after data was sent: the data waits for its ACK, and the timer
is off. -/
theorem not_armed_after_duplicate_synack : ∃ p s out d, answersToTwoSends[0]? = some p ∧
    Machine.run (step Sha1.zero) host [⟨.zero 0, .xsocket 1 1⟩, connectCall, ⟨.zero 0, .network p⟩,
      ⟨.zero 0, .xsend 1 [1]⟩, ⟨.zero 0, .network p⟩] = .ok (s, out) ∧
    s.portToDagInfo.lookup 1 = some d ∧ d.dataackWaiting = true ∧ d.timerOn = false := by
  simp only [exists_and_left]
  decide +kernel

end XTransport

end Xia
