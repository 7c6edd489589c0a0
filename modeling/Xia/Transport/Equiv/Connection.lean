import Xia.GoBackN
import Xia.Transport.Equiv.Host

/-!
# The connection refines go-back-N

`direction ports g a` reads off a state of the system the go-back-N state of the stream that side
`a` sends.  Every transition of the system is a sequence of go-back-N steps in both directions
(`advances_of_next`), as long as the sequence numbers do not wrap around, so the invariant of the
protocol holds in every reachable state.

`received_prefix_sent` and `bounded_of_run` are its consequences for the applications and for the
counters.
-/

namespace Xia

open Function List Option Result
open Machine (run run_cons_eq_ok)
open Packet (ackOf dataOf)

namespace Side

@[simp] theorem peer_peer (a : Side) : a.peer.peer = a := by cases a <;> rfl

@[simp] theorem peer_ne (a : Side) : a.peer ≠ a := by cases a <;> decide

@[simp] theorem ne_peer (a : Side) : a ≠ a.peer := by cases a <;> decide

end Side

theorem Ports.of_ne_zero (ports : Ports) (a : Side) : ports.of a ≠ 0 := by
  cases a with
  | client => exact ports.client_ne
  | server => exact ports.server_ne

theorem Ports.of_eq_home_iff (ports : Ports) (a : Side) :
    ports.of a = ports.home a ↔ a = .client := by
  cases a with
  | client => simp [Ports.of, Ports.home]
  | server => simpa [Ports.of, Ports.home] using ports.server_ne_listener

namespace Connection

open XTransport (Host Effect MaySend mem_netPackets)

variable {sha1 : Sha1} {ports : Ports} {g g' : Connection} {a : Side} {env : Env}
variable {p : Packet} {n : UInt32} {seg : Option Segment} {o : List Empty}

def direction (ports : Ports) (g : Connection) (a : Side) : GoBackN.State (List UInt8) where
  log := g.sent a
  base := (((g.host a).counters (ports.of a)).getD (0, 0)).1.toNat
  expected := (((g.host a.peer).counters (ports.of a.peer)).getD (0, 0)).2.toNat
  delivered := g.received a.peer
  data := (g.flight a.peer).filterMap dataOf
  acks := (g.flight a).filterMap ackOf

/-- The hosts and the packets on the way are those of one connection. -/
structure Ok (ports : Ports) (g : Connection) : Prop where
  host : ∀ a, Host (ports.of a) (ports.home a) (g.sent a) (g.host a)
  flight : ∀ a, ∀ p ∈ g.flight a, ∃ seg, p.Says seg ∧ (a = .client → seg ≠ .syn)
  client : ((g.host .client).counters ports.client).isSome
  accepted : ((g.host .server).counters ports.server).isSome ↔ g.accepted = true

/-! ### The packets of a host -/

theorem dataOf_of_data {payload : List UInt8} (h : p.Says (.data n payload)) :
    p.dataOf = some (n.toNat, payload) := by
  rw [dataOf, h.segment]

theorem ackOf_of_ack (h : p.Says (.ack n)) : p.ackOf = some n.toNat := by
  rw [ackOf, h.segment]

theorem dataOf_eq_none (h : p.Says (.ack n)) : p.dataOf = none := by
  rw [dataOf, h.segment]

theorem ackOf_eq_none {payload : List UInt8} (h : p.Says (.data n payload)) : p.ackOf = none := by
  rw [ackOf, h.segment]

theorem ackOf_of_maySend {port home : UInt16} {log : List (List UInt8)}
    (h : MaySend port home log p) : p.ackOf = none := by
  rcases h with ⟨h, -⟩ | h | ⟨n, payload, h, -⟩
  · rw [ackOf, h.segment]
  · rw [ackOf, h.segment]
  · exact ackOf_eq_none h

theorem log_of_maySend {port home : UInt16} {log : List (List UInt8)} {m : Nat × List UInt8}
    (h : MaySend port home log p) (hm : p.dataOf = some m) : log[m.1]? = some m.2 := by
  rcases h with ⟨h, -⟩ | h | ⟨n, payload, h, hlog⟩
  · simp [dataOf, h.segment] at hm
  · simp [dataOf, h.segment] at hm
  · rw [dataOf_of_data h, Option.some.injEq] at hm
    subst hm
    exact hlog

/-! ### One event of a host -/

/-- The system after an event of side `a`. -/
def update (g : Connection) (a : Side) (s : XTransport) (log : List (List UInt8))
    (out : List Output) (payloads : List (List UInt8)) : Connection :=
  { g with
    host := Function.update g.host a s
    flight := Function.update g.flight a.peer (g.flight a.peer ++ netPackets out)
    sent := Function.update g.sent a log
    received := Function.update g.received a (g.received a ++ payloads) }

variable {s : XTransport} {log payloads : List (List UInt8)} {out : List Output}

theorem direction_update_self : direction ports (g.update a s log out payloads) a =
      { direction ports g a with
        log, base := ((s.counters (ports.of a)).getD (0, 0)).1.toNat
        data := (direction ports g a).data ++ (netPackets out).filterMap dataOf } := by
  simp [direction, update, update_of_ne]

theorem direction_update_peer : direction ports (g.update a s log out payloads) a.peer =
      { direction ports g a.peer with
        expected := ((s.counters (ports.of a)).getD (0, 0)).2.toNat
        delivered := (direction ports g a.peer).delivered ++ payloads
        acks := (direction ports g a.peer).acks ++ (netPackets out).filterMap ackOf } := by
  simp [direction, update, update_of_ne]

/-- What is recorded for the application: not what a SYNACK hands up. -/
def recorded (seg : Option Segment) (port : UInt16) (out : List Output) : List (List UInt8) :=
  if seg = some .synack then [] else payloadsTo port out

/-- **One event of a host is a sequence of go-back-N steps in both directions**: it acts as the
sender of one stream and as the receiver of the other. -/
theorem steps_of_effect (h : Effect (ports.of a) (ports.home a) (g.sent a) (g.host a) s seg log out)
    (hinv : GoBackN.Inv (direction ports g a.peer)) (hbound : (g.sent a.peer).length < 2 ^ 31)
    (hdata : ∀ n payload, seg = some (.data n payload) →
      (n.toNat, payload) ∈ (direction ports g a.peer).data)
    (hack : ∀ n, seg = some (.ack n) → n.toNat ∈ (direction ports g a).acks) :
    GoBackN.Steps (direction ports g a)
        (direction ports (g.update a s log out (recorded seg (ports.of a) out)) a) ∧
      GoBackN.Steps (direction ports g a.peer)
        (direction ports (g.update a s log out (recorded seg (ports.of a) out)) a.peer) := by
  rw [direction_update_self, direction_update_peer]
  have hexp : ∀ c : UInt32 × UInt32, (g.host a).counters (ports.of a) = some c →
      (direction ports g a.peer).expected = c.2.toNat := by
    intro c hc
    simp [direction, hc]
  cases h with
  | send payload p n hn hp hnet hmsgs hsame =>
    rw [hsame, hnet, recorded, if_neg (by simp), hmsgs]
    constructor
    · have hstep := GoBackN.Step.send (direction ports g a) payload
      simpa [direction, dataOf_of_data hp, hn] using GoBackN.Steps.single hstep
    · simpa [direction, ackOf_eq_none hp] using GoBackN.Steps.refl _
  | resend hnet hmsgs hsame =>
    -- no counter moves, and of the packets only the DATA of the log matter to the streams
    have hrec : recorded seg (ports.of a) out = [] := by
      by_cases hseg : seg = some .synack
      · exact if_pos hseg
      · rw [recorded, if_neg hseg, hmsgs hseg]
    have hacks : (netPackets out).filterMap ackOf = [] :=
      filterMap_eq_nil_iff.2 fun p hp => ackOf_of_maySend (hnet p hp)
    rw [hsame, hrec, hacks]
    constructor
    · refine GoBackN.steps_resend (direction ports g a) _ fun m hm => ?_
      obtain ⟨p, hp, hm⟩ := mem_filterMap.1 hm
      exact log_of_maySend (hnet p hp) hm
    · simpa [direction] using GoBackN.Steps.refl _
  | take b n payload p hp hnet hmsgs hold hnew =>
    have hmem := hdata n payload rfl
    have hlt : n.toNat < (g.sent a.peer).length := hinv.lt_of_mem_data hmem
    -- here the bound on the log is used: the 32-bit counter does not wrap around
    have hsucc : (n + 1).toNat = n.toNat + 1 := by
      rw [UInt32.toNat_add, UInt32.toNat_one]
      exact Nat.mod_eq_of_lt (by omega)
    rw [hnet, hnew, recorded, if_neg (by simp), hmsgs]
    constructor
    · simpa [direction, hold, dataOf_eq_none hp] using GoBackN.Steps.refl _
    · have hexp' := hexp _ hold
      have hstep := GoBackN.Step.receive (direction ports g a.peer) payload (by rwa [hexp'])
      rw [hexp'] at hstep
      simpa [ackOf_of_ack hp, hsucc] using GoBackN.Steps.single hstep
  | discard b e n payload p hp hnet hmsgs hold hnew =>
    rw [hnet, hnew, recorded, if_neg (by simp), hmsgs]
    constructor
    · simpa [direction, hold, dataOf_eq_none hp] using GoBackN.Steps.refl _
    · have hstep := GoBackN.Step.discard (direction ports g a.peer)
      rw [hexp _ hold] at hstep
      simpa [ackOf_of_ack hp] using GoBackN.Steps.single hstep
  | ack b e n hnet hmsgs hold hnew =>
    rw [hnet, hnew, recorded, if_neg (by simp), hmsgs]
    constructor
    · have hlog : (direction ports g a).log = g.sent a := rfl
      have hstep := GoBackN.Step.ack (direction ports g a) n.toNat (hack n rfl)
      simpa [hlog] using GoBackN.Steps.single hstep
    · simpa [direction, hold] using GoBackN.Steps.refl _

theorem Ok.update (hok : Ok ports g) (hhost : Host (ports.of a) (ports.home a) log s)
    (heff : Effect (ports.of a) (ports.home a) (g.sent a) (g.host a) s seg log out) :
    Ok ports (g.update a s log out payloads) := by
  -- the event opens and removes no connected socket
  have hsome : ∀ b, (((g.update a s log out payloads).host b).counters (ports.of b)).isSome =
      ((g.host b).counters (ports.of b)).isSome := by
    intro b
    by_cases hb : b = a
    · subst hb
      simpa [Connection.update] using heff.isSome_counters
    · simp [Connection.update, update_of_ne hb]
  refine ⟨fun b => ?_, fun b p hp => ?_, ?_, ?_⟩
  · by_cases hb : b = a
    · subst hb
      simpa [Connection.update] using hhost
    · simpa [Connection.update, update_of_ne hb] using hok.host b
  · by_cases hb : b = a.peer
    · subst hb
      have hp' : p ∈ g.flight a.peer ++ netPackets out := by simpa [Connection.update] using hp
      rcases mem_append.1 hp' with hp' | hp'
      · exact hok.flight _ p hp'
      · -- a SYN that is on its way to the client would come from the server
        obtain ⟨seg', hsaid, hsyn⟩ := heff.segments p hp'
        refine ⟨seg', hsaid, fun hclient hseg => ?_⟩
        rw [(ports.of_eq_home_iff a).1 (hsyn hseg)] at hclient
        cases hclient
    · exact hok.flight b p (by simpa [Connection.update, update_of_ne hb] using hp)
  · rw [← hok.client]
    exact hsome .client
  · exact (Bool.eq_iff_iff.1 (hsome .server)).trans hok.accepted

/-! ### The network -/

theorem Ok.channel {flight : Side → List Packet} (hok : Ok ports g)
    (hflight : ∀ a, flight a ⊆ g.flight a) : Ok ports { g with flight } :=
  ⟨hok.host, fun a p hp => hok.flight a p (hflight a hp), hok.client, hok.accepted⟩

theorem steps_of_channel {flight : Side → List Packet} (hflight : ∀ a, flight a ⊆ g.flight a)
    (a : Side) : GoBackN.Steps (direction ports g a) (direction ports { g with flight } a) :=
  .single (.channel (direction ports g a) _ _ (filterMap_subset _ (hflight a.peer))
    (filterMap_subset _ (hflight a)))

theorem update_subset (flight : Side → List Packet) (side : Side) {ps : List Packet}
    (hps : ps ⊆ flight side) (a : Side) : Function.update flight side ps a ⊆ flight a := by
  by_cases ha : a = side
  · subst ha
    rwa [update_self]
  · rw [update_of_ne ha]
    exact List.Subset.refl _

theorem getElem?_toList_subset (ps : List Packet) (i : Nat) : ps[i]?.toList ⊆ ps := by
  intro p hp
  exact mem_of_getElem? (mem_toList.1 hp)

/-! ### The transitions -/

/-- What every transition establishes. -/
def Advances (ports : Ports) (g g' : Connection) : Prop :=
  Ok ports g' ∧ ∀ a, GoBackN.Steps (direction ports g a) (direction ports g' a)

theorem Advances.refl (hok : Ok ports g) : Advances ports g g := ⟨hok, fun _ => .refl _⟩

theorem handle_eq_ok {e : Event} (h : g.handle sha1 ports a env e = .ok g') :
    ∃ s out, (g.host a).handle sha1 env e = .ok (s, out) ∧
      g' = g.update a s (g.sent a) out (payloadsTo (ports.of a) out) := by
  simp only [handle, bind_eq_ok] at h
  obtain ⟨⟨s, out⟩, hs, h⟩ := h
  refine ⟨s, out, hs, ?_⟩
  rw [← pure_eq_ok.1 h, update, update_eq_self]

theorem Ok.exists_socket (hok : Ok ports g) (hacc : ¬ (a = .server ∧ g.accepted = false)) :
    ∃ d, (g.host a).portToDagInfo.lookup (ports.of a) = some d := by
  have hsome : ((g.host a).counters (ports.of a)).isSome := by
    cases a with
    | client => exact hok.client
    | server => exact hok.accepted.2 (by simpa using hacc)
  rw [XTransport.counters, isSome_map] at hsome
  exact isSome_iff_exists.1 hsome

theorem advances_accept (hok : Ok ports g) (hs : g.accept sha1 ports env = .ok g') :
    Advances ports g g' := by
  rw [accept] at hs
  split at hs
  · cases hs
    exact .refl hok
  · rename_i hacc
    simp only [bind_eq_ok, pure_eq_ok] at hs
    obtain ⟨g₁, h₁, rfl⟩ := hs
    obtain ⟨s, out, hs₁, rfl⟩ := handle_eq_ok h₁
    have hnone : (g.host .server).counters ports.server = none := by
      rw [← not_isSome_iff_eq_none, hok.accepted]
      exact hacc
    have hserver : Host ports.server ports.listener (g.sent .server) (g.host .server) :=
      hok.host .server
    obtain ⟨hhost, hnet, hmsgs, hcounters⟩ := hserver.xaccept ports.server_ne hnone hs₁
    -- the new socket has the counters that were assumed before
    have hzero : (s.counters ports.server).getD (0, 0) = (0, 0) := by
      rw [hcounters]
      split <;> rfl
    refine ⟨⟨fun b => ?_, fun b p hp => ?_, hok.client, ?_⟩, fun b => ?_⟩
    · cases b with
      | client => exact hok.host .client
      | server => exact hhost
    · refine hok.flight b p ?_
      cases b with
      | client => simpa [update, Side.peer, hnet] using hp
      | server => exact hp
    · change (s.counters ports.server).isSome = true ↔ _
      rw [hcounters]
      cases (g.host .server).pendingConnectionBuf.isEmpty <;> simp
    · have hsame : direction ports { g.update .server s (g.sent .server) out
          (payloadsTo (ports.of .server) out) with
          accepted := !(g.host .server).pendingConnectionBuf.isEmpty } b = direction ports g b := by
        cases b with
        | client => simp [direction, update, Side.peer, Ports.of, hnet, hmsgs, hzero, hnone]
        | server => simp [direction, update, Side.peer, Ports.of, hnet, hzero, hnone]
      rw [hsame]
      exact .refl _

section

variable (hok : Ok ports g) (hinv : ∀ a, GoBackN.Inv (direction ports g a))
  (hbound : ∀ a, (g.sent a).length < 2 ^ 31)
include hok hinv hbound

theorem advances_of_effect (hhost : Host (ports.of a) (ports.home a) log s)
    (heff : Effect (ports.of a) (ports.home a) (g.sent a) (g.host a) s seg log out)
    (hflight : ∀ seg', seg = some seg' → ∃ p ∈ g.flight a, p.Says seg') :
    Advances ports g (g.update a s log out (recorded seg (ports.of a) out)) := by
  have hdata : ∀ n payload, seg = some (.data n payload) →
      (n.toNat, payload) ∈ (direction ports g a.peer).data := by
    intro n payload hseg
    obtain ⟨p, hp, hsaid⟩ := hflight _ hseg
    exact mem_filterMap.2 ⟨p, by simpa using hp, dataOf_of_data hsaid⟩
  have hack : ∀ n, seg = some (.ack n) → n.toNat ∈ (direction ports g a).acks := by
    intro n hseg
    obtain ⟨p, hp, hsaid⟩ := hflight _ hseg
    exact mem_filterMap.2 ⟨p, hp, ackOf_of_ack hsaid⟩
  obtain ⟨hself, hpeer⟩ := steps_of_effect heff (hinv a.peer) (hbound a.peer) hdata hack
  refine ⟨hok.update hhost heff, fun b => ?_⟩
  by_cases hb : b = a
  · subst hb
    exact hself
  · obtain rfl : b = a.peer := by
      cases a <;> cases b <;> first | exact absurd rfl hb | rfl
    exact hpeer

theorem advances_send {buf : List UInt8} (hs : g.send sha1 ports a env buf = .ok g') :
    Advances ports g g' := by
  rw [send] at hs
  split at hs
  · cases hs
    exact .refl hok
  · rename_i hgo
    simp only [bind_eq_ok] at hs
    obtain ⟨g₁, h₁, hs⟩ := hs
    obtain ⟨s, out, hs₁, rfl⟩ := handle_eq_ok h₁
    -- `Xsend` and the new entry of the log, in one update
    have hg' : g' = g.update a s (g.sent a ++ [buf.take xiaMaxbuf]) out
        (payloadsTo (ports.of a) out) := by
      rw [← pure_eq_ok.1 hs]
      simp [update]
    have hlt := hbound a
    obtain ⟨d, hd⟩ := hok.exists_socket fun hno => hgo (.inr hno)
    obtain ⟨hhost, heff⟩ := (hok.host a).xsend hd (length_take_le _ _) (by omega) hs₁
    rw [hg']
    exact advances_of_effect hok hinv hbound hhost heff fun _ hno => by cases hno

theorem advances_tick (hs : g.handle sha1 ports a env .timer = .ok g') : Advances ports g g' := by
  obtain ⟨s, out, hs₁, rfl⟩ := handle_eq_ok hs
  obtain ⟨hhost, heff⟩ := (hok.host a).timer hs₁
  exact advances_of_effect hok hinv hbound hhost heff fun _ hno => by cases hno

theorem advances_deliver {i : Nat} {hlim : UInt8}
    (hs : g.deliver sha1 ports a env i hlim = .ok g') : Advances ports g g' := by
  rw [deliver] at hs
  split at hs
  · cases hs
    exact .refl hok
  · rename_i p hp
    simp only [bind_eq_ok, pure_eq_ok] at hs
    obtain ⟨g₁, h₁, hs⟩ := hs
    obtain ⟨s, out, hs₁, rfl⟩ := handle_eq_ok h₁
    have hmem : p ∈ g.flight a := mem_of_getElem? hp
    obtain ⟨seg, hsaid, hsyn⟩ := hok.flight a p hmem
    have hhome : seg = .syn → ports.home a ≠ ports.of a := fun hseg heq =>
      hsyn ((ports.of_eq_home_iff a).1 heq.symm) hseg
    obtain ⟨hhost, heff⟩ :=
      (hok.host a).network (ports.of_ne_zero a) (hsaid.arrive hlim) hhome hs₁
    -- first the event, with the packet still on the way, and then the packet is gone
    have hg' : g' = { g.update a s (g.sent a) out (recorded (some seg) (ports.of a) out) with
        flight := Function.update (g.update a s (g.sent a) out
          (recorded (some seg) (ports.of a) out)).flight a ((g.flight a).eraseIdx i) } := by
      rw [← hs, hsaid.segment]
      by_cases hseg : seg = .synack
      · simp [hseg, update, recorded, update_comm]
      · simp [hseg, update, recorded, update_comm]
    obtain ⟨hok₁, hsteps⟩ := advances_of_effect hok hinv hbound hhost heff
      fun seg' heq => ⟨p, hmem, Option.some.inj heq ▸ hsaid⟩
    have hrest : (g.flight a).eraseIdx i ⊆ (g.update a s (g.sent a) out
        (recorded (some seg) (ports.of a) out)).flight a := by
      simpa [update] using (eraseIdx_sublist _ _).subset
    have hsub := update_subset _ a hrest
    rw [hg']
    exact ⟨hok₁.channel hsub, fun b => (hsteps b).trans (steps_of_channel hsub b)⟩

/-- **Every transition refines go-back-N**, as long as fewer than 2³¹ packets were sent. -/
theorem advances_of_next {act : Action} (hs : g.next sha1 ports act = .ok g') :
    Advances ports g g' := by
  cases act with
  | send side env buf => exact advances_send hok hinv hbound hs
  | tick side env => exact advances_tick hok hinv hbound hs
  | accept env => exact advances_accept hok hs
  | deliver side env i hlim => exact advances_deliver hok hinv hbound hs
  | duplicate side i =>
    cases hs
    have hsub := update_subset g.flight side
      (append_subset.2 ⟨List.Subset.refl _, getElem?_toList_subset (g.flight side) i⟩)
    exact ⟨hok.channel hsub, steps_of_channel hsub⟩
  | lose side i =>
    cases hs
    have hsub := update_subset g.flight side (eraseIdx_sublist (g.flight side) i).subset
    exact ⟨hok.channel hsub, steps_of_channel hsub⟩

end

/-! ### Runs -/

theorem sent_of_handle {e : Event} (h : g.handle sha1 ports a env e = .ok g') :
    g'.sent = g.sent := by
  obtain ⟨s, out, -, rfl⟩ := handle_eq_ok h
  exact update_eq_self _ _

/-- What was passed to `Xsend` is never forgotten. -/
theorem sent_length_le {act : Action} (hs : g.next sha1 ports act = .ok g') (b : Side) :
    (g.sent b).length ≤ (g'.sent b).length := by
  cases act with
  | send side env buf =>
    simp only [next, send] at hs
    split at hs
    · cases hs
      exact Nat.le_refl _
    · simp only [bind_eq_ok, pure_eq_ok] at hs
      obtain ⟨g₁, h₁, rfl⟩ := hs
      change _ ≤ (Function.update g₁.sent side _ b).length
      rw [sent_of_handle h₁]
      by_cases hb : b = side
      · subst hb
        simp
      · rw [update_of_ne hb]
  | tick side env => exact Nat.le_of_eq (by rw [sent_of_handle hs])
  | accept env =>
    simp only [next, accept] at hs
    split at hs
    · cases hs
      exact Nat.le_refl _
    · simp only [bind_eq_ok, pure_eq_ok] at hs
      obtain ⟨g₁, h₁, rfl⟩ := hs
      exact Nat.le_of_eq (by rw [sent_of_handle h₁])
  | deliver side env i hlim =>
    simp only [next, deliver] at hs
    split at hs
    · cases hs
      exact Nat.le_refl _
    · simp only [bind_eq_ok, pure_eq_ok] at hs
      obtain ⟨g₁, h₁, rfl⟩ := hs
      refine Nat.le_of_eq ?_
      split <;> rw [sent_of_handle h₁]
  | duplicate side i =>
    cases hs
    exact Nat.le_refl _
  | lose side i =>
    cases hs
    exact Nat.le_refl _

theorem step_eq_ok {act : Action} (h : step sha1 ports g act = .ok (g', o)) :
    g.next sha1 ports act = .ok g' := by
  rw [step] at h
  cases hnext : g.next sha1 ports act with
  | error f =>
    rw [hnext] at h
    cases h
  | ok g₁ =>
    rw [hnext] at h
    cases h
    rfl

/-- The invariants hold at the end of a run on which fewer than 2³¹ packets were sent in each
direction. -/
theorem inv_of_run {acts : List Action} (hok : Ok ports g)
    (hinv : ∀ a, GoBackN.Inv (direction ports g a))
    (hrun : run (step sha1 ports) g acts = .ok (g', o))
    (hbound : ∀ a, (g'.sent a).length < 2 ^ 31) :
    Ok ports g' ∧ ∀ a, GoBackN.Inv (direction ports g' a) := by
  induction acts generalizing g o with
  | nil =>
    cases hrun
    exact ⟨hok, hinv⟩
  | cons act acts ih =>
    obtain ⟨g₁, o₁, o₂, h₁, h₂, -⟩ := run_cons_eq_ok.1 hrun
    -- the bound is on the last state, so it holds in the states before
    have hgrow : ∀ b, (g.sent b).length ≤ (g'.sent b).length :=
      Machine.run_invariant (I := fun g' => ∀ b, (g.sent b).length ≤ (g'.sent b).length)
        (fun _ _ _ _ hle hs b => Nat.le_trans (hle b) (sent_length_le (step_eq_ok hs) b))
        (fun b => Nat.le_refl _) hrun
    obtain ⟨hok₁, hsteps⟩ := advances_of_next hok hinv
      (fun a => Nat.lt_of_le_of_lt (hgrow a) (hbound a)) (step_eq_ok h₁)
    exact ih hok₁ (fun a => (hinv a).steps (hsteps a)) h₂

/-- `Xsocket` and the `Xbind` calls open a socket without sending a packet. -/
theorem opened_of_opening {u : Setup} {port : UInt16} (hport : port ≠ 0)
    (h : run (XTransport.step sha1) (XTransport.init (u.addr a) (u.junk a))
      (u.opening a port) = .ok (s, out)) :
    XTransport.Opened port s ∧ netPackets out = [] := by
  obtain ⟨s₁, o₁, o₂, hsocket, hbinds, rfl⟩ := run_cons_eq_ok.1 h
  obtain ⟨hopened, hout⟩ := XTransport.opened_xsocket hport hsocket
  obtain ⟨hopened', hout'⟩ := hopened.xbinds hbinds
  exact ⟨hopened', by rw [XTransport.netPackets_append, hout, hout', append_nil]⟩

theorem start_ok {u : Setup} (h : u.start sha1 = .ok g) :
    Ok u.ports g ∧ ∀ a, direction u.ports g a = GoBackN.State.empty := by
  simp only [Setup.start, bind_eq_ok, pure_eq_ok] at h
  obtain ⟨⟨c, oc⟩, hc, ⟨s, os⟩, hs, rfl⟩ := h
  -- the client
  obtain ⟨c₁, o₁, o₂, hopen, hrest, rfl⟩ := Machine.run_append_eq_ok.1 hc
  obtain ⟨hopened, hout⟩ := opened_of_opening u.ports.client_ne hopen
  obtain ⟨c₂, o₃, o₄, hconnect, hnil, rfl⟩ := run_cons_eq_ok.1 hrest
  cases hnil
  obtain ⟨hclient, hcounters, p, hp, hsaid⟩ := hopened.xconnect hconnect
  rw [append_nil]
  have hflight : netPackets (o₁ ++ o₃) = [p] := by
    rw [XTransport.netPackets_append, hout, hp, nil_append]
  -- the server
  obtain ⟨hserver, hnone⟩ :=
    (opened_of_opening u.ports.listener_ne hs).1.host u.ports.server_ne_listener
  have hdata : p.dataOf = none := by rw [dataOf, hsaid.segment]
  have hack : p.ackOf = none := by rw [ackOf, hsaid.segment]
  refine ⟨⟨fun a => ?_, fun a q hq => ?_, ?_, ?_⟩, fun a => ?_⟩
  · cases a with
    | client => exact hclient
    | server => exact hserver
  · cases a with
    | client => cases hq
    | server =>
      have hq' : q ∈ netPackets (o₁ ++ o₃) := hq
      rw [hflight, mem_singleton] at hq'
      subst hq'
      exact ⟨.syn, hsaid, fun hno => (by cases hno)⟩
  · change (c.counters u.ports.client).isSome
    rw [hcounters]
    rfl
  · change (s.counters u.ports.server).isSome ↔ false = true
    rw [hnone]
    simp
  · cases a <;>
      simp [direction, GoBackN.State.empty, Side.peer, Ports.of, hcounters, hnone, hflight, hdata,
        hack]

theorem inv_of_start {u : Setup} {acts : List Action} (hstart : u.start sha1 = .ok g)
    (hrun : run (step sha1 u.ports) g acts = .ok (g', o))
    (hbound : ∀ a, (g'.sent a).length < 2 ^ 31) :
    Ok u.ports g' ∧ ∀ a, GoBackN.Inv (direction u.ports g' a) := by
  obtain ⟨hok, hempty⟩ := start_ok hstart
  exact inv_of_run hok (fun a => hempty a ▸ GoBackN.inv_empty) hrun hbound

/-! ### The counters -/

theorem direction_base (a : Side) : (direction ports g a).base = (g.base ports a).toNat := by
  simp only [direction, base, counter, XTransport.counters]
  cases (g.host a).portToDagInfo.lookup (ports.of a) <;> rfl

theorem direction_expected (a : Side) :
    (direction ports g a).expected = (g.expectedSeqnum ports a.peer).toNat := by
  simp only [direction, expectedSeqnum, counter, XTransport.counters]
  cases (g.host a.peer).portToDagInfo.lookup (ports.of a.peer) <;> rfl

/-- `next_seqnum` counts the payloads passed to `Xsend`. -/
theorem Ok.nextSeqnum (hok : Ok ports g) (a : Side) :
    (g.nextSeqnum ports a).toNat = (g.sent a).length := by
  simp only [Connection.nextSeqnum, counter]
  cases hd : (g.host a).portToDagInfo.lookup (ports.of a) with
  | none =>
    rw [(hok.host a).absent hd]
    rfl
  | some d => exact ((hok.host a).socket d hd).nextSeqnum

/-! ### Main results -/

/-- **What an application has received is a prefix of what the other one has sent**, in both
directions and after every run of the system. -/
theorem received_prefix_sent {u : Setup} {g₀ g : Connection} {acts : List Action} {o : List Empty}
    (hstart : u.start sha1 = .ok g₀) (hrun : run (step sha1 u.ports) g₀ acts = .ok (g, o))
    (hbound : ∀ side, (g.sent side).length < 2 ^ 31) (sender : Side) :
    g.received sender.peer <+: g.sent sender :=
  ((inv_of_start hstart hrun hbound).2 sender).delivered_prefix_log

/-- `host` connects to `SID:0a` of `peer`. -/
def clientAndServer : Setup where
  ports := ⟨1, 1, 2, by decide, by decide, by decide, by decide⟩
  addr := fun side => match side with
    | .client => XTransport.host.localAddr
    | .server => XTransport.peer.localAddr
  junk := fun _ => DagInfo.zero
  socket := fun _ => (.zero 0, 1)
  binds := fun side => match side with
    | .client => []
    | .server => [(.zero 0, "RE AD:03 HID:04 SID:0a".toList)]
  connect := (.zero 0, "RE AD:03 HID:04 SID:0a".toList)

/-- Two packets are sent.  The second one overtakes the first, which is duplicated, and the ACK of
the first one is lost, so that the client sends both again. -/
def overtaken : List Action :=
  [.deliver .server (.zero 0) 0 0, .accept (.zero 0), .deliver .client (.zero 0) 0 0,
    .send .client (.zero 0) [1], .send .client (.zero 0) [2],
    .deliver .server (.zero 0) 1 0, .duplicate .server 0, .deliver .server (.zero 0) 0 0,
    .lose .client 1, .tick .client (.zero 300)]

/-- The second packet is received in its second copy. -/
theorem received_prefix_overtaken : ∃ g₀ g o, clientAndServer.start Sha1.zero = .ok g₀ ∧
      run (step Sha1.zero clientAndServer.ports) g₀
        (overtaken ++ [.deliver .server (.zero 300) 2 0]) = .ok (g, o) ∧
      g.received .server = [[1], [2]] ∧ g.received .server <+: g.sent .client := by
  obtain ⟨g₀, hstart, g, o, hrun, hreceived, hclient, hserver⟩ :
      ∃ g₀, clientAndServer.start Sha1.zero = .ok g₀ ∧ ∃ g o,
        run (step Sha1.zero clientAndServer.ports) g₀
          (overtaken ++ [.deliver .server (.zero 300) 2 0]) = .ok (g, o) ∧
        g.received .server = [[1], [2]] ∧ (g.sent .client).length < 2 ^ 31 ∧
        (g.sent .server).length < 2 ^ 31 := by decide +kernel
  refine ⟨g₀, g, o, hstart, hrun, hreceived,
    received_prefix_sent hstart hrun (fun side => ?_) .client⟩
  cases side with
  | client => exact hclient
  | server => exact hserver

/-- **The go-back-N bounds hold after every run of the system**, in both directions. -/
theorem bounded_of_run {u : Setup} {g₀ g : Connection} {acts : List Action} {o : List Empty}
    (hstart : u.start sha1 = .ok g₀) (hrun : run (step sha1 u.ports) g₀ acts = .ok (g, o))
    (hbound : ∀ side, (g.sent side).length < 2 ^ 31) (sender : Side) :
    Bounded u.ports g sender := by
  obtain ⟨hok, hinv⟩ := inv_of_start hstart hrun hbound
  have hbase := (hinv sender).base_le
  have hexpected := (hinv sender).expected_le
  rw [direction_base, direction_expected] at hbase
  rw [direction_expected] at hexpected
  refine ⟨UInt32.le_iff_toNat_le.2 hbase, ?_, fun p hp n hseg => ?_, fun p hp n payload hseg => ?_⟩
  · rw [UInt32.le_iff_toNat_le, hok.nextSeqnum]
    exact hexpected
  · have hmem : n.toNat ∈ (direction u.ports g sender).acks :=
      mem_filterMap.2 ⟨p, hp, by rw [ackOf, hseg]⟩
    have hle := (hinv sender).acks _ hmem
    rw [direction_expected] at hle
    exact UInt32.le_iff_toNat_le.2 hle
  · have hmem : (n.toNat, payload) ∈ (direction u.ports g sender).data :=
      mem_filterMap.2 ⟨p, hp, by rw [dataOf, hseg]⟩
    rw [UInt32.lt_iff_toNat_lt, hok.nextSeqnum]
    exact (hinv sender).lt_of_mem_data hmem

/-- The bounds before the packets that were sent again arrive. -/
theorem bounded_overtaken : ∃ g₀ g o, clientAndServer.start Sha1.zero = .ok g₀ ∧
      run (step Sha1.zero clientAndServer.ports) g₀ overtaken = .ok (g, o) ∧
      g.expectedSeqnum clientAndServer.ports .server = 1 ∧
      Bounded clientAndServer.ports g .client := by
  obtain ⟨g₀, hstart, g, o, hrun, hexpected, hclient, hserver⟩ :
      ∃ g₀, clientAndServer.start Sha1.zero = .ok g₀ ∧ ∃ g o,
        run (step Sha1.zero clientAndServer.ports) g₀ overtaken = .ok (g, o) ∧
        g.expectedSeqnum clientAndServer.ports .server = 1 ∧ (g.sent .client).length < 2 ^ 31 ∧
        (g.sent .server).length < 2 ^ 31 := by decide +kernel
  refine ⟨g₀, g, o, hstart, hrun, hexpected, bounded_of_run hstart hrun (fun side => ?_) .client⟩
  cases side with
  | client => exact hclient
  | server => exact hserver

end Connection

end Xia
