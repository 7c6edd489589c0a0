import Xia.Xcmp.Equiv.Element

/-!
# What is in the answers

`sent` lists the packets that the element pushes to the network.  There is at most one, the answer
to the packet that came in, and its body is the message that `sendXCMPPacket` has filled.

A pong is meant to bring the data of the ping back.  It is always longer than the ping, by at least
four bytes (`pong_unfaithful`).  And an answer shows what the memory held before where the copies
leave a gap; `determined_iff` says which answers do not.
-/

namespace Xia

open List

namespace Xcmp

open Blit

variable {x : Xcmp} {fresh fresh' : Nat → UInt8} {p : Incoming} {r : Received} {c c' : Call}
  {t t' : List Effect} {reply : Packet}

/-! ### The packets for the network -/

def Effect.toNetwork : Effect → Option Packet
  | send 0 p _ => some p
  | _ => none

def sent (t : List Effect) : List Packet := t.filterMap Effect.toNetwork

theorem sent_of_uses (h : Uses t) : sent t = [] := by
  refine filterMap_eq_nil_iff.2 fun e he => ?_
  rw [h e he]
  rfl

theorem sent_append (t t' : List Effect) : sent (t ++ t') = sent t ++ sent t' :=
  filterMap_append

theorem sent_cons (reply : Packet) (paint : Int) (t : List Effect) :
    sent (.send 0 reply paint :: t) = reply :: sent t := rfl

theorem Calls.unique (h : Calls x p c) (h' : Calls x p c') : c = c' := by
  have hflags {f g : Option Flag} (hf : p.flag = f) (hg : p.flag = g) (hne : f ≠ g) : c = c' :=
    absurd (hf.symm.trans hg) hne
  cases h with
  | badForwarding hflag hlast _ =>
    cases h' with
    | badForwarding _ hlast' _ =>
      rw [Except.ok.inj (hlast.symm.trans hlast')]
    | unreachable hflag' _ _ _ | expired hflag' | ping hflag' _ =>
      exact hflags hflag hflag' (by decide)
  | unreachable hflag _ _ _ =>
    cases h' with
    | unreachable => rfl
    | badForwarding hflag' _ _ | expired hflag' | ping hflag' _ =>
      exact hflags hflag hflag' (by decide)
  | expired hflag =>
    cases h' with
    | expired => rfl
    | badForwarding hflag' _ _ | unreachable hflag' _ _ _ | ping hflag' _ =>
      exact hflags hflag hflag' (by decide)
  | ping hflag _ =>
    cases h' with
    | ping => rfl
    | badForwarding hflag' _ _ | unreachable hflag' _ _ _ | expired hflag' =>
      exact hflags hflag hflag' (by decide)

/-- **What is sent**: the answer to the packet, if it calls for one. -/
theorem mem_sent_iff (h : x.push fresh p = .ok t) :
    reply ∈ sent t ↔ ∃ c, Calls x p c ∧ c.send fresh p.buf = .ok reply := by
  constructor
  · intro hmem
    cases run_of_push h with
    | answered before after hcalls hsend hbefore hafter =>
      rw [sent_append, sent_append, sent_of_uses hbefore, nil_append, sent_cons,
        sent_of_uses hafter] at hmem
      rw [mem_singleton.1 hmem]
      exact ⟨_, hcalls, hsend⟩
    | dropped before _ hbefore | handedUp before _ hbefore | updated before _ hbefore =>
      rw [sent_append, sent_of_uses hbefore] at hmem
      cases hmem
  · rintro ⟨c, hcalls, hsend⟩
    obtain ⟨before, after, hall⟩ := push_of_calls hcalls
    rw [hall fresh reply hsend, Except.ok.injEq] at h
    rw [← h, sent, mem_filterMap]
    exact ⟨.send 0 reply destinedForLocalhost, by simp, rfl⟩

/-! ### Pings -/

/-- The XCMP message in a packet, as long as the header says. -/
def xcmpMessage (r : Received) : List UInt8 := (r.bytes.drop r.hdrSize).take r.plen

/-- The answer has the bytes of the ping behind the XCMP header, and its length. -/
structure Echoes (ping pong : List UInt8) : Prop where
  length : pong.length = ping.length
  bytes : ∀ i, headerSize ≤ i → pong[i]? = ping[i]?

theorem length_message {type code : UInt8} {addrs : Option (Xid × Xid)} {msg : List UInt8}
    (h : message fresh r type code addrs = .ok msg) : msg.length = xlen r type := by
  obtain ⟨q, hq⟩ := fits_of_message h
  have hle := le_xlen r type
  rw [message_eq hq, Except.ok.injEq] at h
  have hcksum : (inCksum (filled fresh r q type code addrs)).length = 2 := by simp [inCksum]
  rw [← h, sealed, length_blit, length_filled hq]
  rw [length_filled hq]
  omega

/-- **No pong is an echo**: the answer to a ping is at least four bytes longer than the ping. -/
theorem pong_unfaithful (hflag : p.flag = none) (hping : Carries p.buf echo)
    (hpush : x.push fresh p = .ok t) (hreply : reply ∈ sent t) :
    ¬ Echoes (xcmpMessage p.buf) reply.body := by
  intro hechoes
  obtain ⟨c, hcalls, hsend⟩ := (mem_sent_iff hpush).1 hreply
  obtain rfl := hcalls.unique (.ping hflag hping)
  have hlen := length_message (send_eq_ok hsend).2
  have hplen := plen_le_xlen p.buf
  have hping : (xcmpMessage p.buf).length ≤ p.buf.plen := length_take_le _ _
  have := hechoes.length
  rw [headerSize_eq] at hplen
  dsimp only at hlen
  omega

def samplePing : Incoming := incomingOf nxtXcmp 100 (echo :: List.replicate 59 7)

theorem pong_unfaithful_samplePing : samplePing.flag = none ∧ Carries samplePing.buf echo ∧
    ∃ t reply, router.push (fun _ => 0) samplePing = .ok t ∧ reply ∈ sent t ∧
      ¬ Echoes (xcmpMessage samplePing.buf) reply.body := by
  have hflag : samplePing.flag = none := by decide +kernel
  have hping : Carries samplePing.buf echo := ⟨by decide +kernel, by decide +kernel⟩
  have hall : ∃ t, router.push (fun _ => 0) samplePing = .ok t ∧ sent t ≠ [] := by decide +kernel
  obtain ⟨t, hpush, hne⟩ := hall
  obtain ⟨reply, hreply⟩ := exists_mem_of_ne_nil _ hne
  exact ⟨hflag, hping, t, reply, hpush, hreply, pong_unfaithful hflag hping hpush hreply⟩

/-- Its pong has 124 bytes, and the header of the ping in the place of its last eight bytes. -/
theorem not_echoes_samplePing : samplePing.flag = none ∧ Carries samplePing.buf echo ∧
    ∃ t, router.push (fun _ => 0) samplePing = .ok t ∧ ∃ reply ∈ sent t,
      reply.body.length = 124 ∧ (xcmpMessage samplePing.buf).length = 60 ∧
        reply.body[52]? = some 1 ∧ (xcmpMessage samplePing.buf)[52]? = some 7 :=
  ⟨by decide +kernel, ⟨by decide +kernel, by decide +kernel⟩, by decide +kernel⟩

/-! ### Memory that is sent -/

/-- Two runs that differ in what the memory held before do the same. -/
def Determined (x : Xcmp) (p : Incoming) : Prop :=
  ∀ fresh fresh' t, x.push fresh p = .ok t → x.push fresh' p = .ok t

theorem send_congr (h : message fresh r c.type c.code c.addrs =
    message fresh' r c.type c.code c.addrs) : c.send fresh r = c.send fresh' r := by
  rw [Call.send, Call.send, sendXcmpPacket, sendXcmpPacket, h]

theorem push_congr
    (h : ∀ c, Calls x p c → Sendable p.buf c → c.send fresh p.buf = c.send fresh' p.buf)
    (hpush : x.push fresh p = .ok t) : x.push fresh' p = .ok t := by
  cases run_of_push hpush with
  | answered _ _ hcalls hsend _ _ =>
    obtain ⟨before, after, hall⟩ := push_of_calls hcalls
    have hsend' := (h _ hcalls (exists_send_iff.1 ⟨_, hsend⟩)).symm.trans hsend
    rw [hall fresh' _ hsend', ← hall fresh _ hsend, hpush]
  | dropped _ hdrops _ =>
    obtain ⟨before, hall⟩ := push_of_drops hdrops
    rw [hall x fresh', ← hall x fresh, hpush]
  | handedUp _ hup _ | updated _ hup _ => rw [push_of_handedUp hup fresh' fresh, hpush]

/-- The element answers the packet with a message of this type. -/
def Answers (x : Xcmp) (p : Incoming) (type : UInt8) : Prop :=
  ∃ c, Calls x p c ∧ Sendable p.buf c ∧ c.type = type

/-- The calls have gaps, but for redirects and some pongs. -/
theorem Calls.gapless_iff (h : Calls x p c) : Gapless p.buf c.type c.addrs ↔
    c.type = redirect ∨ c.type = echoReply ∧ headerAt ≤ p.buf.plen ∧
      headerSize + p.buf.plen ≤ headerAt + p.buf.hdrSize + 8 := by
  cases h <;> simp [Gapless, redirect, echoReply, unreach, timxceed]

/-- **Which answers show nothing of the memory of the router**: redirects, and pongs that answer a
ping with a payload of at least 52 bytes that is at most 56 bytes longer than the header. -/
theorem determined_iff (x : Xcmp) (p : Incoming) :
    Determined x p ↔ ∀ type, Answers x p type → type = redirect ∨
      type = echoReply ∧ headerAt ≤ p.buf.plen ∧
        headerSize + p.buf.plen ≤ headerAt + p.buf.hdrSize + 8 := by
  constructor
  · rintro hdet type ⟨c, hcalls, hsendable, rfl⟩
    obtain ⟨q, hq⟩ := hsendable.1
    rw [← hcalls.gapless_iff, ← message_determined_iff hq c.code c.addrs]
    intro fresh fresh'
    -- the same effects, so the same answer and the same message
    obtain ⟨before, after, hall⟩ := push_of_calls hcalls
    obtain ⟨reply, hreply⟩ := exists_send_iff.2 hsendable
    obtain ⟨reply', hreply'⟩ := exists_send_iff.2 hsendable
    have hpush := hdet fresh fresh' _ (hall fresh reply hreply)
    rw [hall fresh' reply' hreply', Except.ok.injEq] at hpush
    have hsame : reply' = reply := by simpa using hpush
    rw [(send_eq_ok hreply).2, (send_eq_ok hreply').2, hsame]
  · intro hcond fresh fresh' t hpush
    refine push_congr (fun c hcalls hsendable => ?_) hpush
    obtain ⟨q, hq⟩ := hsendable.1
    have hgapless := hcalls.gapless_iff.2 (hcond _ ⟨c, hcalls, hsendable, rfl⟩)
    exact send_congr ((message_determined_iff hq c.code c.addrs).2 hgapless fresh fresh')

/-- The answer to a packet that has expired holds 48 bytes of the memory, from the fifth on. -/
theorem not_determined_expired : ∃ t t',
    router.push (fun _ => 0) (incomingOf nxtTrn 1 (List.replicate 8 0)) = .ok t ∧
    router.push (fun _ => 1) (incomingOf nxtTrn 1 (List.replicate 8 0)) = .ok t' ∧
    (sent t).map (fun reply => (reply.body.drop 4).take 48) = [List.replicate 48 0] ∧
    (sent t').map (fun reply => (reply.body.drop 4).take 48) = [List.replicate 48 1] := by
  have hall (b : UInt8) (hb : b = 0 ∨ b = 1) :
      ∃ t, router.push (fun _ => b) (incomingOf nxtTrn 1 (List.replicate 8 0)) = .ok t ∧
        (sent t).map (fun reply => (reply.body.drop 4).take 48) = [List.replicate 48 b] := by
    rcases hb with rfl | rfl <;> decide +kernel
  obtain ⟨t, hpush, hmem⟩ := hall 0 (.inl rfl)
  obtain ⟨t', hpush', hmem'⟩ := hall 1 (.inr rfl)
  exact ⟨t, t', hpush, hpush', hmem, hmem'⟩

end Xcmp

end Xia
