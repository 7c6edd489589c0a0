import Xia.Xcmp.Equiv.Replies

/-!
# Errors about errors

A packet that brings an XCMP error may itself be misrouted, be undeliverable or expire.  Only for
the second of these, and only if the error is of the same type, the element does not answer it.

`Breeds` relates a packet at an element to the error that the element sends about it, when that
arrives at the next element.  `errors_quiet_iff` says which errors are handled without another
error, and that without others a packet causes at most one.  In general the errors do not end:
`Circles.exists_chain` gives as many as one likes, from one packet and routers that lead in a
circle.
-/

namespace Xia

open List
open Received (ofPacket srcPath_ofPacket)

namespace Xcmp

variable {x : Xcmp} {fresh : Nat → UInt8} {p : Incoming} {r : Received} {t : List Effect}
  {reply : Packet}

/-! ### Errors -/

def errorTypes : List UInt8 := [unreach, timxceed, redirect]

def CarriesError (r : Received) : Prop := ∃ type ∈ errorTypes, Carries r type

def IsError (p : Packet) : Prop := p.nxt = nxtXcmp ∧ ∃ type ∈ errorTypes, p.body.head? = some type

/-- The element handles the packet and sends no error to the network.  An access outside of the
packet is not silence, since `sendXCMPPacket` goes on with what it has read. -/
def Silent (x : Xcmp) (fresh : Nat → UInt8) (p : Incoming) : Prop :=
  ∃ t, x.push fresh p = .ok t ∧ ∀ reply ∈ sent t, ¬ IsError reply

/-- What `gotRedirect` reads of a redirect is there, and the host can send the route update to
itself. -/
structure ReadableRedirect (x : Xcmp) (r : Received) : Prop where
  addresses : r.hdrSize + headerSize + xidSize + xidSize ≤ r.bytes.length
  message : r.hdrSize + min r.plen maxRedirect ≤ r.bytes.length
  source : ¬ r.srcPath.Strays
  destination : ¬ r.dstPath.Strays
  host : x.srcPath.nodes.length ≤ 255

/-- The element has no answer to the packet: it is dropped, or it goes up to the host. -/
def Quiet (x : Xcmp) (p : Incoming) : Prop :=
  Drops p ∨ HandedUp p ∧ (Carries p.buf redirect → ReadableRedirect x p.buf)

theorem head?_message {type code : UInt8} {addrs : Option (Xid × Xid)} {msg : List UInt8}
    (h : message fresh r type code addrs = .ok msg) : msg.head? = some type := by
  obtain ⟨q, hq⟩ := fits_of_message h
  have hfits := fits_copies hq code addrs
  have hle := le_xlen r type
  have hlen := @length_filled fresh r type code q addrs hq
  have hcksum : (inCksum (filled fresh r q type code addrs)).length = 2 := by simp [inCksum]
  rw [message_eq hq, Except.ok.injEq] at h
  rw [← h, head?_eq_getElem?, sealed, Blit.getElem?_blit_of_not_reaches (by omega), filled,
    copies, Blit.getElem?_fill_concat_of_reaches]
  · rfl
  · rw [length_allocated]
    exact hfits
  · simp [Blit.Copy.Reaches]
  · simp [Blit.Copy.Reaches]

/-- A packet that brings an error is no ping: what it is answered with is an error. -/
theorem CarriesError.type_mem {c : Call} (h : CarriesError p.buf) (hcalls : Calls x p c) :
    c.type ∈ errorTypes := by
  cases hcalls with
  | badForwarding | unreachable | expired => simp [errorTypes]
  | ping _ hecho =>
    obtain ⟨type, hmem, hcarries⟩ := h
    rw [hcarries.eq hecho] at hmem
    exact absurd hmem (by decide)

theorem CarriesError.isError {c : Call} (h : CarriesError p.buf) (hcalls : Calls x p c)
    (hsend : c.send fresh p.buf = .ok reply) : IsError reply := by
  obtain ⟨hnxt, hmsg⟩ := send_eq_ok hsend
  exact ⟨hnxt, c.type, h.type_mem hcalls, head?_message hmsg⟩

theorem Drops.not_calls {c : Call} (h : Drops p) : ¬ Calls x p c := by
  intro hcalls
  have hflags {f g : Option Flag} (hf : p.flag = f) (hg : p.flag = g) (hne : f ≠ g) : False :=
    hne (hf.symm.trans hg)
  cases h with
  | sameType hflag htype =>
    cases hcalls with
    | unreachable _ htype' _ _ =>
      obtain ⟨type, hcarries, hne⟩ := htype' htype.1
      exact hne (hcarries.eq htype)
    | badForwarding hflag' _ _ | expired hflag' | ping hflag' _ =>
      exact hflags hflag hflag' (by decide)
  | notReported hflag _ hrep =>
    cases hcalls with
    | unreachable _ _ hrep' _ =>
      rw [reportable_eq_true.2 hrep'] at hrep
      cases hrep
    | badForwarding hflag' _ _ | expired hflag' | ping hflag' _ =>
      exact hflags hflag hflag' (by decide)
  | otherHeader hflag hnxt =>
    cases hcalls with
    | ping _ htype => exact hnxt htype.1
    | badForwarding hflag' _ _ | unreachable hflag' _ _ _ | expired hflag' =>
      exact hflags hflag hflag' (by decide)
  | unknown hflag hcarries hne =>
    cases hcalls with
    | ping _ htype =>
      rw [hcarries.eq htype] at hne
      exact hne mem_cons_self
    | badForwarding hflag' _ _ | unreachable hflag' _ _ _ | expired hflag' =>
      exact hflags hflag hflag' (by decide)

/-- The two paths of a route update fit into one header exactly if that of the host is short
enough. -/
theorem encloses_updatePath_iff (y : Xid) :
    Encloses (updatePath y) x.srcPath ↔ x.srcPath.nodes.length ≤ 255 := by
  obtain ⟨src, dst, hvalid⟩ := XiaPath.isValid_iff.1 x.valid
  have hupdate : ∃ n, (updatePath y).wireNodes = .ok [n] := ⟨_, rfl⟩
  obtain ⟨n, hn⟩ := hupdate
  have hlen : (x.srcPath.order.tail.map (x.srcPath.wireEntry src dst)).length =
      x.srcPath.nodes.length - 1 := by
    rw [length_map, length_tail, hvalid.order_length]
  have hpos : 0 < x.srcPath.nodes.length := Nat.zero_lt_of_lt hvalid.src_lt
  constructor
  · rintro ⟨dnode, snode, hd, hs, hle⟩
    rw [hn, Except.ok.injEq] at hd
    rw [hvalid.wireNodes, Except.ok.injEq] at hs
    rw [← hd, ← hs, hlen, length_singleton] at hle
    omega
  · intro hle
    refine ⟨_, _, hn, hvalid.wireNodes, ?_⟩
    rw [hlen, length_singleton]
    omega

theorem exists_gotRedirect_iff (hnxt : r.nxt = nxtXcmp) :
    (∃ t, x.gotRedirect r = .ok t) ↔ ReadableRedirect x r := by
  simp only [gotRedirect, payload_of_nxtXcmp hnxt, Result.ok_bind, Result.bind_eq_ok]
  constructor
  · rintro ⟨t, baddest, -, nexthop, hnext, s, -, s₁, hs₁, s₂, hs₂, msg, hmsg, update, hupdate, -⟩
    exact ⟨(readAt_eq_ok.1 hnext).1, (readAt_eq_ok.1 hmsg).1,
      XiaPath.exists_unparse_iff.1 ⟨s₁, hs₁⟩, XiaPath.exists_unparse_iff.1 ⟨s₂, hs₂⟩,
      (encloses_updatePath_iff _).1 (Packet.exists_encap_iff.1 ⟨update, hupdate⟩)⟩
  · intro h
    obtain ⟨s, hs⟩ := x.exists_unparse
    obtain ⟨s₁, hs₁⟩ := XiaPath.exists_unparse_iff.2 h.source
    obtain ⟨s₂, hs₂⟩ := XiaPath.exists_unparse_iff.2 h.destination
    have haddresses := h.addresses
    have hbad : readAt r.bytes (r.hdrSize + headerSize) xidSize = .ok _ :=
      readAt_eq_ok.2 ⟨by omega, rfl⟩
    have hnext : readAt r.bytes (r.hdrSize + headerSize + xidSize) xidSize = .ok _ :=
      readAt_eq_ok.2 ⟨haddresses, rfl⟩
    have hmsg : readAt r.bytes r.hdrSize (min r.plen maxRedirect) = .ok _ :=
      readAt_eq_ok.2 ⟨h.message, rfl⟩
    obtain ⟨update, hupdate⟩ := Packet.exists_encap_iff.2 ((encloses_updatePath_iff _).2 h.host)
    exact ⟨_, _, hbad, _, hnext, s, hs, s₁, hs₁, s₂, hs₂, _, hmsg, update, hupdate, rfl⟩

theorem CarriesError.exists_push_iff (h : CarriesError p.buf) (hflag : p.flag = none) :
    (∃ t, x.push fresh p = .ok t) ↔ (Carries p.buf redirect → ReadableRedirect x p.buf) := by
  obtain ⟨s, hs⟩ := x.exists_unparse
  obtain ⟨type, hmem, hcarries⟩ := h
  rw [push_of_gotType hflag hcarries]
  simp only [errorTypes, mem_cons, not_mem_nil, or_false] at hmem
  rcases hmem with rfl | rfl | rfl
  · refine iff_of_true ⟨_, by rw [gotType, gotUnreachable, hs]; rfl⟩ fun hredirect => ?_
    exact absurd (hcarries.eq hredirect) (by decide)
  · refine iff_of_true ⟨_, by rw [gotType, gotExpired, hs]; rfl⟩ fun hredirect => ?_
    exact absurd (hcarries.eq hredirect) (by decide)
  · change (∃ t, (x.gotRedirect p.buf >>= fun t => pure _) = .ok t) ↔ _
    rw [← exists_gotRedirect_iff hcarries.1]
    simp only [Result.bind_eq_ok]
    constructor
    · rintro ⟨_, t, ht, -⟩ -
      exact ⟨t, ht⟩
    · intro ht
      exact ⟨_, _, (ht hcarries).choose_spec, rfl⟩

theorem silent_iff (h : CarriesError p.buf) : Silent x fresh p ↔ Quiet x p := by
  constructor
  · rintro ⟨t, hpush, hnone⟩
    have hup (hup : HandedUp p) : Quiet x p :=
      .inr ⟨hup, (h.exists_push_iff hup.1).1 ⟨t, hpush⟩⟩
    cases run_of_push hpush with
    | answered _ _ hcalls hsend _ _ =>
      exact absurd (h.isError hcalls hsend) (hnone _ ((mem_sent_iff hpush).2 ⟨_, hcalls, hsend⟩))
    | dropped _ hdrops _ => exact .inl hdrops
    | handedUp _ h _ | updated _ h _ => exact hup h
  · intro hquiet
    have hcalls (c : Call) : ¬ Calls x p c := by
      rcases hquiet with hdrops | ⟨hup, -⟩
      · exact hdrops.not_calls
      · exact fun hcalls => hcalls.not_handedUp hup
    have hpush : ∃ t, x.push fresh p = .ok t := by
      rcases hquiet with hdrops | ⟨hup, hredirect⟩
      · obtain ⟨before, hall⟩ := push_of_drops hdrops
        exact ⟨_, hall x fresh⟩
      · exact (h.exists_push_iff hup.1).2 hredirect
    obtain ⟨t, hpush⟩ := hpush
    refine ⟨t, hpush, fun reply hreply => ?_⟩
    obtain ⟨c, hc, -⟩ := (mem_sent_iff hpush).1 hreply
    exact absurd hc (hcalls c)

/-! ### From element to element -/

/-- The packet as it comes to an element: on the way the hop limit and the last node are changed and
edges are marked, which leaves the paths as they are. -/
def Arrives (p : Packet) (r : Received) : Prop :=
  ∃ (q : Packet) (h : q.dnode.length + q.snode.length ≤ 255), r = ofPacket q h ∧
    q.nxt = p.nxt ∧ q.plen = p.plen ∧ q.body = p.body ∧ q.dstPath = p.dstPath ∧
      q.srcPath = p.srcPath

/-- A packet at the element of some router, with the memory of that router. -/
structure Visit where
  x : Xcmp
  fresh : Nat → UInt8
  p : Incoming

/-- The first element sends an error about the packet, and this comes to the second one. -/
def Breeds (v w : Visit) : Prop :=
  ∃ t, v.x.push v.fresh v.p = .ok t ∧ ∃ reply ∈ sent t, IsError reply ∧ Arrives reply w.p.buf

theorem carriesError_of_arrives (herror : IsError reply) (h : Arrives reply r) :
    CarriesError r := by
  obtain ⟨hnxt, type, hmem, hhead⟩ := herror
  obtain ⟨q, hle, rfl, hnxt', -, hbody, -, -⟩ := h
  refine ⟨type, hmem, ?_, ?_⟩
  · rw [Received.nxt_ofPacket, hnxt', hnxt]
  · rw [← head?_drop, ← Nat.add_zero (Received.hdrSize _), Received.drop_ofPacket,
      drop_zero, hbody, hhead]

/-- **Which errors breed no error**: those to which the element has no answer, since it drops them
or hands them up.  If all errors on the way are of this kind, a packet causes at most one error. -/
theorem errors_quiet_iff (x : Xcmp) (fresh : Nat → UInt8) (p : Incoming) (v : Visit)
    (ws : List Visit) :
    (CarriesError p.buf → (Silent x fresh p ↔ Quiet x p)) ∧
      (List.IsChain Breeds (v :: ws) → (∀ w ∈ ws, Quiet w.x w.p) → ws.length ≤ 1) := by
  refine ⟨silent_iff, fun hchain hquiet => ?_⟩
  rcases ws with _ | ⟨w₁, _ | ⟨w₂, ws⟩⟩
  · simp
  · simp
  · -- the second error would be bred by the first
    obtain ⟨⟨t, hpush, reply, hreply, herror, harrives⟩, hrest⟩ := isChain_cons_cons.1 hchain
    obtain ⟨⟨t', hpush', reply', hreply', herror', -⟩, -⟩ := isChain_cons_cons.1 hrest
    have hcarries := carriesError_of_arrives herror harrives
    obtain ⟨t'', hpush'', hnone⟩ : Silent w₁.x w₁.fresh w₁.p :=
      (silent_iff hcarries).2 (hquiet w₁ mem_cons_self)
    rw [hpush'', Except.ok.injEq] at hpush'
    rw [← hpush'] at hreply'
    exact absurd herror' (hnone reply' hreply')

/-- An unreachable message that is undeliverable itself. -/
def strandedError : Incoming :=
  { incomingOf nxtXcmp 100 (List.replicate 8 unreach) with paint := -6 }

theorem errors_quiet_strandedError : CarriesError strandedError.buf ∧
    Quiet router strandedError ∧ Silent router (fun _ => 0) strandedError := by
  have hcarries : Carries strandedError.buf unreach := ⟨by decide +kernel, by decide +kernel⟩
  have herror : CarriesError strandedError.buf := ⟨unreach, by decide, hcarries⟩
  have hquiet : Quiet router strandedError := .inl (.sameType (by decide +kernel) hcarries)
  have hiff := (errors_quiet_iff router (fun _ => 0) strandedError
    ⟨router, fun _ => 0, strandedError⟩ []).1 herror
  exact ⟨herror, hquiet, hiff.2 hquiet⟩

/-! ### Errors without end -/

/-- A packet with one node each way that comes to its last hop. -/
structure Circles (q : Packet) : Prop where
  dnode : ∃ y, q.dnode = [entryOf y]
  snode : ∃ y, q.snode = [entryOf y]
  nxt : ¬ q.nxt < nxtNo
  hlim : q.hlim = 1
  body : 8 ≤ q.body.length

theorem wireNodes_entryOf (y : Xid) :
    (XiaPath.parseNode [entryOf y]).wireNodes = .ok [entryOf y] := rfl

section

variable {q : Packet}

theorem Circles.length_dnode (h : Circles q) : q.dnode.length = 1 := by
  obtain ⟨y, hy⟩ := h.dnode
  rw [hy, length_singleton]

theorem Circles.length_snode (h : Circles q) : q.snode.length = 1 := by
  obtain ⟨y, hy⟩ := h.snode
  rw [hy, length_singleton]

theorem Circles.nodes (h : Circles q) : q.dnode.length + q.snode.length ≤ 255 := by
  rw [h.length_dnode, h.length_snode]
  decide

/-- The packet at the element of the host `HID:01…`. -/
def Circles.visit (h : Circles q) : Visit :=
  ⟨router, fun _ => 0, ofPacket q h.nodes, 0, Xid.zero⟩

def expiredCall : Call := ⟨timxceed, timxceedReassembly, none, some router.srcPath⟩

theorem Circles.calls (h : Circles q) : Calls h.visit.x h.visit.p expiredCall := by
  have hhlim : (ofPacket q h.nodes).hlim ≤ 1 := by
    change q.hlim ≤ 1
    rw [h.hlim]
    decide
  refine .expired ?_
  change Incoming.flag ⟨ofPacket q h.nodes, 0, Xid.zero⟩ = _
  rw [Incoming.flag, if_neg (of_decide_eq_true rfl), if_neg (of_decide_eq_true rfl), if_pos hhlim]

theorem Circles.sendable (h : Circles q) : Sendable h.visit.p.buf expiredCall := by
  constructor
  · have hd := Received.dnode_ofPacket (p := q) (h := h.nodes)
    have hs := Received.snode_ofPacket (p := q) (h := h.nodes)
    rw [h.length_dnode] at hd
    rw [h.length_snode] at hs
    refine ⟨h.visit.p.buf.hdrSize, payload_of_not_lt h.nxt, ?_, fun h => absurd h (by decide), ?_,
      fun h => absurd h (by decide)⟩
    · change ((ofPacket q h.nodes).dnode + (ofPacket q h.nodes).snode).toNat ≤ 51
      rw [UInt8.toNat_add, hd, hs]
      decide
    · have hbody := h.body
      change (ofPacket q h.nodes).hdrSize + 8 ≤ (q.hdrBytes ++ q.body).length
      rw [Received.hdrSize_ofPacket, length_append]
      omega
  · obtain ⟨y, hy⟩ := h.snode
    refine ⟨[entryOf y], [entryOf (hidOf 1)], ?_, wireNodes_entryOf _, by simp⟩
    change (ofPacket q h.nodes).srcPath.wireNodes = _
    rw [srcPath_ofPacket, Packet.srcPath, hy, wireNodes_entryOf]

theorem Circles.breeds (h : Circles q) :
    ∃ (q' : Packet) (h' : Circles q'), Breeds h.visit h'.visit := by
  obtain ⟨reply, hsend⟩ := exists_send_iff.2 h.sendable
  obtain ⟨before, after, hall⟩ := push_of_calls h.calls
  have hpush := hall (fun _ => 0) reply hsend
  have hmem := (mem_sent_iff hpush).2 ⟨_, h.calls, hsend⟩
  obtain ⟨hnxt, hmsg⟩ := send_eq_ok hsend
  have hlen := length_message hmsg
  have hbody : 8 ≤ reply.body.length := by
    have hle : _ ≤ xlen h.visit.p.buf expiredCall.type := le_xlen h.visit.p.buf timxceed
    omega
  obtain ⟨y, hy⟩ := h.snode
  have hsrc : h.visit.p.buf.srcPath.wireNodes = .ok [entryOf y] := by
    change (ofPacket q h.nodes).srcPath.wireNodes = _
    rw [srcPath_ofPacket, Packet.srcPath, hy, wireNodes_entryOf]
  obtain ⟨msg, -, hencap⟩ := Result.bind_eq_ok.1 hsend
  obtain ⟨dnode, snode, hd, hs, rfl⟩ := Packet.encap_eq_ok hencap
  rw [hsrc] at hd
  have hd' := Except.ok.inj hd
  have hs' : [entryOf (hidOf 1)] = snode := Except.ok.inj hs
  have hcircles : Circles ⟨1, nxtXcmp, UInt16.ofNat msg.length, 1, lastEncap, dnode, snode, msg⟩ :=
    ⟨⟨y, hd'.symm⟩, ⟨hidOf 1, hs'.symm⟩, of_decide_eq_true rfl, rfl, hbody⟩
  exact ⟨_, hcircles, _, hpush, _, hmem, ⟨rfl, timxceed, by decide, head?_message hmsg⟩, _,
    hcircles.nodes, rfl, rfl, rfl, rfl, rfl, rfl⟩

theorem Circles.exists_chain (n : Nat) (h : Circles q) :
    ∃ ws, List.IsChain Breeds (h.visit :: ws) ∧ ws.length = n := by
  induction n generalizing q with
  | zero => exact ⟨[], isChain_singleton _, rfl⟩
  | succ n ih =>
    obtain ⟨q', h', hbreeds⟩ := h.breeds
    obtain ⟨ws, hchain, hlen⟩ := ih h'
    exact ⟨h'.visit :: ws, isChain_cons_cons.2 ⟨hbreeds, hchain⟩, by simp [hlen]⟩

end

/-- An error that breeds an error; and one data packet that causes as many errors as one likes. -/
theorem not_errors_quiet_circling : (∃ v w, CarriesError v.p.buf ∧ Breeds v w) ∧
      ∀ n, ∃ v ws, ¬ CarriesError v.p.buf ∧ List.IsChain Breeds (v :: ws) ∧ ws.length = n := by
  have hcircles : Circles (packetOf nxtTrn 1 (List.replicate 8 0)) :=
    ⟨⟨_, rfl⟩, ⟨_, rfl⟩, by decide, rfl, by decide⟩
  constructor
  · obtain ⟨ws, hchain, hlen⟩ := hcircles.exists_chain 2
    obtain ⟨w₁, w₂, rfl⟩ := length_eq_two.1 hlen
    obtain ⟨⟨t, hpush, reply, hreply, herror, harrives⟩, hrest⟩ := isChain_cons_cons.1 hchain
    exact ⟨w₁, w₂, carriesError_of_arrives herror harrives, (isChain_cons_cons.1 hrest).1⟩
  · intro n
    obtain ⟨ws, hchain, hlen⟩ := hcircles.exists_chain n
    refine ⟨_, ws, ?_, hchain, hlen⟩
    rintro ⟨type, -, hnxt, -⟩
    exact absurd hnxt (of_decide_eq_true rfl)

end Xcmp

end Xia
