import Xia.Equiv.Encap
import Xia.Equiv.Validation
import Xia.Xcmp.Equiv.Message

/-!
# What the element does with a packet

`push` answers a packet by one call of `sendXCMPPacket`, drops it, or hands it up.  Which of these
it does is said by predicates on the packet that came in (`Calls`, `Drops`, `HandedUp`), and `Run`
lists the effects that each of them has: `run_of_push` says that there are no others,
`push_of_calls` and `push_of_drops` that these happen.  `givesUpOnce_iff` is about the packet that
came in: `push` kills it in the end, whatever the handlers did with it.
-/

namespace Xia

open List Result

theorem exists_ok_of_avoids {α : Type} {x : Result α} (h : ∀ f, x.Avoids f) : ∃ a, x = .ok a := by
  cases x with
  | error f => exact absurd rfl (h f)
  | ok a => exact ⟨a, rfl⟩

theorem XiaPath.exists_unparse_iff {p : XiaPath} : (∃ s, p.unparse = .ok s) ↔ ¬ p.Strays := by
  constructor
  · rintro ⟨s, h⟩ hstrays
    obtain ⟨s', hre, -⟩ := bind_eq_ok.1 h
    obtain ⟨valid, hvalid, -⟩ := bind_eq_ok.1 hre
    rw [isValid_eq_error.2 ⟨rfl, hstrays⟩] at hvalid
    cases hvalid
  · intro h
    exact exists_ok_of_avoids fun f => unparse_inside h

theorem XiaPath.not_strays_of_isValid {p : XiaPath} {valid : Bool} (h : p.isValid = .ok valid) :
    ¬ p.Strays := by
  intro hstrays
  rw [isValid_eq_error.2 ⟨rfl, hstrays⟩] at h
  cases h

namespace Xcmp

variable {x : Xcmp} {fresh : Nat → UInt8} {p : Incoming} {r : Received} {type : UInt8}
  {t : List Effect}

theorem exists_unparse (x : Xcmp) : ∃ s, x.srcPath.unparse = .ok s :=
  XiaPath.exists_unparse_iff.2 (XiaPath.not_strays_of_isValid x.valid)

/-! ### Calls of `sendXCMPPacket` -/

/-- The arguments of a call. -/
structure Call where
  type : UInt8
  code : UInt8
  addrs : Option (Xid × Xid)
  src : Option XiaPath

def Call.send (fresh : Nat → UInt8) (r : Received) (c : Call) : Result Packet :=
  sendXcmpPacket fresh r c.type c.code c.addrs c.src

/-- The message can be made, and the packet that it is sent in. -/
def Sendable (r : Received) (c : Call) : Prop :=
  (∃ q, Fits r c.type q) ∧ Encloses r.srcPath (c.src.getD r.dstPath)

theorem exists_send_iff {c : Call} : (∃ reply, c.send fresh r = .ok reply) ↔ Sendable r c := by
  simp only [Call.send, sendXcmpPacket, bind_eq_ok]
  constructor
  · rintro ⟨reply, msg, hmsg, h⟩
    exact ⟨fits_of_message hmsg, Packet.exists_encap_iff.1 ⟨reply, h⟩⟩
  · rintro ⟨⟨q, hq⟩, hencloses⟩
    obtain ⟨reply, h⟩ := Packet.exists_encap_iff.2 hencloses
    exact ⟨reply, _, message_eq hq fresh c.code c.addrs, h⟩

/-- **When `sendXCMPPacket` stays inside its buffers**: both assertions hold, every byte that is
read is a byte of the packet and every byte that is written one of the message or of the new header,
exactly if the packet has at most 51 nodes (counted modulo 256), the loop over its extension headers
ends inside it and leaves at least eight bytes, for a pong the payload has the length that the
header says and less than 1496 bytes, and the two paths of the reply can be written into one
header. -/
theorem sendXcmpPacket_safe_iff (fresh : Nat → UInt8) (r : Received) (type code : UInt8)
    (addrs : Option (Xid × Xid)) (src : Option XiaPath) :
    (∃ reply, sendXcmpPacket fresh r type code addrs src = .ok reply) ↔
      (∃ q, Fits r type q) ∧ Encloses r.srcPath (src.getD r.dstPath) :=
  exists_send_iff (c := ⟨type, code, addrs, src⟩)

/-- An entry of the node list whose edge leads to the node `j`. -/
def entryTo (j : Nat) : XidNode :=
  ⟨hidOf 2, Vector.ofFn fun k => XiaPath.wireEdge (if k.val = 0 then j else xidEdgeUnused)⟩

/-- A report of eight bytes of payload that goes back to these nodes. -/
def reportTo (snode : List XidNode) (h : 1 + snode.length ≤ 255) : Result Packet :=
  sendXcmpPacket (fun _ => 0)
    (.ofPacket { packetOf nxtTrn 1 (List.replicate 8 0) with snode } h) timxceed
    timxceedReassembly none (some router.srcPath)

/-- A header with 52 nodes, a packet that ends with its header, a source node with an edge that
leads nowhere, and two source nodes with edges to each other. -/
theorem not_sendXcmpPacket_safe :
    (∃ r, sendXcmpPacket (fun _ => 0) r timxceed timxceedReassembly none none =
        .error .assertFailed) ∧
      (∃ r, sendXcmpPacket (fun _ => 0) r timxceed timxceedReassembly none none =
        .error .outOfBounds) ∧
      reportTo [entryTo 5] (by decide) = .error .outOfBounds ∧
      reportTo [entryTo 1, entryTo 0, entryTo 0] (by decide) = .error .assertFailed := by
  refine ⟨⟨⟨[1, nxtXcmp, 0, 0, 1, 26, 26, 0] ++ List.replicate 1456 0, by decide +kernel⟩, ?_⟩,
    ⟨⟨[1, nxtXcmp, 0, 0, 1, 0, 0, 0], by decide⟩, rfl⟩, by decide +kernel, by decide +kernel⟩
  have hmsg : ∀ r : Received, ¬ (r.dnode + r.snode).toNat ≤ 51 →
      message (fun _ => 0) r timxceed timxceedReassembly none = .error .assertFailed := by
    intro r hnodes
    rw [message, if_neg fun h => hnodes (xlen_lt_iff.1 h).1]
    rfl
  rw [sendXcmpPacket, hmsg _ (by decide)]
  rfl

theorem send_eq_ok {c : Call} {reply : Packet} (h : c.send fresh r = .ok reply) :
    reply.nxt = nxtXcmp ∧ message fresh r c.type c.code c.addrs = .ok reply.body := by
  obtain ⟨msg, hmsg, h⟩ := bind_eq_ok.1 h
  obtain ⟨dnode, snode, -, -, rfl⟩ := Packet.encap_eq_ok h
  exact ⟨rfl, hmsg⟩

/-! ### Types and destinations -/

def Carries (r : Received) (type : UInt8) : Prop :=
  r.nxt = nxtXcmp ∧ r.bytes[r.hdrSize]? = some type

theorem payload_of_not_lt (h : ¬ r.nxt < nxtNo) : r.payload = .ok r.hdrSize := by
  rw [Received.payload, Received.skipExtHeaders, if_neg h]
  rfl

theorem payload_of_nxtXcmp (h : r.nxt = nxtXcmp) : r.payload = .ok r.hdrSize := by
  refine payload_of_not_lt ?_
  rw [h]
  decide

theorem carries_eq_ok {b : Bool} : carries r type = .ok b ↔
    (r.nxt ≠ nxtXcmp ∧ false = b) ∨ ∃ type', Carries r type' ∧ decide (type' = type) = b := by
  unfold carries Carries
  by_cases hnxt : r.nxt = nxtXcmp
  · rw [if_pos hnxt, payload_of_nxtXcmp hnxt, ok_bind]
    simp only [bind_eq_ok, inBounds_eq_ok, pure_eq_ok, hnxt, ne_eq,
      not_true_eq_false, false_and, true_and, false_or]
  · rw [if_neg hnxt, pure_eq_ok]
    simp [hnxt]

theorem carries_eq_false (h : r.nxt = nxtXcmp → ∃ type', Carries r type' ∧ type' ≠ type) :
    carries r type = .ok false := by
  by_cases hnxt : r.nxt = nxtXcmp
  · obtain ⟨type', hcarries, hne⟩ := h hnxt
    exact carries_eq_ok.2 (.inr ⟨type', hcarries, decide_eq_false hne⟩)
  · exact carries_eq_ok.2 (.inl ⟨hnxt, rfl⟩)

/-- The conditions under which `processUnreachable` reports a packet. -/
structure Reportable (r : Received) : Prop where
  valid : r.dstPath.isValid = .ok true
  twoNodes : 2 ≤ r.dnode.toNat
  notBroadcast : (r.node (r.dnode.toNat - 2)).xid ≠ bhid

theorem removeNode_dstPath {n : Nat} (h : r.dnode.toNat = n + 1) :
    ∃ path, r.dstPath.removeNode r.dstPath.destinationNode = .ok path ∧
      path.unparseNodeSize = n ∧ ∀ m, n = m + 1 → path.destXid = .ok (r.node m).xid := by
  have hpath : r.dstPath = XiaPath.ofNodes
      (((List.range n).map r.node).map XiaPath.ofWireNode ++ [⟨(r.node n).xid, []⟩])
      ⟨Xid.zero, (XiaPath.ofWireNode (r.node n)).edges⟩ := by
    rw [Received.dstPath, Packet.dstPath, Received.packet, h, range_succ, map_append,
      map_singleton, XiaPath.parseNode, getLast?_concat]
    dsimp only
    rw [dropLast_concat]
  have hdst : r.dstPath.dst = some n := by
    rw [hpath]
    simp [XiaPath.ofNodes]
  have herase : r.dstPath.nodes.eraseIdx n = ((List.range n).map r.node).map XiaPath.ofWireNode ++
        [⟨Xid.zero, (XiaPath.ofWireNode (r.node n)).edges⟩] := by
    rw [hpath, XiaPath.ofNodes, append_assoc, eraseIdx_append_of_length_le (by simp)]
    simp
  have hlen : n < r.dstPath.nodes.length := by
    rw [hpath]
    simp [XiaPath.ofNodes]
  rw [XiaPath.destinationNode, hdst]
  refine ⟨_, bind_eq_ok.2 ⟨n, inBounds_eq_ok.2 ?_, rfl⟩, ?_, ?_⟩
  · simp [hlen]
  · rw [XiaPath.unparseNodeSize, herase]
    simp
  · rintro m rfl
    rw [XiaPath.destXid, XiaPath.xid, XiaPath.destinationNode, herase, hdst]
    simp [XiaPath.eraseHandle, XiaPath.ofWireNode, inBounds]

theorem isValid_dstPath_zero (h : r.dnode.toNat = 0) : r.dstPath.isValid = .ok false := by
  rw [Received.dstPath, Packet.dstPath, Received.packet, h]
  rfl

theorem reportable_of_valid (h : r.dstPath.isValid = .ok true) :
    reportable r = .ok (decide (2 ≤ r.dnode.toNat ∧ (r.node (r.dnode.toNat - 2)).xid ≠ bhid)) := by
  cases hn : r.dnode.toNat with
  | zero =>
    rw [isValid_dstPath_zero hn] at h
    cases h
  | succ n =>
    obtain ⟨path, hremove, hsize, hdest⟩ := removeNode_dstPath hn
    simp only [reportable, h, ok_bind, if_true, hremove, hsize]
    cases n with
    | zero => simp [pure, Except.pure]
    | succ m =>
      rw [if_neg (by omega), hdest m rfl, ok_bind]
      simp [pure, Except.pure]

/-- A path that is not valid is not reported, but printed. -/
theorem reportable_of_invalid (h : r.dstPath.isValid = .ok false) {b : Bool} :
    reportable r = .ok b ↔ b = false ∧ ¬ r.srcPath.Strays := by
  have hstrays := XiaPath.not_strays_of_isValid h
  obtain ⟨s, hs⟩ := exists_ok_of_avoids fun f => @XiaPath.unparseRe_inside _ f hstrays
  obtain ⟨s', hs'⟩ := XiaPath.exists_unparse_iff.2 hstrays
  rw [← XiaPath.exists_unparse_iff]
  simp only [reportable, h, ok_bind, Bool.false_eq_true, if_false, hs, hs', bind_eq_ok, pure_eq_ok]
  constructor
  · rintro ⟨s'', hs'', rfl⟩
    exact ⟨rfl, s'', hs''⟩
  · rintro ⟨rfl, s'', hs''⟩
    exact ⟨s'', hs'', rfl⟩

theorem reportable_eq_true : reportable r = .ok true ↔ Reportable r := by
  cases hvalid : r.dstPath.isValid with
  | error f =>
    refine iff_of_false (fun h => ?_) fun h => ?_
    · simp only [reportable, hvalid] at h
      cases h
    · rw [h.valid] at hvalid
      cases hvalid
  | ok valid =>
    cases valid with
    | false =>
      refine iff_of_false (fun h => ?_) fun h => ?_
      · cases ((reportable_of_invalid hvalid).1 h).1
      · rw [h.valid] at hvalid
        cases hvalid
    | true =>
      rw [reportable_of_valid hvalid, Except.ok.injEq, decide_eq_true_eq]
      exact ⟨fun h => ⟨hvalid, h.1, h.2⟩, fun h => ⟨h.twoNodes, h.notBroadcast⟩⟩

/-! ### What becomes of a packet -/

/-- The packet is answered by this call of `sendXCMPPacket`. -/
inductive Calls (x : Xcmp) (p : Incoming) : Call → Prop where
  | badForwarding {lnode : Xid} (flag : p.flag = some .badForwarding)
      (last : lastNode p.buf = .ok lnode) (printed : ¬ p.buf.srcPath.Strays) :
      Calls x p ⟨redirect, redirectHost, some (lnode, p.nexthop), some x.srcPath⟩
  | unreachable (flag : p.flag = some .unreachable)
      (type : p.buf.nxt = nxtXcmp → ∃ type, Carries p.buf type ∧ type ≠ unreach)
      (reportable : Reportable p.buf) (printed : ¬ p.buf.srcPath.Strays) :
      Calls x p ⟨unreach, unreachHost, none, some x.srcPath⟩
  | expired (flag : p.flag = some .expired) :
      Calls x p ⟨timxceed, timxceedReassembly, none, some x.srcPath⟩
  | ping (flag : p.flag = none) (type : Carries p.buf echo) : Calls x p ⟨echoReply, 0, none, none⟩

/-- The packet is dropped: an unreachable message about an unreachable message, or about a packet
that is not reported, is not sent; other packets than XCMP messages and messages of an unknown type
are ignored. -/
inductive Drops (p : Incoming) : Prop where
  | sameType (flag : p.flag = some .unreachable) (type : Carries p.buf unreach)
  | notReported (flag : p.flag = some .unreachable)
      (type : p.buf.nxt = nxtXcmp → ∃ type, Carries p.buf type ∧ type ≠ unreach)
      (reportable : reportable p.buf = .ok false)
  | otherHeader (flag : p.flag = none) (nxt : p.buf.nxt ≠ nxtXcmp)
  | unknown {type : UInt8} (flag : p.flag = none) (carries : Carries p.buf type)
      (type : type ∉ [echo, echoReply, timxceed, unreach, redirect])

/-- The packet is a message for the host. -/
def HandedUp (p : Incoming) : Prop :=
  p.flag = none ∧ ∃ type ∈ [echoReply, timxceed, unreach, redirect], Carries p.buf type

/-- Nothing but uses of the packet. -/
def Uses (t : List Effect) : Prop := ∀ e ∈ t, e = .use

/-- The effects of `push`, by what becomes of the packet. -/
inductive Run (x : Xcmp) (fresh : Nat → UInt8) (p : Incoming) : List Effect → Prop where
  | answered {c : Call} {reply : Packet} (before after : List Effect) (calls : Calls x p c)
      (send : c.send fresh p.buf = .ok reply) (before_uses : Uses before)
      (after_uses : Uses after) :
      Run x fresh p (before ++ .send 0 reply destinedForLocalhost :: after ++ [.kill])
  | dropped (before : List Effect) (drops : Drops p) (before_uses : Uses before) :
      Run x fresh p (before ++ [.kill])
  | handedUp (before : List Effect) (up : HandedUp p) (before_uses : Uses before) :
      Run x fresh p (before ++ [.up, .kill])
  | updated (before : List Effect) {update : Packet} (up : HandedUp p)
      (before_uses : Uses before) :
      Run x fresh p (before ++ [.send 1 update 1, .kill, .kill])

theorem run_of_badForwarding (hflag : p.flag = some .badForwarding)
    (h : x.processBadForwarding fresh p = .ok t) : Run x fresh p (t ++ [.kill]) := by
  simp only [processBadForwarding, bind_eq_ok, pure_eq_ok] at h
  obtain ⟨lnode, hlast, -, -, s, hprint, reply, hsend, rfl⟩ := h
  exact .answered [.use] []
    (.badForwarding hflag hlast (XiaPath.exists_unparse_iff.1 ⟨s, hprint⟩)) hsend
    (by simp [Uses]) (by simp [Uses])

theorem run_of_unreachable (hflag : p.flag = some .unreachable)
    (h : x.processUnreachable fresh p.buf = .ok t) : Run x fresh p (t ++ [.kill]) := by
  unfold processUnreachable at h
  obtain ⟨same, hsame, h⟩ := bind_eq_ok.1 h
  have huse : Uses [.use] := by simp [Uses]
  cases same with
  | true =>
    rw [if_pos rfl, pure_eq_ok] at h
    rcases carries_eq_ok.1 hsame with ⟨-, hfalse⟩ | ⟨type, htype, heq⟩
    · cases hfalse
    · rw [decide_eq_true_eq] at heq
      rw [heq] at htype
      rw [← h]
      exact .dropped _ (.sameType hflag htype) huse
  | false =>
    have htype (hnxt : p.buf.nxt = nxtXcmp) : ∃ type, Carries p.buf type ∧ type ≠ unreach := by
      rcases carries_eq_ok.1 hsame with ⟨hne, -⟩ | ⟨type, htype, heq⟩
      · exact absurd hnxt hne
      · exact ⟨type, htype, of_decide_eq_false heq⟩
    rw [if_neg (by simp)] at h
    obtain ⟨rep, hrep, h⟩ := bind_eq_ok.1 h
    cases rep with
    | false =>
      rw [if_neg (by simp), pure_eq_ok] at h
      rw [← h]
      exact .dropped _ (.notReported hflag htype hrep) huse
    | true =>
      simp only [if_true, reportUnreachable, bind_eq_ok, pure_eq_ok] at h
      obtain ⟨-, -, s, hprint, -, -, reply, hsend, rfl⟩ := h
      exact .answered [.use] [.use] (.unreachable hflag htype (reportable_eq_true.1 hrep)
          (XiaPath.exists_unparse_iff.1 ⟨s, hprint⟩)) hsend huse huse

theorem run_of_expired (hflag : p.flag = some .expired)
    (h : x.processExpired fresh p.buf = .ok t) : Run x fresh p (t ++ [.kill]) := by
  simp only [processExpired, bind_eq_ok, pure_eq_ok] at h
  obtain ⟨-, -, reply, hsend, rfl⟩ := h
  exact .answered [.use] [] (.expired hflag) hsend (by simp [Uses]) (by simp [Uses])

theorem run_of_gotType (hflag : p.flag = none) (htype : Carries p.buf type)
    (h : x.gotType fresh p.buf type = .ok t) :
    Run x fresh p (.use :: .use :: t ++ [.kill]) := by
  have hup (hmem : type ∈ [echoReply, timxceed, unreach, redirect]) : HandedUp p :=
    ⟨hflag, type, hmem, htype⟩
  unfold gotType at h
  split_ifs at h with hecho hreply htime hunreach hredirect
  · simp only [gotPing, bind_eq_ok, pure_eq_ok] at h
    obtain ⟨-, -, -, -, -, -, reply, hsend, rfl⟩ := h
    exact .answered [.use, .use, .use] [.use] (.ping hflag (hecho ▸ htype))
      hsend (by simp [Uses]) (by simp [Uses])
  · simp only [gotPong, bind_eq_ok, pure_eq_ok] at h
    obtain ⟨-, -, -, -, -, -, rfl⟩ := h
    exact .handedUp [.use, .use, .use, .use] (hup (by simp [hreply])) (by simp [Uses])
  · simp only [gotExpired, bind_eq_ok, pure_eq_ok] at h
    obtain ⟨-, -, rfl⟩ := h
    exact .handedUp [.use, .use, .use] (hup (by simp [htime])) (by simp [Uses])
  · simp only [gotUnreachable, bind_eq_ok, pure_eq_ok] at h
    obtain ⟨-, -, rfl⟩ := h
    exact .handedUp [.use, .use, .use] (hup (by simp [hunreach])) (by simp [Uses])
  · simp only [gotRedirect, bind_eq_ok, pure_eq_ok] at h
    obtain ⟨-, -, -, -, -, -, -, -, -, -, -, -, -, -, update, -, rfl⟩ := h
    exact .updated [.use, .use, .use] (hup (by simp [hredirect])) (by simp [Uses])
  · cases h
    refine .dropped [.use, .use] (.unknown hflag htype ?_) (by simp [Uses])
    simp [hecho, hreply, htime, hunreach, hredirect]

/-- **The effects of `push`.** -/
theorem run_of_push (h : x.push fresh p = .ok t) : Run x fresh p t := by
  unfold push at h
  obtain ⟨⟨bad, done⟩, hproc, h⟩ := bind_eq_ok.1 h
  dsimp only at h
  unfold processPacket at hproc
  -- a flagged packet is not looked at as a message
  have hbad {y : Result (List Effect)} (hproc : (y >>= fun done => pure (true, done)) =
      .ok (bad, done)) : y = .ok done ∧ t = done ++ [.kill] := by
    obtain ⟨done', hy, hpair⟩ := bind_eq_ok.1 hproc
    cases hpair
    rw [if_neg (by simp), pure_eq_ok] at h
    exact ⟨hy, h.symm⟩
  cases hflag : p.flag with
  | some flag =>
    rw [hflag] at hproc
    cases flag with
    | badForwarding =>
      obtain ⟨hdone, rfl⟩ := hbad hproc
      exact run_of_badForwarding hflag hdone
    | unreachable =>
      obtain ⟨hdone, rfl⟩ := hbad hproc
      exact run_of_unreachable hflag hdone
    | expired =>
      obtain ⟨hdone, rfl⟩ := hbad hproc
      exact run_of_expired hflag hdone
  | none =>
    rw [hflag] at hproc
    cases hproc
    by_cases hnxt : p.buf.nxt = nxtXcmp
    · rw [if_pos ⟨rfl, hnxt⟩] at h
      obtain ⟨got, hgot, h⟩ := bind_eq_ok.1 h
      simp only [gotXcmpPacket, payload_of_nxtXcmp hnxt, ok_bind, bind_eq_ok,
        inBounds_eq_ok, pure_eq_ok] at hgot
      obtain ⟨type, htype, done, hdone, rfl⟩ := hgot
      rw [← pure_eq_ok.1 h]
      exact run_of_gotType hflag ⟨hnxt, htype⟩ hdone
    · rw [if_neg fun hand => hnxt hand.2, pure_eq_ok] at h
      rw [← h]
      exact .dropped [.use] (.otherHeader hflag hnxt) (by simp [Uses])

theorem push_of_processPacket {done : List Effect}
    (h : x.processPacket fresh p = .ok (true, done)) : x.push fresh p = .ok (done ++ [.kill]) := by
  rw [push, h]
  rfl

theorem processPacket_of_not_flag (h : p.flag = none) :
    x.processPacket fresh p = .ok (false, [.use]) := by
  rw [processPacket, h]
  rfl

theorem push_of_gotType (hflag : p.flag = none) (htype : Carries p.buf type) : x.push fresh p =
      x.gotType fresh p.buf type >>= fun t => pure (.use :: .use :: t ++ [.kill]) := by
  have hgot : x.gotXcmpPacket fresh p.buf =
      x.gotType fresh p.buf type >>= fun t => pure (.use :: t) := by
    rw [gotXcmpPacket, payload_of_nxtXcmp htype.1, ok_bind, htype.2]
    rfl
  rw [push, processPacket_of_not_flag hflag, ok_bind]
  dsimp only
  rw [if_pos ⟨rfl, htype.1⟩, hgot, bind_assoc]
  rfl

/-- A packet that calls for an answer is answered, with the same effects but for the answer. -/
theorem push_of_calls {c : Call} (hcalls : Calls x p c) : ∃ before after, ∀ fresh reply,
    c.send fresh p.buf = .ok reply →
      x.push fresh p = .ok (before ++ .send 0 reply destinedForLocalhost :: after ++ [.kill]) := by
  obtain ⟨s, hs⟩ := x.exists_unparse
  unfold Call.send
  cases hcalls with
  | badForwarding hflag hlast hprint =>
    obtain ⟨s', hs'⟩ := XiaPath.exists_unparse_iff.2 hprint
    refine ⟨[.use], [], fun fresh reply hsend => push_of_processPacket ?_⟩
    simp only [processPacket, hflag, processBadForwarding, hlast, hs, hs', hsend, ok_bind]
    rfl
  | unreachable hflag htype hrep hprint =>
    obtain ⟨s', hs'⟩ := XiaPath.exists_unparse_iff.2 hprint
    obtain ⟨s'', hs''⟩ := XiaPath.exists_unparse_iff.2 (XiaPath.not_strays_of_isValid hrep.valid)
    refine ⟨[.use], [.use], fun fresh reply hsend => push_of_processPacket ?_⟩
    simp only [processPacket, hflag, processUnreachable, reportUnreachable,
      carries_eq_false htype, reportable_eq_true.2 hrep, hs, hs', hs'', hsend, ok_bind,
      Bool.false_eq_true, if_false, if_true]
    rfl
  | expired hflag =>
    refine ⟨[.use], [], fun fresh reply hsend => push_of_processPacket ?_⟩
    simp only [processPacket, hflag, processExpired, hs, hsend, ok_bind]
    rfl
  | ping hflag htype =>
    refine ⟨[.use, .use, .use], [.use], fun fresh reply hsend => ?_⟩
    -- the sequence number that is printed is among the eight bytes that are copied
    obtain ⟨⟨q, hq⟩, -⟩ := exists_send_iff.1 ⟨reply, hsend⟩
    have hread : readAt p.buf.bytes (q + 6) 2 = .ok _ :=
      readAt_eq_ok.2 ⟨by have := hq.datagram; omega, rfl⟩
    rw [push_of_gotType hflag htype]
    simp only [gotType, if_true, gotPing, hq.payload, hs, hread, hsend, ok_bind]
    rfl

theorem push_of_drops (h : Drops p) :
    ∃ before, ∀ (x : Xcmp) fresh, x.push fresh p = .ok (before ++ [.kill]) := by
  cases h with
  | sameType hflag htype =>
    have hcarries : carries p.buf unreach = .ok true :=
      carries_eq_ok.2 (.inr ⟨unreach, htype, decide_eq_true rfl⟩)
    refine ⟨[.use], fun x fresh => push_of_processPacket ?_⟩
    simp only [processPacket, hflag, processUnreachable, hcarries, ok_bind, if_true]
    rfl
  | notReported hflag htype hrep =>
    refine ⟨[.use], fun x fresh => push_of_processPacket ?_⟩
    simp only [processPacket, hflag, processUnreachable, carries_eq_false htype, hrep,
      ok_bind, Bool.false_eq_true, if_false]
    rfl
  | otherHeader hflag hnxt =>
    refine ⟨[.use], fun x fresh => ?_⟩
    rw [push, processPacket_of_not_flag hflag, ok_bind]
    dsimp only
    rw [if_neg fun hand => hnxt hand.2]
    rfl
  | unknown hflag htype hne =>
    simp only [mem_cons, not_mem_nil, or_false, not_or] at hne
    refine ⟨[.use, .use], fun x fresh => ?_⟩
    rw [push_of_gotType hflag htype]
    simp only [gotType, hne, if_false]
    rfl

theorem push_of_handedUp (h : HandedUp p) (fresh fresh' : Nat → UInt8) :
    x.push fresh p = x.push fresh' p := by
  obtain ⟨hflag, type, hmem, hcarries⟩ := h
  have hecho : type ≠ echo := by
    rintro rfl
    exact absurd hmem (by decide)
  rw [push_of_gotType hflag hcarries, push_of_gotType hflag hcarries]
  simp only [gotType, if_neg hecho]

/-! ### Ownership of the packet -/

/-- What an effect does with the packet that came in. -/
def Effect.act : Effect → Option (Ownership.Act Unit)
  | use => some (.use ())
  | kill | up => some (.give ())
  | send _ _ _ => none

def acts (t : List Effect) : List (Ownership.Act Unit) := t.filterMap Effect.act

/-- The packet is handled, given up exactly once and not used afterwards. -/
def GivesUpOnce (x : Xcmp) (fresh : Nat → UInt8) (p : Incoming) : Prop :=
  ∃ t, x.push fresh p = .ok t ∧ Ownership.GivenOnce () (acts t)

theorem not_give_of_uses (h : Uses t) : .give () ∉ acts t := by
  intro hgive
  obtain ⟨e, he, hact⟩ := mem_filterMap.1 hgive
  rw [h e he] at hact
  cases hact

theorem Carries.eq {type' : UInt8} (h : Carries r type) (h' : Carries r type') : type = type' :=
  Option.some.inj (h.2.symm.trans h'.2)

theorem Calls.not_handedUp {c : Call} (h : Calls x p c) : ¬ HandedUp p := by
  rintro ⟨hflag', type, hmem, hcarries⟩
  cases h with
  | badForwarding hflag _ _ | unreachable hflag _ _ _ | expired hflag =>
    rw [hflag] at hflag'
    cases hflag'
  | ping _ htype =>
    rw [hcarries.eq htype] at hmem
    exact absurd hmem (by decide)

theorem Drops.not_handedUp (h : Drops p) : ¬ HandedUp p := by
  rintro ⟨hflag', type, hmem, hcarries⟩
  cases h with
  | sameType hflag _ | notReported hflag _ _ =>
    rw [hflag] at hflag'
    cases hflag'
  | otherHeader _ hnxt => exact hnxt hcarries.1
  | unknown _ htype hne =>
    rw [hcarries.eq htype] at hmem
    exact hne (mem_cons_of_mem _ hmem)

theorem Run.givenOnce (h : Run x fresh p t) (hup : ¬ HandedUp p) :
    Ownership.GivenOnce () (acts t) := by
  have hkill {t : List Effect} (huses : .give () ∉ acts t) :
      Ownership.GivenOnce () (acts (t ++ [.kill])) := by
    rw [acts, filterMap_append]
    exact Ownership.givenOnce_append_give huses
  cases h with
  | answered _ _ _ _ hbefore hafter =>
    refine hkill ?_
    rw [acts, filterMap_append, mem_append, not_or]
    refine ⟨not_give_of_uses hbefore, ?_⟩
    rw [filterMap_cons_none rfl]
    exact not_give_of_uses hafter
  | dropped _ _ hbefore => exact hkill (not_give_of_uses hbefore)
  | handedUp _ h _ | updated _ h _ => exact absurd h hup

/-- What goes up to the host is given up, and killed at the end all the same. -/
theorem Run.not_givenOnce (h : Run x fresh p t) (hup : HandedUp p) :
    ¬ Ownership.GivenOnce () (acts t) := by
  rintro ⟨-, haffine⟩
  cases h with
  | answered _ _ hcalls _ _ _ => exact hcalls.not_handedUp hup
  | dropped _ hdrops _ => exact hdrops.not_handedUp hup
  | handedUp _ _ _ | updated _ _ _ =>
    rw [acts, filterMap_append] at haffine
    exact absurd haffine (Ownership.not_affineAt_of_give _ [] rfl)

/-- **Which packets are given up exactly once**: those that are answered, with an answer that can be
made, and those that are dropped.  What goes up to the host is given up a second time. -/
theorem givesUpOnce_iff (x : Xcmp) (fresh : Nat → UInt8) (p : Incoming) :
    GivesUpOnce x fresh p ↔ (∃ c, Calls x p c ∧ Sendable p.buf c) ∨ Drops p := by
  constructor
  · rintro ⟨t, hpush, honce⟩
    have hrun := run_of_push hpush
    cases hrun with
    | answered _ _ hcalls hsend _ _ => exact .inl ⟨_, hcalls, exists_send_iff.1 ⟨_, hsend⟩⟩
    | dropped _ hdrops _ => exact .inr hdrops
    | handedUp _ hup _ | updated _ hup _ =>
      exact absurd honce ((run_of_push hpush).not_givenOnce hup)
  · rintro (⟨c, hcalls, hsend⟩ | hdrops)
    · obtain ⟨reply, hreply⟩ := exists_send_iff.2 hsend
      obtain ⟨before, after, hall⟩ := push_of_calls hcalls
      have hpush := hall fresh reply hreply
      exact ⟨_, hpush, (run_of_push hpush).givenOnce hcalls.not_handedUp⟩
    · obtain ⟨before, hall⟩ := push_of_drops hdrops
      have hpush := hall x fresh
      exact ⟨_, hpush, (run_of_push hpush).givenOnce hdrops.not_handedUp⟩

/-- A pong of eight bytes goes up and is then killed. -/
theorem not_givesUpOnce_pong :
    ¬ GivesUpOnce router (fun _ => 0) (incomingOf nxtXcmp 100 (List.replicate 8 echoReply)) := by
  unfold GivesUpOnce
  decide +kernel

end Xcmp

end Xia
