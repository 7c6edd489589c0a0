import Xia.Equiv.ReText
import Xia.Transport.Equiv.Demux

/-!
# The source address of the packets that are sent

A packet should carry the current address of the host, followed by the XID of its socket, also after
the address has changed.  `Xsend` and the copies for retransmission rewrite the source path of the
socket with `parse_re`.  `Xsendto` and `XrequestChunk` hand the same text, which has no type word,
to `parse`, so they send from whatever path the socket has.

`Current localAddr x path` says that the path is the local address followed by `x`.  The addresses
in use are supposed to be `Readable`: they have an RE form, their XIDs are read as they are written,
and they fit the header.  `sendsCurrent_iff` is the result for runs.
-/

namespace Xia

open List Option Result

/-! ### Addresses -/

namespace XiaPath

variable {p localAddr path : XiaPath} {x : Xid} {t : Text}

def HasRe (p : XiaPath) : Prop := p.isValid = .ok true ∧ ∃ t, p.unparseRe = .ok t ∧ t ≠ []

/-- The address has an RE form, its XIDs are read as they are written, and a path that has one more
node fits the header. -/
structure Readable (p : XiaPath) : Prop where
  form : p.HasRe
  names : ∀ i < p.nodes.length, p.src ≠ some i → Xid.parse (p.xidOf i).unparse = some (p.xidOf i)
  size : p.nodes.length ≤ xidEdgeUnused

/-- The path is the local address followed by the XID. -/
def Current (localAddr : XiaPath) (x : Xid) (path : XiaPath) : Prop :=
  ∃ t, localAddr.unparseRe = .ok t ∧ path.unparseRe = .ok (t ++ [' '] ++ x.unparse)

instance (p : XiaPath) : Decidable p.HasRe := inferInstanceAs (Decidable (_ ∧ _))

instance (p : XiaPath) : Decidable p.Readable :=
  decidable_of_iff (p.HasRe ∧ (∀ i < p.nodes.length, p.src ≠ some i →
      Xid.parse (p.xidOf i).unparse = some (p.xidOf i)) ∧ p.nodes.length ≤ xidEdgeUnused)
    ⟨fun h => ⟨h.1, h.2.1, h.2.2⟩, fun h => ⟨h.form, h.names, h.size⟩⟩

instance (localAddr : XiaPath) (x : Xid) (path : XiaPath) : Decidable (Current localAddr x path) :=
  inferInstanceAs (Decidable (∃ _, _ ∧ _))

theorem isValid_of_unparseRe (h : p.unparseRe = .ok t)
    (ht : t ≠ ['(', 'i', 'n', 'v', 'a', 'l', 'i', 'd', ')']) : p.isValid = .ok true := by
  simp only [unparseRe, bind_eq_ok] at h
  obtain ⟨valid, hvalid, h⟩ := h
  cases valid with
  | true => exact hvalid
  | false => exact absurd (pure_eq_ok.1 h).symm ht

theorem Current.hasRe (h : Current localAddr x path) : path.HasRe := by
  obtain ⟨t, -, hpath⟩ := h
  have hcolon : ':' ∈ t ++ [' '] ++ x.unparse := mem_append_right _ x.colon_mem_unparse
  refine ⟨isValid_of_unparseRe hpath fun heq => ?_, _, hpath, ne_nil_of_mem hcolon⟩
  rw [heq] at hcolon
  revert hcolon
  decide

theorem HasRe.exists_chain (h : p.HasRe) : ∃ src dst hops, p.Valid src dst ∧ Chain p src hops ∧
    hops ≠ [] ∧ p.unparseRe = .ok (reText (hops.map p.hopOf)) := by
  obtain ⟨hvalid, t, ht, hne⟩ := h
  obtain ⟨src, dst, hp⟩ := isValid_iff.1 hvalid
  obtain ⟨hops, hchain, rfl⟩ := (hp.unparseRe_iff hne).1 ht
  refine ⟨src, dst, hops, hp, hchain, ?_, ht⟩
  rintro rfl
  exact hne rfl

theorem readsBack_of_chain {src dst : Nat} {hops : List (List Nat × Nat)} (hp : p.Valid src dst)
    (hchain : Chain p src hops) (hnames : ∀ i < p.nodes.length, p.src ≠ some i →
      Xid.parse (p.xidOf i).unparse = some (p.xidOf i)) :
    ∀ h ∈ hops.map p.hopOf, h.ReadsBack := by
  have hwalk := hchain.walk
  intro h hh x hx
  obtain ⟨g, hg, rfl⟩ := List.mem_map.1 hh
  obtain ⟨i, hi, rfl⟩ : ∃ i ∈ g.1 ++ [g.2], x = p.xidOf i := by
    rw [hopOf, show g.1.map p.xidOf ++ [p.xidOf g.2] = (g.1 ++ [g.2]).map p.xidOf by simp] at hx
    obtain ⟨i, hi, rfl⟩ := List.mem_map.1 hx
    exact ⟨i, hi, rfl⟩
  have htrace : i ∈ trace hops := mem_flatMap.2 ⟨g, hg, hi⟩
  refine hnames i (hp.lt_of_walk hwalk (mem_cons_of_mem _ htrace)) fun hsrc => ?_
  rw [hp.src_eq, some_inj] at hsrc
  exact (nodup_cons.1 (hp.nodup_of_walk hwalk)).1 (hsrc ▸ htrace)

theorem Readable.exists_hops (h : localAddr.Readable) (hx : Xid.parse x.unparse = some x)
    (ht : localAddr.unparseRe = .ok t) : ∃ hops : List Hop, t ++ [' '] ++ x.unparse =
      reText (hops ++ [⟨[], x⟩]) ∧ (∀ h ∈ hops ++ [(⟨[], x⟩ : Hop)], h.ReadsBack) ∧
        reSize (hops ++ [⟨[], x⟩]) ≤ xidEdgeUnused := by
  obtain ⟨src, dst, hops, hp, hchain, hne, htext⟩ := h.form.exists_chain
  obtain rfl : reText (hops.map localAddr.hopOf) = t := Except.ok.inj (htext.symm.trans ht)
  have hne' : hops.map localAddr.hopOf ≠ [] := by simpa using hne
  refine ⟨hops.map localAddr.hopOf, (reText_concat hne' x).symm, fun g hg => ?_, ?_⟩
  · rcases mem_append.1 hg with hg | hg
    · exact readsBack_of_chain hp hchain h.names g hg
    · rw [mem_singleton.1 hg]
      simpa [Hop.ReadsBack] using hx
  · have hlen := hp.length_of_chain hchain
    have hsize := h.size
    rw [reSize, map_append, sum_append, ← reSize]
    simp only [map_cons, map_nil, sum_cons, sum_nil, Hop.size, length_nil]
    omega

/-- **`parse_re` reads the local address followed by an XID as it was written.** -/
theorem Readable.parseRe (h : localAddr.Readable) (hx : Xid.parse x.unparse = some x)
    (ht : localAddr.unparseRe = .ok t) :
    Current localAddr x (parseRe (t ++ [' '] ++ x.unparse)).2 ∧
      (parseRe (t ++ [' '] ++ x.unparse)).2.destXid = .ok x ∧
      (parseRe (t ++ [' '] ++ x.unparse)).2.nodes.length ≤ xidEdgeUnused + 1 := by
  obtain ⟨hops, htext, hback, hsize⟩ := h.exists_hops hx ht
  have hne : hops ++ [(⟨[], x⟩ : Hop)] ≠ [] := by simp
  rw [htext, parseRe_reText hne hback, length_rePath]
  refine ⟨⟨t, ht, ?_⟩, destXid_rePath hops ⟨[], x⟩, Nat.succ_le_succ hsize⟩
  rw [unparseRe_rePath hne, htext]

/-- **On the wire the path stays the address followed by the XID**, or what else it is. -/
theorem current_parseNode_iff {nodes : List XidNode} (hpath : path.isValid = .ok true)
    (hlen : path.nodes.length ≤ xidEdgeUnused + 1) (hnodes : path.wireNodes = .ok nodes) :
    Current localAddr x (parseNode nodes) ↔ Current localAddr x path := by
  obtain ⟨src, dst, hp⟩ := isValid_iff.1 hpath
  rw [Current, Current, hp.unparseRe_parseNode hlen hnodes]

end XiaPath

/-! ### Functions on a socket -/

namespace DagInfo

open XiaPath

variable {env : Env} {beyond : Nat → UInt8} {localAddr : XiaPath} {x : Xid}
variable {d d' : DagInfo} {p q : Packet}

/-- The source path of the socket has an RE form, ends in `x`, which is read as it is written, and
fits the header. -/
structure Sourced (x : Xid) (d : DagInfo) : Prop where
  form : d.srcPath.HasRe
  dest : d.srcPath.destXid = .ok x
  name : Xid.parse x.unparse = some x
  size : d.srcPath.nodes.length ≤ xidEdgeUnused + 1

/-- The source path of the socket is the local address followed by `x`. -/
structure UpToDate (localAddr : XiaPath) (x : Xid) (d : DagInfo) : Prop where
  sourced : d.Sourced x
  current : Current localAddr x d.srcPath

theorem Sourced.congr (h : d.Sourced x) (hpath : d'.srcPath = d.srcPath) : d'.Sourced x :=
  ⟨hpath ▸ h.form, hpath ▸ h.dest, h.name, hpath ▸ h.size⟩

theorem UpToDate.congr (h : d.UpToDate localAddr x) (hpath : d'.srcPath = d.srcPath) :
    d'.UpToDate localAddr x :=
  ⟨h.sourced.congr hpath, hpath ▸ h.current⟩

theorem Sourced.localSource (hd : d.Sourced x) {str : Text}
    (h : d.localSource localAddr = .ok str) :
    ∃ t, localAddr.unparseRe = .ok t ∧ str = t ++ [' '] ++ x.unparse := by
  simp only [DagInfo.localSource, bind_eq_ok, pure_eq_ok] at h
  obtain ⟨y, hy, t, ht, rfl⟩ := h
  obtain rfl : x = y := Except.ok.inj (hd.dest.symm.trans hy)
  exact ⟨t, ht, rfl⟩

theorem UpToDate.srcPath (hd : d.UpToDate localAddr x) (h : d.srcPath.wireNodes = .ok p.snode) :
    Current localAddr x p.srcPath :=
  (current_parseNode_iff hd.sourced.form.1 hd.sourced.size h).2 hd.current

/-- The packets that the loop body of `run_timer` sends for a socket. -/
def timerPackets (env : Env) (localAddr : XiaPath) (sport : UInt16) (d : DagInfo) : List Packet :=
  match d.timeout env localAddr sport with
  | .error _ => []
  | .ok (d, out, tear) =>
    if tear then netPackets out
    else
      match d.cidTimeouts env localAddr d.xidToTimerOn.keys env.now with
      | .error _ => []
      | .ok (_, _, copies) => netPackets out ++ copies

section

variable (hl : localAddr.Readable)
include hl

theorem upToDate_parseRe {t : Text} (hx : Xid.parse x.unparse = some x)
    (ht : localAddr.unparseRe = .ok t)
    (hpath : d.srcPath = (XiaPath.parseRe (t ++ [' '] ++ x.unparse)).2) :
    d.UpToDate localAddr x := by
  obtain ⟨hcur, hdest, hsize⟩ := hl.parseRe hx ht
  rw [← hpath] at hcur hdest hsize
  exact ⟨⟨hcur.hasRe, hdest, hx, hsize⟩, hcur⟩

/-- **"Recalculate source path" brings the path up to date.** -/
theorem Sourced.recalculate (hd : d.Sourced x) (h : d.recalculate localAddr = .ok d') :
    d'.UpToDate localAddr x := by
  simp only [DagInfo.recalculate, bind_eq_ok] at h
  obtain ⟨str, hstr, dagstr, hdagstr, h⟩ := h
  split at h
  · cases h
    obtain ⟨t, ht, rfl⟩ := hd.localSource hstr
    exact upToDate_parseRe hl hd.name ht rfl
  -- the path is kept: its text is the right one, since it is not empty
  · rename_i hkeep
    cases h
    obtain ⟨-, t', ht', hne⟩ := hd.form
    obtain rfl : dagstr = t' := Except.ok.inj (hdagstr.symm.trans ht')
    obtain rfl : dagstr = str := by
      by_contra hdiff
      exact hkeep ⟨hne, hdiff⟩
    obtain ⟨t, ht, rfl⟩ := hd.localSource hstr
    exact ⟨hd, t, ht, hdagstr⟩

/-- A path that is completed is up to date; a full one stays as it is. -/
theorem Sourced.completeSrcPath (hd : d.Sourced x) (h : d.completeSrcPath localAddr = .ok d') :
    (d.fullSrcDag = true ∧ d' = d) ∨ (d.fullSrcDag = false ∧ d'.UpToDate localAddr x) := by
  simp only [DagInfo.completeSrcPath] at h
  split at h
  · rename_i hfull
    exact .inl ⟨hfull, (pure_eq_ok.1 h).symm⟩
  · rename_i hfull
    simp only [bind_eq_ok] at h
    obtain ⟨str, hstr, h⟩ := h
    cases h
    obtain ⟨t, ht, rfl⟩ := hd.localSource hstr
    exact .inr ⟨by simpa using hfull, upToDate_parseRe hl hd.name ht rfl⟩

theorem UpToDate.completeSrcPath (hd : d.UpToDate localAddr x)
    (h : d.completeSrcPath localAddr = .ok d') : d'.UpToDate localAddr x := by
  rcases hd.sourced.completeSrcPath hl h with ⟨-, rfl⟩ | ⟨-, hd'⟩
  · exact hd
  · exact hd'

theorem Sourced.copyPacket (hd : d.Sourced x) (h : d.copyPacket beyond localAddr p = .ok (d', q)) :
    d'.UpToDate localAddr x ∧ Current localAddr x q.srcPath := by
  obtain ⟨hrecalc, hwire⟩ := copyPacket_source h
  have hd' := hd.recalculate hl hrecalc
  exact ⟨hd', hd'.srcPath hwire⟩

theorem Sourced.copyCidReqPacket (hd : d.Sourced x)
    (h : d.copyCidReqPacket beyond localAddr p = .ok (d', q)) :
    d'.UpToDate localAddr x ∧ Current localAddr x q.srcPath := by
  obtain ⟨hrecalc, hwire⟩ := copyContentPacket_source h
  have hd' := hd.recalculate hl hrecalc
  exact ⟨hd', hd'.srcPath hwire⟩

theorem Sourced.xsend {hlim : UInt8} {payload : List UInt8}
    (hd : d.Sourced x) (h : d.xsend env localAddr hlim payload = .ok (d', p)) :
    d'.UpToDate localAddr x ∧ Current localAddr x p.srcPath := by
  simp only [DagInfo.xsend, bind_eq_ok] at h
  obtain ⟨d₁, hd₁, d₂, hd₂, p', hp', ⟨d₃, copy⟩, hcopy, h⟩ := h
  have hup₂ := (hd.recalculate hl hd₁).completeSrcPath hl hd₂
  obtain ⟨hup₃, -⟩ := hup₂.sourced.copyPacket hl hcopy
  cases h
  obtain ⟨dnode, snode, -, hwire, rfl⟩ := Packet.encap_eq_ok hp'
  exact ⟨hup₃.congr rfl, hup₂.srcPath hwire⟩

/-! ### Retransmission -/

theorem Sourced.retransmit {n i : Nat} {copies : List Packet}
    (hd : d.Sourced x) (h : d.retransmit beyond localAddr n i = .ok (d', copies)) :
    d'.Sourced x ∧ ∀ q ∈ copies, Current localAddr x q.srcPath := by
  induction n generalizing i d copies with
  | zero =>
    cases h
    exact ⟨hd, by simp⟩
  | succ n ih =>
    rw [DagInfo.retransmit] at h
    split at h
    · exact ih hd h
    · simp only [bind_eq_ok] at h
      obtain ⟨⟨d₁, copy⟩, hcopy, ⟨d₂, rest⟩, hrest, h⟩ := h
      cases h
      obtain ⟨hup, hcur⟩ := hd.copyPacket hl hcopy
      obtain ⟨hd₂, hall⟩ := ih hup.sourced hrest
      exact ⟨hd₂, forall_mem_cons.2 ⟨hcur, hall⟩⟩

theorem Sourced.timeout {sport : UInt16} {out : List Output} {tear : Bool} (hd : d.Sourced x)
    (h : d.timeout env localAddr sport = .ok (d', out, tear)) :
    d'.Sourced x ∧ ∀ q ∈ netPackets out, Current localAddr x q.srcPath := by
  rw [DagInfo.timeout] at h
  split at h
  · split at h
    · simp only [bind_eq_ok] at h
      obtain ⟨⟨d₁, o⟩, hsyn, h⟩ := h
      cases h
      rw [synTimeout] at hsyn
      split at hsyn
      · simp only [bind_eq_ok] at hsyn
        obtain ⟨syn, -, ⟨d₂, copy⟩, hcopy, hsyn⟩ := hsyn
        cases hsyn
        obtain ⟨hup, hcur⟩ := hd.copyPacket hl hcopy
        exact ⟨hup.sourced.congr rfl, by simpa [netPackets] using hcur⟩
      · cases hsyn
        exact ⟨hd.congr rfl, by simp [netPackets, debug]⟩
    · split at h
      · simp only [bind_eq_ok] at h
        obtain ⟨⟨d₁, o⟩, hdata, h⟩ := h
        cases h
        simp only [dataTimeout, bind_eq_ok] at hdata
        obtain ⟨⟨d₂, copies⟩, hcopies, hdata⟩ := hdata
        have hall : d₂.Sourced x ∧ ∀ q ∈ copies, Current localAddr x q.srcPath := by
          rw [resend] at hcopies
          split at hcopies
          · exact hd.retransmit hl hcopies
          · cases hcopies
            exact ⟨hd, by simp⟩
        split at hdata
        · cases hdata
          exact ⟨hall.1.congr rfl, by simp [netPackets]⟩
        · cases hdata
          exact ⟨hall.1.congr rfl, by simpa [netPackets] using hall.2⟩
      · split at h
        all_goals
          cases h
          exact ⟨hd.congr rfl, by simp [netPackets]⟩
  · cases h
    exact ⟨hd, by simp [netPackets]⟩

theorem Sourced.cidTimeouts {cids : List Xid} {e e' : Nat} {copies : List Packet} (hd : d.Sourced x)
    (h : d.cidTimeouts env localAddr cids e = .ok (d', e', copies)) :
    d'.Sourced x ∧ ∀ q ∈ copies, Current localAddr x q.srcPath := by
  refine cidTimeouts_invariant (fun d d₁ cid p c hd _ _ hcopy => ?_) hd h
  obtain ⟨hup, hcur⟩ := hd.copyCidReqPacket hl hcopy
  exact ⟨hup.sourced.congr rfl, hcur⟩

/-- **Retransmissions are sent from the current address.** -/
theorem Sourced.timerPackets {sport : UInt16} (hd : d.Sourced x) :
    ∀ q ∈ d.timerPackets env localAddr sport, Current localAddr x q.srcPath := by
  unfold DagInfo.timerPackets
  split
  · simp
  · rename_i d₁ out tear htimeout
    obtain ⟨hd₁, hout⟩ := hd.timeout hl htimeout
    split
    · exact hout
    · split
      · simp
      · rename_i d₂ e copies hcid
        obtain ⟨-, hcopies⟩ := hd₁.cidTimeouts hl hcid
        intro q hq
        rcases mem_append.1 hq with hq | hq
        · exact hout q hq
        · exact hcopies q hq

end

/-- What is retransmitted does not depend on the earliest expiry found so far. -/
theorem cidTimeouts_congr {cids : List Xid} {e e' : Nat} {copies : List Packet}
    (h : d.cidTimeouts env localAddr cids e = .ok (d', e', copies)) (e₂ : Nat) :
    ∃ e₂', d.cidTimeouts env localAddr cids e₂ = .ok (d', e₂', copies) := by
  induction cids generalizing d e e₂ copies with
  | nil =>
    cases h
    exact ⟨e₂, rfl⟩
  | cons cid cids ih =>
    simp only [DagInfo.cidTimeouts, bind_eq_ok] at h
    obtain ⟨on, hon, expiry, hexpiry, h⟩ := h
    simp only [DagInfo.cidTimeouts, hon, hexpiry, ok_bind]
    split at h
    · rename_i hdue
      simp only [bind_eq_ok] at h
      obtain ⟨pkt, hpkt, ⟨d₁, copy⟩, hcopy, ⟨d₂, e₃, rest⟩, hrest, h⟩ := h
      cases h
      obtain ⟨e₄, hrest'⟩ := ih hrest (earlier env.now e₂ (env.now + ackDelay))
      refine ⟨e₄, ?_⟩
      rw [if_pos hdue, hpkt, ok_bind, hcopy, ok_bind]
      dsimp only at hrest' ⊢
      rw [hrest', ok_bind]
      rfl
    · rename_i hdue
      rw [if_neg hdue]
      exact ih h _

end DagInfo

def Event.sends : Event → Bool
  | .xsend _ _ | .xsendto _ _ _ | .xrequestChunk _ _ _ | .timer => true
  | _ => false

/-- The port of the socket from which `Xsendto` or `XrequestChunk` sends, and which gets a name if
it has none. -/
def Event.namer : Event → Option UInt16
  | .xsendto q _ _ | .xrequestChunk q _ (_ :: _) => some q
  | _ => none

namespace XTransport

open XiaPath DagInfo

variable {sha1 : Sha1} {env : Env} {s s' s₁ : XTransport} {q : UInt16} {out : List Output}
variable {d d₁ d₂ d₃ : DagInfo} {x : Xid} {i : Input}

/-! ### Who sends a packet -/

def timerPacketsAt (env : Env) (s : XTransport) (q : UInt16) : List Packet :=
  match s.portToDagInfo.lookup q with
  | none => []
  | some d => d.timerPackets env s.localAddr q

theorem mem_map_port {l : List Packet} {q' : UInt16} {p' : Packet} :
    (q', p') ∈ l.map (fun p => (q, p)) ↔ q' = q ∧ p' ∈ l := by
  rw [List.mem_map]
  constructor
  · rintro ⟨p, hp, heq⟩
    obtain ⟨rfl, rfl⟩ := Prod.mk.inj heq
    exact ⟨rfl, hp⟩
  · rintro ⟨rfl, hp⟩
    exact ⟨p', hp, rfl⟩

/-- The packets that an event sends on the four paths, each with the port of its socket. -/
def sentBy (s : XTransport) (i : Input) (out : List Output) : List (UInt16 × Packet) :=
  match i.event with
  | .xsend q _ | .xsendto q _ _ | .xrequestChunk q _ _ => (netPackets out).map fun p => (q, p)
  | .timer => s.portToDagInfo.keys.flatMap fun q =>
      (s.timerPacketsAt i.env q).map fun p => (q, p)
  | _ => []

theorem timerSocket_packets {e e' : Nat} (hd : s.portToDagInfo.lookup q = some d)
    (h : s.timerSocket env q e = .ok (s', e', out)) :
    netPackets out = d.timerPackets env s.localAddr q := by
  simp only [timerSocket, bind_eq_ok] at h
  obtain ⟨d', hd', ⟨d₁, o, tear⟩, htimeout, h⟩ := h
  rw [hd, deref_some, Except.ok.injEq] at hd'
  subst hd'
  rw [timerPackets, htimeout]
  dsimp only at h ⊢
  cases tear with
  | true =>
    simp only [if_true, bind_eq_ok, pure_eq_ok, Prod.mk.injEq] at h
    obtain ⟨s₁, -, -, -, rfl⟩ := h
    rfl
  | false =>
    simp only [Bool.false_eq_true, if_false, bind_eq_ok] at h
    obtain ⟨⟨d₂, e₂, copies⟩, hcid, h⟩ := h
    cases h
    obtain ⟨e₃, hcid'⟩ := cidTimeouts_congr hcid env.now
    simp only [Bool.false_eq_true, if_false, hcid', netPackets_append]
    simp [netPackets]

/-- The visits do not interfere: every socket sends what it would send alone. -/
theorem timerSockets_packets {sports : List UInt16} {e e' : Nat} (hnodup : sports.Nodup)
    (h : timerSockets env sports s e = .ok (s', e', out)) :
    netPackets out = sports.flatMap (s.timerPacketsAt env) := by
  induction sports generalizing s e out with
  | nil =>
    cases h
    rfl
  | cons q sports ih =>
    obtain ⟨hq, hnodup⟩ := nodup_cons.1 hnodup
    simp only [timerSockets, bind_eq_ok] at h
    obtain ⟨⟨s₁, e₁, o₁⟩, h₁, ⟨s₂, e₂, o₂⟩, h₂, h⟩ := h
    cases h
    have hticked := timerSocket_eq_ok h₁
    obtain ⟨d, -, hd, -⟩ := hticked.visited q mem_cons_self
    have hrest : ∀ q' ∈ sports, s₁.timerPacketsAt env q' = s.timerPacketsAt env q' := by
      intro q' hq'
      have hne : q' ∉ [q] := by
        rw [mem_singleton]
        rintro rfl
        exact hq hq'
      rw [timerPacketsAt, timerPacketsAt, hticked.other q' hne, hticked.localAddr]
    rw [netPackets_append, ih hnodup h₂, timerSocket_packets hd h₁, flatMap_cons,
      flatMap_congr hrest, timerPacketsAt, hd]

theorem map_sentBy (hs : step sha1 s i = .ok (s', out)) (hsends : i.event.sends = true) :
    (s.sentBy i out).map Prod.snd = netPackets out := by
  obtain ⟨env, event⟩ := i
  cases event with
  | timer =>
    simp only [step, handle, runTimer, bind_eq_ok] at hs
    obtain ⟨⟨s₁, e, o⟩, h₁, hs⟩ := hs
    cases hs
    rw [timerSockets_packets s.portToDagInfo.keys_nodup h₁, sentBy, map_flatMap]
    refine flatMap_congr fun q _ => ?_
    rw [List.map_map]
    exact List.map_id _
  | xsend | xsendto | xrequestChunk => simp [sentBy, Function.comp_def]
  | _ => cases hsends

/-! ### The promise and the condition -/

/-- What an event sends that takes the element to `s'`: every packet belongs to a socket, and it
carries the current address followed by the XID of the socket, the one that the socket had or the
one that the call gave it. -/
structure SentCurrent (s : XTransport) (i : Input) (s' : XTransport) (out : List Output) :
    Prop where
  attributed : i.event.sends = true → (s.sentBy i out).map Prod.snd = netPackets out
  bound : ∀ q p, (q, p) ∈ s.sentBy i out → ∀ d, s.portToDagInfo.lookup q = some d →
    (i.event.namer = some q → d.initialized = true) → d.srcPath.HasRe →
      ∃ x, d.srcPath.destXid = .ok x ∧ Current s.localAddr x p.srcPath
  unbound : ∀ q, i.event.namer = some q → ∀ p, (q, p) ∈ s.sentBy i out →
    (∀ d, s.portToDagInfo.lookup q = some d → d.initialized = false) →
      ∃ d' x, s'.portToDagInfo.lookup q = some d' ∧ d'.srcPath.destXid = .ok x ∧
        Current s.localAddr x p.srcPath

def SendsCurrent (sha1 : Sha1) (s : XTransport) (i : Input) : Prop :=
  ∀ s' out, step sha1 s i = .ok (s', out) → s.SentCurrent i s' out

/-- A full source path of the socket is the current one. -/
def SourceCurrent (s : XTransport) (q : UInt16) : Prop :=
  ∀ d, s.portToDagInfo.lookup q = some d → d.initialized = true → d.fullSrcDag = true →
    d.srcPath.HasRe → ∀ x, d.srcPath.destXid = .ok x → Current s.localAddr x d.srcPath

/-- The condition: `Xsendto` and `XrequestChunk` find a source path that is current, or one that is
still to be completed. -/
def FindsCurrent (s : XTransport) (i : Input) : Prop :=
  ∀ q, i.event.namer = some q → s.SourceCurrent q

/-- The addresses in use can be written and read. -/
structure Addressed (s : XTransport) : Prop where
  localAddr : s.localAddr.Readable
  name : ∀ q d, s.portToDagInfo.lookup q = some d → d.srcPath.HasRe →
    ∀ x, d.srcPath.destXid = .ok x → Xid.parse x.unparse = some x
  size : ∀ q d, s.portToDagInfo.lookup q = some d → d.srcPath.HasRe →
    d.srcPath.nodes.length ≤ xidEdgeUnused + 1

instance (s : XTransport) (q : UInt16) : Decidable (s.SourceCurrent q) :=
  inferInstanceAs (Decidable (∀ _, _ → _ → _ → _ → _))

instance (s : XTransport) (i : Input) : Decidable (s.FindsCurrent i) :=
  match h : i.event.namer with
  | none => isTrue (by simp [FindsCurrent, h])
  | some q => decidable_of_iff (s.SourceCurrent q) (by simp [FindsCurrent, h])

instance : DecidablePred Addressed := fun s =>
  decidable_of_iff (s.localAddr.Readable ∧
      (∀ q d, s.portToDagInfo.lookup q = some d → d.srcPath.HasRe →
        ∀ x, d.srcPath.destXid = .ok x → Xid.parse x.unparse = some x) ∧
      ∀ q d, s.portToDagInfo.lookup q = some d → d.srcPath.HasRe →
        d.srcPath.nodes.length ≤ xidEdgeUnused + 1)
    ⟨fun h => ⟨h.1, h.2.1, h.2.2⟩, fun h => ⟨h.localAddr, h.name, h.size⟩⟩

theorem Addressed.sourced (h : Addressed s) (hd : s.portToDagInfo.lookup q = some d)
    (hre : d.srcPath.HasRe) : ∃ x, d.Sourced x := by
  obtain ⟨src, dst, hp⟩ := isValid_iff.1 hre.1
  have hdest : d.srcPath.destXid = .ok (d.srcPath.xidOf dst) := by
    rw [destXid, xid, destinationNode, hp.dst_eq, bind_some, getElem?_nodes hp.dst_lt]
    rfl
  exact ⟨_, hre, hdest, h.name q d hd hre _ hdest, h.size q d hd hre⟩

/-! ### Naming a socket -/

theorem exists_randomXid (rand : UInt32) :
    ∃ x : Xid, x.unparse = randomXid rand ∧ Xid.parse x.unparse = some x := by
  have hlow (k : Nat) : Xid.hexByte (UInt8.ofNat (rand.toNat / 256 ^ k)) =
      [Xid.hexDigit (rand.toNat / 16 ^ (2 * k + 1)), Xid.hexDigit (rand.toNat / 16 ^ (2 * k))] := by
    rw [Xid.hexByte_ofNat, Nat.div_div_eq_div_mul, pow_succ, pow_mul, show 16 ^ 2 = 256 from rfl]
  let low : List UInt8 := [3, 2, 1, 0].map fun k => UInt8.ofNat (rand.toNat / 256 ^ k)
  have hsid : Xid.Named (htonl Xid.typeSid) := by decide
  refine ⟨⟨htonl Xid.typeSid, ⟨([0x30, 0, 0x0f, 0xf0] ++ List.replicate 12 0 ++ low).toArray, rfl⟩⟩,
    ?_, Xid.parse_unparse hsid⟩
  show Xid.unparseType (htonl Xid.typeSid) ++ [':'] ++
    ([0x30, 0, 0x0f, 0xf0] ++ List.replicate 12 0 ++ low).flatMap Xid.hexByte = _
  rw [flatMap_append, flatMap_map, flatMap_congr fun k _ => hlow k]
  rfl

/-- A socket that is bound keeps its name; its path stays, or it is completed. -/
theorem named_bound (hl : s.localAddr.Readable) (hd : d.Sourced x) (hinit : d.initialized = true)
    (h₁ : s.bindEphemeral env q d = .ok (s₁, d₁)) (h₂ : d₁.completeSrcPath s.localAddr = .ok d₂)
    (h₃ : reparseSrcPath s.localAddr d₂ = .ok d₃) :
    d₃.Sourced x ∧ ((d.fullSrcDag = true ∧ d₃ = d) ∨
      (d.fullSrcDag = false ∧ d₃.UpToDate s.localAddr x)) := by
  have hback : ReadsBack s.localAddr x := fun t ht => (hl.parseRe hd.name ht).2.1
  obtain ⟨-, -, ⟨rfl, -⟩ | ⟨hno, -⟩⟩ := bindEphemeral_eq_ok h₁
  · have hself : d₂.srcPath.destXid = .ok x → d₃ = d₂ := fun hdest =>
      reparseSrcPath_eq_self h₃ fun y hy => by
        obtain rfl : x = y := Except.ok.inj (hdest.symm.trans hy)
        exact hback
    rcases hd.completeSrcPath hl h₂ with ⟨hfull, rfl⟩ | ⟨hfull, hup⟩
    · obtain rfl := hself hd.dest
      exact ⟨hd, .inl ⟨hfull, rfl⟩⟩
    · obtain rfl := hself hup.sourced.dest
      exact ⟨hup.sourced, .inr ⟨hfull, hup⟩⟩
  · rw [hinit] at hno
    cases hno

/-- A socket without a name gets a path that is up to date. -/
theorem named_unbound (hl : s.localAddr.Readable) (hinit : d.initialized = false)
    (h₁ : s.bindEphemeral env q d = .ok (s₁, d₁)) (h₂ : d₁.completeSrcPath s.localAddr = .ok d₂)
    (h₃ : reparseSrcPath s.localAddr d₂ = .ok d₃) : ∃ x, d₃.UpToDate s.localAddr x := by
  obtain ⟨-, -, ⟨-, hyes⟩ | ⟨-, path, ⟨t, ht, hpath⟩, rfl⟩⟩ := bindEphemeral_eq_ok h₁
  · rw [hinit] at hyes
    cases hyes
  · obtain ⟨x, hx, hname⟩ := exists_randomXid env.rand
    rw [← hx] at hpath
    have hup : DagInfo.UpToDate s.localAddr x
        { d with srcPath := path, initialized := true, fullSrcDag := true } :=
      upToDate_parseRe hl hname ht hpath
    have hup₂ := hup.completeSrcPath hl h₂
    obtain rfl : d₃ = d₂ := reparseSrcPath_eq_self h₃ fun y hy => by
      obtain rfl : x = y := Except.ok.inj (hup₂.sourced.dest.symm.trans hy)
      exact fun t ht => (hl.parseRe hname ht).2.1
    exact ⟨x, hup₂⟩

/-- What a packet from the port carries, sent from the socket `d'` after the naming. -/
structure Named (s : XTransport) (q : UInt16) (d' : DagInfo) (p : Packet) : Prop where
  initialized : d'.initialized = true
  bound : ∀ d x, s.portToDagInfo.lookup q = some d → d.initialized = true → d.Sourced x →
    d'.Sourced x ∧ (Current s.localAddr x p.srcPath ↔
      (d.fullSrcDag = true → Current s.localAddr x d.srcPath))
  unbound : (∀ d, s.portToDagInfo.lookup q = some d → d.initialized = false) →
    ∃ x, d'.UpToDate s.localAddr x ∧ Current s.localAddr x p.srcPath

theorem named {p : Packet} (hs : Addressed s)
    (hd : d = (s.portToDagInfo.lookup q).getD (DagInfo.new env.junk))
    (h₁ : s.bindEphemeral env q d = .ok (s₁, d₁)) (h₂ : d₁.completeSrcPath s.localAddr = .ok d₂)
    (h₃ : reparseSrcPath s.localAddr d₂ = .ok d₃) (hwire : d₃.srcPath.wireNodes = .ok p.snode) :
    Named s q d₃ p where
  initialized := by
    obtain ⟨path, rfl⟩ := bindEphemeral_named h₁ h₂ h₃
    rfl
  bound d₀ x hd₀ hinit hx := by
    rw [hd₀, getD_some] at hd
    subst hd
    obtain ⟨hx₃, ⟨hfull, rfl⟩ | ⟨hfull, hup⟩⟩ := named_bound hs.localAddr hx hinit h₁ h₂ h₃
    -- a full path is sent as it is
    · exact ⟨hx₃, (current_parseNode_iff hx.form.1 hx.size hwire).trans
        ⟨fun h _ => h, fun h => h hfull⟩⟩
    · refine ⟨hx₃, fun _ hfull' => ?_, fun _ => hup.srcPath hwire⟩
      rw [hfull] at hfull'
      cases hfull'
  unbound hno := by
    have hinit : d.initialized = false := by
      cases hq : s.portToDagInfo.lookup q with
      | none =>
        rw [hd, hq]
        rfl
      | some d₀ =>
        rw [hd, hq]
        exact hno d₀ hq
    obtain ⟨x, hup⟩ := named_unbound hs.localAddr hinit h₁ h₂ h₃
    exact ⟨x, hup, hup.srcPath hwire⟩

theorem Named.sourceCurrent {d' : DagInfo} {p : Packet} (h : Named s q d' p) (hs : Addressed s)
    (hmem : (q, p) ∈ s.sentBy i out) (hcur : s.SentCurrent i s' out) : s.SourceCurrent q := by
  intro d hd hinit hfull hre x hx
  obtain ⟨y, hy, hp⟩ := hcur.bound q p hmem d hd (fun _ => hinit) hre
  obtain rfl : x = y := Except.ok.inj (hx.symm.trans hy)
  obtain ⟨-, hiff⟩   := h.bound d x hd hinit ⟨hre, hx, hs.name q d hd hre x hx, hs.size q d hd hre⟩
  exact hiff.1 hp hfull

theorem Named.of_sourceCurrent {d' : DagInfo} {p : Packet} (h : Named s q d' p) (hs : Addressed s)
    (hcur : s.SourceCurrent q) (hd : s.portToDagInfo.lookup q = some d)
    (hinit : d.initialized = true) (hre : d.srcPath.HasRe) :
    ∃ x, d.srcPath.destXid = .ok x ∧ d'.Sourced x ∧ Current s.localAddr x p.srcPath := by
  obtain ⟨x, hx⟩ := hs.sourced hd hre
  obtain ⟨hx', hiff⟩ := h.bound d x hd hinit hx
  exact ⟨x, hx.dest, hx', hiff.2 fun hfull => hcur d hd hinit hfull hre x hx.dest⟩

/-! ### One event -/

theorem sentCurrent_iff_of_xsendto {ddag : Text} {payload : List UInt8} (hs : Addressed s)
    (h : step sha1 s ⟨env, .xsendto q ddag payload⟩ = .ok (s', out)) :
    s.SentCurrent ⟨env, .xsendto q ddag payload⟩ s' out ↔ s.SourceCurrent q := by
  obtain ⟨d, d₁, d₂, d₃, s₁, p, hd, h₁, h₂, h₃, hwire, ht, -, rfl⟩ := xsendto_eq_ok h
  have hnamed := named hs hd h₁ h₂ h₃ hwire
  have hsent : s.sentBy ⟨env, .xsendto q ddag payload⟩ [.network p] = [(q, p)] := rfl
  refine ⟨hnamed.sourceCurrent hs (by simp [hsent]), fun hcur => ⟨map_sentBy h, ?_, ?_⟩⟩
  · intro q' p' hmem d₀ hd₀ hinit hre
    rw [hsent, mem_singleton] at hmem
    obtain ⟨rfl, rfl⟩ := Prod.mk.inj hmem
    obtain ⟨x, hx, -, hp⟩ := hnamed.of_sourceCurrent hs hcur hd₀ (hinit rfl) hre
    exact ⟨x, hx, hp⟩
  · intro q' _ p' hmem hno
    rw [hsent, mem_singleton] at hmem
    obtain ⟨rfl, rfl⟩ := Prod.mk.inj hmem
    obtain ⟨x, hup, hp⟩ := hnamed.unbound hno
    exact ⟨d₃, x, ht.self, hup.sourced.dest, hp⟩

theorem requestOne_named {payload : List UInt8} {dag : Text} (hs : Addressed s)
    (h : s.requestOne env q payload dag = .ok (s', out)) :
    ∃ d₃ d' p, Named s q d₃ p ∧ s'.localAddr = s.localAddr ∧
      s'.portToDagInfo.lookup q = some d' ∧ d'.initialized = true ∧
      (∀ x, d₃.Sourced x → d'.UpToDate s.localAddr x) ∧ out = [.network p] := by
  obtain ⟨d₃, path, sid, cid, copy, p, hreq, rfl⟩ := requestOne_eq_ok h
  obtain ⟨s₁, d₁, d₂, h₁, h₂, h₃⟩ := hreq.named
  have hnamed := named hs rfl h₁ h₂ h₃ hreq.wire
  refine ⟨d₃, _, p, hnamed, hreq.touched.localAddr, hreq.touched.self, hnamed.initialized,
    fun x hx => ?_, rfl⟩
  obtain ⟨hup, -⟩ := hx.copyCidReqPacket hs.localAddr hreq.copied
  exact hup.congr rfl

/-- A socket that is up to date sends its requests from the current address and stays so. -/
theorem xrequestChunk_upToDate {payload : List UInt8} {dags : List Text}
    (hl : s.localAddr.Readable) (hd : s.portToDagInfo.lookup q = some d)
    (hinit : d.initialized = true) (hup : d.UpToDate s.localAddr x)
    (h : s.xrequestChunk env q payload dags = .ok (s', out)) :
    (∀ p ∈ netPackets out, Current s.localAddr x p.srcPath) ∧
      ∃ d', s'.portToDagInfo.lookup q = some d' ∧ d'.srcPath.destXid = .ok x := by
  induction dags generalizing s d out with
  | nil =>
    cases h
    exact ⟨by simp [netPackets], d, hd, hup.sourced.dest⟩
  | cons dag dags ih =>
    simp only [xrequestChunk, bind_eq_ok] at h
    obtain ⟨⟨s₁, o₁⟩, hone, ⟨s₂, o₂⟩, hrest, h⟩ := h
    cases h
    obtain ⟨d₃, path, sid, cid, copy, p, hreq, rfl⟩ := requestOne_eq_ok hone
    obtain ⟨s₀, d₁, d₂, h₁, h₂, h₃⟩ := hreq.named
    have ht := hreq.touched
    rw [hd, getD_some] at h₁
    have hup₃ : d₃.UpToDate s.localAddr x := by
      obtain ⟨-, ⟨-, rfl⟩ | ⟨-, hup₃⟩⟩ := named_bound hl hup.sourced hinit h₁ h₂ h₃
      · exact hup
      · exact hup₃
    obtain ⟨hup', -⟩ := hup₃.sourced.copyCidReqPacket hl hreq.copied
    obtain ⟨path₃, rfl⟩ := bindEphemeral_named h₁ h₂ h₃
    have hind := ih (ht.localAddr ▸ hl) ht.self rfl (ht.localAddr ▸ hup'.congr rfl) hrest
    rw [ht.localAddr] at hind
    refine ⟨forall_mem_cons.2 ⟨hup₃.srcPath hreq.wire, hind.1⟩, hind.2⟩

theorem sentCurrent_iff_of_xrequestChunk {payload : List UInt8} {dag : Text} {dags : List Text}
    (hs : Addressed s)
    (h : step sha1 s ⟨env, .xrequestChunk q payload (dag :: dags)⟩ = .ok (s', out)) :
    s.SentCurrent ⟨env, .xrequestChunk q payload (dag :: dags)⟩ s' out ↔ s.SourceCurrent q := by
  have hcall := h
  simp only [step, handle, xrequestChunk, bind_eq_ok] at hcall
  obtain ⟨⟨s₁, o₁⟩, hone, ⟨s₂, o₂⟩, hrest, hcall⟩ := hcall
  cases hcall
  obtain ⟨d₃, d', p, hnamed, hlocal, hd', hinit', hup, rfl⟩ := requestOne_named hs hone
  have hmem (q' p') : (q', p') ∈ s.sentBy ⟨env, .xrequestChunk q payload (dag :: dags)⟩
      ([.network p] ++ o₂) ↔ q' = q ∧ (p' = p ∨ p' ∈ netPackets o₂) := by
    rw [← mem_cons]
    exact mem_map_port (q := q) (l := p :: netPackets o₂)
  -- after the first request the socket is up to date for the others
  have hothers (x) (hx : d₃.Sourced x) := xrequestChunk_upToDate (hlocal ▸ hs.localAddr) hd' hinit'
    (hlocal ▸ hup x hx) hrest
  rw [hlocal] at hothers
  refine ⟨hnamed.sourceCurrent hs ((hmem q p).2 ⟨rfl, .inl rfl⟩),
    fun hcur => ⟨map_sentBy h, ?_, ?_⟩⟩
  · intro q' p' hsent d₀ hd₀ hinit hre
    obtain ⟨rfl, hp'⟩ := (hmem q' p').1 hsent
    obtain ⟨x, hx, hx₃, hp⟩ := hnamed.of_sourceCurrent hs hcur hd₀ (hinit rfl) hre
    refine ⟨x, hx, ?_⟩
    rcases hp' with rfl | hp'
    · exact hp
    · exact (hothers x hx₃).1 p' hp'
  · intro q' _ p' hsent hno
    obtain ⟨rfl, hp'⟩ := (hmem q' p').1 hsent
    obtain ⟨x, hx₃, hp⟩ := hnamed.unbound hno
    obtain ⟨hall, d'', hd'', hx⟩ := hothers x hx₃.sourced
    refine ⟨d'', x, hd'', hx, ?_⟩
    rcases hp' with rfl | hp'
    · exact hp
    · exact hall p' hp'

/-- **`Xsend` and the retransmissions send from the current address.** -/
theorem sentCurrent_of_namer_eq_none (hs : Addressed s) (h : step sha1 s i = .ok (s', out))
    (hnone : i.event.namer = none) : s.SentCurrent i s' out := by
  refine ⟨map_sentBy h, ?_, fun q hq => by rw [hnone] at hq; cases hq⟩
  intro q p hmem d hd _ hre
  obtain ⟨x, hx⟩ := hs.sourced hd hre
  refine ⟨x, hx.dest, ?_⟩
  obtain ⟨env, event⟩ := i
  cases event with
  | xsend q' payload =>
    obtain ⟨rfl, hp⟩ := mem_map_port.1 hmem
    rcases xsend_eq_ok h with ⟨-, rfl, -⟩ | ⟨d₀, d', p', hd₀, -, hsend, -, -, rfl, -⟩
    · cases hp
    · obtain rfl : d = d₀ := Option.some.inj (hd.symm.trans hd₀)
      obtain rfl := mem_singleton.1 hp
      exact (hx.xsend hs.localAddr hsend).2
  | timer =>
    obtain ⟨q', -, hmem⟩ := mem_flatMap.1 hmem
    obtain ⟨rfl, hp⟩ := mem_map_port.1 hmem
    rw [timerPacketsAt, hd] at hp
    exact hx.timerPackets hs.localAddr p hp
  | xrequestChunk q' payload dags =>
    -- a call without addresses requests nothing
    cases dags with
    | nil =>
      cases h
      cases hmem
    | cons dag dags => cases hnone
  | xsendto => cases hnone
  | _ => cases hmem

/-- One event sends from the current address exactly if it finds a path that is current, or that is
completed. -/
theorem sendsCurrent_iff_findsCurrent (hs : Addressed s) (h : step sha1 s i = .ok (s', out)) :
    SendsCurrent sha1 s i ↔ FindsCurrent s i := by
  have hone : SendsCurrent sha1 s i ↔ s.SentCurrent i s' out := by
    refine ⟨fun hsend => hsend s' out h, fun hsent s'' out' h' => ?_⟩
    obtain ⟨rfl, rfl⟩ := Prod.mk.inj (Except.ok.inj (h.symm.trans h'))
    exact hsent
  rw [hone]
  cases hnamer : i.event.namer with
  | none =>
    refine iff_of_true (sentCurrent_of_namer_eq_none hs h hnamer) fun q hq => ?_
    rw [hnamer] at hq
    cases hq
  | some q =>
    have hfinds : FindsCurrent s i ↔ s.SourceCurrent q := by simp [FindsCurrent, hnamer]
    rw [hfinds]
    obtain ⟨env, event⟩ := i
    cases event with
    | xsendto q' ddag payload =>
      cases hnamer
      exact sentCurrent_iff_of_xsendto hs h
    | xrequestChunk q' payload dags =>
      cases dags with
      | nil => cases hnamer
      | cons dag dags =>
        cases hnamer
        exact sentCurrent_iff_of_xrequestChunk hs h
    | _ => cases hnamer

/-- **Along a run with addresses that can be written and read, every packet is sent from the current
address exactly if `Xsendto` and `XrequestChunk` always find a path that is current, or that is
still to be completed.** -/
theorem sendsCurrent_iff (sha1 : Sha1) (localAddr : XiaPath) (junk : DagInfo) (is : List Input)
    (h : Machine.AllStates (step sha1) Addressed (init localAddr junk) is) :
    Machine.AllSteps (step sha1) (SendsCurrent sha1) (init localAddr junk) is ↔
      Machine.AllSteps (step sha1) FindsCurrent (init localAddr junk) is := by
  refine Machine.allSteps_congr ?_ h
  intro s i s' out hs hstep
  exact sendsCurrent_iff_findsCurrent hs hstep

def changeadCall : Input := ⟨.zero 0, .xchangead "AD:05".toList "IP:0.0.0.0".toList⟩

/-- A connection whose SYN and data are sent from the new address, also by `Xsendto` after that. -/
theorem sendsCurrent_after_changead :
    Machine.AllSteps (step Sha1.zero) (SendsCurrent Sha1.zero) host
      [⟨.zero 0, .xsocket 1 1⟩, connectCall, changeadCall, ⟨.zero ackDelay, .timer⟩,
        ⟨.zero ackDelay, .xsend 1 [1]⟩,
        ⟨.zero ackDelay, .xsendto 1 "RE AD:03 HID:04 SID:0a".toList [2]⟩] :=
  (sendsCurrent_iff _ _ _ _ (by decide +kernel)).2 (by decide +kernel)

/-- The calls of a bound datagram socket before and after the address changes. -/
def boundSend : List Input :=
  [⟨.zero 0, .xsocket 1 2⟩, ⟨.zero 0, .xbind 1 "RE AD:01 HID:02 SID:0a".toList⟩, changeadCall]

/-- `Xsendto` sends from the old address. -/
theorem not_sendsCurrent_after_changead :
    ¬ Machine.AllSteps (step Sha1.zero) (SendsCurrent Sha1.zero) host
      (boundSend ++ [⟨.zero 0, .xsendto 1 "RE AD:03 HID:04 SID:0a".toList [1]⟩]) := by
  obtain ⟨s, o, hrun, d, hd, s', out, hstep, p, hp, hinit, hre, hstale⟩ : ∃ s o,
      Machine.run (step Sha1.zero) host boundSend = .ok (s, o) ∧
      ∃ d, s.portToDagInfo.lookup 1 = some d ∧ ∃ s' out,
        s.step Sha1.zero ⟨.zero 0, .xsendto 1 "RE AD:03 HID:04 SID:0a".toList [1]⟩ =
          .ok (s', out) ∧ ∃ p, (netPackets out).head? = some p ∧ d.initialized = true ∧
        d.srcPath.HasRe ∧ ∀ x, d.srcPath.destXid = .ok x → ¬ Current s.localAddr x p.srcPath := by
    decide +kernel
  intro hall
  have hsends := hall.of_run hrun hstep s' out hstep
  have hmem := mem_map_port (q := 1).2 ⟨rfl, mem_of_mem_head? hp⟩
  obtain ⟨x, hx, hcur⟩ := hsends.bound 1 p hmem d hd (fun _ => hinit) hre
  exact hstale x hx hcur

end XTransport

end Xia
