import Xia.Equiv.Encap
import Xia.Transport.Equiv.Teardown

/-!
# When the timer runs through

The loop body of `run_timer` faults where it copies a stored packet that it cannot read or put into
a header again, and where a chunk request has lost one of its entries.  `Serviceable` says on the
socket before the call that this does not happen, and `exists_runTimer_iff` that nothing else is
needed.

A copy changes the source path of the socket and nothing else, and the next copy starts from the
changed path: the paths of all copies that are due are a chain (`Remade`).
-/

namespace Xia

open AList HashTable List Result

/-- `copy_packet` can read the packet: the transport header has all fields, and the payload length
covers it. -/
def Packet.Copyable (p : Packet) : Prop :=
  ∃ thdr t i n a l, p.extHeader = .ok thdr ∧ TransportHeader.Decodes thdr t i n a l ∧
    thdr.hlen.toNat ≤ p.plen.toNat

namespace DagInfo

/-- "Recalculate source path": the path `q` that takes the place of `p`. -/
def Recalculated (localAddr p q : XiaPath) : Prop :=
  ∃ x t u, p.destXid = .ok x ∧ localAddr.unparseRe = .ok t ∧ p.unparseRe = .ok u ∧
    q = if u ≠ [] ∧ u ≠ t ++ [' '] ++ x.unparse
      then (XiaPath.parseRe (t ++ [' '] ++ x.unparse)).2 else p

/-- The source paths of `n` copies to `dst`, from `p` to the one that is left in the end.  Each of
them fits into a header together with `dst`. -/
inductive Remade (localAddr dst : XiaPath) : Nat → XiaPath → XiaPath → Prop
  | zero (p : XiaPath) : Remade localAddr dst 0 p p
  | succ {n : Nat} {p q r : XiaPath} (hnew : Recalculated localAddr p q) (hfits : Encloses dst q)
      (hrest : Remade localAddr dst n q r) : Remade localAddr dst (n + 1) p r

/-- What the timer sends again for the stream: the SYN, or the data. -/
def due (now : Nat) (d : DagInfo) : List Packet :=
  if d.timerOn ∧ d.expiry ≤ now then
    if d.synackWaiting then
      if d.numConnectTries ≤ maxConnectTries then d.synPkt.toList else []
    else if d.dataackWaiting ∧ d.numRetransmitTries < maxRetransmitTries then d.held else []
  else []

def requestDue (now : Nat) (d : DagInfo) (cid : Xid) : Bool :=
  d.xidToTimerOn.lookup cid = some true && (d.xidToExpiryTime.lookup cid).any (· ≤ now)

def dueRequests (now : Nat) (d : DagInfo) : List Xid :=
  d.xidToTimerOn.keys.filter (d.requestDue now)

/-- The timer can do what is due for the socket. -/
structure Serviceable (now : Nat) (localAddr : XiaPath) (d : DagInfo) : Prop where
  syn : d.timerOn ∧ d.synackWaiting ∧ d.expiry ≤ now ∧ d.numConnectTries ≤ maxConnectTries →
    d.synPkt.isSome
  stream : ∀ p ∈ d.due now, p.Copyable
  expiry : ∀ c ∈ d.xidToTimerOn.keys, (d.xidToExpiryTime.lookup c).isSome
  request : ∀ c ∈ d.dueRequests now, ∃ p bytes, d.xidToCidReqPkt.lookup c = some p ∧
    p.payload = .ok bytes
  paths : ∃ path, Remade localAddr d.dstPath ((d.due now).length + (d.dueRequests now).length)
    d.srcPath path

variable {env : Env} {localAddr dst : XiaPath} {d d' : DagInfo} {beyond : Nat → UInt8}
  {p : Packet} {path src r : XiaPath}

/-! ### Copies -/

@[simp] theorem remade_zero_iff : Remade localAddr dst 0 src r ↔ r = src := by
  constructor
  · intro h
    cases h
    rfl
  · rintro rfl
    exact .zero r

theorem remade_succ_iff {n : Nat} : Remade localAddr dst (n + 1) src r ↔
    ∃ q, Recalculated localAddr src q ∧ Encloses dst q ∧ Remade localAddr dst n q r := by
  constructor
  · intro h
    cases h with
    | succ hnew hfits hrest => exact ⟨_, hnew, hfits, hrest⟩
  · rintro ⟨q, hnew, hfits, hrest⟩
    exact .succ hnew hfits hrest

theorem remade_add_iff {m n : Nat} : Remade localAddr dst (m + n) src r ↔
    ∃ q, Remade localAddr dst m src q ∧ Remade localAddr dst n q r := by
  induction m generalizing src with
  | zero => simp
  | succ m ih =>
    rw [Nat.add_right_comm]
    simp only [remade_succ_iff, ih]
    constructor
    · rintro ⟨q, hnew, hfits, q', hq, hr⟩
      exact ⟨q', ⟨q, hnew, hfits, hq⟩, hr⟩
    · rintro ⟨q', ⟨q, hnew, hfits, hq⟩, hr⟩
      exact ⟨q, hnew, hfits, q', hq, hr⟩

theorem recalculate_eq_ok_iff : d.recalculate localAddr = .ok d' ↔
    ∃ path, Recalculated localAddr d.srcPath path ∧ d' = { d with srcPath := path } := by
  simp only [recalculate, localSource, bind_eq_ok, pure_eq_ok]
  constructor
  · rintro ⟨_, ⟨x, hx, t, ht, rfl⟩, u, hu, h⟩
    refine ⟨_, ⟨x, t, u, hx, ht, hu, rfl⟩, ?_⟩
    split at h <;> rename_i hnew
    · rw [if_pos hnew, pure_eq_ok.1 h]
    · rw [if_neg hnew, pure_eq_ok.1 h]
  · rintro ⟨_, ⟨x, t, u, hx, ht, hu, rfl⟩, rfl⟩
    refine ⟨_, ⟨x, hx, t, ht, rfl⟩, u, hu, ?_⟩
    split_ifs <;> rfl

theorem exists_copyPacket_iff : (∃ q, d.copyPacket beyond localAddr p = .ok (d', q)) ↔
    p.Copyable ∧ ∃ path, Recalculated localAddr d.srcPath path ∧ Encloses d.dstPath path ∧
      d' = { d with srcPath := path } := by
  simp only [copyPacket, bind_eq_ok, recalculate_eq_ok_iff]
  constructor
  · rintro ⟨q, _, ⟨path, hpath, rfl⟩, thdr, hthdr, t, ht, i, hi, n, hn, a, ha, l, hl, h⟩
    split at h
    · cases h
    · rename_i hle
      simp only [bind_eq_ok, pure_eq_ok, Prod.mk.injEq] at h
      obtain ⟨copy, hcopy, rfl, rfl⟩ := h
      exact ⟨⟨thdr, t, i, n, a, l, hthdr, ⟨ht, hi, hn, ha, hl⟩, Nat.not_lt.1 hle⟩, path, hpath,
        Packet.exists_encap_iff.1 ⟨copy, hcopy⟩, rfl⟩
  · rintro ⟨⟨thdr, t, i, n, a, l, hthdr, ⟨ht, hi, hn, ha, hl⟩, hle⟩, path, hpath, hfits, rfl⟩
    obtain ⟨copy, hcopy⟩ := Packet.exists_encap_iff.2 hfits
    refine ⟨copy, _, ⟨path, hpath, rfl⟩, thdr, hthdr, t, ht, i, hi, n, hn, a, ha, l, hl, ?_⟩
    rw [if_neg (Nat.not_lt.2 hle), hcopy]
    rfl

theorem exists_copyCidReqPacket_iff : (∃ q, d.copyCidReqPacket beyond localAddr p = .ok (d', q)) ↔
      (∃ bytes, p.payload = .ok bytes) ∧ ∃ path, Recalculated localAddr d.srcPath path ∧
        Encloses d.dstPath path ∧ d' = { d with srcPath := path } := by
  simp only [copyCidReqPacket, copyContentPacket, bind_eq_ok, recalculate_eq_ok_iff, pure_eq_ok,
    Prod.mk.injEq]
  constructor
  · rintro ⟨q, _, ⟨path, hpath, rfl⟩, bytes, hbytes, copy, hcopy, rfl, rfl⟩
    exact ⟨⟨bytes, hbytes⟩, path, hpath, Packet.exists_encap_iff.1 ⟨copy, hcopy⟩, rfl⟩
  · rintro ⟨⟨bytes, hbytes⟩, path, hpath, hfits, rfl⟩
    obtain ⟨copy, hcopy⟩ := Packet.exists_encap_iff.2 hfits
    exact ⟨copy, _, ⟨path, hpath, rfl⟩, bytes, hbytes, copy, hcopy, rfl, rfl⟩

/-! ### The stream -/

theorem exists_retransmit_iff {n i : Nat} :
    (∃ copies, d.retransmit beyond localAddr n i = .ok (d', copies)) ↔
      (∀ p ∈ d.heldFrom n i, p.Copyable) ∧ ∃ path,
        Remade localAddr d.dstPath (d.heldFrom n i).length d.srcPath path ∧
          d' = { d with srcPath := path } := by
  induction n generalizing i d with
  | zero =>
    constructor
    · rintro ⟨copies, h⟩
      cases h
      exact ⟨nofun, _, .zero _, rfl⟩
    · rintro ⟨-, path, hpath, rfl⟩
      cases hpath
      exact ⟨[], rfl⟩
  | succ n ih =>
    rw [heldFrom_succ, retransmit]
    cases hslot : d.sentPkt (Fin.ofNat maxWinSize i) with
    | none => exact ih
    | some p =>
      simp only [Option.toList_some, singleton_append, forall_mem_cons, length_cons,
        remade_succ_iff, bind_eq_ok, pure_eq_ok, Prod.mk.injEq]
      constructor
      · rintro ⟨_, ⟨d₁, q⟩, hq, ⟨d₂, copies⟩, hrest, rfl, rfl⟩
        obtain ⟨hp, path₁, hnew, hfits, rfl⟩ := exists_copyPacket_iff.1 ⟨q, hq⟩
        obtain ⟨hps, path, hpath, rfl⟩ := ih.1 ⟨copies, hrest⟩
        exact ⟨⟨hp, hps⟩, path, ⟨path₁, hnew, hfits, hpath⟩, rfl⟩
      · rintro ⟨⟨hp, hps⟩, path, ⟨path₁, hnew, hfits, hpath⟩, rfl⟩
        obtain ⟨q, hq⟩ := exists_copyPacket_iff.2 ⟨hp, path₁, hnew, hfits, rfl⟩
        obtain ⟨copies, hrest⟩ := (ih (d := { d with srcPath := path₁ })).2 ⟨hps, path, hpath, rfl⟩
        exact ⟨q :: copies, (_, q), hq, (_, copies), hrest, rfl, rfl⟩

theorem exists_synTimeout_iff {sport : UInt16} :
    (∃ d' out, d.synTimeout env localAddr sport = .ok (d', out) ∧ d'.srcPath = path) ↔
      if d.numConnectTries ≤ maxConnectTries then ∃ p, d.synPkt = some p ∧ p.Copyable ∧
        Remade localAddr d.dstPath 1 d.srcPath path
      else path = d.srcPath := by
  rw [synTimeout]
  by_cases htries : d.numConnectTries ≤ maxConnectTries
  · rw [if_pos htries, if_pos htries]
    simp only [bind_eq_ok, pure_eq_ok, Prod.mk.injEq, remade_succ_iff, remade_zero_iff]
    constructor
    · rintro ⟨_, _, ⟨p, hp, ⟨d₁, q⟩, hq, rfl, rfl⟩, rfl⟩
      obtain ⟨hcopy, path, hnew, hfits, rfl⟩ := exists_copyPacket_iff.1 ⟨q, hq⟩
      exact ⟨p, deref_eq_ok.1 hp, hcopy, path, hnew, hfits, rfl⟩
    · rintro ⟨p, hp, hcopy, path, hnew, hfits, rfl⟩
      obtain ⟨q, hq⟩ := exists_copyPacket_iff.2 ⟨hcopy, path, hnew, hfits, rfl⟩
      exact ⟨_, _, ⟨p, deref_eq_ok.2 hp, (_, q), hq, rfl, rfl⟩, rfl⟩
  · rw [if_neg htries, if_neg htries]
    constructor
    · rintro ⟨_, _, h, rfl⟩
      cases h
      rfl
    · rintro rfl
      exact ⟨_, _, rfl, rfl⟩

theorem exists_dataTimeout_iff :
    (∃ d' out, d.dataTimeout env localAddr = .ok (d', out) ∧ d'.srcPath = path) ↔
      if d.numRetransmitTries < maxRetransmitTries then
        (∀ p ∈ d.held, p.Copyable) ∧ Remade localAddr d.dstPath d.held.length d.srcPath path
      else path = d.srcPath := by
  -- what comes after the loop leaves the path alone
  have hresend : (∃ d' out, d.dataTimeout env localAddr = .ok (d', out) ∧ d'.srcPath = path) ↔
      ∃ d₁ copies, d.resend env localAddr = .ok (d₁, copies) ∧ d₁.srcPath = path := by
    simp only [dataTimeout, bind_eq_ok]
    constructor
    · rintro ⟨d', out, ⟨⟨d₁, copies⟩, hcopies, h⟩, rfl⟩
      refine ⟨d₁, copies, hcopies, ?_⟩
      split at h <;> (cases h; rfl)
    · rintro ⟨d₁, copies, hcopies, rfl⟩
      by_cases hnil : copies = []
      · exact ⟨_, _, ⟨_, hcopies, if_pos hnil⟩, rfl⟩
      · exact ⟨_, _, ⟨_, hcopies, if_neg hnil⟩, rfl⟩
  rw [hresend, resend]
  split_ifs with htries
  · constructor
    · rintro ⟨d₁, copies, h, rfl⟩
      obtain ⟨hps, path, hpath, rfl⟩ := exists_retransmit_iff.1 ⟨copies, h⟩
      exact ⟨hps, hpath⟩
    · rintro ⟨hps, hpath⟩
      obtain ⟨copies, h⟩ := exists_retransmit_iff.2 ⟨hps, path, hpath, rfl⟩
      exact ⟨_, copies, h, rfl⟩
  · constructor
    · rintro ⟨d₁, copies, h, rfl⟩
      cases h
      rfl
    · rintro rfl
      exact ⟨d, [], rfl, rfl⟩

theorem due_of_syn (hon : d.timerOn) (hsyn : d.synackWaiting ∧ d.expiry ≤ env.now) :
    d.due env.now = if d.numConnectTries ≤ maxConnectTries then d.synPkt.toList else [] := by
  rw [due, if_pos ⟨hon, hsyn.2⟩, if_pos hsyn.1]

theorem due_of_data (hon : d.timerOn) (hno : ¬ d.synackWaiting)
    (hdata : d.dataackWaiting ∧ d.expiry ≤ env.now) :
    d.due env.now = if d.numRetransmitTries < maxRetransmitTries then d.held else [] := by
  rw [due, if_pos ⟨hon, hdata.2⟩, if_neg hno]
  simp only [hdata.1, true_and]

theorem due_eq_nil (h : d.timerOn → d.expiry ≤ env.now → ¬ d.synackWaiting ∧ ¬ d.dataackWaiting) :
    d.due env.now = [] := by
  unfold due
  split_ifs with hon hsyn _ hdata
  · exact absurd hsyn (h hon.1 hon.2).1
  · rfl
  · exact absurd hdata.1 (h hon.1 hon.2).2
  · rfl
  · rfl

theorem exists_timeout_iff {sport : UInt16} (hkept : d.removable env.now = false) :
    (∃ d' out, d.timeout env localAddr sport = .ok (d', out, false) ∧ d'.srcPath = path) ↔
      (d.timerOn ∧ d.synackWaiting ∧ d.expiry ≤ env.now ∧ d.numConnectTries ≤ maxConnectTries →
        d.synPkt.isSome) ∧ (∀ p ∈ d.due env.now, p.Copyable) ∧
        Remade localAddr d.dstPath (d.due env.now).length d.srcPath path := by
  have hret (x : Result (DagInfo × List Output)) :
      (∃ d' out, (x >>= fun r => pure (r.1, r.2, false)) =
        (.ok (d', out, false) : Result (DagInfo × List Output × Bool)) ∧ d'.srcPath = path) ↔
      ∃ d' out, x = .ok (d', out) ∧ d'.srcPath = path := by
    cases x with
    | error f => simp [bind, Except.bind]
    | ok r => simp [bind, Except.bind, pure, Except.pure, Prod.ext_iff]
  have hidle (hdue : d.due env.now = []) :
      (∃ d' out, (pure (d, [], false) : Result (DagInfo × List Output × Bool)) =
        .ok (d', out, false) ∧ d'.srcPath = path) ↔
      (∀ p ∈ d.due env.now, p.Copyable) ∧
        Remade localAddr d.dstPath (d.due env.now).length d.srcPath path := by
    simp [hdue, pure, Except.pure, eq_comm]
  rw [timeout]
  by_cases hon : d.timerOn
  · rw [if_pos hon]
    by_cases hsyn : d.synackWaiting ∧ d.expiry ≤ env.now
    · rw [if_pos hsyn]
      refine (hret _).trans ?_
      rw [exists_synTimeout_iff, due_of_syn hon hsyn]
      by_cases htries : d.numConnectTries ≤ maxConnectTries
      · cases d.synPkt <;> simp [hon, hsyn, htries]
      · simp [htries]
    · rw [if_neg hsyn]
      by_cases hdata : d.dataackWaiting ∧ d.expiry ≤ env.now
      · have hno : ¬ d.synackWaiting := fun h => hsyn ⟨h, hdata.2⟩
        rw [if_pos hdata]
        refine (hret _).trans ?_
        rw [exists_dataTimeout_iff, due_of_data hon hno hdata]
        by_cases htries : d.numRetransmitTries < maxRetransmitTries <;> simp [htries, hno]
      · have htear : ¬ (d.teardownWaiting ∧ d.teardownExpiry ≤ env.now) := fun h => by
          rw [removable_iff.2 ⟨hon, hsyn, hdata, h⟩] at hkept
          cases hkept
        have hdue : d.due env.now = [] := due_eq_nil fun _ hexp =>
          ⟨fun h => hsyn ⟨h, hexp⟩, fun h => hdata ⟨h, hexp⟩⟩
        rw [if_neg hdata, if_neg htear, hidle hdue]
        exact (and_iff_right fun h => absurd ⟨h.2.1, h.2.2.1⟩ hsyn).symm
  · rw [if_neg hon, hidle (due_eq_nil fun h => absurd h hon)]
    exact (and_iff_right fun h => absurd h.1 hon).symm

/-! ### The chunk requests -/

/-- The requests for `cids` are in `d` what they are in `d₀`. -/
structure SameRequests (cids : List Xid) (d₀ d : DagInfo) : Prop where
  dst : d.dstPath = d₀.dstPath
  pkt : d.xidToCidReqPkt = d₀.xidToCidReqPkt
  on : ∀ c ∈ cids, d.xidToTimerOn.lookup c = d₀.xidToTimerOn.lookup c
  expiry : ∀ c ∈ cids, d.xidToExpiryTime.lookup c = d₀.xidToExpiryTime.lookup c

/-- The loop writes entries only for chunks that it does not meet again, so what it needs can be
said of the socket `d₀` before it. -/
theorem exists_cidTimeouts_iff {cids : List Xid} {d₀ : DagInfo} {e : Nat} (hnodup : cids.Nodup)
    (hsame : SameRequests cids d₀ d) (hon : ∀ c ∈ cids, (d₀.xidToTimerOn.lookup c).isSome) :
    (∃ r, d.cidTimeouts env localAddr cids e = .ok r) ↔
      (∀ c ∈ cids, (d₀.xidToExpiryTime.lookup c).isSome) ∧
      (∀ c ∈ cids.filter (d₀.requestDue env.now), ∃ p bytes,
        d₀.xidToCidReqPkt.lookup c = some p ∧ p.payload = .ok bytes) ∧
      ∃ path, Remade localAddr d₀.dstPath (cids.filter (d₀.requestDue env.now)).length
        d.srcPath path := by
  induction cids generalizing d e with
  | nil => exact ⟨fun _ => ⟨nofun, nofun, d.srcPath, .zero _⟩, fun _ => ⟨_, rfl⟩⟩
  | cons cid cids ih =>
    obtain ⟨hnot, hnodup'⟩ := nodup_cons.1 hnodup
    have hon' : ∀ c ∈ cids, (d₀.xidToTimerOn.lookup c).isSome := fun c hc =>
      hon c (mem_cons_of_mem _ hc)
    obtain ⟨on, hlookup⟩ := Option.isSome_iff_exists.1 (hon cid mem_cons_self)
    rw [cidTimeouts, hsame.on cid mem_cons_self, hsame.expiry cid mem_cons_self, hlookup,
      deref_some, ok_bind, forall_mem_cons]
    cases hexp : d₀.xidToExpiryTime.lookup cid with
    | none =>
      constructor
      · rintro ⟨r, h⟩
        cases h
      · exact fun h => absurd h.1.1 (by simp)
    | some expiry =>
      rw [deref_some, ok_bind]
      by_cases hdue : on ∧ expiry ≤ env.now
      · have hreq : d₀.requestDue env.now cid = true := by
          simp [requestDue, hlookup, hexp, hdue]
        have hrest {path : XiaPath} : SameRequests cids d₀ { d with
            srcPath := path
            xidToExpiryTime := d.xidToExpiryTime.insert cid (env.now + ackDelay)
            xidToTimerOn := d.xidToTimerOn.insert cid true } := by
          have hne {c : Xid} (hc : c ∈ cids) : c ≠ cid := fun heq => hnot (heq ▸ hc)
          exact ⟨hsame.dst, hsame.pkt,
            fun c hc => (lookup_insert_ne (hne hc)).trans (hsame.on c (mem_cons_of_mem _ hc)),
            fun c hc => (lookup_insert_ne (hne hc)).trans (hsame.expiry c (mem_cons_of_mem _ hc))⟩
        rw [if_pos hdue, filter_cons_of_pos hreq, forall_mem_cons, length_cons]
        simp only [bind_eq_ok, remade_succ_iff, hsame.pkt, deref_eq_ok]
        constructor
        · rintro ⟨_, pkt, hpkt, ⟨d₁, q⟩, hq, ⟨d₂, e₂, rest⟩, h, -⟩
          obtain ⟨⟨bytes, hbytes⟩, path₁, hnew, hfits, rfl⟩ :=
            exists_copyCidReqPacket_iff.1 ⟨q, hq⟩
          obtain ⟨h₁, h₂, path, hpath⟩ := (ih hnodup' hrest hon').1 ⟨_, h⟩
          exact ⟨⟨rfl, h₁⟩, ⟨⟨pkt, bytes, hpkt, hbytes⟩, h₂⟩, path, path₁, hnew,
            hsame.dst ▸ hfits, hpath⟩
        · rintro ⟨⟨-, h₁⟩, ⟨⟨pkt, bytes, hpkt, hbytes⟩, h₂⟩, path, path₁, hnew, hfits, hpath⟩
          obtain ⟨q, hq⟩ := exists_copyCidReqPacket_iff.2
            ⟨⟨bytes, hbytes⟩, path₁, hnew, hsame.dst ▸ hfits, rfl⟩
          obtain ⟨r, hr⟩ := (ih hnodup' hrest hon').2 ⟨h₁, h₂, path, hpath⟩
          exact ⟨_, pkt, hpkt, (_, q), hq, r, hr, rfl⟩
      · have hreq : ¬ d₀.requestDue env.now cid = true := by
          simpa [requestDue, hlookup, hexp] using hdue
        have hrest : SameRequests cids d₀ d := ⟨hsame.dst, hsame.pkt,
          fun c hc => hsame.on c (mem_cons_of_mem _ hc),
          fun c hc => hsame.expiry c (mem_cons_of_mem _ hc)⟩
        rw [if_neg hdue, filter_cons_of_neg hreq, ih hnodup' hrest hon']
        simp

theorem Timeout.sameRequests {out : List Output} {tear : Bool}
    (h : Timeout env localAddr d d' out tear) (cids : List Xid) :
    d'.xidToTimerOn = d.xidToTimerOn ∧ SameRequests cids d d' := by
  cases h <;> exact ⟨rfl, rfl, rfl, fun _ _ => rfl, fun _ _ => rfl⟩

theorem Timeout.exists_cidTimeouts_iff {out : List Output} {tear : Bool} {e : Nat}
    (h : Timeout env localAddr d d' out tear) :
    (∃ r, d'.cidTimeouts env localAddr d'.xidToTimerOn.keys e = .ok r) ↔
      (∀ c ∈ d.xidToTimerOn.keys, (d.xidToExpiryTime.lookup c).isSome) ∧
      (∀ c ∈ d.dueRequests env.now, ∃ p bytes, d.xidToCidReqPkt.lookup c = some p ∧
        p.payload = .ok bytes) ∧
      ∃ path, Remade localAddr d.dstPath (d.dueRequests env.now).length d'.srcPath path := by
  obtain ⟨hkeys, hsame⟩ := h.sameRequests d.xidToTimerOn.keys
  rw [hkeys]
  exact DagInfo.exists_cidTimeouts_iff d.xidToTimerOn.keys_nodup hsame fun c hc =>
    lookup_isSome.2 (AList.mem_keys.2 hc)

theorem Timeout.eq_false {out : List Output} {tear : Bool}
    (h : Timeout env localAddr d d' out tear) (hkept : d.removable env.now = false) :
    tear = false := by
  cases h with
  | tearDown hon hsyn hdata htear hdue =>
    rw [removable_iff.2 ⟨hon, hsyn, hdata, htear, hdue⟩] at hkept
    cases hkept
  | _ => rfl

end DagInfo

/-! ### The table -/

namespace XTransport

open DagInfo

variable {env : Env} {s : XTransport} {d : DagInfo} {sport : UInt16} {e : Nat}
  {sports : List UInt16}

theorem exists_timerSocket_iff (hd : s.portToDagInfo.lookup sport = some d)
    (hkept : d.removable env.now = false) :
    (∃ r, s.timerSocket env sport e = .ok r) ↔ d.Serviceable env.now s.localAddr := by
  rw [timerSocket, hd, deref_some, ok_bind]
  simp only [bind_eq_ok]
  constructor
  · rintro ⟨r, ⟨d₁, out, tear⟩, htimeout, h⟩
    have hcase := timeout_eq_ok htimeout
    obtain rfl := hcase.eq_false hkept
    simp only [Bool.false_eq_true, if_false, bind_eq_ok] at h
    obtain ⟨r, hcids, -⟩ := h
    obtain ⟨hsyn, hstream, hpath₁⟩ := (exists_timeout_iff hkept).1 ⟨d₁, out, htimeout, rfl⟩
    obtain ⟨hexpiry, hrequest, path, hpath₂⟩ := hcase.exists_cidTimeouts_iff.1 ⟨r, hcids⟩
    exact ⟨hsyn, hstream, hexpiry, hrequest, path, remade_add_iff.2 ⟨_, hpath₁, hpath₂⟩⟩
  · rintro ⟨hsyn, hstream, hexpiry, hrequest, path, hpath⟩
    obtain ⟨path₁, hpath₁, hpath₂⟩ := remade_add_iff.1 hpath
    obtain ⟨d₁, out, htimeout, rfl⟩ := (exists_timeout_iff hkept).2 ⟨hsyn, hstream, hpath₁⟩
    obtain ⟨r, hcids⟩ := (timeout_eq_ok htimeout).exists_cidTimeouts_iff.2
      ⟨hexpiry, hrequest, path, hpath₂⟩
    exact ⟨_, (d₁, out, false), htimeout,
      (if_neg Bool.false_ne_true).trans (bind_eq_ok.2 ⟨r, hcids, rfl⟩)⟩

theorem exists_timerSockets_iff (hnodup : sports.Nodup)
    (hlive : ∀ q ∈ sports, ∃ d, s.portToDagInfo.lookup q = some d ∧ d.removable env.now = false) :
    (∃ r, timerSockets env sports s e = .ok r) ↔ ∀ q ∈ sports, ∀ d,
      s.portToDagInfo.lookup q = some d → d.Serviceable env.now s.localAddr := by
  induction sports generalizing s e with
  | nil => exact ⟨fun _ => nofun, fun _ => ⟨_, rfl⟩⟩
  | cons sport sports ih =>
    obtain ⟨hnot, hnodup'⟩ := nodup_cons.1 hnodup
    obtain ⟨d, hd, hkept⟩ := hlive sport mem_cons_self
    have hrest {s₁ : XTransport} {e₁ : Nat} {out : List Output}
        (h : s.timerSocket env sport e = .ok (s₁, e₁, out)) :
        (∃ r, timerSockets env sports s₁ e₁ = .ok r) ↔ ∀ q ∈ sports, ∀ d,
          s.portToDagInfo.lookup q = some d → d.Serviceable env.now s.localAddr := by
      have hticked := timerSocket_eq_ok h
      have hsame (q : UInt16) (hq : q ∈ sports) :
          s₁.portToDagInfo.lookup q = s.portToDagInfo.lookup q :=
        hticked.other q fun hmem => hnot (mem_singleton.1 hmem ▸ hq)
      rw [ih hnodup' fun q hq => (hsame q hq).symm ▸ hlive q (mem_cons_of_mem _ hq),
        hticked.localAddr]
      exact forall₂_congr fun q hq => by rw [hsame q hq]
    rw [timerSockets, forall_mem_cons, hd]
    simp only [bind_eq_ok, Option.some.injEq, forall_eq']
    constructor
    · rintro ⟨_, ⟨s₁, e₁, out⟩, h₁, r, h₂, -⟩
      exact ⟨(exists_timerSocket_iff hd hkept).1 ⟨_, h₁⟩, (hrest h₁).1 ⟨r, h₂⟩⟩
    · rintro ⟨h₁, h₂⟩
      obtain ⟨⟨s₁, e₁, out⟩, hs₁⟩ := (exists_timerSocket_iff hd hkept).2 h₁
      obtain ⟨r, hr⟩ := (hrest hs₁).2 h₂
      exact ⟨_, _, hs₁, r, hr, rfl⟩

/-- **The timer runs through exactly if it can do what is due for every socket**, provided that it
removes none. -/
theorem exists_runTimer_iff (hkept : ∀ q d, s.portToDagInfo.lookup q = some d →
      d.removable env.now = false) :
    (∃ s' out, s.runTimer env = .ok (s', out)) ↔
      ∀ q d, s.portToDagInfo.lookup q = some d → d.Serviceable env.now s.localAddr := by
  have hloop := exists_timerSockets_iff (s := { s with timer := none }) (e := env.now)
    s.portToDagInfo.keys_nodup fun q hq => by
      obtain ⟨d, hd⟩ := mem_keys_iff.1 hq
      exact ⟨d, hd, hkept q d hd⟩
  simp only [runTimer, bind_eq_ok]
  constructor
  · rintro ⟨s', out, r, h, -⟩ q d hd
    exact hloop.1 ⟨r, h⟩ q (mem_keys_iff.2 ⟨d, hd⟩) d hd
  · intro h
    obtain ⟨r, hr⟩ := hloop.2 fun q _ d hd => h q d hd
    exact ⟨_, _, r, hr, rfl⟩

end XTransport

end Xia
