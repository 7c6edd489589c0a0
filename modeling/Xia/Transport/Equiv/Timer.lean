import Xia.Transport.Equiv.Socket

/-!
# What the timer does to a socket

`Timeout env d d' out tear` lists everything that the first half of the loop body of `run_timer`
can do to a socket `d`, and `Visited` the whole loop body.  `runTimer_visits` then says that one
run of the timer visits each socket once, on the state that the socket had before the run, and
that it pushes nothing but what these visits push.
-/

namespace Xia

open AList HashTable List Option Result

namespace DagInfo

/-- The packet `q` is the result of copying `p` for some socket. -/
def IsCopy (q p : Packet) : Prop :=
  ∃ beyond localAddr d d', copyPacket beyond localAddr p d = .ok (d', q)

theorem IsCopy.carries {p q : Packet} {t i : UInt8} {s a : UInt32} {l : UInt16}
    {payload : List UInt8} (h : IsCopy q p) (hp : p.Carries t i s a l payload) :
    q.Carries t i s a l payload := by
  obtain ⟨_, _, _, _, h⟩ := h
  exact copyPacket_carries h hp

theorem isCopy_of_forall₂ {copies ps : List Packet} (h : List.Forall₂ IsCopy copies ps) :
    (∀ p ∈ ps, ∃ q ∈ copies, IsCopy q p) ∧ ∀ q ∈ copies, ∃ p ∈ ps, IsCopy q p := by
  induction h with
  | nil => simp
  | @cons q p qs ps hcopy _ ih =>
    constructor
    · intro p' hp'
      rcases mem_cons.1 hp' with rfl | hp'
      · exact ⟨q, mem_cons_self, hcopy⟩
      · obtain ⟨q', hq', h'⟩ := ih.1 p' hp'
        exact ⟨q', mem_cons_of_mem _ hq', h'⟩
    · intro q' hq'
      rcases mem_cons.1 hq' with rfl | hq'
      · exact ⟨p, mem_cons_self, hcopy⟩
      · obtain ⟨p', hp', h'⟩ := ih.2 q' hq'
        exact ⟨p', mem_cons_of_mem _ hp', h'⟩

/-- The stored packets that the retransmission loop meets, `n` of them from `i` on. -/
def heldFrom (d : DagInfo) (n i : Nat) : List Packet :=
  (List.range' i n).filterMap fun k => d.sentPkt (Fin.ofNat maxWinSize k)

/-- The stored packets between `base` and `next_seqnum`. -/
def held (d : DagInfo) : List Packet :=
  d.heldFrom (d.nextSeqnum.toNat - d.base.toNat) d.base.toNat

/-- The outcomes of `timeout`.  The first of the three waiting flags that is due decides. -/
inductive Timeout (env : Env) (localAddr : XiaPath) (d : DagInfo) :
    DagInfo → List Output → Bool → Prop
  | idle
      (h : d.timerOn → ¬ (d.synackWaiting ∧ d.expiry ≤ env.now) ∧
        ¬ (d.dataackWaiting ∧ d.expiry ≤ env.now) ∧
        ¬ (d.teardownWaiting ∧ d.teardownExpiry ≤ env.now)) :
      Timeout env localAddr d d [] false
  | synResend (path : XiaPath) (p q : Packet) (hon : d.timerOn) (hsyn : d.synackWaiting)
      (hdue : d.expiry ≤ env.now) (htries : d.numConnectTries ≤ maxConnectTries)
      (hp : d.synPkt = some p) (hq : IsCopy q p) (hpath : Relocated localAddr d.srcPath path) :
      Timeout env localAddr d
        { d with
          srcPath := path, expiry := env.now + ackDelay
          numConnectTries := d.numConnectTries + 1 } [.network q] false
  | synGiveUp (hon : d.timerOn) (hsyn : d.synackWaiting) (hdue : d.expiry ≤ env.now)
      (htries : maxConnectTries < d.numConnectTries) :
      Timeout env localAddr d { d with timerOn := false, synackWaiting := false } [] false
  | dataResend (path : XiaPath) (copies : List Packet) (hon : d.timerOn)
      (hsyn : ¬ d.synackWaiting) (hdata : d.dataackWaiting) (hdue : d.expiry ≤ env.now)
      (htries : d.numRetransmitTries < maxRetransmitTries) (hheld : d.held ≠ [])
      (hcopies : List.Forall₂ IsCopy copies d.held)
      (hpath : Relocated localAddr d.srcPath path) :
      Timeout env localAddr d
        { d with
          srcPath := path, expiry := env.now + ackDelay
          numRetransmitTries := d.numRetransmitTries + 1 } (copies.map .network) false
  | dataStop (path : XiaPath) (hon : d.timerOn) (hsyn : ¬ d.synackWaiting)
      (hdata : d.dataackWaiting) (hdue : d.expiry ≤ env.now)
      (htries : maxRetransmitTries ≤ d.numRetransmitTries ∨ d.held = [])
      (hpath : Relocated localAddr d.srcPath path) :
      Timeout env localAddr d
        { d with
          srcPath := path, timerOn := false, dataackWaiting := false
          numRetransmitTries := 0 } [] false
  | tearDown (hon : d.timerOn) (hsyn : ¬ (d.synackWaiting ∧ d.expiry ≤ env.now))
      (hdata : ¬ (d.dataackWaiting ∧ d.expiry ≤ env.now)) (htear : d.teardownWaiting)
      (hdue : d.teardownExpiry ≤ env.now) :
      Timeout env localAddr d { d with timerOn := false } [] true

variable {env : Env} {localAddr : XiaPath} {d d' : DagInfo} {out : List Output}

theorem heldFrom_succ (d : DagInfo) (n i : Nat) : d.heldFrom (n + 1) i =
    (d.sentPkt (Fin.ofNat maxWinSize i)).toList ++ d.heldFrom n (i + 1) := by
  rw [heldFrom, range'_succ, filterMap_cons]
  cases d.sentPkt (Fin.ofNat maxWinSize i) <;> rfl

theorem retransmit_eq_ok {beyond : Nat → UInt8} {n i : Nat} {copies : List Packet}
    (h : d.retransmit beyond localAddr n i = .ok (d', copies)) :
    ∃ path, Relocated localAddr d.srcPath path ∧ d' = { d with srcPath := path } ∧
      List.Forall₂ IsCopy copies (d.heldFrom n i) := by
  induction n generalizing i d copies with
  | zero =>
    cases h
    exact ⟨_, .refl, rfl, .nil⟩
  | succ n ih =>
    rw [heldFrom_succ]
    rw [retransmit] at h
    split at h
    · rename_i hnone
      rw [hnone]
      exact ih h
    · rename_i p hsome
      rw [hsome]
      simp only [bind_eq_ok] at h
      obtain ⟨⟨d₁, copy⟩, hcopy, ⟨d₂, rest⟩, hrest, h⟩ := h
      cases h
      obtain ⟨path₁, thdr, _, _, _, _, _, hpath₁, rfl, -⟩ := copyPacket_eq_ok hcopy
      obtain ⟨path₂, hpath₂, rfl, hcopies⟩ := ih hrest
      exact ⟨path₂, hpath₁.trans hpath₂, rfl, .cons ⟨_, _, _, _, hcopy⟩ hcopies⟩

theorem timeout_syn {sport : UInt16} (hon : d.timerOn) (hsyn : d.synackWaiting)
    (hdue : d.expiry ≤ env.now) (h : d.synTimeout env localAddr sport = .ok (d', out)) :
    Timeout env localAddr d d' out false := by
  rw [synTimeout] at h
  split at h
  · rename_i htries
    simp only [bind_eq_ok] at h
    obtain ⟨p, hp, ⟨d₁, q⟩, hq, h⟩ := h
    cases h
    obtain ⟨path, thdr, _, _, _, _, _, hpath, rfl, -⟩ := copyPacket_eq_ok hq
    have hcase := Timeout.synResend path p q hon hsyn hdue htries (deref_eq_ok.1 hp)
      ⟨_, _, _, _, hq⟩ hpath
    simpa [hon, hsyn] using hcase
  · rename_i htries
    cases h
    exact .synGiveUp hon hsyn hdue (by omega)

theorem timeout_data (hon : d.timerOn) (hsyn : ¬ d.synackWaiting) (hdata : d.dataackWaiting)
    (hdue : d.expiry ≤ env.now) (h : d.dataTimeout env localAddr = .ok (d', out)) :
    Timeout env localAddr d d' out false := by
  simp only [dataTimeout, bind_eq_ok] at h
  obtain ⟨⟨d₁, copies⟩, hcopies, h⟩ := h
  rw [resend] at hcopies
  split at hcopies
  · rename_i htries
    obtain ⟨path, hpath, rfl, hforall⟩ := retransmit_eq_ok hcopies
    split at h
    · rename_i hnil
      cases h
      simp only at hnil
      subst hnil
      exact .dataStop path hon hsyn hdata hdue (.inr (List.forall₂_nil_left_iff.1 hforall)) hpath
    · rename_i hne
      cases h
      have hheld : d.held ≠ [] := fun hnil =>
        hne (List.forall₂_nil_right_iff.1 (show List.Forall₂ IsCopy copies [] from hnil ▸ hforall))
      have hcase := Timeout.dataResend path copies hon hsyn hdata hdue htries hheld hforall hpath
      simpa [hon, hdata] using hcase
  · rename_i htries
    cases hcopies
    cases h
    exact .dataStop d.srcPath hon hsyn hdata hdue (.inl (by omega)) .refl

theorem timeout_eq_ok {sport : UInt16} {tear : Bool}
    (h : d.timeout env localAddr sport = .ok (d', out, tear)) :
    Timeout env localAddr d d' out tear := by
  rw [timeout] at h
  by_cases hon : d.timerOn
  · rw [if_pos hon] at h
    by_cases hsyn : d.synackWaiting ∧ d.expiry ≤ env.now
    · rw [if_pos hsyn] at h
      simp only [bind_eq_ok] at h
      obtain ⟨⟨d₁, o⟩, hsynTimeout, h⟩ := h
      cases h
      exact timeout_syn hon hsyn.1 hsyn.2 hsynTimeout
    · rw [if_neg hsyn] at h
      -- the two waits share `expiry`, so a data wait that is due is not a SYN wait
      by_cases hdata : d.dataackWaiting ∧ d.expiry ≤ env.now
      · rw [if_pos hdata] at h
        simp only [bind_eq_ok] at h
        obtain ⟨⟨d₁, o⟩, hdataTimeout, h⟩ := h
        cases h
        exact timeout_data hon (fun hw => hsyn ⟨hw, hdata.2⟩) hdata.1 hdata.2 hdataTimeout
      · rw [if_neg hdata] at h
        by_cases htear : d.teardownWaiting ∧ d.teardownExpiry ≤ env.now
        · rw [if_pos htear] at h
          obtain ⟨rfl, rfl, rfl⟩ : { d with timerOn := false } = d' ∧ [] = out ∧ true = tear := by
            simpa using h
          exact .tearDown hon hsyn hdata htear.1 htear.2
        · rw [if_neg htear] at h
          cases h
          exact .idle fun _ => ⟨hsyn, hdata, htear⟩
  · rw [if_neg hon] at h
    cases h
    exact .idle fun hon' => absurd hon' hon

/-- What each copy keeps in the loop over the requests, and what holds of the copies. -/
theorem cidTimeouts_invariant {I : DagInfo → Prop} {P : Packet → Prop} {cids : List Xid}
    {e e' : Nat} {copies : List Packet}
    (hstep : ∀ d d₁ cid p c, I d → d.xidToTimerOn.lookup cid = some true →
      d.xidToCidReqPkt.lookup cid = some p →
        d.copyCidReqPacket env.beyond localAddr p = .ok (d₁, c) → I { d₁ with
          xidToExpiryTime := d₁.xidToExpiryTime.insert cid (env.now + ackDelay)
          xidToTimerOn := d₁.xidToTimerOn.insert cid true } ∧ P c)
    (hI : I d) (h : d.cidTimeouts env localAddr cids e = .ok (d', e', copies)) :
    I d' ∧ ∀ c ∈ copies, P c := by
  induction cids generalizing d e copies with
  | nil =>
    cases h
    exact ⟨hI, by simp⟩
  | cons cid cids ih =>
    simp only [cidTimeouts, bind_eq_ok] at h
    obtain ⟨on, hon, expiry, -, h⟩ := h
    split at h
    · rename_i hdue
      simp only [bind_eq_ok] at h
      obtain ⟨p, hp, ⟨d₁, c⟩, hcopy, ⟨d₂, e₂, rest⟩, hrest, h⟩ := h
      cases h
      rw [deref_eq_ok] at hon hp
      obtain ⟨hI₁, hc⟩ := hstep d d₁ cid p c hI (by rw [hon, hdue.1]) hp hcopy
      obtain ⟨hI₂, hcopies⟩ := ih hI₁ hrest
      exact ⟨hI₂, forall_mem_cons.2 ⟨hc, hcopies⟩⟩
    · exact ih hI h

theorem cidTimeouts_eq_ok {cids : List Xid} {e e' : Nat} {copies : List Packet}
    (h : d.cidTimeouts env localAddr cids e = .ok (d', e', copies)) :
    ∃ path t₁ t₂, Relocated localAddr d.srcPath path ∧
      d' = { d with srcPath := path, xidToExpiryTime := t₁, xidToTimerOn := t₂ } := by
  refine (cidTimeouts_invariant (P := fun _ => True) (I := fun d₁ => ∃ path t₁ t₂,
    Relocated localAddr d.srcPath path ∧
      d₁ = { d with srcPath := path, xidToExpiryTime := t₁, xidToTimerOn := t₂ }) ?_
    ⟨_, _, _, .refl, rfl⟩ h).1
  rintro _ d₁ cid p c ⟨path₁, t₁, t₂, hpath₁, rfl⟩ - - hcopy
  obtain ⟨path₂, hpath₂, rfl⟩ := copyContentPacket_eq_ok hcopy
  exact ⟨⟨path₂, _, _, hpath₁.trans hpath₂, rfl⟩, trivial⟩

/-- The outcomes of the loop body of `run_timer` for a socket: it is removed, or it is kept and its
chunk requests are looked after. -/
inductive Visited (env : Env) (localAddr : XiaPath) (d : DagInfo) :
    Option DagInfo → List Output → Prop
  | removed {d₁ : DagInfo} {out : List Output} (h : Timeout env localAddr d d₁ out true) :
      Visited env localAddr d none out
  | kept {d₁ d₂ : DagInfo} {out : List Output} {e e' : Nat} {copies : List Packet}
      (h : Timeout env localAddr d d₁ out false)
      (hcid : d₁.cidTimeouts env localAddr d₁.xidToTimerOn.keys e = .ok (d₂, e', copies)) :
      Visited env localAddr d (some d₂) (out ++ copies.map .network)

theorem Visited.sameChunkTables (h : Visited env localAddr d (some d') out) :
    SameChunkTables d d' := by
  cases h with
  | kept h hcid =>
    obtain ⟨path, t₁, t₂, -, rfl⟩ := cidTimeouts_eq_ok hcid
    cases h <;> exact ⟨rfl, rfl, rfl, rfl⟩

/-- The XID that the removal of a socket takes from `XIDtoPort` and from the route table. -/
def unfiled (d : DagInfo) : Option Xid :=
  if d.isAcceptSocket then none else d.srcPath.destXid.toOption

end DagInfo

namespace XTransport

variable {env : Env} {s s' : XTransport} {sport : UInt16} {out : List Output}
variable {s₁ : XTransport} {sports : List UInt16}

/-- What all visits of the timer leave alone. -/
structure SameTables (s s' : XTransport) : Prop where
  localAddr : s'.localAddr = s.localAddr
  xidPairToPort : s'.xidPairToPort = s.xidPairToPort
  noDagInfo : s'.noDagInfo = s.noDagInfo
  xidToPushPort : s'.xidToPushPort = s.xidToPushPort
  pendingConnectionBuf : s'.pendingConnectionBuf = s.pendingConnectionBuf

def Removed (s s' : XTransport) (q : UInt16) (d : DagInfo) : Prop :=
  s.portToDagInfo.lookup q = some d ∧ s'.portToDagInfo.lookup q = none

/-- What the timer has done after visiting the sockets in `sports`. -/
structure Ticked (env : Env) (sports : List UInt16) (s s' : XTransport) (out : List Output) :
    Prop extends SameTables s s' where
  other : ∀ q, q ∉ sports → s'.portToDagInfo.lookup q = s.portToDagInfo.lookup q
  visited : ∀ q ∈ sports, ∃ d o, s.portToDagInfo.lookup q = some d ∧
    DagInfo.Visited env s.localAddr d (s'.portToDagInfo.lookup q) o ∧ o ⊆ out
  pushed : ∀ o ∈ out, ∃ q ∈ sports, ∃ d d' os, s.portToDagInfo.lookup q = some d ∧
    DagInfo.Visited env s.localAddr d d' os ∧ o ∈ os
  unfiled : ∀ q d x, Removed s s' q d → d.unfiled = some x → s'.xidToPort.lookup x = none
  filed : ∀ x, (∀ q d, Removed s s' q d → d.unfiled ≠ some x) →
    s'.xidToPort.lookup x = s.xidToPort.lookup x
  unrouted : ∀ q d x k, Removed s s' q d → d.unfiled = some x → routeKey x = some k →
    s'.routes.lookup k = none
  routed : ∀ k, (∀ q d x, Removed s s' q d → d.unfiled = some x → routeKey x ≠ some k) →
    s'.routes.lookup k = s.routes.lookup k
  inactive : ∀ q d, Removed s s' q d → s'.portToActive.lookup q = none
  active : ∀ q, (∀ d, ¬ Removed s s' q d) → s'.portToActive.lookup q = s.portToActive.lookup q

theorem SameTables.trans {s₂ s₃ : XTransport} (h : SameTables s₁ s₂) (h' : SameTables s₂ s₃) :
    SameTables s₁ s₃ :=
  ⟨h'.1.trans h.1, h'.2.trans h.2, h'.3.trans h.3, h'.4.trans h.4, h'.5.trans h.5⟩

theorem lookup_delRoute (x k : Xid) :
    (s.delRoute x).routes.lookup k = if routeKey x = some k then none else s.routes.lookup k := by
  rw [delRoute]
  cases hk : routeKey x with
  | none => simp
  | some k' =>
    simp only [lookup_erase_eq, Option.some.injEq]
    by_cases h : k = k'
    · simp [h]
    · rw [if_neg h, if_neg (Ne.symm h)]

theorem unfile_eq_ok {d : DagInfo} (h : s.unfile d = .ok s') :
    SameTables s s' ∧ s'.portToDagInfo = s.portToDagInfo ∧ s'.portToActive = s.portToActive ∧
      (∀ x, s'.xidToPort.lookup x =
        if d.unfiled = some x then none else s.xidToPort.lookup x) ∧
      ∀ k, s'.routes.lookup k =
        if d.unfiled.bind routeKey = some k then none else s.routes.lookup k := by
  rw [unfile] at h
  split at h
  · rename_i hdst
    cases h
    -- a path without a destination has no XID to take away
    have hxid : d.srcPath.destXid = .error .outOfBounds := by
      rw [XiaPath.destXid, XiaPath.xid, hdst]
      rfl
    have hnone : d.unfiled = none := by simp [DagInfo.unfiled, hxid, Except.toOption]
    exact ⟨⟨rfl, rfl, rfl, rfl, rfl⟩, rfl, rfl, by simp [hnone], by simp [hnone]⟩
  · simp only [bind_eq_ok] at h
    obtain ⟨x, hx, h⟩ := h
    split at h
    · rename_i haccept
      cases h
      have hnone : d.unfiled = none := by simp [DagInfo.unfiled, haccept]
      exact ⟨⟨rfl, rfl, rfl, rfl, rfl⟩, rfl, rfl, by simp [hnone], by simp [hnone]⟩
    · rename_i haccept
      cases h
      have hsome : d.unfiled = some x := by
        simp [DagInfo.unfiled, haccept, hx, Except.toOption]
      refine ⟨⟨rfl, rfl, rfl, rfl, rfl⟩, rfl, rfl, fun y => ?_, fun k => ?_⟩
      · have herase : ((s.delRoute x).xidToPort.erase x).lookup y =
            if y = x then none else s.xidToPort.lookup y := lookup_erase_eq _ _ _
        rw [herase, hsome]
        by_cases hy : y = x
        · simp [hy]
        · rw [if_neg hy, if_neg (by simpa using Ne.symm hy)]
      · rw [hsome, bind_some]
        exact lookup_delRoute x k

theorem tearDown_eq_ok {d : DagInfo} (h : s.tearDown sport d = .ok s') :
    SameTables s s' ∧ s'.portToDagInfo = s.portToDagInfo.erase sport ∧
      s'.portToActive = s.portToActive.erase sport ∧
      (∀ x, s'.xidToPort.lookup x =
        if d.unfiled = some x then none else s.xidToPort.lookup x) ∧
      ∀ k, s'.routes.lookup k =
        if d.unfiled.bind routeKey = some k then none else s.routes.lookup k := by
  simp only [tearDown, bind_eq_ok, pure_eq_ok] at h
  obtain ⟨s₁, h₁, rfl⟩ := h
  obtain ⟨hsame, hdag, hactive, hfile, hroute⟩ := unfile_eq_ok h₁
  refine ⟨⟨hsame.1, hsame.2, hsame.3, hsame.4, hsame.5⟩, ?_, ?_, hfile, hroute⟩
  · rw [← hdag]
  · rw [← hactive]

theorem Ticked.nil : Ticked env [] s s [] where
  toSameTables := ⟨rfl, rfl, rfl, rfl, rfl⟩
  other _ _ := rfl
  visited _ hq := absurd hq not_mem_nil
  pushed _ ho := absurd ho not_mem_nil
  unfiled _ _ _ hr := by simp [Removed, hr.1] at hr
  filed _ _ := rfl
  unrouted _ _ _ _ hr := by simp [Removed, hr.1] at hr
  routed _ _ := rfl
  inactive _ _ hr := by simp [Removed, hr.1] at hr
  active _ _ := rfl

theorem ticked_of_tearDown {d d₁ : DagInfo} (hd : s.portToDagInfo.lookup sport = some d)
    (hcase : DagInfo.Timeout env s.localAddr d d₁ out true)
    (htear : s.tearDown sport d₁ = .ok s') : Ticked env [sport] s s' out := by
  obtain ⟨hsame, hdag, hactive, hfile, hroute⟩ := tearDown_eq_ok htear
  have hunfiled : d₁.unfiled = d.unfiled := by
    cases hcase
    rfl
  have hremoved : ∀ q d', Removed s s' q d' → q = sport ∧ d' = d := by
    rintro q d' ⟨hq, hnone⟩
    rw [hdag, lookup_erase_eq] at hnone
    split at hnone
    · rename_i heq
      subst heq
      rw [hd] at hq
      exact ⟨rfl, (Option.some.inj hq).symm⟩
    · rw [hq] at hnone
      cases hnone
  have hself : Removed s s' sport d :=
    ⟨hd, by rw [hdag, lookup_erase_eq, if_pos rfl]⟩
  -- the tables lose the entries of this socket, and those only
  refine ⟨hsame, ?_, ?_, ?_, ?_, ?_, ?_, ?_, ?_, ?_⟩
  · intro q hq
    rw [hdag, lookup_erase_eq, if_neg (by simpa using hq)]
  · intro q hq
    rw [mem_singleton.1 hq]
    exact ⟨d, out, hd, hself.2 ▸ .removed hcase, fun _ ho => ho⟩
  · intro x hx
    exact ⟨sport, mem_singleton_self _, d, none, out, hd, .removed hcase, hx⟩
  · intro q d' x hr hx
    obtain ⟨rfl, rfl⟩ := hremoved q d' hr
    rw [hfile, hunfiled, if_pos hx]
  · intro x hx
    rw [hfile, hunfiled, if_neg (hx sport d hself)]
  · intro q d' x k hr hx hk
    obtain ⟨rfl, rfl⟩ := hremoved q d' hr
    rw [hroute, hunfiled, hx, bind_some, if_pos hk]
  · intro k hk
    rw [hroute, hunfiled]
    refine if_neg fun hbind => ?_
    obtain ⟨x, hx, hkey⟩ := bind_eq_some_iff.1 hbind
    exact hk sport d x hself hx hkey
  · intro q d' hr
    obtain ⟨rfl, rfl⟩ := hremoved q d' hr
    rw [hactive, lookup_erase_eq, if_pos rfl]
  · intro q hq
    rw [hactive, lookup_erase_eq]
    refine if_neg fun heq => hq d ?_
    rw [heq]
    exact hself

theorem ticked_of_kept {d d₁ d₂ : DagInfo} {e e' : Nat} {copies : List Packet}
    (hd : s.portToDagInfo.lookup sport = some d)
    (hcase : DagInfo.Timeout env s.localAddr d d₁ out false)
    (hcid : d₁.cidTimeouts env s.localAddr d₁.xidToTimerOn.keys e = .ok (d₂, e', copies)) :
    Ticked env [sport] s (s.setDagInfo sport d₂) (out ++ copies.map .network) := by
  have hremoved : ∀ q d', ¬ Removed s (s.setDagInfo sport d₂) q d' := by
    rintro q d' ⟨hq, hnone⟩
    rw [lookup_setDagInfo] at hnone
    split at hnone
    · cases hnone
    · rw [hq] at hnone
      cases hnone
  refine ⟨⟨rfl, rfl, rfl, rfl, rfl⟩, ?_, ?_, ?_, ?_, fun _ _ => rfl, ?_, fun _ _ => rfl, ?_,
    fun _ _ => rfl⟩
  · intro q hq
    rw [lookup_setDagInfo, if_neg (by simpa using hq)]
  · intro q hq
    rw [mem_singleton.1 hq]
    refine ⟨d, _, hd, ?_, fun _ ho => ho⟩
    rw [lookup_setDagInfo, if_pos rfl]
    exact .kept hcase hcid
  · intro x hx
    exact ⟨sport, mem_singleton_self _, d, some d₂, _, hd, .kept hcase hcid, hx⟩
  · intro q d' x hr
    exact absurd hr (hremoved q d')
  · intro q d' x k hr
    exact absurd hr (hremoved q d')
  · intro q d' hr
    exact absurd hr (hremoved q d')

theorem timerSocket_eq_ok {e e' : Nat} (h : s.timerSocket env sport e = .ok (s', e', out)) :
    Ticked env [sport] s s' out := by
  simp only [timerSocket, bind_eq_ok] at h
  obtain ⟨d, hd, ⟨d₁, o, tear⟩, htimeout, h⟩ := h
  rw [deref_eq_ok] at hd
  have hcase := DagInfo.timeout_eq_ok htimeout
  cases tear with
  | true =>
    simp only [if_true, bind_eq_ok, pure_eq_ok, Prod.mk.injEq] at h
    obtain ⟨s₁, htear, rfl, -, rfl⟩ := h
    exact ticked_of_tearDown hd hcase htear
  | false =>
    simp only [Bool.false_eq_true, if_false, bind_eq_ok, pure_eq_ok, Prod.mk.injEq] at h
    obtain ⟨⟨d₂, e₂, copies⟩, hcid, rfl, -, rfl⟩ := h
    exact ticked_of_kept hd hcase hcid

theorem Ticked.removed_iff {out₁ out₂ : List Output} (h₁ : Ticked env [sport] s s₁ out₁)
    (h₂ : Ticked env sports s₁ s' out₂) (hnotin : sport ∉ sports) (q : UInt16) (d : DagInfo) :
    Removed s s' q d ↔ Removed s s₁ q d ∨ Removed s₁ s' q d := by
  unfold Removed
  by_cases heq : q = sport
  · subst heq
    rw [h₂.other q hnotin]
    refine ⟨.inl, Or.rec id ?_⟩
    rintro ⟨hd, hnone⟩
    cases hd.symm.trans hnone
  · rw [h₁.other q (mt mem_singleton.1 heq)]
    refine ⟨.inr, Or.rec ?_ id⟩
    rintro ⟨hd, hnone⟩
    cases hd.symm.trans hnone

theorem Ticked.cons {out₁ out₂ : List Output} (h₁ : Ticked env [sport] s s₁ out₁)
    (h₂ : Ticked env sports s₁ s' out₂) (hnotin : sport ∉ sports) :
    Ticked env (sport :: sports) s s' (out₁ ++ out₂) := by
  have hself : s'.portToDagInfo.lookup sport = s₁.portToDagInfo.lookup sport :=
    h₂.other sport hnotin
  have hother : ∀ q, q ≠ sport → s₁.portToDagInfo.lookup q = s.portToDagInfo.lookup q :=
    fun q hq => h₁.other q (by simpa using hq)
  have hremoved := h₁.removed_iff h₂ hnotin
  refine ⟨h₁.toSameTables.trans h₂.toSameTables, ?_, ?_, ?_, ?_, ?_, ?_, ?_, ?_, ?_⟩
  · intro q hq
    obtain ⟨hne, hnot⟩ : q ≠ sport ∧ q ∉ sports := by simpa using hq
    rw [h₂.other q hnot, hother q hne]
  · intro q hq
    by_cases heq : q = sport
    · subst heq
      obtain ⟨d, o, hd, hv, ho⟩ := h₁.visited q (mem_singleton_self q)
      exact ⟨d, o, hd, hself ▸ hv, fun x hx => mem_append_left _ (ho hx)⟩
    · obtain ⟨d, o, hd, hv, ho⟩ := h₂.visited q ((mem_cons.1 hq).resolve_left heq)
      rw [hother q heq] at hd
      exact ⟨d, o, hd, h₁.localAddr ▸ hv, fun x hx => mem_append_right _ (ho hx)⟩
  · intro x hx
    rcases mem_append.1 hx with hx | hx
    · obtain ⟨q, hq, rest⟩ := h₁.pushed x hx
      exact ⟨q, mem_cons.2 (.inl (mem_singleton.1 hq)), rest⟩
    · obtain ⟨q, hq, d, d', os, hd, hv, ho⟩ := h₂.pushed x hx
      have hne : q ≠ sport := fun heq => hnotin (heq ▸ hq)
      rw [hother q hne] at hd
      exact ⟨q, mem_cons_of_mem _ hq, d, d', os, hd, h₁.localAddr ▸ hv, ho⟩
  · intro q d x hr hx
    by_cases hex : ∃ q' d', Removed s₁ s' q' d' ∧ d'.unfiled = some x
    · obtain ⟨q', d', hr', hx'⟩ := hex
      exact h₂.unfiled q' d' x hr' hx'
    · rw [h₂.filed x fun q' d' hr' hx' => hex ⟨q', d', hr', hx'⟩]
      rcases (hremoved q d).1 hr with hr | hr
      · exact h₁.unfiled q d x hr hx
      · exact absurd ⟨q, d, hr, hx⟩ hex
  · intro x hx
    rw [h₂.filed x fun q d hr => hx q d ((hremoved q d).2 (.inr hr)),
      h₁.filed x fun q d hr => hx q d ((hremoved q d).2 (.inl hr))]
  · intro q d x k hr hx hk
    by_cases hex : ∃ q' d' x', Removed s₁ s' q' d' ∧ d'.unfiled = some x' ∧ routeKey x' = some k
    · obtain ⟨q', d', x', hr', hx', hk'⟩ := hex
      exact h₂.unrouted q' d' x' k hr' hx' hk'
    · rw [h₂.routed k fun q' d' x' hr' hx' hk' => hex ⟨q', d', x', hr', hx', hk'⟩]
      rcases (hremoved q d).1 hr with hr | hr
      · exact h₁.unrouted q d x k hr hx hk
      · exact absurd ⟨q, d, x, hr, hx, hk⟩ hex
  · intro k hk
    rw [h₂.routed k fun q d x hr => hk q d x ((hremoved q d).2 (.inr hr)),
      h₁.routed k fun q d x hr => hk q d x ((hremoved q d).2 (.inl hr))]
  · intro q d hr
    rcases (hremoved q d).1 hr with hr' | hr'
    · have hkeep : ∀ d', ¬ Removed s₁ s' q d' := fun d' h => by
        rw [Removed, hr'.2] at h
        cases h.1
      rw [h₂.active q hkeep, h₁.inactive q d hr']
    · exact h₂.inactive q d hr'
  · intro q hq
    rw [h₂.active q fun d hr => hq d ((hremoved q d).2 (.inr hr)),
      h₁.active q fun d hr => hq d ((hremoved q d).2 (.inl hr))]

theorem timerSockets_eq_ok {e e' : Nat} (hnodup : sports.Nodup)
    (h : timerSockets env sports s e = .ok (s', e', out)) : Ticked env sports s s' out := by
  induction sports generalizing s e out with
  | nil =>
    cases h
    exact .nil
  | cons sport sports ih =>
    simp only [timerSockets, bind_eq_ok] at h
    obtain ⟨⟨s₁, e₁, o₁⟩, h₁, ⟨s₂, e₂, o₂⟩, h₂, h⟩ := h
    cases h
    exact (timerSocket_eq_ok h₁).cons (ih (nodup_cons.1 hnodup).2 h₂) (nodup_cons.1 hnodup).1

/-- **One run of the timer** visits every socket once, on the state that it had before. -/
theorem runTimer_visits (h : s.runTimer env = .ok (s', out)) :
    Ticked env s.portToDagInfo.keys s s' out := by
  simp only [runTimer, bind_eq_ok] at h
  obtain ⟨⟨s₁, e, o⟩, h₁, h⟩ := h
  obtain ⟨hs', rfl⟩ := pure_pair_eq_ok.1 h
  have ht := timerSockets_eq_ok s.portToDagInfo.keys_nodup h₁
  -- the timer field occurs in none of the statements
  have hmid : Ticked env s.portToDagInfo.keys s s₁ o := by
    obtain ⟨⟨a, b, c, d, e⟩, f, g, i, j, k, l, m, n, p⟩ := ht
    exact ⟨⟨a, b, c, d, e⟩, f, g, i, j, k, l, m, n, p⟩
  subst hs'
  split
  · obtain ⟨⟨a, b, c, d, e⟩, f, g, i, j, k, l, m, n, p⟩ := hmid
    exact ⟨⟨a, b, c, d, e⟩, f, g, i, j, k, l, m, n, p⟩
  · exact hmid

theorem runTimer_none (h : s.runTimer env = .ok (s', out)) {q : UInt16}
    (hq : s.portToDagInfo.lookup q = none) : s'.portToDagInfo.lookup q = none := by
  rw [(runTimer_visits h).other q (by rwa [← AList.mem_keys, lookup_eq_none] at *), hq]

theorem runTimer_some (h : s.runTimer env = .ok (s', out)) {q : UInt16} {d : DagInfo}
    (hd : s.portToDagInfo.lookup q = some d) :
    ∃ o, DagInfo.Visited env s.localAddr d (s'.portToDagInfo.lookup q) o ∧ o ⊆ out := by
  obtain ⟨d', o, hd', hv, ho⟩ := (runTimer_visits h).visited q (mem_keys_iff.2 ⟨d, hd⟩)
  rw [hd] at hd'
  cases hd'
  exact ⟨o, hv, ho⟩

/-! ### What the timer reports -/

@[simp] theorem apiMsgs_append (port : UInt16) (o₁ o₂ : List Output) :
    apiMsgs port (o₁ ++ o₂) = apiMsgs port o₁ ++ apiMsgs port o₂ := by
  simp [apiMsgs]

theorem apiMsgs_of_network {port : UInt16} (h : ∀ o ∈ out, ∃ p, o = Output.network p) :
    apiMsgs port out = [] := by
  rw [apiMsgs, filterMap_eq_nil_iff]
  intro o ho
  obtain ⟨p, rfl⟩ := h o ho
  rfl

theorem netPackets_append (out out' : List Output) :
    netPackets (out ++ out') = netPackets out ++ netPackets out' :=
  filterMap_append

theorem mem_netPackets {p : Packet} : p ∈ netPackets out ↔ Output.network p ∈ out := by
  rw [netPackets, mem_filterMap]
  constructor
  · rintro ⟨o, ho, heq⟩
    cases o with
    | api => cases heq
    | network p' =>
      cases heq
      exact ho
  · exact fun ho => ⟨_, ho, rfl⟩

theorem Timeout.noApi (port : UInt16) {localAddr : XiaPath} {d d' : DagInfo} {tear : Bool}
    (h : DagInfo.Timeout env localAddr d d' out tear) : apiMsgs port out = [] := by
  cases h with
  | dataResend path copies => simp [apiMsgs]
  | _ => rfl

theorem Visited.noApi (port : UInt16) {localAddr : XiaPath} {d : DagInfo} {d' : Option DagInfo}
    (h : DagInfo.Visited env localAddr d d' out) : apiMsgs port out = [] := by
  cases h with
  | removed h => exact Timeout.noApi port h
  | kept h hcid =>
    rw [apiMsgs_append, Timeout.noApi port h]
    simp [apiMsgs]

/-- **The timer reports nothing to any application.** -/
theorem runTimer_noApi {port : UInt16} (h : s.runTimer env = .ok (s', out)) :
    apiMsgs port out = [] := by
  rw [apiMsgs, filterMap_eq_nil_iff]
  intro o ho
  obtain ⟨q, -, d, d', os, -, hv, hmem⟩ := (runTimer_visits h).pushed o ho
  exact filterMap_eq_nil_iff.1 (Visited.noApi port hv) o hmem

end XTransport

end Xia
