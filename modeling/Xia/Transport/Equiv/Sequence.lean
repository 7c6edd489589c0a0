import Xia.Transport.Equiv.Timer

/-!
# Sequence numbers near 2³¹ and 2³²

Three pieces of code index the ring of sent packets.  `Xsend` stores a packet at its number modulo
the window size, as an unsigned number; the ACK loop counts in an `int`; the retransmission loop
counts in an `unsigned int` and ends below `next_seqnum`.

`SafeAt base next ack` says that the three agree at these counters: the ACK loop stays inside the
array and empties exactly the slots of the acknowledged packets, and the retransmission meets
exactly the outstanding ones.  `safeAt_iff` gives the counters for which they do.
-/

namespace Xia

open List

namespace DagInfo

/-- The slot in which `Xsend` stores the packet with a number. -/
def sendSlot (n : UInt32) : Fin maxWinSize := Fin.ofNat maxWinSize n.toNat

/-- The number lies before `ack`, and `ack` in the window, modulo 2³². -/
def Acknowledged (base next ack n : UInt32) : Prop :=
  ack - base ≤ next - base ∧ n - base < ack - base

/-- The stored packets with the numbers from `base` up to `next_seqnum`, modulo 2³². -/
def outstanding (d : DagInfo) : List Packet :=
  (List.range (d.nextSeqnum - d.base).toNat).filterMap fun k =>
    d.sentPkt (sendSlot (d.base + UInt32.ofNat k))

/-- The ring after the acknowledged slots were emptied. -/
structure Emptied (base next ack : UInt32) (ring ring' : Fin maxWinSize → Option Packet) :
    Prop where
  acknowledged : ∀ n, Acknowledged base next ack n → ring' (sendSlot n) = none
  other : ∀ k, (∀ n, Acknowledged base next ack n → sendSlot n ≠ k) → ring' k = ring k

/-- The handlers use the ring correctly at these counters. -/
structure SafeAt (base next ack : UInt32) : Prop where
  acks : ∀ (d : DagInfo) (now : Nat) (srcPath : XiaPath), d.base = base → d.nextSeqnum = next →
    ∃ d' reset, d.receiveAck now srcPath ack = .ok (d', reset) ∧
      Emptied base next ack d.sentPkt d'.sentPkt
  resends : ∀ (d d' : DagInfo) (env : Env) (localAddr : XiaPath) (copies : List Packet),
    d.base = base → d.nextSeqnum = next → d.numRetransmitTries < maxRetransmitTries →
    d.resend env localAddr = .ok (d', copies) → List.Forall₂ IsCopy copies d.outstanding

/-- The window does not wrap; an ACK inside it is below 2³¹ or acknowledges nothing, and an ACK
outside of it is not above `base` as an `int`. -/
def CountersFit (base next ack : UInt32) : Prop :=
  base ≤ next ∧ (ack - base ≤ next - base → ack = base ∨ ack.toNat < 2 ^ 31) ∧
    (¬ ack - base ≤ next - base → toInt ack ≤ toInt base)

/-! ### Conversions -/

theorem toInt_eq (n : UInt32) :
    toInt n = if n.toNat < 2 ^ 31 then (n.toNat : Int) else n.toNat - 2 ^ 32 := by
  have hlt := n.toNat_lt
  unfold toInt
  rw [← Int32.toInt_toBitVec, UInt32.toBitVec_toInt32, BitVec.toInt_eq_toNat_cond]
  simp only [UInt32.toNat_toBitVec]
  split_ifs <;> omega

theorem toNat_sub (a b : UInt32) : (a - b).toNat = if b.toNat ≤ a.toNat then a.toNat - b.toNat
      else 2 ^ 32 + a.toNat - b.toNat := by
  have ha := a.toNat_lt
  have hb := b.toNat_lt
  rw [UInt32.toNat_sub]
  split_ifs <;> omega

variable {base next ack n : UInt32}

theorem acknowledged_iff (hle : base ≤ next) : Acknowledged base next ack n ↔
      base.toNat ≤ n.toNat ∧ n.toNat < ack.toNat ∧ ack.toNat ≤ next.toNat := by
  have hb := base.toNat_lt
  have hn := next.toNat_lt
  have ha := ack.toNat_lt
  have hk := n.toNat_lt
  rw [UInt32.le_iff_toNat_le] at hle
  unfold Acknowledged
  rw [UInt32.le_iff_toNat_le, UInt32.lt_iff_toNat_lt, toNat_sub, toNat_sub, toNat_sub]
  constructor
  · rintro ⟨hwin, hbefore⟩
    split_ifs at hwin hbefore <;> omega
  · rintro ⟨h₁, h₂, h₃⟩
    split_ifs <;> omega

theorem inWindow_iff (hle : base ≤ next) :
    ack - base ≤ next - base ↔ base.toNat ≤ ack.toNat ∧ ack.toNat ≤ next.toNat := by
  have hb := base.toNat_lt
  have hn := next.toNat_lt
  have ha := ack.toNat_lt
  rw [UInt32.le_iff_toNat_le] at hle ⊢
  rw [toNat_sub, toNat_sub]
  split_ifs <;> omega

/-! ### The retransmission loop -/

theorem held_eq_outstanding {d : DagInfo} (hle : d.base ≤ d.nextSeqnum) :
    d.held = d.outstanding := by
  have hn := d.nextSeqnum.toNat_lt
  rw [UInt32.le_iff_toNat_le] at hle
  have hlen : (d.nextSeqnum - d.base).toNat = d.nextSeqnum.toNat - d.base.toNat := by
    rw [toNat_sub, if_pos hle]
  unfold held heldFrom outstanding
  rw [hlen, range'_eq_map_range, filterMap_map]
  apply filterMap_congr
  intro k hk
  rw [mem_range] at hk
  have hnum : (d.base + UInt32.ofNat k).toNat = d.base.toNat + k := by
    rw [UInt32.toNat_add, UInt32.toNat_ofNat_of_lt' (show k < 2 ^ 32 by omega)]
    omega
  show d.sentPkt _ = d.sentPkt _
  rw [sendSlot, hnum]

theorem resend_isCopy {d d' : DagInfo} {env : Env} {localAddr : XiaPath} {copies : List Packet}
    (hle : d.base ≤ d.nextSeqnum) (htries : d.numRetransmitTries < maxRetransmitTries)
    (h : d.resend env localAddr = .ok (d', copies)) : List.Forall₂ IsCopy copies d.outstanding := by
  unfold resend at h
  rw [if_pos htries] at h
  obtain ⟨path, -, -, hcopies⟩ := retransmit_eq_ok h
  rw [← held_eq_outstanding hle]
  exact hcopies

/-- A socket with the given counters, whose ring is full. -/
def full (base next : UInt32) (p : Packet) : DagInfo :=
  { DagInfo.zero with base, nextSeqnum := next, sentPkt := fun _ => some p }

theorem not_resends_of_wrap {p : Packet} (hlt : next < base) (env : Env) (localAddr : XiaPath) :
    (full base next p).resend env localAddr = .ok (full base next p, []) ∧
      (full base next p).outstanding ≠ [] := by
  have hb := base.toNat_lt
  rw [UInt32.lt_iff_toNat_lt] at hlt
  constructor
  · have htries : (full base next p).numRetransmitTries < maxRetransmitTries := by
      show (0 : Int) < maxRetransmitTries
      decide
    unfold resend
    rw [if_pos htries]
    have hzero : (full base next p).nextSeqnum.toNat - (full base next p).base.toNat = 0 := by
      show next.toNat - base.toNat = 0
      omega
    rw [hzero, retransmit]
  · have hpos : 0 < (next - base).toNat := by
      rw [toNat_sub]
      split_ifs <;> omega
    intro hnil
    have hmem : p ∈ (full base next p).outstanding := by
      unfold outstanding
      rw [mem_filterMap]
      exact ⟨0, mem_range.2 hpos, rfl⟩
    rw [hnil] at hmem
    cases hmem

/-! ### The ACK loop -/

/-- The ACK empties exactly the acknowledged slots of every ring. -/
def ClearsExactly (base next ack : UInt32) : Prop :=
  ∀ ring, ∃ ring', clearAcked (toInt ack - toInt base).toNat (toInt base) ring = .ok ring' ∧
    Emptied base next ack ring ring'

theorem clearsExactly_of_le (hle : toInt ack ≤ toInt base)
    (hnone : ∀ n, ¬ Acknowledged base next ack n) : ClearsExactly base next ack := by
  intro ring
  have hzero : (toInt ack - toInt base).toNat = 0 := by omega
  rw [hzero]
  exact ⟨ring, rfl, fun n hn => absurd hn (hnone n), fun _ _ => rfl⟩

/-- Below 2³¹ the `int` of the loop runs through the acknowledged numbers. -/
theorem clearsExactly_of_lt (hle : base ≤ next) (hlo : base.toNat ≤ ack.toNat)
    (hhi : ack.toNat ≤ next.toNat) (hsmall : ack.toNat < 2 ^ 31) :
    ClearsExactly base next ack := by
  have hbase : toInt base = base.toNat := by rw [toInt_eq, if_pos (by omega)]
  have hack : toInt ack = ack.toNat := by rw [toInt_eq, if_pos hsmall]
  have hcount : (toInt ack - toInt base).toNat = ack.toNat - base.toNat := by
    rw [hack, hbase]
    omega
  -- the remainder of a number that is not negative is the usual one
  have hmod : ∀ k : Nat, (toInt base + k).tmod maxWinSize = ((base.toNat + k) % 100 : Nat) := by
    intro k
    rw [hbase, Int.tmod_eq_emod_of_nonneg (by omega)]
    rfl
  have hslot : ∀ k : Nat, slotOf (toInt base + k) = Fin.ofNat maxWinSize (base.toNat + k) := by
    intro k
    unfold slotOf
    rw [hmod, Int.toNat_natCast, Fin.ext_iff]
    simp
  intro ring
  refine ⟨fun slot => if ∃ k < ack.toNat - base.toNat, slotOf (toInt base + k) = slot then none
    else ring slot, ?_, ?_, ?_⟩
  · rw [hcount, clearAcked_eq_ok]
    refine ⟨fun k _ => ?_, fun slot => rfl⟩
    rw [hmod]
    omega
  · intro n hn
    obtain ⟨h₁, h₂, -⟩ := (acknowledged_iff hle).1 hn
    have hwalk : ∃ k < ack.toNat - base.toNat, slotOf (toInt base + (k : Nat)) = sendSlot n := by
      refine ⟨n.toNat - base.toNat, by omega, ?_⟩
      rw [hslot, show base.toNat + (n.toNat - base.toNat) = n.toNat by omega]
      rfl
    exact if_pos hwalk
  · intro k hk
    apply if_neg
    rintro ⟨j, hj, rfl⟩
    have hlt : base.toNat + j < 2 ^ 32 := by
      have := ack.toNat_lt
      omega
    have hnum : (UInt32.ofNat (base.toNat + j)).toNat = base.toNat + j :=
      UInt32.toNat_ofNat_of_lt' hlt
    refine hk (UInt32.ofNat (base.toNat + j)) ((acknowledged_iff hle).2 ?_) ?_
    · rw [hnum]
      omega
    · rw [hslot, sendSlot, hnum]

/-- On a full ring a loop that runs empties the slot of its first number, so that one belongs to an
acknowledged packet. -/
theorem ClearsExactly.first (h : ClearsExactly base next ack) (hlt : toInt base < toInt ack) :
    0 ≤ (toInt base).tmod maxWinSize ∧
      ∃ n, Acknowledged base next ack n ∧ sendSlot n = slotOf (toInt base) := by
  have hpos : 0 < (toInt ack - toInt base).toNat := by omega
  obtain ⟨ring', hring, hempty⟩ := h fun _ => some ⟨0, 0, 0, 0, 0, [], [], []⟩
  obtain ⟨hbound, hslots⟩ := clearAcked_eq_ok.1 hring
  have hnone : ring' (slotOf (toInt base)) = none := by
    rw [hslots, if_pos ⟨0, hpos, by simp⟩]
  refine ⟨by simpa using hbound 0 hpos, ?_⟩
  by_contra hno
  have hkept := hempty.other (slotOf (toInt base)) fun n hn heq => hno ⟨n, hn, heq⟩
  rw [hnone] at hkept
  cases hkept

theorem ClearsExactly.none_of_le (h : ClearsExactly base next ack) (hle : toInt ack ≤ toInt base)
    (n : UInt32) : ¬ Acknowledged base next ack n := by
  intro hn
  obtain ⟨ring', hring, hempty⟩ := h fun _ => some ⟨0, 0, 0, 0, 0, [], [], []⟩
  have hzero : (toInt ack - toInt base).toNat = 0 := by omega
  rw [hzero, clearAcked] at hring
  cases hring
  cases hempty.acknowledged n hn

/-- The remainder of a negative number is negative, unless the number is a multiple of the
divisor. -/
theorem tmod_neg {i : Int} (hi : i < 0) : i.tmod maxWinSize = -((-i) % 100) := by
  rw [show i = -(-i) by omega, Int.neg_tmod, Int.tmod_eq_emod_of_nonneg (by omega), neg_neg]
  rfl

theorem ClearsExactly.lt_of_ne (hle : base ≤ next) (h : ClearsExactly base next ack)
    (hlo : base.toNat ≤ ack.toNat) (hhi : ack.toNat ≤ next.toNat) (hne : ack ≠ base) :
    ack.toNat < 2 ^ 31 := by
  have hb := base.toNat_lt
  have ha := ack.toNat_lt
  have hne' : ack.toNat ≠ base.toNat := fun heq => hne (UInt32.toNat_inj.1 heq)
  by_contra hbig
  have hack : toInt ack = ack.toNat - 2 ^ 32 := by rw [toInt_eq, if_neg hbig]
  by_cases hsmall : base.toNat < 2 ^ 31
  -- the ACK is negative as an `int`, so the loop does not run
  · have hbase : toInt base = base.toNat := by rw [toInt_eq, if_pos hsmall]
    exact h.none_of_le (by omega) base ((acknowledged_iff hle).2 (by omega))
  · have hbase : toInt base = base.toNat - 2 ^ 32 := by rw [toInt_eq, if_neg hsmall]
    have hlt : toInt base < toInt ack := by omega
    obtain ⟨hzero, n, hn, hslot⟩ := h.first hlt
    obtain ⟨h₁, h₂, -⟩ := (acknowledged_iff hle).1 hn
    have hneg : toInt base < 0 := by omega
    rw [tmod_neg hneg] at hzero
    have hmult : (-toInt base) % 100 = 0 := by omega
    have hslot0 : n.toNat % 100 = 0 := by
      have heq : slotOf (toInt base) = 0 := by
        unfold slotOf
        rw [tmod_neg hneg, hmult]
        rfl
      rw [heq, sendSlot, Fin.ext_iff] at hslot
      simpa using hslot
    -- a second iteration would leave the array
    have hone : toInt ack = toInt base + 1 := by
      by_contra hmore
      obtain ⟨ring', hring, -⟩ := h fun _ => none
      have hbound := (clearAcked_eq_ok.1 hring).1 1 (by omega)
      rw [Nat.cast_one] at hbound
      have hneg' : toInt base + 1 < 0 := by omega
      rw [tmod_neg hneg'] at hbound
      omega
    omega

theorem clearsExactly_iff (hle : base ≤ next) : ClearsExactly base next ack ↔
    (ack - base ≤ next - base → ack = base ∨ ack.toNat < 2 ^ 31) ∧
      (¬ ack - base ≤ next - base → toInt ack ≤ toInt base) := by
  constructor
  · intro h
    constructor
    · intro hwin
      obtain ⟨hlo, hhi⟩ := (inWindow_iff hle).1 hwin
      by_cases heq : ack = base
      · exact .inl heq
      · exact .inr (h.lt_of_ne hle hlo hhi heq)
    · intro hwin
      by_contra hlt
      obtain ⟨-, n, hn, -⟩ := h.first (by omega)
      exact hwin hn.1
  · rintro ⟨hin, hout⟩
    by_cases hwin : ack - base ≤ next - base
    · obtain ⟨hlo, hhi⟩ := (inWindow_iff hle).1 hwin
      rcases hin hwin with rfl | hsmall
      · refine clearsExactly_of_le le_rfl fun n hn => ?_
        obtain ⟨h₁, h₂, -⟩ := (acknowledged_iff hle).1 hn
        omega
      · exact clearsExactly_of_lt hle hlo hhi hsmall
    · exact clearsExactly_of_le (hout hwin) fun n hn => hwin hn.1

/-! ### The three together -/

theorem receiveAck_of_clearAcked {d : DagInfo} {ring : Fin maxWinSize → Option Packet} (now : Nat)
    (srcPath : XiaPath)
    (h : clearAcked (toInt ack - toInt d.base).toNat (toInt d.base) d.sentPkt = .ok ring) :
    ∃ d' reset, d.receiveAck now srcPath ack = .ok (d', reset) ∧ d'.sentPkt = ring := by
  unfold receiveAck
  rw [h, Result.ok_bind]
  dsimp only
  split_ifs <;> exact ⟨_, _, rfl, rfl⟩

/-- **Sequence arithmetic**: the handlers use the ring correctly exactly if the counters fit,
however many packets are outstanding. -/
theorem safeAt_iff (base next ack : UInt32) : SafeAt base next ack ↔ CountersFit base next ack := by
  constructor
  · intro h
    have hle : base ≤ next := by
      by_contra hlt
      obtain ⟨hnil, hne⟩ := not_resends_of_wrap (p := ⟨0, 0, 0, 0, 0, [], [], []⟩)
        (UInt32.not_le.1 hlt) (.zero 0) .empty
      have hcopies := h.resends _ _ _ _ _ rfl rfl (show (0 : Int) < _ by decide) hnil
      cases hout : (full base next ⟨0, 0, 0, 0, 0, [], [], []⟩).outstanding with
      | nil => exact hne hout
      | cons p ps =>
        rw [hout] at hcopies
        cases hcopies
    refine ⟨hle, (clearsExactly_iff hle).1 fun ring => ?_⟩
    obtain ⟨d', reset, hack, hempty⟩ := h.acks
      { DagInfo.zero with base, nextSeqnum := next, sentPkt := ring } 0 .empty rfl rfl
    obtain ⟨ring', hring, -, rfl⟩ := receiveAck_eq_ok hack
    exact ⟨ring', hring, hempty⟩
  · rintro ⟨hle, hack⟩
    have hclears := (clearsExactly_iff hle).2 hack
    constructor
    · rintro d now srcPath rfl rfl
      obtain ⟨ring, hring, hempty⟩ := hclears d.sentPkt
      obtain ⟨d', reset, hok, rfl⟩ := receiveAck_of_clearAcked now srcPath hring
      exact ⟨d', reset, hok, hempty⟩
    · rintro d d' env localAddr copies rfl rfl htries h
      exact resend_isCopy hle htries h

/-- The packet with number 2³¹ is outstanding and is acknowledged: the slot is computed from a
negative number. -/
theorem not_safeAt_above_sign : ((0x80000001 : UInt32) - 0x80000000).toNat ≤ maxWinSize ∧
      { DagInfo.zero with base := 0x80000000, nextSeqnum := 0x80000001 }.receiveAck 0 .empty
        0x80000001 = .error .outOfBounds ∧
      ¬ SafeAt 0x80000000 0x80000001 0x80000001 := by
  have herr : { DagInfo.zero with base := 0x80000000, nextSeqnum := 0x80000001 }.receiveAck 0
      .empty 0x80000001 = .error .outOfBounds := rfl
  refine ⟨by decide, herr, fun h => ?_⟩
  obtain ⟨d', reset, hok, -⟩ := h.acks
    { DagInfo.zero with base := 0x80000000, nextSeqnum := 0x80000001 } 0 .empty rfl rfl
  rw [herr] at hok
  cases hok

end DagInfo

end Xia
