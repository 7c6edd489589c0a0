import Xia.Transport.Equiv.Stream

/-!
# Tearing a socket down

`Xclose` marks a socket and the timer removes it later.  The removal takes the socket's own XID
out of `XIDtoPort` and out of the route table, whoever is filed there.

`removed_iff` says which sockets a tick removes, and `bound_after_teardown` when another
socket's binding survives.
-/

namespace Xia

open Option AList

/-- A tick at `now` removes the socket. -/
def DagInfo.removable (now : Nat) (d : DagInfo) : Bool :=
  d.timerOn && !(d.synackWaiting && d.expiry ≤ now) && !(d.dataackWaiting && d.expiry ≤ now) &&
    (d.teardownWaiting && d.teardownExpiry ≤ now)

theorem DagInfo.removable_iff {now : Nat} {d : DagInfo} :
    d.removable now = true ↔ d.timerOn ∧ ¬ (d.synackWaiting ∧ d.expiry ≤ now) ∧
      ¬ (d.dataackWaiting ∧ d.expiry ≤ now) ∧ d.teardownWaiting ∧ d.teardownExpiry ≤ now := by
  simp only [removable, Bool.and_eq_true, Bool.not_eq_true', ← Bool.not_eq_true,
    decide_eq_true_eq, and_assoc]

theorem DagInfo.Visited.eq_none_iff {env : Env} {localAddr : XiaPath} {d : DagInfo}
    {d' : Option DagInfo} {o : List Output} (h : DagInfo.Visited env localAddr d d' o) :
    d' = none ↔ d.removable env.now = true := by
  rw [DagInfo.removable_iff]
  cases h with
  | removed h =>
    cases h with
    | tearDown hon hsyn hdata htear hdue =>
      exact ⟨fun _ => ⟨hon, hsyn, hdata, htear, hdue⟩, fun _ => rfl⟩
  | kept h hcid =>
    refine ⟨fun h => (by cases h), ?_⟩
    rintro ⟨hon, hsyn, hdata, htear⟩
    cases h with
    | idle h => exact absurd htear (h hon).2.2
    | synResend path p q _ hw he => exact absurd ⟨hw, he⟩ hsyn
    | synGiveUp _ hw he => exact absurd ⟨hw, he⟩ hsyn
    | dataResend path copies _ _ hw he => exact absurd ⟨hw, he⟩ hdata
    | dataStop path _ _ hw he => exact absurd ⟨hw, he⟩ hdata

namespace XTransport

variable {env env' : Env} {s s₁ s₂ : XTransport} {o₁ o₂ : List Output} {p q : UInt16} {x : Xid}

def removedPorts (now : Nat) (s : XTransport) : List UInt16 :=
  s.portToDagInfo.keys.filter fun q => (s.portToDagInfo.lookup q).any (DagInfo.removable now)

theorem mem_removedPorts {now : Nat} : q ∈ s.removedPorts now ↔
      ∃ d, s.portToDagInfo.lookup q = some d ∧ d.removable now = true := by
  rw [removedPorts, List.mem_filter, any_eq_true]
  refine and_iff_right_of_imp ?_
  rintro ⟨d, hd, -⟩
  exact HashTable.mem_keys_iff.2 ⟨d, hd⟩

theorem removed_iff (h : s.runTimer env = .ok (s₁, o₁)) {d : DagInfo}
    (hd : s.portToDagInfo.lookup q = some d) :
    s₁.portToDagInfo.lookup q = none ↔ q ∈ s.removedPorts env.now := by
  obtain ⟨o, hv, -⟩ := runTimer_some h hd
  rw [hv.eq_none_iff, mem_removedPorts]
  simp [hd]

/-- Packets for `x` are routed to the host itself, and the element hands them to port `q`. -/
structure Bound (s : XTransport) (x : Xid) (q : UInt16) : Prop where
  filed : s.xidToPort.lookup x = some q
  routed : s.routes.lookup x = some destinedForLocalhost

instance : Decidable (s.Bound x q) :=
  decidable_of_iff (s.xidToPort.lookup x = some q ∧ s.routes.lookup x = some destinedForLocalhost)
    ⟨fun h => ⟨h.1, h.2⟩, fun h => ⟨h.1, h.2⟩⟩

/-- The removal of the socket leaves the binding of `x` alone: the socket is an accepted one, or its
own XID and the key of its route are different from `x`. -/
def Spares (d : DagInfo) (x : Xid) : Prop :=
  d.isAcceptSocket = true ∨ ∀ y, d.srcPath.destXid = .ok y → y ≠ x ∧ routeKey y ≠ some x

theorem unfiled_eq_some_iff {d : DagInfo} {y : Xid} :
    d.unfiled = some y ↔ d.isAcceptSocket = false ∧ d.srcPath.destXid = .ok y := by
  rw [DagInfo.unfiled]
  cases d.isAcceptSocket with
  | true => simp
  | false => cases d.srcPath.destXid <;> simp [Except.toOption]

/-- **When a binding survives a tick**: every socket that the tick removes spares it. -/
theorem bound_after_tick (h : s.runTimer env = .ok (s₁, o₁)) (hb : s.Bound x q) :
    s₁.Bound x q ↔ ∀ r ∈ s.removedPorts env.now, ∀ d, s.portToDagInfo.lookup r = some d →
      Spares d x := by
  have ht := runTimer_visits h
  have hremoved : ∀ r d, Removed s s₁ r d ↔
      r ∈ s.removedPorts env.now ∧ s.portToDagInfo.lookup r = some d :=
    fun r d => ⟨fun hr => ⟨(removed_iff h hr.1).1 hr.2, hr.1⟩,
      fun hr => ⟨hr.2, (removed_iff h hr.2).2 hr.1⟩⟩
  constructor
  · -- a removed socket with the name takes its entry in the table and its route along
    intro hb' r hr d hd
    have hgone : Removed s s₁ r d := (hremoved r d).2 ⟨hr, hd⟩
    rw [Spares, or_iff_not_imp_left]
    intro haccept y hy
    have hun : d.unfiled = some y := unfiled_eq_some_iff.2 ⟨by simpa using haccept, hy⟩
    constructor
    · rintro rfl
      have hnone := ht.unfiled r d y hgone hun
      rw [hb'.filed] at hnone
      cases hnone
    · intro hkey
      have hnone := ht.unrouted r d y x hgone hun hkey
      rw [hb'.routed] at hnone
      cases hnone
  · -- an entry that no removed socket names stays
    intro hcond
    have hkeep : ∀ r d y, Removed s s₁ r d → d.unfiled = some y → y ≠ x ∧ routeKey y ≠ some x := by
      intro r d y hgone hy
      obtain ⟨hr, hd⟩ := (hremoved r d).1 hgone
      obtain ⟨hno, hy⟩ := unfiled_eq_some_iff.1 hy
      exact (hcond r hr d hd).resolve_left (by simp [hno]) y hy
    constructor
    · rw [ht.filed x, hb.filed]
      exact fun r d hgone hun => (hkeep r d x hgone hun).1 rfl
    · rw [ht.routed x, hb.routed]
      exact fun r d y hgone hun => (hkeep r d y hgone hun).2

/-- **Closing a socket**: after `Xclose` of `p` and a tick that removes `p`, a socket `q` that the
tick does not remove is still there, and it keeps its binding to `x` exactly if the removed sockets,
`p` among them, are accepted ones or not named `x` themselves. -/
theorem bound_after_teardown (hclose : s.xclose env p = .ok (s₁, o₁))
    (htick : s₁.runTimer env' = .ok (s₂, o₂)) (hp : p ∈ s₁.removedPorts env'.now)
    (hq : q ∉ s₁.removedPorts env'.now) (hlive : (s.portToDagInfo.lookup q).isSome)
    (hb : s.Bound x q) :
    s₂.portToDagInfo.lookup p = none ∧ (s₂.portToDagInfo.lookup q).isSome ∧
      (s₂.Bound x q ↔ ∀ r ∈ s₁.removedPorts env'.now, ∀ d, s.portToDagInfo.lookup r = some d →
        Spares d x) := by
  obtain ⟨d₀, hd₀, ht, -, hfiled, hrouted, -⟩ := xclose_eq_ok hclose
  have hb₁ : s₁.Bound x q := ⟨by rw [hfiled, hb.filed], by rw [hrouted, hb.routed]⟩
  have hqp : q ≠ p := fun heq => hq (heq ▸ hp)
  obtain ⟨dq, hdq⟩ := isSome_iff_exists.1 hlive
  rw [← ht.other hqp] at hdq
  refine ⟨(removed_iff htick ht.self).2 hp, ?_, ?_⟩
  · rw [isSome_iff_ne_none, Ne, removed_iff htick hdq]
    exact hq
  · rw [bound_after_tick htick hb₁]
    refine forall₂_congr fun r _ => ?_
    -- `Xclose` changes the timer of `p` and no socket's name
    by_cases hr : r = p
    · subst hr
      rw [ht.self, hd₀]
      simp [Spares]
    · rw [ht.other hr]

/-- Two sockets with the names `SID:0a` and `SID:0b`. -/
def twoNames : XTransport :=
  Machine.last (step Sha1.zero) host [
    ⟨.zero 0, .xsocket 1 1⟩, ⟨.zero 0, .xbind 1 "RE SID:0a".toList⟩,
    ⟨.zero 0, .xsocket 2 1⟩, ⟨.zero 0, .xbind 2 "RE SID:0b".toList⟩]

/-- Closing one of them leaves the other bound. -/
theorem bound_after_teardown_twoNames : ∃ s₁ s₂ o₁ o₂,
    twoNames.xclose (.zero 0) 1 = .ok (s₁, o₁) ∧ s₁.runTimer (.zero 240000) = .ok (s₂, o₂) ∧
      s₂.portToDagInfo.lookup 1 = none ∧ s₂.Bound (Xid.sid 'b') 2 := by
  obtain ⟨s₁, o₁, hclose, hports, s₂, o₂, htick, -⟩ : ∃ s₁ o₁,
      twoNames.xclose (.zero 0) 1 = .ok (s₁, o₁) ∧ s₁.removedPorts 240000 = [1] ∧
      ∃ s₂ o₂, s₁.runTimer (.zero 240000) = .ok (s₂, o₂) ∧ True := by decide +kernel
  obtain ⟨d, hp, hname⟩ : ∃ d, twoNames.portToDagInfo.lookup 1 = some d ∧
      d.srcPath.destXid = .ok (Xid.sid 'a') := by decide +kernel
  obtain ⟨hgone, -, hiff⟩ := bound_after_teardown hclose htick
    (by rw [show (Env.zero 240000).now = 240000 from rfl, hports]; decide)
    (by rw [show (Env.zero 240000).now = 240000 from rfl, hports]; decide) (by decide +kernel)
    (by decide +kernel : twoNames.Bound (Xid.sid 'b') 2)
  refine ⟨s₁, s₂, o₁, o₂, hclose, htick, hgone, hiff.2 fun r hr d' hd' => .inr fun y hy => ?_⟩
  obtain rfl : r = 1 := by
    have hr' : r ∈ s₁.removedPorts 240000 := hr
    simpa [hports] using hr'
  rw [hp, Option.some.injEq] at hd'
  subst hd'
  obtain rfl : y = Xid.sid 'a' := Except.ok.inj (hy.symm.trans hname)
  decide +kernel

def oneName : XTransport :=
  Machine.last (step Sha1.zero) host [
    ⟨.zero 0, .xsocket 1 1⟩, ⟨.zero 0, .xbind 1 "RE SID:0a".toList⟩,
    ⟨.zero 0, .xsocket 2 1⟩, ⟨.zero 0, .xbind 2 "RE SID:0a".toList⟩]

/-- Closing the first of them unbinds the second, which stays open. -/
theorem not_bound_after_teardown_oneName : oneName.Bound (Xid.sid 'a') 2 ∧ ∃ s₁ s₂ o₁ o₂,
      oneName.xclose (.zero 0) 1 = .ok (s₁, o₁) ∧ s₁.runTimer (.zero 240000) = .ok (s₂, o₂) ∧
        s₁.removedPorts 240000 = [1] ∧ (s₂.portToDagInfo.lookup 2).isSome ∧
        s₂.xidToPort.lookup (Xid.sid 'a') = none ∧ s₂.routes.lookup (Xid.sid 'a') = none := by
  obtain ⟨s₁, o₁, hclose, s₂, o₂, htick, hports, hleft⟩ : ∃ s₁ o₁,
      oneName.xclose (.zero 0) 1 = .ok (s₁, o₁) ∧ ∃ s₂ o₂,
        s₁.runTimer (.zero 240000) = .ok (s₂, o₂) ∧ s₁.removedPorts 240000 = [1] ∧
        (s₂.portToDagInfo.lookup 2).isSome ∧ s₂.xidToPort.lookup (Xid.sid 'a') = none ∧
        s₂.routes.lookup (Xid.sid 'a') = none := by decide +kernel
  exact ⟨by decide +kernel, s₁, s₂, o₁, o₂, hclose, htick, hports, hleft⟩

end XTransport

end Xia
