import Xia.Equiv.Header
import Xia.Router.Equiv.Loop

/-!
# Forwarding

A packet is sent with `last = -1` and a header whose edges lead forward (`Ordered`).  Each time a
router finds a node to be its own, `XIANextHop` moves `last` along an edge; so `last` grows, in this
router and in those that the packet is forwarded to, until it is the index of the destination.

`Trail p n c` says that the packet can be in front of the element of `c` after `n` moves, whatever
the tables of the routers on its way.  `Travels p c` is the invariant; `Config.fuel` decreases with
every step in a router.  The result is `Packet.forwarding_sound`, for headers whose nodes can be
numbered with seven bits.
-/

namespace Xia

open List Option Result

open StateTransition

/-! ### What a table keeps -/

namespace RouteTable

variable {beyond : Nat → UInt8} {t table : RouteTable} {f g : Frame}

theorem lookupRoute_keeps {inEtherPort port : Int}
    (h : t.lookupRoute inEtherPort f = .ok (port, table, g)) :
    g.packet = f.packet ∧ g.nextPath = f.nextPath := by
  unfold lookupRoute at h
  obtain ⟨edge, -, h⟩ := bind_eq_ok.1 h
  split at h
  · cases h
    exact ⟨rfl, rfl⟩
  · obtain ⟨node, -, h⟩ := bind_eq_ok.1 h
    split at h
    · obtain ⟨sourceHid, -, h⟩ := bind_eq_ok.1 h
      split at h <;> cases h <;> exact ⟨rfl, rfl⟩
    · cases h
      unfold noteNexthop
      split <;> exact ⟨rfl, rfl⟩

theorem push_keeps {outs : List (Nat × Frame)} (h : t.push beyond f = .ok (table, outs)) {i : Nat}
    (hmem : (i, g) ∈ outs) : g.packet = f.packet ∧ g.nextPath = f.nextPath := by
  unfold push at h
  dsimp only at h
  split at h
  · cases h
    cases mem_singleton.1 hmem
    exact ⟨rfl, rfl⟩
  · split at h
    · cases h
      cases hmem
    · obtain ⟨⟨port, table', f'⟩, hlookup, h⟩ := bind_eq_ok.1 h
      cases h
      rw [← (lookupRoute_keeps hlookup).1, ← (lookupRoute_keeps hlookup).2]
      rcases mem_append.1 hmem with hclone | hsent
      · unfold redirectClone at hclone
        split at hclone
        · cases mem_singleton.1 hclone
          exact ⟨rfl, rfl⟩
        · cases hclone
      · unfold dispatch at hsent
        split_ifs at hsent
        on_goal 4 =>
          obtain ⟨j, -, hj⟩ := List.mem_map.1 hsent
          cases hj
          exact ⟨rfl, rfl⟩
        all_goals
          cases mem_singleton.1 hsent
          exact ⟨rfl, rfl⟩

end RouteTable

/-! ### The invariant -/

/-- How far the packet has come: 0 at the source, and the index of the current node plus one. -/
def Packet.rank (q : Packet) : Nat := (q.last.toInt + 1).toNat

/-- The packet is at the source or at a node before the destination. -/
def Packet.Underway (q : Packet) : Prop :=
  q.last.toInt = -1 ∨ 0 ≤ q.last.toInt ∧ q.last.toInt + 1 < q.dnode.length

def Frame.HasEdge (f : Frame) : Prop :=
  f.nextPath.toNat < xidEdgeNum ∧
    ∃ v, f.packet.edgeTarget f.packet.lastIndex.toNat f.nextPath.toNat = some v

/-- What holds in front of an element. -/
def Stage.Holds (f : Frame) : Stage → Prop
  | .firstPath => f.packet.Underway
  | .nextPath | .classifier => f.packet.Underway ∧ f.nextPath.toNat < xidEdgeNum
  | .routeTable _ | .nextHop _ => f.packet.Underway ∧ f.HasEdge
  | .checkDest => 0 ≤ f.packet.last.toInt ∧ f.packet.last.toInt < f.packet.dnode.length

structure Travels (p : Packet) (c : Config) : Prop where
  links : c.frame.packet.links = p.links
  holds : c.stage.Holds c.frame

/-- The edges of a header lead forward, and its nodes can be numbered. -/
structure Packet.Forward (p : Packet) : Prop where
  pos : 0 < p.dnode.length
  forward : ∀ u k v, p.edgeTarget u k = some v → u + 1 < p.dnode.length → u < v

variable {p q : Packet} {f : Frame}

theorem Packet.Forward.congr (hp : p.Forward) (h : q.links = p.links) : q.Forward := by
  obtain ⟨hpos, hforward⟩ := hp
  rw [← edgeTarget_congr h] at hforward
  rw [← length_dnode_congr h] at hpos hforward
  exact ⟨hpos, hforward⟩

theorem Packet.Underway.lastIndex (h : q.Underway) (hpos : 0 < q.dnode.length) :
    ∃ u : Nat, q.lastIndex = u ∧ u < q.dnode.length ∧
      (q.rank = 0 ∧ u + 1 = q.dnode.length ∨ q.rank = u + 1 ∧ u + 1 < q.dnode.length) := by
  unfold Packet.lastIndex Packet.rank
  rcases h with hsource | ⟨h₀, hlt⟩
  · refine ⟨q.dnode.length - 1, ?_, Nat.sub_lt hpos Nat.one_pos, .inl ⟨by omega, by omega⟩⟩
    rw [hsource, if_pos (by decide)]
    omega
  · refine ⟨q.last.toInt.toNat, ?_, by omega, .inr ⟨by omega, by omega⟩⟩
    rw [if_neg (by omega)]
    omega

theorem Packet.Underway.on (h : f.packet.Underway) (hpos : 0 < f.packet.dnode.length) :
    ∃ u, f.On u ∧ (f.packet.rank = 0 ∧ u + 1 = f.packet.dnode.length ∨
      f.packet.rank = u + 1 ∧ u + 1 < f.packet.dnode.length) := by
  obtain ⟨u, hlast, hu, hrank⟩ := h.lastIndex hpos
  refine ⟨u, ⟨hlast, ?_, hpos⟩, hrank⟩
  rw [Packet.nodeList, length_append]
  exact Nat.lt_add_right _ hu

/-- **`XIANextHop` follows an edge and moves `last` forward.** -/
theorem nextHop_forward (hp : f.packet.Forward) (h : f.packet.Underway) (hedge : f.HasEdge) :
    ∃ g v, nextHop f = .ok g ∧
      f.packet.edgeTarget f.packet.lastIndex.toNat f.nextPath.toNat = some v ∧
      g.packet.last.toInt = v ∧ f.packet.last.toInt < v ∧ v < f.packet.dnode.length ∧
      g.packet.links = f.packet.links := by
  obtain ⟨hlt, v, hv⟩ := hedge
  obtain ⟨u, hon, hrank⟩ := h.on hp.pos
  rw [hon.last, Int.toNat_natCast] at hv ⊢
  obtain ⟨g, hhop, -, hlinks, -, hlast'⟩ := nextHop_eq ⟨hon, rfl, hlt⟩ hv
  refine ⟨g, v, hhop, hv, hlast', ?_, Packet.edgeTarget_lt hv, hlinks⟩
  have hforward := hp.forward u _ v hv
  unfold Packet.rank at hrank
  omega

/-! ### The steps -/

/-- The moves that the step of an element makes. -/
def Config.advances (c : Config) : Nat :=
  match c.stage with
  | .nextHop _ => 1
  | _ => 0

/-- The steps that are left at most. -/
def Config.fuel (c : Config) : Nat :=
  20 * (c.frame.packet.dnode.length - c.frame.packet.rank) +
    match c.stage with
    | .checkDest => 17
    | .firstPath => 16
    | .classifier => 15 - 3 * c.frame.nextPath.toNat
    | .routeTable _ => 14 - 3 * c.frame.nextPath.toNat
    | .nextPath => 13 - 3 * c.frame.nextPath.toNat
    | .nextHop _ => 1

variable {beyond : Nat → UInt8} {c : Config} {s : Step} {d : Stage × Frame}

theorem tableNext_eq_some {t : Principal} {i : Nat} (h : tableNext t (i, f) = some d) :
    d = (.nextHop t, f) ∨ d = (.nextPath, f) := by
  unfold tableNext at h
  split at h
  · rename_i heq
    cases heq
    exact .inl (Option.some.inj h).symm
  · rename_i heq
    cases heq
    exact .inr (Option.some.inj h).symm
  · cases h

/-- What a step from `c` to `d` does: it keeps the invariant, uses fuel and counts its moves. -/
structure Progress (p : Packet) (c d : Config) : Prop where
  travels : Travels p d
  fuel : d.fuel < c.fuel
  rank : c.frame.packet.rank + c.advances ≤ d.frame.packet.rank

section Stages

variable {r : Router}

theorem progress_nextPath (h : Travels p ⟨r, .nextPath, f⟩)
    (hstep : Config.step beyond ⟨r, .nextPath, f⟩ = .ok s) (hnext : s.next = some d) :
    Progress p ⟨r, .nextPath, f⟩ ⟨s.router, d.1, d.2⟩ := by
  obtain ⟨hlinks, hway, -⟩ := h
  simp only [Config.step, selectNext] at hstep
  split at hstep
  · rename_i f' hselect
    obtain ⟨rfl, hlt⟩ := Prod.mk.inj hselect
    cases hstep
    cases hnext
    have hlt := of_decide_eq_true hlt
    have hpath : (UInt8.ofNat (f.nextPath.toNat + 1)).toNat = f.nextPath.toNat + 1 :=
      UInt8.toNat_ofNat_of_lt (hlt.trans (by decide))
    refine ⟨⟨hlinks, hway, hpath.trans_lt hlt⟩, ?_, le_rfl⟩
    unfold xidEdgeNum at hlt
    simp only [Config.fuel, hpath]
    omega
  · cases hstep
    cases hnext

theorem progress_classifier (hp : p.Forward) (h : Travels p ⟨r, .classifier, f⟩)
    (hstep : Config.step beyond ⟨r, .classifier, f⟩ = .ok s) (hnext : s.next = some d) :
    Progress p ⟨r, .classifier, f⟩ ⟨s.router, d.1, d.2⟩ := by
  obtain ⟨hlinks, hway, hlt⟩ := h
  obtain ⟨u, hon, -⟩ := hway.on (hp.congr hlinks).pos
  rw [step_classifier beyond r ⟨hon, rfl, hlt⟩] at hstep
  split at hstep
  · rename_i t ht
    cases hstep
    cases hnext
    obtain ⟨x, hx, -⟩ := bind_eq_some_iff.1 ht
    obtain ⟨v, hv⟩ := Packet.exists_edgeTarget hx
    refine ⟨⟨hlinks, hway, hlt, v, ?_⟩, ?_, le_rfl⟩
    · rw [hon.last, Int.toNat_natCast]
      exact hv
    · dsimp only at hlt
      unfold xidEdgeNum at hlt
      simp only [Config.fuel]
      omega
  · cases hstep
    cases hnext

theorem progress_routeTable {t : Principal} (h : Travels p ⟨r, .routeTable t, f⟩)
    (hstep : Config.step beyond ⟨r, .routeTable t, f⟩ = .ok s) (hnext : s.next = some d) :
    Progress p ⟨r, .routeTable t, f⟩ ⟨s.router, d.1, d.2⟩ := by
  obtain ⟨hlinks, hway, hedge⟩ := h
  dsimp only at hlinks hway hedge
  obtain ⟨⟨table, outs⟩, hpush, hstep⟩ := bind_eq_ok.1 hstep
  cases hstep
  obtain ⟨⟨i, g⟩, hmem, hq⟩ := exists_of_findSome?_eq_some hnext
  obtain ⟨hpacket, hpath⟩ := RouteTable.push_keeps hpush hmem
  have hholds : g.packet.Underway ∧ g.HasEdge := by
    unfold Frame.HasEdge
    rw [hpacket, hpath]
    exact ⟨hway, hedge⟩
  have hlt := hedge.1
  unfold xidEdgeNum at hlt
  obtain rfl | rfl := tableNext_eq_some hq
  · refine ⟨⟨hpacket ▸ hlinks, hholds⟩, ?_, (congrArg Packet.rank hpacket).ge⟩
    simp only [Config.fuel, hpacket]
    omega
  · refine ⟨⟨hpacket ▸ hlinks, hholds.1, hholds.2.1⟩, ?_, (congrArg Packet.rank hpacket).ge⟩
    simp only [Config.fuel, hpacket, hpath]
    omega

/-- The move along the edge: it counts once, and pays for the paths of the new node. -/
theorem progress_nextHop (hp : p.Forward) {t : Principal} (h : Travels p ⟨r, .nextHop t, f⟩)
    (hstep : Config.step beyond ⟨r, .nextHop t, f⟩ = .ok s) (hnext : s.next = some d) :
    Progress p ⟨r, .nextHop t, f⟩ ⟨s.router, d.1, d.2⟩ := by
  obtain ⟨hlinks, hway, hedge⟩ := h
  obtain ⟨g, v, hhop, -, hlast, hgt, hv, hlinks'⟩ := nextHop_forward (hp.congr hlinks) hway hedge
  simp only [Config.step, hhop, ok_bind] at hstep
  split at hstep
  · cases hstep
    cases hnext
  · cases hstep
    cases hnext
    have hlength := Packet.length_dnode_congr hlinks'
    dsimp only at hgt hv hlength
    refine ⟨⟨hlinks'.trans hlinks, ?_, ?_⟩, ?_, ?_⟩
    · change 0 ≤ g.packet.last.toInt
      omega
    · change g.packet.last.toInt < g.packet.dnode.length
      omega
    · simp only [Config.fuel, Packet.rank]
      omega
    · simp only [Config.advances, Packet.rank]
      omega

theorem progress_checkDest (h : Travels p ⟨r, .checkDest, f⟩)
    (hstep : Config.step beyond ⟨r, .checkDest, f⟩ = .ok s) (hnext : s.next = some d) :
    Progress p ⟨r, .checkDest, f⟩ ⟨s.router, d.1, d.2⟩ := by
  obtain ⟨hlinks, h₀, hlt⟩ := h
  simp only [Config.step] at hstep
  split at hstep
  · cases hstep
    cases hnext
  · rename_i hdest
    cases hstep
    cases hnext
    have hne : ¬ f.packet.last.toInt = (f.packet.dnode.length : Int) - 1 := by
      simpa [checkDest] using hdest
    refine ⟨⟨hlinks, .inr ⟨h₀, ?_⟩⟩, ?_, le_rfl⟩
    · change f.packet.last.toInt + 1 < f.packet.dnode.length
      dsimp only at hlt
      omega
    · simp [Config.fuel]

end Stages

/-- **Every step in a router makes progress.** -/
theorem Travels.step (hp : p.Forward) (h : Travels p c) (hstep : c.step beyond = .ok s)
    (hnext : s.next = some d) : Progress p c ⟨s.router, d.1, d.2⟩ := by
  obtain ⟨r, stage, f⟩ := c
  cases stage with
  | firstPath =>
    cases hstep
    cases hnext
    refine ⟨⟨h.links, h.holds, Nat.zero_lt_succ _⟩, ?_, le_rfl⟩
    simp [Config.fuel, selectFirst]
  | nextPath => exact progress_nextPath h hstep hnext
  | classifier => exact progress_classifier hp h hstep hnext
  | routeTable t => exact progress_routeTable h hstep hnext
  | nextHop t => exact progress_nextHop hp h hstep hnext
  | checkDest => exact progress_checkDest h hstep hnext

theorem tableExit_forward {t : Principal} {i : Nat} {g : Frame}
    (h : tableExit t (i, f) = some (.forward, g)) :
    ∃ hlim, g.packet = { f.packet with hlim := hlim } := by
  unfold tableExit at h
  split at h
  · rename_i heq
    cases heq
    unfold postRoute decHlim at h
    split_ifs at h
    · cases h
    · cases h
      exact ⟨_, rfl⟩
  · split_ifs at h <;> cases h
  · cases h
  · cases h

theorem Travels.forward (h : Travels p c) {g : Frame} (hstep : c.step beyond = .ok s)
    (hout : (.forward, g) ∈ s.out) :
    g.packet.links = p.links ∧ g.packet.Underway ∧ g.packet.rank = c.frame.packet.rank := by
  obtain ⟨hlinks, hholds⟩ := h
  have hexit := Config.mem_out hstep hout
  cases hstage : c.stage <;> rw [hstage] at hexit hholds
  case routeTable t =>
    obtain ⟨table, outs, ⟨i, g'⟩, hpush, hmem, hexit⟩ := hexit
    obtain ⟨hpacket, -⟩ := RouteTable.push_keeps hpush hmem
    obtain ⟨hlim, hsame⟩ := tableExit_forward hexit
    rw [hsame, hpacket]
    exact ⟨hlinks, hholds.1, rfl⟩
  case firstPath => exact hexit.elim
  all_goals cases hexit.1

/-! ### The way of a packet -/

/-- A packet `p` can be in front of the element of `c` after `n` moves: it enters a router, goes
from element to element, and is forwarded to the next router. -/
inductive Trail (beyond : Nat → UInt8) (p : Packet) : Nat → Config → Prop
  | enter (r : Router) (f : Frame) : f.packet = p → Trail beyond p 0 (r.start f)
  | step {n : Nat} {c : Config} {s : Step} {d : Stage × Frame} : Trail beyond p n c →
    c.step beyond = .ok s → s.next = some d → Trail beyond p (n + c.advances) ⟨s.router, d.1, d.2⟩
  | forward {n : Nat} {c : Config} {s : Step} {g : Frame} (r : Router) (f : Frame) :
    Trail beyond p n c → c.step beyond = .ok s → (.forward, g) ∈ s.out → f.packet = g.packet →
    Trail beyond p n (r.start f)

variable {n : Nat} {stage : Stage}

/-- **The invariant holds on the whole way**, and `last` counts the moves. -/
theorem Trail.travels (hp : p.Forward) (hlast : p.last = -1) (h : Trail beyond p n c) :
    Travels p c ∧ n ≤ c.frame.packet.rank := by
  induction h with
  | enter r f hf =>
    refine ⟨⟨congrArg Packet.links hf, .inl ?_⟩, Nat.zero_le _⟩
    change f.packet.last.toInt = -1
    rw [hf, hlast]
    decide
  | step _ hstep hnext ih =>
    obtain ⟨htravels, hcount⟩ := ih
    obtain ⟨htravels', -, hrank⟩ := htravels.step hp hstep hnext
    exact ⟨htravels', (Nat.add_le_add_right hcount _).trans hrank⟩
  | forward r f _ hstep hout hf ih =>
    obtain ⟨htravels, hcount⟩ := ih
    obtain ⟨hlinks, hway, hrank⟩ := htravels.forward hstep hout
    rw [← hf] at hlinks hway hrank
    exact ⟨⟨hlinks, hway⟩, hrank ▸ hcount⟩

theorem Travels.dom (hp : p.Forward) (h : Travels p c) : (eval (Config.next beyond) c).Dom := by
  refine Orbit.dom_of_measure (P := Travels p) Config.fuel (fun x y hx hy => ?_) h
  unfold Config.next at hy
  split at hy
  · rename_i s hstep
    obtain ⟨d, hd, rfl⟩ := map_eq_some_iff.1 hy
    obtain ⟨htravels, hfuel, -⟩ := hx.step hp hstep hd
    exact ⟨htravels, hfuel⟩
  · cases hy

/-- Only `XIANextHop` brings a packet in front of `XIACheckDest`. -/
theorem stage_of_next_checkDest (hstep : c.step beyond = .ok s) (hnext : s.next = some d)
    (hd : d.1 = .checkDest) : ∃ t, c.stage = .nextHop t := by
  obtain ⟨r, stage, f⟩ := c
  cases stage with
  | nextHop t => exact ⟨t, rfl⟩
  | firstPath =>
    cases hstep
    cases hnext
    cases hd
  | nextPath =>
    simp only [Config.step] at hstep
    split at hstep <;> cases hstep <;> cases hnext
    cases hd
  | classifier =>
    obtain ⟨o, -, hstep⟩ := bind_eq_ok.1 hstep
    dsimp only at hstep
    split at hstep
    · cases hstep
      cases hnext
    · split at hstep <;> cases hstep <;> cases hnext
      cases hd
  | routeTable t =>
    obtain ⟨⟨table, outs⟩, -, hstep⟩ := bind_eq_ok.1 hstep
    cases hstep
    obtain ⟨⟨i, g⟩, -, hq⟩ := exists_of_findSome?_eq_some hnext
    obtain rfl | rfl := tableNext_eq_some hq <;> cases hd
  | checkDest =>
    simp only [Config.step] at hstep
    split at hstep <;> cases hstep <;> cases hnext
    cases hd

theorem Trail.before_checkDest (h : Trail beyond p n c) (hc : c.stage = .checkDest) :
    ∃ m d t, Trail beyond p m d ∧ d.stage = .nextHop t ∧ d.next beyond = some c := by
  cases h with
  | enter r f hf => cases hc
  | forward r f _ hstep hout hf => cases hc
  | step htrail hstep hnext =>
    obtain ⟨t, ht⟩ := stage_of_next_checkDest hstep hnext hc
    refine ⟨_, _, t, htrail, ht, ?_⟩
    rw [Config.next_of_step hstep, hnext]
    rfl

theorem Stage.Holds.underway (h : stage.Holds f) (hc : stage ≠ .checkDest) : f.packet.Underway := by
  cases stage with
  | firstPath => exact h
  | checkDest => exact absurd rfl hc
  | _ => exact h.1

/-- What forwarding guarantees in front of an element: where `last` is, that `XIANextHop` follows an
edge forward, how many moves there are, that a packet arrives behind such a move only, at the
destination or at a service, and that the loop of the router ends. -/
structure Sound (beyond : Nat → UInt8) (p : Packet) (n : Nat) (c : Config) : Prop where
  last : c.frame.packet.last.toInt = -1 ∨
    0 ≤ c.frame.packet.last.toInt ∧ c.frame.packet.last.toInt < p.dnode.length
  hop : ∀ t, c.stage = .nextHop t → ∃ g v, nextHop c.frame = .ok g ∧
    p.edgeTarget c.frame.packet.lastIndex.toNat c.frame.nextPath.toNat = some v ∧
    g.packet.last.toInt = v ∧ c.frame.packet.last.toInt < v ∧ v < p.dnode.length
  moves : n + c.advances ≤ p.dnode.length
  arrived : ∀ s g, c.step beyond = .ok s → (.arrived, g) ∈ s.out → c.stage = .nextHop .sid ∨
    g.packet.last.toInt = p.dnode.length - 1 ∧
      ∃ m d t, Trail beyond p m d ∧ d.stage = .nextHop t ∧ d.next beyond = some c
  terminates : (eval (Config.next beyond) c).Dom

/-- **Forwarding follows the edges of a header that lead forward, and stops.** -/
theorem Trail.sound (hp : p.Forward) (hlast : p.last = -1) (h : Trail beyond p n c) :
    Sound beyond p n c := by
  obtain ⟨htravels, hcount⟩ := h.travels hp hlast
  have hlinks := htravels.links
  have hlength := Packet.length_dnode_congr hlinks
  have hpos := hp.pos
  have hholds := htravels.holds
  refine ⟨?_, ?_, ?_, ?_, htravels.dom hp⟩
  · by_cases hc : c.stage = .checkDest
    · rw [hc] at hholds
      exact .inr (hlength ▸ hholds)
    · rcases hholds.underway hc with hsource | ⟨h₀, hlt⟩
      · exact .inl hsource
      · exact .inr ⟨h₀, by omega⟩
  · intro t ht
    rw [ht] at hholds
    obtain ⟨g, v, hhop, hv, hlast', hgt, hlt, -⟩ :=
      nextHop_forward (hp.congr hlinks) hholds.1 hholds.2
    rw [Packet.edgeTarget_congr hlinks] at hv
    exact ⟨g, v, hhop, hv, hlast', hgt, hlength ▸ hlt⟩
  · unfold Packet.rank at hcount
    by_cases hc : c.stage = .checkDest
    · rw [Config.advances, hc]
      rw [hc] at hholds
      obtain ⟨-, hlt⟩ := hholds
      dsimp only
      omega
    · have hadvances : c.advances ≤ 1 := by
        unfold Config.advances
        split <;> decide
      rcases hholds.underway hc with hsource | ⟨h₀, hlt⟩
      · omega
      · omega
  · intro s g hstep hout
    have hexit := Config.mem_out hstep hout
    cases hstage : c.stage <;> rw [hstage] at hexit
    case firstPath => exact hexit.elim
    case nextPath => cases hexit.1
    case classifier => cases hexit.1
    case routeTable t =>
      obtain ⟨table, outs, q, -, -, hq⟩ := hexit
      exact absurd hq (tableExit_ne (.inr rfl))
    case nextHop t => exact .inl (congrArg _ hexit.2)
    case checkDest =>
      obtain ⟨-, hdest, hsame⟩ := hexit
      refine .inr ⟨?_, h.before_checkDest hstage⟩
      rw [hsame, ← hlength]
      exact of_decide_eq_true hdest

/-! ### Encoded headers -/

theorem Ordered.forward_packet (h : Ordered p.dnode) (hpos : 0 < p.dnode.length) : p.Forward := by
  refine ⟨hpos, fun u k v hv hu => ?_⟩
  simp only [Packet.edgeTarget, bind_eq_some_iff] at hv
  obtain ⟨n, hn, e, he, hv⟩ := hv
  rw [Packet.nodeList, getElem?_append_left (by omega)] at hn
  split at hv
  · rename_i hused
    cases hv
    obtain ⟨hk, rfl⟩ := List.getElem?_eq_some_iff.1 he
    rw [Vector.length_toList] at hk
    exact h.forward u n hn hu ⟨k, hk⟩ hused.1
  · cases hv

namespace Packet

open XiaPath

/-- **A packet walks along the DAG and stops**, if the nodes of its destination path can be numbered
with seven bits. -/
theorem forwarding_sound (beyond : Nat → UInt8) (nxt hlim : UInt8) (plen : Nat) (dst src : XiaPath)
    (body : List UInt8) (hdst : dst.isValid = .ok true) (hlen : dst.nodes.length - 1 ≤ 127)
    (hp : encap nxt hlim (-1) plen dst src body = .ok p) (h : Trail beyond p n c) :
    Sound beyond p n c := by
  obtain ⟨dsrc, ddst, hd⟩ := isValid_iff.1 hdst
  have hde := hd.encoded (by rw [xidEdgeUnused]; omega)
  have hpos : 0 < (dst.order.tail.map (dst.wireEntry dsrc ddst)).length := by
    have hlength := hde.length
    have hsrc := hd.src_lt
    have hdst := hd.dst_lt
    have hne := hd.ne
    omega
  rw [encap, hd.wireNodes, ok_bind] at hp
  obtain ⟨snode, -, hp⟩ := bind_eq_ok.1 hp
  split at hp
  · cases hp
  · cases hp
    exact h.sound (hde.ordered.forward_packet hpos) rfl

open Router

/-- The way to a CID by the AD and the HID of the router. -/
theorem forwarding_sound_viaOwn :
    Sound (fun _ => 0) (viaOwn 1 2).packet 0 (ownRouter.start (viaOwn 1 2)) :=
  forwarding_sound _ 0 250 0
    (.ofNodes [⟨localAd, [1]⟩, ⟨localHid, [2]⟩, ⟨someCid, []⟩] ⟨Xid.zero, [0]⟩) hostPath []
    (by decide) (by decide) (by decide) (.enter _ _ rfl)

/-- A path of 130 nodes, one behind the other, with an edge from the first one to the last but
one. -/
def longPath : XiaPath :=
  .ofNodes ((List.range 129).map (fun i => ⟨localAd, if i = 0 then [128, 1] else [i + 1]⟩) ++
    [⟨localAd, []⟩]) ⟨Xid.zero, [0]⟩

/-- The index 128 is written as 0, and the edge leads back to its own node. -/
theorem not_sound_longPath : longPath.isValid = .ok true ∧
    ∃ p, encap 0 250 (-1) 0 longPath hostPath [] = .ok p ∧
      ∃ n c, Trail (fun _ => 0) p n c ∧ ¬ Sound (fun _ => 0) p n c := by
  obtain ⟨p, hp, hlast, hlt, hpos, h₁, h₀⟩ : ∃ p, encap 0 250 (-1) 0 longPath hostPath [] = .ok p ∧
      p.lastIndex = 129 ∧ 129 < p.nodeList.length ∧ 0 < p.dnode.length ∧
      ownRouter.walk p 0 (false, 129) = some (false, 0) ∧
      ownRouter.walk p 0 (false, 0) = some (false, 0) := by decide +kernel
  have hon : Frame.On ⟨p, 0, 0, none⟩ 129 := ⟨hlast, hlt, hpos⟩
  refine ⟨by decide +kernel, p, hp, 0, ownRouter.start ⟨p, 0, 0, none⟩, .enter _ _ rfl, ?_⟩
  intro hsound
  exact (terminates_iff_of_on _ _ hon).1 hsound.terminates ⟨(false, 0), .single h₁, .single h₀⟩

end Packet

end Xia
