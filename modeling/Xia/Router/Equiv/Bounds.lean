import Xia.Router.Equiv.Loop

/-!
# What a router accesses

The range checks of the classifier are commented out, and the lookup and `XIANextHop` rely on them.
There are two kinds of accesses that can go wrong: to the destination and to the current node, which
the header may not have, and to the sender of a broadcast.  The sender is the second last node of
the source path, and a path of one node has none: `remove_node` makes its destination `_npos`.

`Router.inBounds_iff` says for which packets and tables neither happens.
-/

namespace Xia

open Function List Option Relation StateTransition

theorem ofNodes_sender_iff {nodes : List PathNode} {source : PathNode} (h : 0 < nodes.length) :
    (∃ x, ((XiaPath.ofNodes nodes source).removeNode
      (XiaPath.ofNodes nodes source).destinationNode >>= XiaPath.destXid) = .ok x) ↔
      2 ≤ nodes.length := by
  have hdst : (XiaPath.ofNodes nodes source).destinationNode = some (nodes.length - 1) :=
    if_neg (by omega)
  have hin : (some (nodes.length - 1)).filter (· < (XiaPath.ofNodes nodes source).nodes.length) =
      some (nodes.length - 1) := by
    rw [filter_some, if_pos]
    simp [XiaPath.ofNodes]
  rw [XiaPath.removeNode, hdst, hin]
  change (∃ x, inBounds (((XiaPath.eraseHandle (nodes.length - 1)
    (XiaPath.ofNodes nodes source).destinationNode).bind _).map _) = .ok x) ↔ _
  rw [hdst, XiaPath.eraseHandle, if_pos le_rfl]
  by_cases htwo : 2 ≤ nodes.length
  · rw [if_neg (by omega), bind_some, getElem?_eq_getElem]
    · exact ⟨fun _ => htwo, fun _ => ⟨_, rfl⟩⟩
    · simp [XiaPath.ofNodes, length_eraseIdx]
      omega
  · rw [if_pos (by omega)]
    refine ⟨?_, fun h => absurd h htwo⟩
    rintro ⟨x, hx⟩
    cases hx

theorem senderHid_eq_ok_iff {p : Packet} :
    (∃ x, RouteTable.senderHid p = .ok x) ↔ 2 ≤ p.snode.length := by
  unfold RouteTable.senderHid Packet.srcPath XiaPath.parseNode
  cases hlast : p.snode.getLast? with
  | none =>
    rw [getLast?_eq_none_iff] at hlast
    refine ⟨?_, by simp [hlast]⟩
    rintro ⟨x, hx⟩
    cases hx
  | some last =>
    dsimp only
    set nodes := p.snode.dropLast.map XiaPath.ofWireNode ++ [⟨last.xid, []⟩] with hnodes
    have hpos : p.snode ≠ [] := by
      rintro hnil
      rw [hnil] at hlast
      cases hlast
    have hlength : nodes.length = p.snode.length := by
      have := length_pos_iff.2 hpos
      simp [hnodes]
      omega
    rw [← hlength]
    exact ofNodes_sender_iff (by rw [hlength]; exact length_pos_iff.2 hpos)

namespace Router

variable {r : Router} {p : Packet} {paint : Int16}

/-- At a position the broadcast HID is looked up. -/
def Broadcasts (r : Router) (p : Packet) (paint : Int16) : Bool × Nat → Prop
  | (known, u) => ∃ k, firstEdge (r.tables p paint known) p paint u = some k ∧
      p.edgeXid u k = some bhid ∧ (r .hid).enabled = true ∧ paint.toInt ≠ redirect

theorem portOf_eq_none_iff {t : RouteTable} {x : Xid} :
    t.portOf p x = none ↔ x = bhid ∧ p.snode.length < 2 := by
  have hsender := senderHid_eq_ok_iff (p := p)
  unfold RouteTable.portOf
  split
  · rename_i hx
    cases hs : RouteTable.senderHid p with
    | ok y =>
      have := hsender.1 ⟨y, hs⟩
      simp [Except.toOption]
      omega
    | error e =>
      have hlt : p.snode.length < 2 := by
        by_contra hge
        obtain ⟨y, hy⟩ := hsender.2 (by omega)
        rw [hs] at hy
        cases hy
      simp [Except.toOption, hx, hlt]
  · rename_i hx
    simp [hx]

theorem verdict_eq_stuck_iff {u k : Nat} : r.verdict p paint u k = .stuck ↔
    p.edgeXid u k = some bhid ∧ (r .hid).enabled = true ∧ paint.toInt ≠ redirect ∧
      p.snode.length < 2 := by
  constructor
  · intro hv
    obtain ⟨x, t, hx, ht⟩ := exists_table_of_verdict (by rw [hv]; exact Verdict.noConfusion)
    rw [verdict_eq hx ht] at hv
    cases henabled : (r t).enabled with
    | false => simp [henabled] at hv
    | true =>
      by_cases hpaint : paint.toInt = redirect
      · simp [henabled, hpaint] at hv
      · simp only [henabled, Bool.not_true, Bool.false_eq_true, if_false, hpaint] at hv
        cases hport : (r t).portOf p x with
        | some port =>
          rw [hport] at hv
          dsimp only at hv
          split at hv <;> cases hv
        | none =>
          obtain ⟨rfl, hlt⟩ := portOf_eq_none_iff.1 hport
          obtain rfl : Principal.hid = t := Option.some.inj ht
          exact ⟨hx, henabled, hpaint, hlt⟩
  · rintro ⟨hx, henabled, hpaint, hlt⟩
    have ht : Principal.ofType bhid.type = some .hid := rfl
    rw [verdict_eq hx ht, henabled, portOf_eq_none_iff.2 ⟨rfl, hlt⟩, if_neg (by decide),
      if_neg hpaint]

theorem enabled_tables (known : Bool) (t : Principal) :
    (r.tables p paint known t).enabled = (r t).enabled := by
  have hlearn (t : RouteTable) (x : Xid) (port : Int) : (t.learn x port).enabled = t.enabled := by
    unfold RouteTable.learn
    split
    · split <;> rfl
    · rfl
  cases known with
  | false => rfl
  | true =>
    by_cases ht : t = .hid
    · subst ht
      simp only [tables, if_true, update_self, RouteTable.afterLookup]
      split
      · split
        · exact hlearn _ _ _
        · rfl
      · rfl
    · simp [tables, update_of_ne ht]

theorem stuck_iff {pos : Bool × Nat} :
    r.Stuck p paint pos ↔ r.Broadcasts p paint pos ∧ p.snode.length < 2 := by
  obtain ⟨known, u⟩ := pos
  simp only [Stuck, Broadcasts, verdict_eq_stuck_iff, enabled_tables]
  constructor
  · rintro ⟨k, hk, hx, henabled, hpaint, hlt⟩
    exact ⟨⟨k, hk, hx, henabled, hpaint⟩, hlt⟩
  · rintro ⟨⟨k, hk, hx, henabled, hpaint⟩, hlt⟩
    exact ⟨k, hk, hx, henabled, hpaint, hlt⟩

theorem Stuck.walk_eq_none {pos : Bool × Nat} (h : r.Stuck p paint pos) :
    r.walk p paint pos = none := by
  obtain ⟨known, u⟩ := pos
  obtain ⟨k, hk, hv⟩ := h
  cases hwalk : r.walk p paint (known, u) with
  | none => rfl
  | some pos' =>
    obtain ⟨j, t, hj, hv', -⟩ := walk_eq_some_iff.1 hwalk
    obtain rfl : k = j := Option.some.inj (hk.symm.trans hj)
    rw [hv] at hv'
    cases hv'

/-- No element accesses a node that does not exist. -/
def InBounds (beyond : Nat → UInt8) (r : Router) (f : Frame) : Prop :=
  ∀ c, Reaches (Config.next beyond) (r.start f) c → c.step beyond ≠ .error .outOfBounds

theorem inBounds_iff_of_on {beyond : Nat → UInt8} {f : Frame} {u : Nat} (h : f.On u) :
    r.InBounds beyond f ↔
      ∀ pos, Reaches (r.walk f.packet f.paint) (false, u) pos → ¬ r.Stuck f.packet f.paint pos := by
  have habs := abstracts_walk beyond r f.packet f.paint
  constructor
  · intro hin pos hpos hstuck
    obtain ⟨d, hd, hfault⟩ := habs.exists_mem_eval (r.follows_start h)
      (mem_eval.2 ⟨hpos, hstuck.walk_eq_none⟩)
    exact hin d (mem_eval.1 hd).1 (hfault.2 hstuck)
  · intro hno d hd hfault
    have hend : d ∈ eval (Config.next beyond) (r.start f) :=
      mem_eval.2 ⟨hd, by rw [Config.next, hfault]⟩
    obtain ⟨pos, hpos, hiff⟩ := habs.exists_final (r.follows_start h) hend
    exact hno pos (mem_eval.1 hpos).1 (hiff.1 hfault)

/-- **The nodes that a router accesses exist** exactly if the header has a destination and its
current node, and if no broadcast of a source path with one node is met on the walk. -/
theorem inBounds_iff (beyond : Nat → UInt8) (r : Router) (f : Frame) :
    r.InBounds beyond f ↔ 0 < f.packet.dnode.length ∧ 0 ≤ f.packet.lastIndex ∧
      f.packet.lastIndex < f.packet.nodeList.length ∧
      (2 ≤ f.packet.snode.length ∨
        ∀ pos, Reaches (r.walk f.packet f.paint) (false, f.packet.lastIndex.toNat) pos →
          ¬ r.Broadcasts f.packet f.paint pos) := by
  by_cases hon : f.On f.packet.lastIndex.toNat
  · have hlast : 0 ≤ f.packet.lastIndex := by
      rw [hon.last]
      omega
    have hlt := (Int.toNat_lt hlast).1 hon.lt
    simp only [inBounds_iff_of_on hon, stuck_iff, hon.pos, hlast, hlt, true_and]
    by_cases htwo : 2 ≤ f.packet.snode.length
    · simp [htwo, not_lt.2 htwo]
    · simp [htwo, not_le.1 htwo]
  · have hnone : ∀ u, ¬ f.On u := by
      intro u hu
      rw [hu.last, Int.toNat_natCast] at hon
      exact hon hu
    refine ⟨fun hin => ?_, ?_⟩
    · exact absurd (step_classifier_error beyond r hnone) (hin _ (.single rfl))
    · rintro ⟨hpos, hlast, hlt, -⟩
      exact absurd ⟨(Int.toNat_of_nonneg hlast).symm, (Int.toNat_lt hlast).2 hlt, hpos⟩ hon

def broadcast (last : Int8) : Frame :=
  { packet :=
      { ver := 1, nxt := 0, plen := 0, hlim := 250, last := last
        dnode := [entry bhid 0], snode := [entry localHid 0], body := [] }
    nextPath := 0, paint := 0, nexthop := none }

/-- The sender of the broadcast does not exist, and neither does a current node behind the end of
the header. -/
theorem not_inBounds_broadcast : ¬ ownRouter.InBounds (fun _ => 0) (broadcast (-1)) ∧
    ¬ ownRouter.InBounds (fun _ => 0) (broadcast 2) := by
  constructor
  · have hon : (broadcast (-1)).On 0 := ⟨by decide, by decide, by decide⟩
    rw [inBounds_iff_of_on hon]
    exact fun hno => hno _ .refl ⟨0, by decide, by decide⟩
  · have hlast : (broadcast 2).packet.lastIndex = 2 := by decide
    intro hin
    refine hin _ (.single rfl) (step_classifier_error (f := broadcast 2) _ _ fun u hu => ?_)
    have hlt : u < 2 := hu.lt
    have := hu.last
    omega

end Router

end Xia
