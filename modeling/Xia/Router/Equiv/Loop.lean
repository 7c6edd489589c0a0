import Xia.Router.Walk

/-!
# The loop of a router

A node of the header that is local to the router sends the packet back to the first path.  Nothing
bounds how often: the hop limit counts on the way out only, and the `visited` bits, which
`XIANextHop` sets, are not read.  So the loop ends exactly if the walk through the header does not
come back to a position (`Router.terminates_iff`), and a header whose edges lead from the AD of the
router to its HID and back keeps the router busy forever (`Router.not_terminates_localLoop`).
-/

namespace Xia

open StateTransition Relation

variable {f : Frame} {u : Nat}

theorem step_classifier_error (beyond : Nat → UInt8) (r : Router) (h : ∀ u, ¬ f.On u) :
    Config.step beyond ⟨r, .classifier, selectFirst f⟩ = .error .outOfBounds := by
  set g := selectFirst f
  have hlength : g.packet.nodeList.length = g.packet.dnode.length + g.packet.snode.length :=
    List.length_append
  have hclassify : classify routePatterns g = .error .outOfBounds := by
    unfold classify
    rcases Nat.eq_zero_or_pos g.packet.dnode.length with hzero | hpos
    · rw [g.packet.nodeAt_eq_error (by omega)]
      rfl
    · obtain ⟨dst, hdst⟩ := g.packet.nodeAt_eq_ok (i := g.packet.dnode.length - 1) (by omega)
        (by omega)
      obtain ⟨src, hsrc⟩ := g.packet.nodeAt_eq_ok
        (i := g.packet.dnode.length + g.packet.snode.length - 1) (by omega) (by omega)
      have hout : ¬ (0 ≤ g.packet.lastIndex ∧ g.packet.lastIndex < g.packet.nodeList.length) := by
        rintro ⟨h₀, hlt⟩
        exact h g.packet.lastIndex.toNat
          ⟨(Int.toNat_of_nonneg h₀).symm, (Int.toNat_lt h₀).2 hlt, hpos⟩
      have hnext : nextXidType g = .error .outOfBounds := by
        have hfirst : g.nextPath.toNat < xidEdgeNum := (by decide : (0 : UInt8).toNat < xidEdgeNum)
        rw [nextXidType, if_pos hfirst, Frame.currentEdge, g.packet.nodeAt_eq_error hout]
        rfl
      rw [hdst, Result.ok_bind, hsrc, Result.ok_bind, hnext]
      rfl
  rw [Config.step]
  dsimp only
  rw [hclassify]
  rfl

namespace Router

/-- The packet is processed in finitely many steps. -/
def Terminates (beyond : Nat → UInt8) (r : Router) (f : Frame) : Prop :=
  (eval (Config.next beyond) (r.start f)).Dom

/-- The header `f` came with is the one it is walking through. -/
theorem follows_start (r : Router) (h : f.On u) :
    r.Follows f.packet f.paint (false, u) (r.start f) :=
  ⟨f, rfl, h, rfl, rfl⟩

theorem walk_lt {r : Router} {p : Packet} {paint : Int16} {pos pos' : Bool × Nat}
    (h : r.walk p paint pos = some pos') : pos'.2 < p.dnode.length := by
  obtain ⟨k, t, -, -, -, htarget, -, -⟩ := walk_eq_some_iff.1 h
  exact Packet.edgeTarget_lt htarget

theorem terminates_iff_of_on (beyond : Nat → UInt8) (r : Router) (h : f.On u) :
    r.Terminates beyond f ↔ ¬ Orbit.Circles (r.walk f.packet f.paint) (false, u) := by
  have hfinite : (Set.univ ×ˢ Set.Iio f.packet.nodeList.length : Set (Bool × Nat)).Finite :=
    Set.finite_univ.prod (Set.finite_Iio _)
  refine (abstracts_walk beyond r f.packet f.paint).dom_iff_not_circles hfinite ?_
    ⟨trivial, h.lt⟩ (r.follows_start h)
  intro pos _ pos' hstep
  have hlt := walk_lt hstep
  refine ⟨trivial, Set.mem_Iio.2 ?_⟩
  rw [Packet.nodeList, List.length_append]
  omega

/-- **The loop ends exactly if the walk does not come back to a position.** -/
theorem terminates_iff (beyond : Nat → UInt8) (r : Router) (hlast : f.packet.lastIndex = u)
    (hlt : u < f.packet.nodeList.length) :
    r.Terminates beyond f ↔ ¬ Orbit.Circles (r.walk f.packet f.paint) (false, u) := by
  rcases Nat.eq_zero_or_pos f.packet.dnode.length with hzero | hpos
  · have hdom : r.Terminates beyond f := by
      refine Orbit.dom_of_step fun c hc => Orbit.dom_of_step fun d hd => ?_
      have hc : Config.mk r .classifier (selectFirst f) = c := Option.some.inj hc
      have herror := step_classifier_error beyond r (f := f) fun u h => by
        have := h.pos
        omega
      rw [← hc, Config.next, herror] at hd
      cases hd
    refine ⟨fun _ => ?_, fun _ => hdom⟩
    rintro ⟨pos, -, hcircle⟩
    obtain ⟨pos', hstep, -⟩ := TransGen.head'_iff.1 hcircle
    have := walk_lt hstep
    omega
  · exact terminates_iff_of_on beyond r ⟨hlast, hlt, hpos⟩

/-! ### A header that keeps a router busy -/

def entryTwo (x : Xid) (i j : Nat) : XidNode :=
  ⟨x, #v[XiaPath.wireEdge i, XiaPath.wireEdge j, XiaPath.wireEdge xidEdgeUnused,
    XiaPath.wireEdge xidEdgeUnused]⟩

def entry (x : Xid) (i : Nat) : XidNode := entryTwo x i xidEdgeUnused

def localAd : Xid := ⟨Principal.ad.type, Vector.replicate _ 1⟩
def localHid : Xid := ⟨Principal.hid.type, Vector.replicate _ 2⟩
def someCid : Xid := ⟨Principal.cid.type, Vector.replicate _ 3⟩

def ownTable (x : Xid) : RouteTable :=
  ⟨true, (∅ : HashTable Xid RouteData).insert x ⟨destinedForLocalhost, 0, none⟩,
    ⟨destinedForDiscard, 0, none⟩, 4, XiaPath.empty, localHid⟩

def ownRouter : Router
  | .ad => ownTable localAd
  | .hid => ownTable localHid
  | _ => { ownTable localHid with rts := ∅ }

def hostPath : XiaPath := .ofNodes [⟨localAd, [1]⟩, ⟨localHid, []⟩] ⟨Xid.zero, [0]⟩

/-- A packet from the source to a CID by way of the entries `ad` and `hid`. -/
def viaOwn (ad hid : Nat) : Frame :=
  { packet :=
      { ver := 1, nxt := 0, plen := 0, hlim := 250, last := -1
        dnode := [entry localAd ad, entry localHid hid, entry someCid 0]
        snode := [entry localAd 1, entry localHid 0], body := [] }
    nextPath := 0, paint := 0, nexthop := none }

/-- The AD leads to the HID, and the HID to the CID, which is not known. -/
theorem terminates_viaOwn : ownRouter.Terminates (fun _ => 0) (viaOwn 1 2) := by
  refine (terminates_iff (u := 2) _ _ (by decide) (by decide)).2 ?_
  have h₂ : ownRouter.walk (viaOwn 1 2).packet 0 (false, 2) = some (false, 0) := by decide
  have h₀ : ownRouter.walk (viaOwn 1 2).packet 0 (false, 0) = some (false, 1) := by decide
  have h₁ : ownRouter.walk (viaOwn 1 2).packet 0 (false, 1) = none := by decide
  exact Orbit.not_circles_of_dom (mem_eval.2 ⟨.tail (.single h₂) h₀, h₁⟩).1

/-- The AD leads to the HID, and the HID back to the AD. -/
theorem not_terminates_localLoop : ¬ ownRouter.Terminates (fun _ => 0) (viaOwn 1 0) := by
  have hon : (viaOwn 1 0).On 2 := ⟨by decide, by decide, by decide⟩
  rw [terminates_iff_of_on _ _ hon, not_not]
  have h₂ : ownRouter.walk (viaOwn 1 0).packet 0 (false, 2) = some (false, 0) := by decide
  have h₀ : ownRouter.walk (viaOwn 1 0).packet 0 (false, 0) = some (false, 1) := by decide
  have h₁ : ownRouter.walk (viaOwn 1 0).packet 0 (false, 1) = some (false, 0) := by decide
  exact ⟨(false, 0), .single h₂, .tail (.single h₀) h₁⟩

end Router

end Xia
