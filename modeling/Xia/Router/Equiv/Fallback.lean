import Xia.Router.Equiv.Bounds

/-!
# Falling back to the next edge

At each node the router is to take the first edge for which it has a route, and to give up only if
there is none.  It does so (`Router.fallsBack_iff`) unless one of the edges before it stops the
search: an edge to an XID of a type that has no table goes to the output for packets for which all
paths were tried, and the lookup of a broadcast HID can get stuck.
-/

namespace Xia

open StateTransition Relation

def Frame.onEdge (f : Frame) (k : Nat) : Frame := { f with nextPath := UInt8.ofNat k }

namespace Router

variable {beyond : Nat → UInt8} {r : Router} {f : Frame} {u k : Nat} {t : Principal} {port : Int}

/-- The edge `k` of the current node `u` leads to an XID for which the table `t` has a route. -/
def Routable (r : Router) (f : Frame) (u k : Nat) (t : Principal) (port : Int) : Prop :=
  (∃ x, f.packet.edgeXid u k = some x ∧ Principal.ofType x.type = some t) ∧
    ∃ table g, (r t).lookupRoute f.paint.toInt (f.onEdge k) = .ok (port, table, g) ∧ Accepted port

/-- It is the first such edge. -/
structure FirstRoutable (r : Router) (f : Frame) (u k : Nat) (t : Principal) (port : Int) :
    Prop where
  lt : k < xidEdgeNum
  routable : r.Routable f u k t port
  first : ∀ j < k, ∀ t' port', ¬ r.Routable f u j t' port'

/-- The edge is taken: its table is asked, and sends the packet where its route says.  (A redirect
message is not routed but read.) -/
def Takes (beyond : Nat → UInt8) (r : Router) (f : Frame) (k : Nat) (t : Principal) (port : Int) :
    Prop :=
  f.paint.toInt ≠ redirect ∧ ∃ g, f.Like g ∧ g.nextPath.toNat = k ∧
      Reaches (Config.stay beyond) (r.start f) ⟨r, .routeTable t, g⟩ ∧
      ∃ table g', f.Like g' ∧ (r t).push beyond g =
        .ok (table, RouteTable.redirectClone port f.paint.toInt g' ++ table.dispatch port g')

/-- The packet leaves as one that could not be routed at all only if no edge is routable, and
otherwise the first such edge is taken. -/
structure FallsBack (beyond : Nat → UInt8) (r : Router) (f : Frame) (u : Nat) : Prop where
  tried : ∀ c s g, Reaches (Config.stay beyond) (r.start f) c → c.step beyond = .ok s →
    (.unroutable, g) ∈ s.out → ∀ k < xidEdgeNum, ∀ t port, ¬ r.Routable f u k t port
  taken : ∀ k t port, r.FirstRoutable f u k t port → r.Takes beyond f k t port

/-- No edge before the first routable one stops the search: they all lead to XIDs of known types and
not to the broadcast HID. -/
def Unobstructed (r : Router) (f : Frame) (u : Nat) : Prop :=
  ∀ k t port, r.FirstRoutable f u k t port → f.paint.toInt ≠ redirect ∧
    ∀ j < k, ∃ x t', f.packet.edgeXid u j = some x ∧ Principal.ofType x.type = some t' ∧ x ≠ bhid

/-! ### Verdicts -/

theorem on_onEdge (h : f.On u) (hk : k < xidEdgeNum) : (f.onEdge k).At u k :=
  ⟨⟨h.last, h.lt, h.pos⟩, UInt8.toNat_ofNat_of_lt (hk.trans (by decide)), hk⟩

theorem routable_iff_verdict (h : f.On u) (hk : k < xidEdgeNum) (henabled : (r t).enabled = true)
    (hpaint : f.paint.toInt ≠ redirect) :
    r.Routable f u k t port ↔ r.verdict f.packet f.paint u k = .taken t port := by
  constructor
  · rintro ⟨⟨x, hx, ht⟩, table, g, hlookup, hport⟩
    have hportOf := ((r t).exists_lookupRoute_iff (on_onEdge h hk) hx).1 ⟨table, g, hlookup⟩
    exact verdict_eq_taken_iff.2 ⟨x, hx, ht, henabled, hpaint, hportOf, hport⟩
  · intro hv
    obtain ⟨x, hx, ht, -, -, hportOf, hport⟩ := verdict_eq_taken_iff.1 hv
    obtain ⟨table, g, hlookup⟩ := ((r t).exists_lookupRoute_iff (on_onEdge h hk) hx).2 hportOf
    exact ⟨⟨x, hx, ht⟩, table, g, hlookup, hport⟩

theorem verdict_eq_skipped_iff (h : f.On u) (hk : k < xidEdgeNum)
    (henabled : ∀ t, (r t).enabled = true) (hpaint : f.paint.toInt ≠ redirect) :
    r.verdict f.packet f.paint u k = .skipped ↔
      (∃ x t, f.packet.edgeXid u k = some x ∧ Principal.ofType x.type = some t ∧ x ≠ bhid) ∧
        ∀ t port, ¬ r.Routable f u k t port := by
  constructor
  · intro hv
    refine ⟨?_, fun t port hroutable => ?_⟩
    · obtain ⟨x, t, hx, ht⟩ := exists_table_of_verdict (by rw [hv]; exact Verdict.noConfusion)
      refine ⟨x, t, hx, ht, ?_⟩
      rintro rfl
      rw [verdict_eq hx ht, henabled, if_neg (by decide), if_neg hpaint] at hv
      split at hv
      · cases hv
      · rename_i port hport
        rw [if_pos (RouteTable.accepted_of_portOf_bhid hport)] at hv
        cases hv
    · rw [routable_iff_verdict h hk (henabled t) hpaint, hv] at hroutable
      cases hroutable
  · rintro ⟨⟨x, t, hx, ht, hne⟩, hno⟩
    cases hport : (r t).portOf f.packet x with
    | none => exact absurd (portOf_eq_none_iff.1 hport).1 hne
    | some port =>
      have hrejected : ¬ Accepted port := fun hyes =>
        hno t port ((routable_iff_verdict h hk (henabled t) hpaint).2
          (verdict_eq_taken_iff.2 ⟨x, hx, ht, henabled t, hpaint, hport, hyes⟩))
      rw [verdict_eq hx ht, henabled, if_neg (by decide), if_neg hpaint, hport]
      exact if_neg hrejected

theorem verdict_ne_redirected {p : Packet} {paint : Int16} (hpaint : paint.toInt ≠ redirect) :
    r.verdict p paint u k ≠ .redirected := by
  intro hv
  obtain ⟨x, t, hx, ht⟩ := exists_table_of_verdict (by rw [hv]; exact Verdict.noConfusion)
  rw [verdict_eq hx ht, if_neg hpaint] at hv
  split at hv
  · cases hv
  · split at hv
    · cases hv
    · split at hv <;> cases hv

/-! ### The run at a node -/

theorem stage_of_unroutable {c : Config} {s : Step} {g : Frame} (hstep : c.step beyond = .ok s)
    (hout : (.unroutable, g) ∈ s.out) :
    s.next = none ∧ (c.stage = .classifier ∨ c.stage = .nextPath) := by
  have hexit := Config.mem_out hstep hout
  cases hstage : c.stage <;> rw [hstage] at hexit
  case nextPath => exact ⟨hexit.2, .inr rfl⟩
  case classifier => exact ⟨hexit.2, .inl rfl⟩
  case routeTable t =>
    obtain ⟨table, outs, q, -, -, hq⟩ := hexit
    exact absurd hq (tableExit_ne (.inl rfl))
  case firstPath => exact hexit.elim
  all_goals cases hexit.1

theorem takes_of_verdict (h : f.On u) (hk : r.firstEdge f.packet f.paint u = some k)
    (hv : r.verdict f.packet f.paint u k = .taken t port) : r.Takes beyond f k t port := by
  obtain ⟨x, hx, ht, henabled, hpaint, hport, -⟩ := verdict_eq_taken_iff.1 hv
  obtain ⟨g, x', t', hlike, hat, hx', ht', hreach⟩ :=
    reaches_routeTable beyond h hk (by rw [hv]; exact Verdict.noConfusion)
  obtain rfl : x = x' := Option.some.inj (hx.symm.trans hx')
  obtain rfl : t = t' := Option.some.inj (ht.symm.trans ht')
  have hlookup := (r t).lookupRoute_eq hat (hlike.packet ▸ hx)
  rw [hlike.packet, hport] at hlookup
  obtain ⟨g', hlike', -, hlookup⟩ := hlookup
  refine ⟨hpaint, g, hlike, hat.path, hreach.to_reflTransGen,
    (r t).afterLookup f.packet g.paint x, g', hlike.trans hlike', ?_⟩
  rw [RouteTable.push_eq beyond henabled (hlike.paint ▸ hpaint), hlookup, hlike.paint]
  rfl

/-- If an edge is taken, everything happens before its table, there, or in front of `XIANextHop`. -/
theorem Takes.cases_reaches (h : r.Takes beyond f k t port) (hport : Accepted port) {c : Config}
    (hreach : Reaches (Config.stay beyond) (r.start f) c) :
    (∃ d, c.stay beyond = some d) ∨ (c.stage = .routeTable t ∧ c.frame.nextPath.toNat = k) ∨
      ∃ t', c.stage = .nextHop t' := by
  obtain ⟨-, g, hlike, hpath, htable, table, g', hlike', hpush⟩ := h
  rcases reaches_total hreach htable with hto | hfrom
  · rcases ReflTransGen.cases_head hto with heq | ⟨d, hd, -⟩
    · exact .inr (.inl (by rw [heq]; exact ⟨rfl, hpath⟩))
    · exact .inl ⟨d, hd⟩
  · rcases ReflTransGen.cases_head hfrom with heq | ⟨d, hd, hdc⟩
    · exact .inr (.inl (by rw [← heq]; exact ⟨rfl, hpath⟩))
    · have hnext : Config.stay beyond ⟨r, .routeTable t, g⟩ =
          (if port = destinedForLocalhost then some (.nextHop t, g') else none).map
            fun q => ⟨Function.update r t table, q.1, q.2⟩ := by
        have hlater := table.findSome?_tableNext t port f.paint.toInt g'
        rw [if_pos hport] at hlater
        rw [← hlater]
        change Config.next beyond _ = _
        rw [Config.next, Config.step]
        dsimp only
        rw [hpush]
        rfl
      rw [hnext] at hd
      split at hd
      · cases hd
        rcases ReflTransGen.cases_head hdc with heq | ⟨e, he, -⟩
        · exact .inr (.inr ⟨t, heq ▸ rfl⟩)
        · cases he
      · cases hd

theorem Takes.not_unroutable (h : r.Takes beyond f k t port) (hport : Accepted port) {c : Config}
    {s : Step} {g : Frame} (hreach : Reaches (Config.stay beyond) (r.start f) c)
    (hstep : c.step beyond = .ok s) : (.unroutable, g) ∉ s.out := by
  intro hout
  obtain ⟨hnone, hstage⟩ := stage_of_unroutable hstep hout
  rcases h.cases_reaches hport hreach with ⟨d, hd⟩ | ⟨htable, -⟩ | ⟨t', hhop⟩
  · have hnext := Config.next_of_stay hd
    rw [Config.next_of_step hstep, hnone] at hnext
    cases hnext
  · rcases hstage with hstage | hstage <;> rw [htable] at hstage <;> cases hstage
  · rcases hstage with hstage | hstage <;> rw [hhop] at hstage <;> cases hstage

theorem Takes.not_error (h : r.Takes beyond f k t port) (hport : Accepted port) {c : Config}
    {e : Fault} (hreach : Reaches (Config.stay beyond) (r.start f) c)
    (hstep : c.step beyond = .error e) (hc : ∀ t, c.stage ≠ .nextHop t)
    (hne : c.frame.nextPath.toNat ≠ k) : False := by
  rcases h.cases_reaches hport hreach with ⟨d, hd⟩ | ⟨-, hpath⟩ | ⟨t', hhop⟩
  · have hnext := Config.next_of_stay hd
    rw [Config.next, hstep] at hnext
    cases hnext
  · exact hne hpath
  · exact hc t' hhop

theorem Unobstructed.takes (hfree : r.Unobstructed f u) (h : f.On u)
    (henabled : ∀ t, (r t).enabled = true) (hfirst : r.FirstRoutable f u k t port) :
    r.Takes beyond f k t port := by
  obtain ⟨hpaint, hbefore⟩ := hfree k t port hfirst
  have hv := (routable_iff_verdict h hfirst.lt (henabled t) hpaint).1 hfirst.routable
  have hskip : ∀ j < k, r.verdict f.packet f.paint u j = .skipped := fun j hj =>
    (verdict_eq_skipped_iff h (hj.trans hfirst.lt) henabled hpaint).2
      ⟨hbefore j hj, hfirst.first j hj⟩
  have hedge : r.firstEdge f.packet f.paint u = some k :=
    firstEdge_eq_some_iff.2 ⟨hfirst.lt, by rw [hv]; exact Verdict.noConfusion, hskip⟩
  exact takes_of_verdict h hedge hv

theorem Routable.exists_first (hk : k < xidEdgeNum) (h : r.Routable f u k t port) :
    ∃ k t port, r.FirstRoutable f u k t port := by
  classical
  have hex : ∃ k, k < xidEdgeNum ∧ ∃ t port, r.Routable f u k t port := ⟨k, hk, t, port, h⟩
  obtain ⟨hlt, t, port, hroutable⟩ := Nat.find_spec hex
  refine ⟨Nat.find hex, t, port, hlt, hroutable, fun j hj t' port' hroutable' => ?_⟩
  exact Nat.find_min hex hj ⟨hj.trans hlt, t', port', hroutable'⟩

theorem FirstRoutable.firstEdge_eq (hfirst : r.FirstRoutable f u k t port) (h : f.On u)
    (henabled : ∀ t, (r t).enabled = true) (hfalls : r.FallsBack beyond f u) :
    r.firstEdge f.packet f.paint u = some k := by
  have htakes := hfalls.taken k t port hfirst
  have hpaint := htakes.1
  have hport : Accepted port := hfirst.routable.2.choose_spec.choose_spec.2
  have hv := (routable_iff_verdict h hfirst.lt (henabled t) hpaint).1 hfirst.routable
  obtain ⟨m, hle, hm⟩ :=
    exists_firstEdge hfirst.lt (r := r) (by rw [hv]; exact Verdict.noConfusion)
  rcases Nat.lt_or_eq_of_le hle with hlt | rfl
  · exfalso
    -- an edge that decides before `k` gives the packet up, or faults
    have hedge := reaches_firstEdge beyond h (r := r)
    rw [hm] at hedge
    obtain ⟨g, hlike, hat, hreach⟩ := hedge
    obtain ⟨hm', hskip, -⟩ := firstEdge_eq_some_iff.1 hm
    by_cases hunknown : r.verdict f.packet f.paint u m = .unknown
    · have hstep := step_classifier beyond r hat
      rw [hlike.packet, verdict_eq_unknown_iff.1 hunknown] at hstep
      exact hfalls.tried _ _ g hreach.to_reflTransGen hstep (List.mem_singleton.2 rfl) k hfirst.lt
        t port hfirst.routable
    · obtain ⟨g, x, t', hlike, hat, hx, ht, hreach⟩ := reaches_routeTable beyond h hm hunknown
      have htable := step_routeTable beyond r hat (hlike.packet ▸ hx) ht
      rw [hlike.packet, hlike.paint] at htable
      cases hverdict : r.verdict f.packet f.paint u m with
      | unknown => exact hunknown hverdict
      | skipped => exact hskip hverdict
      | redirected => exact verdict_ne_redirected hpaint hverdict
      | taken t' port' =>
        exact hfirst.first m hlt t' port'
          ((routable_iff_verdict h hm' (henabled t') hpaint).2 hverdict)
      | stuck =>
        rw [hverdict] at htable
        refine htakes.not_error hport hreach.to_reflTransGen htable (by simp) ?_
        exact hat.path.trans_ne hlt.ne
  · exact hm

/-- **The router falls back** exactly if no edge before the first routable one obstructs it. -/
theorem fallsBack_iff (beyond : Nat → UInt8) (h : f.On u) (henabled : ∀ t, (r t).enabled = true) :
    r.FallsBack beyond f u ↔ r.Unobstructed f u := by
  constructor
  · intro hfalls k t port hfirst
    have hpaint := (hfalls.taken k t port hfirst).1
    obtain ⟨-, -, hskip⟩ := firstEdge_eq_some_iff.1 (hfirst.firstEdge_eq h henabled hfalls)
    refine ⟨hpaint, fun j hj => ?_⟩
    exact ((verdict_eq_skipped_iff h (hj.trans hfirst.lt) henabled hpaint).1 (hskip j hj)).1
  · intro hfree
    refine ⟨fun c s g hreach hstep hout k hk t port hroutable => ?_,
      fun k t port hfirst => hfree.takes h henabled hfirst⟩
    obtain ⟨k, t, port, hfirst⟩ := hroutable.exists_first hk
    obtain ⟨-, -, -, -, hport⟩ := hfirst.routable
    exact (hfree.takes h henabled hfirst).not_unroutable hport hreach hstep hout

/-- The path to a CID by way of `x`, or else of the AD. -/
def fallbackPath (x : Xid) : XiaPath :=
  .ofNodes [⟨x, [2]⟩, ⟨localAd, [2]⟩, ⟨someCid, []⟩] ⟨Xid.zero, [0, 1]⟩

def fallbackFrame (x : Xid) : Frame :=
  { packet :=
      { ver := 1, nxt := 0, plen := 0, hlim := 250, last := -1
        dnode := [entry localAd 2, entry x 2, entryTwo someCid 1 0]
        snode := [entry localAd 1, entry localHid 0], body := [] }
    nextPath := 0, paint := 0, nexthop := none }

theorem routable_fallbackFrame (x : Xid) :
    ownRouter.Routable (fallbackFrame x) 2 1 .ad destinedForLocalhost :=
  ⟨⟨localAd, rfl, rfl⟩, _, _, rfl, .inr (.inl rfl)⟩

/-- A CID is a type with a table, and the AD behind it is found. -/
theorem fallsBack_otherCid : ownRouter.FallsBack (fun _ => 0)
    (fallbackFrame ⟨Principal.cid.type, Vector.replicate _ 4⟩) 2 := by
  refine (fallsBack_iff _ ⟨by decide, by decide, by decide⟩ ?_).2 ?_
  · rintro (_ | _ | _ | _ | _) <;> rfl
  · intro k t port hfirst
    refine ⟨by decide, fun j hj => ?_⟩
    have hk : k ≤ 1 := by
      by_contra hgt
      exact hfirst.first 1 (by omega) _ _ (routable_fallbackFrame _)
    obtain rfl : j = 0 := by omega
    exact ⟨_, .cid, rfl, by decide, by decide⟩

/-- An XID of a type without a table hides the AD. -/
theorem not_fallsBack_unknownType :
    Packet.encap 0 250 (-1) 0 (fallbackPath ⟨htonl 0x20, Vector.replicate _ 4⟩) hostPath [] =
        .ok (fallbackFrame ⟨htonl 0x20, Vector.replicate _ 4⟩).packet ∧
      ¬ ownRouter.FallsBack (fun _ => 0) (fallbackFrame ⟨htonl 0x20, Vector.replicate _ 4⟩) 2 := by
  refine ⟨by decide, fun hfalls => ?_⟩
  exact hfalls.tried _ _ _ (.single rfl) rfl (List.mem_singleton.2 rfl) 1 (by decide) _ _
    (routable_fallbackFrame _)

end Router

end Xia
