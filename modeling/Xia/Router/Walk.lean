import Xia.Router.Verdict

/-!
# The walk of a packet through its header

A router that finds a node of the header to be its own moves on to the node behind the edge and
starts again.  Where the packet is then depends on the entries of the header only, without the
`visited` bits, and on the tables.  The one change to the tables on the way is that a broadcast
teaches the table of the HIDs the port of the sender, and it is the same each time; so a position is
an entry of the header, with the information whether the sender is known.

`Router.walk` is this walk.  It abstracts the elements (`abstracts_walk`).
-/

namespace Xia

open List Option HashTable Function

/-! ### The `visited` bits -/

namespace Packet

variable {p q : Packet} {u k i : Nat}

theorem edgeTarget_eq_unmark (p : Packet) (u k : Nat) :
    p.edgeTarget u k = ((p.nodeList.map unmark)[u]?).bind fun n => (n.edge.toList[k]?).bind fun e =>
      if e.idx.val ≠ xidEdgeUnused ∧ e.idx.val < p.dnode.length then some e.idx.val else none := by
  rw [edgeTarget, getElem?_map, bind_map]
  congr 1
  funext n
  simp only [comp_apply, unmark, Vector.toList_map, getElem?_map, bind_map]

section

variable (h : p.links = q.links)
include h

theorem map_unmark_nodeList : p.nodeList.map unmark = q.nodeList.map unmark := by
  obtain ⟨hd, hs⟩ := Prod.mk.inj h
  rw [nodeList, nodeList, map_append, map_append, hd, hs]

theorem length_dnode_congr : p.dnode.length = q.dnode.length := by
  simpa using congrArg List.length (Prod.mk.inj h).1

theorem edgeTarget_congr : p.edgeTarget = q.edgeTarget := by
  funext u k
  rw [edgeTarget_eq_unmark, edgeTarget_eq_unmark, map_unmark_nodeList h, length_dnode_congr h]

theorem edgeXid_congr : p.edgeXid = q.edgeXid := by
  funext u k
  have hxid : ∀ p : Packet, ∀ v : Nat, (p.nodeList[v]?).map XidNode.xid =
      ((p.nodeList.map unmark)[v]?).map XidNode.xid := by
    intro p v
    rw [getElem?_map, Option.map_map]
    rfl
  simp only [edgeXid, hxid, edgeTarget_congr h, map_unmark_nodeList h]

theorem srcPath_congr : p.srcPath = q.srcPath := by
  have hparse : ∀ nodes, XiaPath.parseNode nodes = XiaPath.parseNode (nodes.map unmark) := by
    intro nodes
    have hnode : ∀ n, XiaPath.ofWireNode (unmark n) = XiaPath.ofWireNode n := by
      intro n
      simp only [XiaPath.ofWireNode, unmark, Vector.toList_map, List.filter_map, List.map_map]
      rfl
    unfold XiaPath.parseNode
    rw [getLast?_map, ← map_dropLast, List.map_map]
    cases nodes.getLast? with
    | none => rfl
    | some last =>
      simp only [map_some, hnode, comp_def]
      rfl
  rw [srcPath, srcPath, hparse, (Prod.mk.inj h).2, ← hparse]

end

theorem unmark_markNode (n : XidNode) : unmark (markNode k n) = unmark n := by
  rw [unmark, unmark, markNode, XidNode.mk.injEq]
  refine ⟨rfl, ?_⟩
  ext j hj
  simp only [Vector.getElem_map, Vector.getElem_mapIdx]
  split <;> rfl

theorem links_markVisited (p : Packet) : (p.markVisited i k).links = p.links := by
  have hmodify : ∀ (l : List XidNode) j, (l.modify j (markNode k)).map unmark = l.map unmark := by
    intro l j
    apply ext_getElem?
    intro m
    rw [getElem?_map, getElem?_map, getElem?_modify]
    cases l[m]? with
    | none => rfl
    | some n => by_cases hj : j = m <;> simp [hj, unmark_markNode]
  unfold links markVisited
  dsimp only
  split
  · rw [hmodify]
  · rw [hmodify, hmodify]

end Packet

/-! ### What the tables learn -/

namespace RouteTable

variable {t : RouteTable} {p : Packet} {paint : Int16} {x : Xid}

theorem learn_learn (t : RouteTable) (sourceHid : Xid) (port : Int) :
    (t.learn sourceHid port).learn sourceHid port = t.learn sourceHid port := by
  have hknown : ∃ xrd, (t.learn sourceHid port).rts.lookup sourceHid = some xrd ∧
      xrd.port = port := by
    unfold learn
    cases hx : t.rts.lookup sourceHid with
    | none => exact ⟨_, by rw [lookup_insert_eq, if_pos rfl], rfl⟩
    | some xrd =>
      dsimp only
      split
      · exact ⟨_, by rw [lookup_insert_eq, if_pos rfl], rfl⟩
      · rename_i hport
        exact ⟨xrd, hx, not_not.1 hport⟩
  obtain ⟨xrd, hx, hport⟩ := hknown
  rw [learn, hx]
  exact if_neg (not_not.2 hport)

theorem localHid_learn (t : RouteTable) (sourceHid : Xid) (port : Int) :
    (t.learn sourceHid port).localHid = t.localHid := by
  unfold learn
  split
  · split <;> rfl
  · rfl

theorem afterLookup_afterLookup :
    (t.afterLookup p paint x).afterLookup p paint x = t.afterLookup p paint x := by
  cases hsender : senderHid p with
  | error e => simp only [afterLookup, hsender]
  | ok sourceHid =>
    by_cases hlearn : x = bhid ∧ t.localHid ≠ sourceHid
    · simp only [afterLookup, hsender, if_pos hlearn, localHid_learn, learn_learn]
    · simp only [afterLookup, hsender, if_neg hlearn]

end RouteTable

namespace Router

variable {r : Router} {p : Packet} {paint : Int16} {b : Bool} {x : Xid} {t : Principal} {u k : Nat}

def tables (r : Router) (p : Packet) (paint : Int16) (known : Bool) : Router :=
  if known then Function.update r .hid ((r .hid).afterLookup p paint bhid) else r

theorem update_tables (ht : Principal.ofType x.type = some t) :
    Function.update (r.tables p paint b) t ((r.tables p paint b t).afterLookup p paint x) =
      r.tables p paint (b || decide (x = bhid)) := by
  by_cases hx : x = bhid
  · subst hx
    obtain rfl : Principal.hid = t := Option.some.inj ht
    cases b with
    | false => simp [tables]
    | true => simp [tables, RouteTable.afterLookup_afterLookup]
  · rw [RouteTable.afterLookup_of_ne hx, update_eq_self]
    simp [hx]

/-- The position after the current node, if it is one of the router's own and the packet has not
arrived there. -/
def walk (r : Router) (p : Packet) (paint : Int16) : Bool × Nat → Option (Bool × Nat)
  | (known, u) =>
    (firstEdge (r.tables p paint known) p paint u).bind fun k =>
      match verdict (r.tables p paint known) p paint u k with
      | .taken t port => (p.edgeTarget u k).bind fun v =>
        if port = destinedForLocalhost ∧ t ≠ .sid ∧ v + 1 ≠ p.dnode.length then
          some (known || decide (p.edgeXid u k = some bhid), v)
        else none
      | _ => none

theorem walk_eq_some_iff {known known' : Bool} {u v : Nat} :
    r.walk p paint (known, u) = some (known', v) ↔
      ∃ k t, firstEdge (r.tables p paint known) p paint u = some k ∧
        verdict (r.tables p paint known) p paint u k = .taken t destinedForLocalhost ∧ t ≠ .sid ∧
        p.edgeTarget u k = some v ∧ v + 1 ≠ p.dnode.length ∧
        known' = (known || decide (p.edgeXid u k = some bhid)) := by
  rw [walk, bind_eq_some_iff]
  constructor
  · rintro ⟨k, hk, h⟩
    split at h
    · rename_i t port hv
      obtain ⟨w, hw, hpos⟩ := bind_eq_some_iff.1 h
      split at hpos
      · rename_i hcond
        obtain ⟨rfl, hsid, hne⟩ := hcond
        cases hpos
        exact ⟨k, t, hk, hv, hsid, hw, hne, rfl⟩
      · cases hpos
    · cases h
  · rintro ⟨k, t, hk, hv, hsid, hw, hne, rfl⟩
    refine ⟨k, hk, ?_⟩
    rw [hv]
    dsimp only
    rw [hw, bind_some, if_pos ⟨rfl, hsid, hne⟩]

/-- The lookup at a position accesses a node that does not exist. -/
def Stuck (r : Router) (p : Packet) (paint : Int16) : Bool × Nat → Prop
  | (known, u) => ∃ k, firstEdge (r.tables p paint known) p paint u = some k ∧
      verdict (r.tables p paint known) p paint u k = .stuck

theorem verdict_congr {q : Packet} (h : p.links = q.links) :
    r.verdict p paint u k = r.verdict q paint u k := by
  have hsender : RouteTable.senderHid p = RouteTable.senderHid q := by
    rw [RouteTable.senderHid, RouteTable.senderHid, Packet.srcPath_congr h]
  simp only [verdict, RouteTable.portOf, Packet.edgeXid_congr h, hsender]

theorem firstEdge_congr {q : Packet} (h : p.links = q.links) :
    r.firstEdge p paint u = r.firstEdge q paint u := by
  simp only [firstEdge, verdict_congr h]

theorem afterLookup_congr {q : Packet} {t : RouteTable} (h : p.links = q.links) :
    t.afterLookup p paint x = t.afterLookup q paint x := by
  simp only [RouteTable.afterLookup, RouteTable.senderHid, Packet.srcPath_congr h]

end Router

/-! ### The elements walk -/

section

open StateTransition Relation

variable (beyond : Nat → UInt8) {r : Router} {f : Frame} {u k v : Nat}

theorem nextHop_eq (h : f.At u k) (hv : f.packet.edgeTarget u k = some v) :
    ∃ g, nextHop f = .ok g ∧ g.On v ∧ g.packet.links = f.packet.links ∧ g.paint = f.paint ∧
      g.packet.last.toInt = v := by
  obtain ⟨x, hx⟩ := Packet.exists_edgeXid hv
  obtain ⟨e, hcur, ⟨hnone, -⟩ | ⟨-, -, -, -, hlt, htarget⟩⟩ := h.cases_edgeXid
  · rw [hnone] at hx
    cases hx
  · obtain rfl : e.idx.val = v := Option.some.inj (htarget.symm.trans hv)
    set q := { f.packet.markVisited f.packet.lastIndex.toNat f.nextPath.toNat with
      last := Int8.ofNat e.idx.val } with hq
    have hlinks : q.links = f.packet.links := Packet.links_markVisited f.packet
    have hlast : q.last.toInt = e.idx.val := Int8.toInt_ofNat_of_lt (by omega)
    have hlt' : e.idx.val < q.dnode.length := by
      rwa [Packet.length_dnode_congr hlinks]
    refine ⟨{ f with packet := q }, ?_, ⟨?_, ?_, Nat.zero_lt_of_lt hlt'⟩, hlinks, rfl, hlast⟩
    · rw [nextHop, hcur]
      rfl
    · rw [Packet.lastIndex, hlast, if_neg (by omega)]
    · rw [Packet.nodeList, length_append]
      exact Nat.lt_add_right _ hlt'

theorem Config.reaches_of_stay {beyond : Nat → UInt8} {c d : Config}
    (h : Reaches₁ (Config.stay beyond) c d) : Reaches₁ (Config.next beyond) c d :=
  TransGen.mono (fun _ _ hstay => Config.next_of_stay hstay) c d h

theorem Config.next_of_step {beyond : Nat → UInt8} {c : Config} {s : Step}
    (h : c.step beyond = .ok s) :
    c.next beyond = s.next.map fun q => ⟨s.router, q.1, q.2⟩ := by
  rw [Config.next, h]

theorem reaches_routeTable (h : f.On u) (hk : r.firstEdge f.packet f.paint u = some k)
    (hv : r.verdict f.packet f.paint u k ≠ .unknown) :
    ∃ g x t, f.Like g ∧ g.At u k ∧ f.packet.edgeXid u k = some x ∧
      Principal.ofType x.type = some t ∧
      Reaches₁ (Config.stay beyond) (r.start f) ⟨r, .routeTable t, g⟩ := by
  obtain ⟨x, t, hx, ht⟩ := exists_table_of_verdict hv
  have hfirst := reaches_firstEdge beyond h (r := r)
  rw [hk] at hfirst
  obtain ⟨g, hlike, hat, hreach⟩ := hfirst
  exact ⟨g, x, t, hlike, hat, hx, ht,
    hreach.tail (stay_classifier beyond hat (hlike.packet ▸ hx) ht)⟩

theorem reaches_nextHop {t : Principal} (h : f.On u) (hk : r.firstEdge f.packet f.paint u = some k)
    (hv : r.verdict f.packet f.paint u k = .taken t destinedForLocalhost) :
    ∃ g x, f.Like g ∧ g.At u k ∧ f.packet.edgeXid u k = some x ∧ Principal.ofType x.type = some t ∧
      Reaches₁ (Config.stay beyond) (r.start f)
        ⟨Function.update r t ((r t).afterLookup f.packet f.paint x), .nextHop t, g⟩ := by
  obtain ⟨g, x, t', hlike, hat, hx, ht, hreach⟩ :=
    reaches_routeTable beyond h hk (by rw [hv]; exact Router.Verdict.noConfusion)
  have htable := step_routeTable beyond r hat (hlike.packet ▸ hx) ht
  rw [hlike.packet, hlike.paint, hv] at htable
  obtain ⟨rfl, out, g', hlike', hpath, -, hstep⟩ := htable
  rw [if_pos rfl] at hstep
  exact ⟨g', x, hlike.trans hlike', ⟨hlike'.on hat.toOn, hpath ▸ hat.path, hat.path_lt⟩, hx, ht,
    hreach.tail (Config.stay_of_step (by simp) hstep rfl)⟩

theorem next_nextHop {g : Frame} {t : Principal} (ht : t ≠ .sid) (h : nextHop f = .ok g) :
    Config.next beyond ⟨r, .nextHop t, f⟩ = some ⟨r, .checkDest, g⟩ := by
  simp only [Config.next, Config.step, h, Result.ok_bind, if_neg ht]
  rfl

theorem reaches_firstPath {t : Principal} (h : f.On u)
    (hk : r.firstEdge f.packet f.paint u = some k)
    (hv : r.verdict f.packet f.paint u k = .taken t destinedForLocalhost) (ht : t ≠ .sid)
    (htarget : f.packet.edgeTarget u k = some v) (hne : v + 1 ≠ f.packet.dnode.length) :
    ∃ g x, f.packet.edgeXid u k = some x ∧ Principal.ofType x.type = some t ∧ g.On v ∧
      g.packet.links = f.packet.links ∧ g.paint = f.paint ∧
      Reaches₁ (Config.next beyond) (r.start f)
        (Router.start (Function.update r t ((r t).afterLookup f.packet f.paint x)) g) := by
  obtain ⟨g, x, hlike, hat, hx, htype, hreach⟩ := reaches_nextHop beyond h hk hv
  obtain ⟨g', hhop, hon, hlinks, hpaint, hlast⟩ := nextHop_eq hat (hlike.packet ▸ htarget)
  set r' := Function.update r t ((r t).afterLookup f.packet f.paint x)
  have hback : Config.next beyond ⟨r', .checkDest, g'⟩ = some (Router.start r' g') := by
    have hcheck : checkDest g' = false := by
      rw [hlike.packet] at hlinks
      rw [checkDest, hlast, Packet.length_dnode_congr hlinks]
      exact decide_eq_false (by omega)
    simp only [Config.next, Config.step, hcheck]
    rfl
  refine ⟨g', x, hx, htype, hon, hlinks.trans (by rw [hlike.packet]), hpaint.trans hlike.paint, ?_⟩
  exact ((Config.reaches_of_stay hreach).tail (next_nextHop beyond ht hhop)).tail hback

theorem arrives {t : Principal} (h : f.On u) (hk : r.firstEdge f.packet f.paint u = some k)
    (hv : r.verdict f.packet f.paint u k = .taken t destinedForLocalhost)
    (hend : t ≠ .sid → ∀ v, f.packet.edgeTarget u k = some v → v + 1 = f.packet.dnode.length) :
    ∃ d s, Reaches (Config.next beyond) (r.start f) d ∧ d.step beyond = .ok s ∧ s.next = none := by
  obtain ⟨g, x, hlike, hat, hx, -, hreach⟩ := reaches_nextHop beyond h hk hv
  obtain ⟨v, htarget⟩ := Packet.exists_edgeTarget hx
  obtain ⟨g', hhop, -, hlinks, -, hlast⟩ := nextHop_eq hat (hlike.packet ▸ htarget)
  have hreach := Config.reaches_of_stay hreach
  set r' := Function.update r t ((r t).afterLookup f.packet f.paint x)
  by_cases hsid : t = .sid
  · refine ⟨_, ⟨r', [(.arrived, g'.setPaint destinedForLocalhost)], none⟩,
      hreach.to_reflTransGen, ?_, rfl⟩
    simp only [Config.step, hhop, Result.ok_bind, if_pos hsid]
    rfl
  · have hcheck : checkDest g' = true := by
      have hv := hend hsid v htarget
      rw [hlike.packet] at hlinks
      rw [checkDest, hlast, Packet.length_dnode_congr hlinks]
      exact decide_eq_true (by omega)
    refine ⟨_, ⟨r', [(.arrived, g'.setPaint destinedForLocalhost)], none⟩,
      (hreach.tail (next_nextHop beyond hsid hhop)).to_reflTransGen, ?_, rfl⟩
    simp only [Config.step, hcheck, if_true]
    rfl

theorem Config.mem_eval {beyond : Nat → UInt8} {c d : Config} {s : Step}
    (h : Reaches (Config.next beyond) c d) (hstep : d.step beyond = .ok s) (hnone : s.next = none) :
    d ∈ eval (Config.next beyond) c :=
  StateTransition.mem_eval.2 ⟨h, by rw [Config.next_of_step hstep, hnone]; rfl⟩

/-- Everywhere else the loop ends, with a fault exactly if the lookup is stuck. -/
theorem mem_eval_start (h : f.On u) (hend : ∀ k t v, r.firstEdge f.packet f.paint u = some k →
      r.verdict f.packet f.paint u k = .taken t destinedForLocalhost → t ≠ .sid →
      f.packet.edgeTarget u k = some v → v + 1 = f.packet.dnode.length) :
    ∃ d ∈ eval (Config.next beyond) (r.start f), d.step beyond = .error .outOfBounds ↔
      ∃ k, r.firstEdge f.packet f.paint u = some k ∧ r.verdict f.packet f.paint u k = .stuck := by
  have hfirst := reaches_firstEdge beyond h (r := r)
  -- a step without a fault and without a next element
  have hok {d : Config} {s : Step} (hreach : Reaches (Config.next beyond) (r.start f) d)
      (hstep : d.step beyond = .ok s) (hnone : s.next = none)
      (hno : ∀ k, r.firstEdge f.packet f.paint u = some k →
        r.verdict f.packet f.paint u k ≠ .stuck) :
      ∃ d ∈ eval (Config.next beyond) (r.start f), d.step beyond = .error .outOfBounds ↔
        ∃ k, r.firstEdge f.packet f.paint u = some k ∧ r.verdict f.packet f.paint u k = .stuck := by
    refine ⟨d, Config.mem_eval hreach hstep hnone, ⟨fun herror => ?_, ?_⟩⟩
    · rw [hstep] at herror
      cases herror
    · rintro ⟨k, hk, hv⟩
      exact absurd hv (hno k hk)
  cases hk : r.firstEdge f.packet f.paint u with
  | none =>
    rw [hk] at hfirst
    obtain ⟨g, -, hreach, hstep⟩ := hfirst
    rw [← hk]
    exact hok (Config.reaches_of_stay hreach).to_reflTransGen hstep rfl (by simp [hk])
  | some k =>
    rw [hk] at hfirst
    obtain ⟨g, hlike, hat, hreach⟩ := hfirst
    have hno (hne : r.verdict f.packet f.paint u k ≠ .stuck) (j : Nat)
        (hj : r.firstEdge f.packet f.paint u = some j) :
        r.verdict f.packet f.paint u j ≠ .stuck := by
      rw [hk] at hj
      exact Option.some.inj hj ▸ hne
    rw [← hk]
    by_cases hunknown : r.verdict f.packet f.paint u k = .unknown
    · have hstep := step_classifier beyond r hat
      rw [hlike.packet, verdict_eq_unknown_iff.1 hunknown] at hstep
      exact hok (Config.reaches_of_stay hreach).to_reflTransGen hstep rfl
        (hno (by rw [hunknown]; exact Router.Verdict.noConfusion))
    · obtain ⟨g, x, t, hlike, hat, hx, ht, hreach⟩ := reaches_routeTable beyond h hk hunknown
      have hreach := (Config.reaches_of_stay hreach).to_reflTransGen
      have htable := step_routeTable beyond r hat (hlike.packet ▸ hx) ht
      rw [hlike.packet, hlike.paint] at htable
      cases hv : r.verdict f.packet f.paint u k with
      | unknown => exact absurd hv hunknown
      | skipped => exact absurd hv (firstEdge_eq_some_iff.1 hk).2.1
      | redirected =>
        rw [hv] at htable
        obtain ⟨r', hstep⟩ := htable
        exact hok hreach hstep rfl (hno (by simp [hv]))
      | stuck =>
        rw [hv] at htable
        refine ⟨_, StateTransition.mem_eval.2 ⟨hreach, ?_⟩, fun _ => ⟨k, hk, hv⟩, fun _ => htable⟩
        rw [Config.next, htable]
      | taken t' port =>
        rw [hv] at htable
        obtain ⟨rfl, out, g', hlike', hpath, -, hstep⟩ := htable
        have hno := hno (by simp [hv])
        by_cases hport : port = destinedForLocalhost
        · subst hport
          obtain ⟨d, s, hreach, hstep, hnone⟩ := arrives beyond h hk hv fun hsid v hv' =>
            hend k t' v hk hv hsid hv'
          exact hok hreach hstep hnone hno
        · exact hok hreach hstep (if_neg hport) hno

/-- A packet at the input that is at a position of the header `p`. -/
def Router.Follows (r : Router) (p : Packet) (paint : Int16) : Bool × Nat → Config → Prop
  | (known, u), c => ∃ f, c = Router.start (r.tables p paint known) f ∧ f.On u ∧
      f.packet.links = p.links ∧ f.paint = paint

/-- **The walk abstracts the elements of a router.** -/
theorem abstracts_walk (r : Router) (p : Packet) (paint : Int16) :
    Orbit.Abstracts (r.walk p paint) (Config.next beyond) (r.Follows p paint) fun pos d =>
      d.step beyond = .error .outOfBounds ↔ r.Stuck p paint pos := by
  rintro ⟨known, u⟩ c ⟨f, rfl, hon, hlinks, rfl⟩
  have hedge : ∀ k, Router.verdict (r.tables p f.paint known) p f.paint u k =
      Router.verdict (r.tables p f.paint known) f.packet f.paint u k := fun k =>
    Router.verdict_congr hlinks.symm
  have hfirst : Router.firstEdge (r.tables p f.paint known) p f.paint u =
      Router.firstEdge (r.tables p f.paint known) f.packet f.paint u :=
    Router.firstEdge_congr hlinks.symm
  cases hwalk : r.walk p f.paint (known, u) with
  | some pos =>
    obtain ⟨k, t, hk, hv, hsid, htarget, hne, hknown⟩ := Router.walk_eq_some_iff.1 hwalk
    rw [hfirst] at hk
    rw [hedge] at hv
    rw [Packet.edgeTarget_congr hlinks.symm] at htarget
    rw [Packet.length_dnode_congr hlinks.symm] at hne
    obtain ⟨g, x, hx, htype, hon', hlinks', hpaint, hreach⟩ :=
      reaches_firstPath beyond hon hk hv hsid htarget hne
    refine ⟨_, ⟨g, ?_, hon', hlinks'.trans hlinks, hpaint⟩, hreach⟩
    rw [Router.afterLookup_congr hlinks, Router.update_tables htype, hknown,
      Packet.edgeXid_congr hlinks.symm, hx]
    simp only [Option.some.injEq]
  | none =>
    have hend := mem_eval_start (r := r.tables p f.paint known) beyond hon fun k t v hk hv hsid
        htarget => by
      by_contra hne
      have hsome : r.walk p f.paint (known, u) =
          some (known || decide (p.edgeXid u k = some bhid), v) := by
        refine Router.walk_eq_some_iff.2 ⟨k, t, hfirst.trans hk, (hedge k).trans hv, hsid, ?_, ?_,
          rfl⟩
        · rwa [Packet.edgeTarget_congr hlinks.symm]
        · rwa [Packet.length_dnode_congr hlinks.symm]
      rw [hwalk] at hsome
      cases hsome
    simp only [Router.Stuck, hfirst, hedge]
    exact hend

end

end Xia
