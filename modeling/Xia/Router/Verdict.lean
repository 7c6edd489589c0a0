import Xia.Orbit
import Xia.Router.PacketRoute

/-!
# What a router does with a packet at a node

At the current node the router looks at the edges one after the other.  `Router.verdict` says what
becomes of an edge, as a function of the header and the tables: its type is not known and the packet
cannot be routed, it is skipped, or it is taken.  The first edge that is not skipped decides
(`Router.firstEdge`).  The elements do what the verdicts say (`reaches_edge`).
-/

namespace Xia

open Function List Option Result

/-! ### The header -/

namespace Packet

/-- The entry that the edge `k` of the entry `u` leads to, if the edge is used and there is one. -/
def edgeTarget (p : Packet) (u k : Nat) : Option Nat :=
  (p.nodeList[u]?).bind fun n => (n.edge.toList[k]?).bind fun e =>
    if e.idx.val ≠ xidEdgeUnused ∧ e.idx.val < p.dnode.length then some e.idx.val else none

def edgeXid (p : Packet) (u k : Nat) : Option Xid :=
  (p.edgeTarget u k).bind fun v => (p.nodeList[v]?).map XidNode.xid

theorem edgeTarget_lt {p : Packet} {u k v : Nat} (h : p.edgeTarget u k = some v) :
    v < p.dnode.length := by
  simp only [edgeTarget, bind_eq_some_iff] at h
  obtain ⟨n, -, e, -, h⟩ := h
  split at h
  · rename_i hused
    cases h
    exact hused.2
  · cases h

theorem exists_edgeXid {p : Packet} {u k v : Nat} (h : p.edgeTarget u k = some v) :
    ∃ x, p.edgeXid u k = some x := by
  have hlt : v < p.nodeList.length := by
    rw [nodeList, length_append]
    exact Nat.lt_add_right _ (edgeTarget_lt h)
  exact ⟨_, by rw [edgeXid, h, bind_some, getElem?_eq_getElem hlt]; rfl⟩

theorem exists_edgeTarget {p : Packet} {u k : Nat} {x : Xid} (h : p.edgeXid u k = some x) :
    ∃ v, p.edgeTarget u k = some v := by
  obtain ⟨v, hv, -⟩ := bind_eq_some_iff.1 h
  exact ⟨v, hv⟩

theorem nodeAt_eq_ok (p : Packet) {i : Int} (h₀ : 0 ≤ i) (h : i < p.nodeList.length) :
    ∃ n, p.nodeAt i = .ok n := by
  rw [nodeAt, if_neg (by omega), getElem?_eq_getElem (by omega)]
  exact ⟨_, rfl⟩

theorem nodeAt_eq_error (p : Packet) {i : Int} (h : ¬ (0 ≤ i ∧ i < p.nodeList.length)) :
    p.nodeAt i = .error .outOfBounds := by
  unfold nodeAt
  split
  · rfl
  · rw [getElem?_eq_none (by omega)]
    rfl

/-- The entry without its `visited` bits. -/
def unmark (n : XidNode) : XidNode :=
  { n with edge := n.edge.map fun e => { e with visited := false } }

/-- The entries of the header without their `visited` bits, which nothing reads. -/
def links (p : Packet) : List XidNode × List XidNode := (p.dnode.map unmark, p.snode.map unmark)

end Packet

/-! ### Verdicts -/

namespace Principal

/-- The table behind the output of the classifier for a type. -/
def ofType (type : UInt32) : Option Principal := all.find? fun t => t.type = type

end Principal

/-- What becomes of an edge. -/
inductive Router.Verdict where
  /-- there is no table for its type -/
  | unknown
  /-- its table is not enabled or has no route for it -/
  | skipped
  /-- the packet is a redirect message, which changes the table and is killed -/
  | redirected
  /-- the lookup accesses a node that does not exist -/
  | stuck
  /-- the route of the table is taken -/
  | taken (t : Principal) (port : Int)
deriving DecidableEq

/-- The ports with which a packet does not go to the next path. -/
def Accepted (port : Int) : Prop :=
  0 ≤ port ∨ port = destinedForLocalhost ∨ port = destinedForDhcp ∨ port = destinedForBroadcast

instance (port : Int) : Decidable (Accepted port) := inferInstanceAs (Decidable (_ ∨ _))

/-- The port of an XID.  A broadcast goes out if the sender is this host, and otherwise up; `none`
if there is no sender. -/
def RouteTable.portOf (t : RouteTable) (p : Packet) (x : Xid) : Option Int :=
  if x = bhid then
    (RouteTable.senderHid p).toOption.map fun sourceHid =>
      if t.localHid = sourceHid then destinedForBroadcast else destinedForLocalhost
  else some (t.rts.get t.rtdata x).port

def Router.verdict (r : Router) (p : Packet) (paint : Int16) (u k : Nat) : Router.Verdict :=
  match p.edgeXid u k with
  | none => .unknown
  | some x =>
    match Principal.ofType x.type with
    | none => .unknown
    | some t =>
      if !(r t).enabled then .skipped
      else if paint.toInt = redirect then .redirected
      else
        match (r t).portOf p x with
        | none => .stuck
        | some port => if Accepted port then .taken t port else .skipped

/-- The first edge of the entry `u` that is not skipped. -/
def Router.firstEdge (r : Router) (p : Packet) (paint : Int16) (u : Nat) : Option Nat :=
  (List.range xidEdgeNum).find? fun k => r.verdict p paint u k ≠ .skipped

/-! ### The elements at an edge -/

/-- The frame is at the entry `u` of a header that has a destination. -/
structure Frame.On (f : Frame) (u : Nat) : Prop where
  last : f.packet.lastIndex = u
  lt : u < f.packet.nodeList.length
  pos : 0 < f.packet.dnode.length

/-- The frame is at the entry `u` and considers the edge `k`. -/
structure Frame.At (f : Frame) (u k : Nat) : Prop extends f.On u where
  path : f.nextPath.toNat = k
  path_lt : k < xidEdgeNum

/-- The same packet with the same paint; the other annotations may differ. -/
structure Frame.Like (f g : Frame) : Prop where
  packet : g.packet = f.packet
  paint : g.paint = f.paint

namespace Frame

variable {f : Frame} {u k : Nat}

theorem Like.on {g : Frame} (hlike : f.Like g) (h : f.On u) : g.On u := by
  obtain ⟨hlast, hlt, hpos⟩ := h
  rw [← hlike.packet] at hlast hlt hpos
  exact ⟨hlast, hlt, hpos⟩

theorem Like.trans {g g' : Frame} (h : f.Like g) (h' : g.Like g') : f.Like g' :=
  ⟨h'.packet.trans h.packet, h'.paint.trans h.paint⟩

theorem nodeAt_natCast {p : Packet} {i : Nat} : p.nodeAt i = inBounds p.nodeList[i]? := by
  rw [Packet.nodeAt, if_neg (by omega), Int.toNat_natCast]

theorem At.currentEdge (h : f.At u k) : ∃ n e, f.packet.nodeList[u]? = some n ∧
    n.edge.toList[k]? = some e ∧ f.currentEdge = .ok e := by
  have hu := h.lt
  have hnode := getElem?_eq_getElem hu
  set n := f.packet.nodeList[u]
  have hlt : k < n.edge.toList.length := by simpa using h.path_lt
  refine ⟨n, n.edge.toList[k], hnode, getElem?_eq_getElem hlt, ?_⟩
  rw [Frame.currentEdge, h.last, nodeAt_natCast, hnode]
  change inBounds n.edge.toList[f.nextPath.toNat]? = _
  rw [h.path, getElem?_eq_getElem hlt]
  rfl

theorem At.cases_edgeXid (h : f.At u k) : ∃ e, f.currentEdge = .ok e ∧
    ((f.packet.edgeXid u k = none ∧
        ¬ (e.idx.val ≠ xidEdgeUnused ∧ e.idx.val < f.packet.dnode.length)) ∨
      ∃ n, f.packet.edgeXid u k = some n.xid ∧ f.packet.nodeAt e.idx.val = .ok n ∧
        e.idx.val ≠ xidEdgeUnused ∧ e.idx.val < f.packet.dnode.length ∧
          f.packet.edgeTarget u k = some e.idx.val) := by
  obtain ⟨n, e, hn, he, hcur⟩ := h.currentEdge
  refine ⟨e, hcur, ?_⟩
  have htarget : f.packet.edgeTarget u k =
      if e.idx.val ≠ xidEdgeUnused ∧ e.idx.val < f.packet.dnode.length then some e.idx.val
      else none := by
    rw [Packet.edgeTarget, hn, bind_some, he, bind_some]
  by_cases hused : e.idx.val ≠ xidEdgeUnused ∧ e.idx.val < f.packet.dnode.length
  · rw [if_pos hused] at htarget
    have hlt : e.idx.val < f.packet.nodeList.length := by
      rw [Packet.nodeList, length_append]
      omega
    refine .inr ⟨f.packet.nodeList[e.idx.val], ?_, ?_, hused.1, hused.2, htarget⟩
    · rw [Packet.edgeXid, htarget, bind_some, getElem?_eq_getElem hlt]
      rfl
    · rw [nodeAt_natCast, getElem?_eq_getElem hlt]
      rfl
  · rw [if_neg hused] at htarget
    exact .inl ⟨by rw [Packet.edgeXid, htarget]; rfl, hused⟩

theorem At.nextXidType (h : f.At u k) :
    nextXidType f = .ok ((f.packet.edgeXid u k).elim (-1) Xid.type) := by
  obtain ⟨e, hcur, ⟨hnone, hunused⟩ | ⟨n, hsome, hnode, hused, hlt, -⟩⟩ := h.cases_edgeXid
  · rw [Xia.nextXidType, if_pos (h.path ▸ h.path_lt), hcur, ok_bind, if_neg hunused, hnone]
    rfl
  · rw [Xia.nextXidType, if_pos (h.path ▸ h.path_lt), hcur, ok_bind, if_pos ⟨hused, hlt⟩,
      hnode, hsome]
    rfl

end Frame

theorem findIdx?_next (srcType dstType nextType : UInt32) (ts : List Principal) :
    ∃ i, (ts.map (fun t : Principal => Pattern.next t.type) ++ [Pattern.any]).findIdx?
        (Pattern.accepts srcType dstType nextType) = some i ∧
      ts[i]? = ts.find? fun t => t.type = nextType := by
  induction ts with
  | nil => exact ⟨0, rfl, rfl⟩
  | cons t ts ih =>
    by_cases ht : t.type = nextType
    · exact ⟨0, by simp [findIdx?_cons, Pattern.accepts, ht]⟩
    · obtain ⟨i, hi, hget⟩ := ih
      refine ⟨i + 1, ?_, ?_⟩
      · rw [map_cons, cons_append, findIdx?_cons, hi]
        simp [Pattern.accepts, Ne.symm ht]
      · rw [getElem?_cons_succ, hget, find?_cons]
        simp [ht]

section

variable {r : Router} {f : Frame} {u k : Nat}

theorem step_classifier (beyond : Nat → UInt8) (r : Router) (h : f.At u k) :
    Config.step beyond ⟨r, .classifier, f⟩ =
      match (f.packet.edgeXid u k).bind fun x => Principal.ofType x.type with
      | some t => .ok ⟨r, [], some (.routeTable t, f)⟩
      | none => .ok ⟨r, [(.unroutable, f)], none⟩ := by
  have hlt := h.lt
  have hpos := h.pos
  have hlength : f.packet.nodeList.length = f.packet.dnode.length + f.packet.snode.length :=
    length_append
  obtain ⟨dst, hdst⟩ := f.packet.nodeAt_eq_ok (i := f.packet.dnode.length - 1) (by omega) (by omega)
  obtain ⟨src, hsrc⟩ := f.packet.nodeAt_eq_ok
    (i := f.packet.dnode.length + f.packet.snode.length - 1) (by omega) (by omega)
  obtain ⟨i, hi, hget⟩ := findIdx?_next src.xid.type dst.xid.type
    ((f.packet.edgeXid u k).elim (-1) Xid.type) Principal.all
  have hclassify : classify routePatterns f = .ok (some i) := by
    rw [classify, hdst, ok_bind, hsrc, ok_bind, h.nextXidType, ok_bind, routePatterns, hi]
    rfl
  have htable : Principal.all[i]? =
      (f.packet.edgeXid u k).bind fun x => Principal.ofType x.type := by
    rw [hget]
    cases f.packet.edgeXid u k with
    | none => decide
    | some x => rfl
  rw [Config.step]
  dsimp only
  rw [hclassify, ok_bind]
  dsimp only
  rw [htable]
  cases (f.packet.edgeXid u k).bind fun x => Principal.ofType x.type <;> rfl

/-! ### The route table -/

theorem senderHid_eq_error {p : Packet} {e : Fault} (h : RouteTable.senderHid p = .error e) :
    e = .outOfBounds := by
  have hin {α : Type} {o : Option α} {e : Fault} (h : inBounds o = .error e) :
      e = .outOfBounds := by
    cases o with
    | none => exact (Except.error.inj h).symm
    | some a => cases h
  unfold RouteTable.senderHid XiaPath.removeNode at h
  cases hnode : inBounds ((p.srcPath.destinationNode).filter (· < p.srcPath.nodes.length)) with
  | error e' =>
    rw [hnode] at h
    rw [← Except.error.inj h]
    exact hin hnode
  | ok i =>
    rw [hnode] at h
    exact hin h

namespace RouteTable

/-- The table after the lookup of an XID: a broadcast of a neighbour is learned. -/
def afterLookup (t : RouteTable) (p : Packet) (paint : Int16) (x : Xid) : RouteTable :=
  match senderHid p with
  | .ok sourceHid =>
    if x = bhid ∧ t.localHid ≠ sourceHid then t.learn sourceHid paint.toInt else t
  | .error _ => t

theorem afterLookup_of_ne {t : RouteTable} {p : Packet} {paint : Int16} {x : Xid} (h : x ≠ bhid) :
    t.afterLookup p paint x = t := by
  unfold afterLookup
  cases senderHid p <;> simp [h]

/-- **The lookup gives the port of the XID**, and changes neither the packet nor its paint. -/
theorem lookupRoute_eq (t : RouteTable) (h : f.At u k) {x : Xid}
    (hx : f.packet.edgeXid u k = some x) :
    match t.portOf f.packet x with
    | none => t.lookupRoute f.paint.toInt f = .error .outOfBounds
    | some port => ∃ g, f.Like g ∧ g.nextPath = f.nextPath ∧
        t.lookupRoute f.paint.toInt f = .ok (port, t.afterLookup f.packet f.paint x, g) := by
  obtain ⟨e, hcur, ⟨hnone, -⟩ | ⟨n, hsome, hnode, hused, -, -⟩⟩ := h.cases_edgeXid
  · rw [hnone] at hx
    cases hx
  · obtain rfl : n.xid = x := by rw [hsome] at hx; exact Option.some.inj hx
    unfold lookupRoute portOf
    rw [hcur, ok_bind, if_neg hused, hnode, ok_bind]
    by_cases hbhid : n.xid = bhid
    · simp only [hbhid, if_true]
      cases hsender : senderHid f.packet with
      | error e' =>
        obtain rfl := senderHid_eq_error hsender
        rfl
      | ok sourceHid =>
        simp only [Except.toOption, map_some, ok_bind, afterLookup, hsender]
        by_cases hlocal : t.localHid = sourceHid
        · simp only [hlocal, if_true, ne_eq, not_true_eq_false, and_false, if_false]
          exact ⟨{ f with nexthop := some bhid }, ⟨rfl, rfl⟩, rfl, rfl⟩
        · simp only [hlocal, if_false, ne_eq, not_false_eq_true, and_self, if_true]
          exact ⟨f, ⟨rfl, rfl⟩, rfl, rfl⟩
    · simp only [hbhid, if_false]
      rw [afterLookup_of_ne hbhid]
      refine ⟨noteNexthop _ f, ?_, ?_, rfl⟩
      · unfold noteNexthop
        split <;> exact ⟨rfl, rfl⟩
      · unfold noteNexthop
        split <;> rfl

theorem exists_lookupRoute_iff (t : RouteTable) (h : f.At u k) {x : Xid} {port : Int}
    (hx : f.packet.edgeXid u k = some x) :
    (∃ table g, t.lookupRoute f.paint.toInt f = .ok (port, table, g)) ↔
      t.portOf f.packet x = some port := by
  have hspec := t.lookupRoute_eq h hx
  cases hport : t.portOf f.packet x with
  | none =>
    rw [hport] at hspec
    dsimp only at hspec
    simp [hspec]
  | some port' =>
    rw [hport] at hspec
    obtain ⟨g, -, -, hlookup⟩ := hspec
    rw [hlookup]
    constructor
    · rintro ⟨table, g', heq⟩
      cases heq
      rfl
    · rintro ⟨⟩
      exact ⟨_, _, rfl⟩

theorem accepted_of_portOf_bhid {t : RouteTable} {p : Packet} {port : Int}
    (h : t.portOf p bhid = some port) : Accepted port := by
  rw [portOf, if_pos rfl, map_eq_some_iff] at h
  obtain ⟨sourceHid, -, rfl⟩ := h
  split
  · exact .inr (.inr (.inr rfl))
  · exact .inr (.inl rfl)

theorem push_eq (beyond : Nat → UInt8) {t : RouteTable} {f : Frame} (henabled : t.enabled = true)
    (hpaint : f.paint.toInt ≠ redirect) :
    t.push beyond f = (t.lookupRoute f.paint.toInt f >>= fun s =>
      pure (s.2.1, redirectClone s.1 f.paint.toInt s.2.2 ++ s.2.1.dispatch s.1 s.2.2)) := by
  unfold push
  rw [henabled]
  exact if_neg hpaint

theorem findSome?_tableNext (t : RouteTable) (pr : Principal) (port inEtherPort : Int) (g : Frame) :
    (redirectClone port inEtherPort g ++ t.dispatch port g).findSome? (tableNext pr) =
      if port = destinedForLocalhost then some (.nextHop pr, g)
      else if Accepted port then none else some (.nextPath, g) := by
  have hclone : (redirectClone port inEtherPort g).findSome? (tableNext pr) = none := by
    unfold redirectClone
    split <;> rfl
  rw [findSome?_append, hclone, none_or]
  unfold dispatch
  by_cases h₀ : 0 ≤ port
  · have hne : port ≠ destinedForLocalhost := by unfold destinedForLocalhost; omega
    rw [if_pos h₀, if_neg hne, if_pos (.inl h₀)]
    rfl
  · rw [if_neg h₀]
    by_cases h₁ : port = destinedForLocalhost
    · rw [if_pos h₁, if_pos h₁]
      rfl
    · rw [if_neg h₁, if_neg h₁]
      by_cases h₂ : port = destinedForDhcp
      · rw [if_pos h₂, if_pos (.inr (.inr (.inl h₂)))]
        rfl
      · rw [if_neg h₂]
        by_cases h₃ : port = destinedForBroadcast
        · rw [if_pos h₃, if_pos (.inr (.inr (.inr h₃))), findSome?_eq_none_iff]
          intro q hq
          obtain ⟨i, -, rfl⟩ := List.mem_map.1 hq
          rfl
        · have hno : ¬ Accepted port := by
            rintro (h | h | h | h)
            · exact h₀ h
            · exact h₁ h
            · exact h₂ h
            · exact h₃ h
          rw [if_neg h₃, if_neg hno]
          rfl

end RouteTable

theorem tableExit_ne {t : Principal} {q : Nat × Frame} {e : Exit} {g : Frame}
    (he : e = .unroutable ∨ e = .arrived) : tableExit t q ≠ some (e, g) := by
  unfold tableExit postRoute
  rcases he with rfl | rfl
  all_goals
    split
    · split <;> simp
    · split <;> simp
    · simp
    · simp

variable (beyond : Nat → UInt8) {x : Xid} {t : Principal}

theorem verdict_eq {p : Packet} {paint : Int16} (hx : p.edgeXid u k = some x)
    (ht : Principal.ofType x.type = some t) :
    r.verdict p paint u k =
      if !(r t).enabled then .skipped
      else if paint.toInt = redirect then .redirected
      else
        match (r t).portOf p x with
        | none => .stuck
        | some port => if Accepted port then .taken t port else .skipped := by
  rw [Router.verdict, hx]
  dsimp only
  rw [ht]

theorem step_of_push {table : RouteTable} {outs : List (Nat × Frame)}
    (hpush : (r t).push beyond f = .ok (table, outs)) :
    Config.step beyond ⟨r, .routeTable t, f⟩ =
      .ok ⟨Function.update r t table, outs.filterMap (tableExit t),
        outs.findSome? (tableNext t)⟩ := by
  rw [Config.step]
  dsimp only
  rw [hpush]
  rfl

theorem step_lookup (h : f.At u k) (hx : f.packet.edgeXid u k = some x)
    (henabled : (r t).enabled = true) (hpaint : f.paint.toInt ≠ redirect) :
    match (r t).portOf f.packet x with
    | none => Config.step beyond ⟨r, .routeTable t, f⟩ = .error .outOfBounds
    | some port => ∃ out g, f.Like g ∧ g.nextPath = f.nextPath ∧
        (∀ e g', (e, g') ∈ out → e ≠ .unroutable) ∧
        Config.step beyond ⟨r, .routeTable t, f⟩ =
          .ok ⟨Function.update r t ((r t).afterLookup f.packet f.paint x), out,
            if port = destinedForLocalhost then some (.nextHop t, g)
            else if Accepted port then none else some (.nextPath, g)⟩ := by
  have hlookup := RouteTable.lookupRoute_eq (r t) h hx
  have hpush := RouteTable.push_eq beyond henabled hpaint
  cases hport : (r t).portOf f.packet x with
  | none =>
    rw [hport] at hlookup
    dsimp only at hlookup ⊢
    rw [Config.step]
    dsimp only
    rw [hpush, hlookup]
    rfl
  | some port =>
    rw [hport] at hlookup
    dsimp only at hlookup ⊢
    obtain ⟨g, hlike, hpath, hlookup⟩ := hlookup
    set table := (r t).afterLookup f.packet f.paint x
    refine ⟨(RouteTable.redirectClone port f.paint.toInt g ++
      table.dispatch port g).filterMap (tableExit t), g, hlike, hpath, ?_, ?_⟩
    · intro e g' hmem he
      obtain ⟨q, -, hq⟩ := mem_filterMap.1 hmem
      exact tableExit_ne (.inl he) hq
    · rw [hlookup, ok_bind] at hpush
      rw [step_of_push beyond hpush, table.findSome?_tableNext t port f.paint.toInt g]

/-- **The step of a table is what the verdict says.** -/
theorem step_routeTable (r : Router) (h : f.At u k) (hx : f.packet.edgeXid u k = some x)
    (ht : Principal.ofType x.type = some t) :
    match r.verdict f.packet f.paint u k with
    | .unknown => False
    | .skipped => ∃ out g, f.Like g ∧ g.nextPath = f.nextPath ∧
        (∀ e g', (e, g') ∈ out → e ≠ .unroutable) ∧
        Config.step beyond ⟨r, .routeTable t, f⟩ = .ok ⟨r, out, some (.nextPath, g)⟩
    | .redirected => ∃ r', Config.step beyond ⟨r, .routeTable t, f⟩ = .ok ⟨r', [], none⟩
    | .stuck => Config.step beyond ⟨r, .routeTable t, f⟩ = .error .outOfBounds
    | .taken t' port => t' = t ∧ ∃ out g, f.Like g ∧ g.nextPath = f.nextPath ∧
        (∀ e g', (e, g') ∈ out → e ≠ .unroutable) ∧
        Config.step beyond ⟨r, .routeTable t, f⟩ =
          .ok ⟨Function.update r t ((r t).afterLookup f.packet f.paint x), out,
            if port = destinedForLocalhost then some (.nextHop t, g) else none⟩ := by
  rw [verdict_eq hx ht]
  cases henabled : (r t).enabled with
  | false =>
    have hpush : (r t).push beyond f = .ok (r t, [(2, f)]) := by
      unfold RouteTable.push
      rw [henabled]
      rfl
    refine ⟨[], f, ⟨rfl, rfl⟩, rfl, by simp, ?_⟩
    rw [step_of_push beyond hpush, update_eq_self]
    rfl
  | true =>
    rw [if_neg (by decide)]
    by_cases hpaint : f.paint.toInt = redirect
    · have hpush : (r t).push beyond f = .ok ((r t).processXcmpRedirect beyond f.packet, []) := by
        unfold RouteTable.push
        rw [henabled]
        exact if_pos hpaint
      rw [if_pos hpaint]
      exact ⟨_, step_of_push beyond hpush⟩
    · rw [if_neg hpaint]
      have hstep := step_lookup beyond h hx henabled hpaint
      cases hport : (r t).portOf f.packet x with
      | none =>
        rw [hport] at hstep
        exact hstep
      | some port =>
        rw [hport] at hstep
        dsimp only at hstep ⊢
        obtain ⟨out, g, hlike, hpath, hout, hstep⟩ := hstep
        by_cases hyes : Accepted port
        · rw [if_pos hyes] at hstep ⊢
          exact ⟨rfl, out, g, hlike, hpath, hout, hstep⟩
        · have hne : port ≠ destinedForLocalhost := fun heq => hyes (.inr (.inl heq))
          have hx : x ≠ bhid := by
            rintro rfl
            exact hyes (RouteTable.accepted_of_portOf_bhid hport)
          rw [RouteTable.afterLookup_of_ne hx, update_eq_self, if_neg hne, if_neg hyes] at hstep
          rw [if_neg hyes]
          exact ⟨out, g, hlike, hpath, hout, hstep⟩

end

theorem Config.mem_out {beyond : Nat → UInt8} {c : Config} {s : Step} {e : Exit} {g : Frame}
    (hstep : c.step beyond = .ok s) (hout : (e, g) ∈ s.out) :
    match c.stage with
    | .firstPath => False
    | .nextPath => e = .unroutable ∧ s.next = none
    | .classifier => e = .unroutable ∧ s.next = none
    | .routeTable t => ∃ table outs q, (c.router t).push beyond c.frame = .ok (table, outs) ∧
        q ∈ outs ∧ tableExit t q = some (e, g)
    | .nextHop t => e = .arrived ∧ t = .sid
    | .checkDest => e = .arrived ∧ checkDest c.frame = true ∧ g.packet = c.frame.packet := by
  obtain ⟨r, stage, f⟩ := c
  cases stage with
  | firstPath =>
    cases hstep
    cases hout
  | nextPath =>
    simp only [Config.step] at hstep
    split at hstep
    · cases hstep
      cases hout
    · cases hstep
      cases mem_singleton.1 hout
      exact ⟨rfl, rfl⟩
  | classifier =>
    obtain ⟨o, -, hstep⟩ := bind_eq_ok.1 hstep
    dsimp only at hstep
    split at hstep
    · cases hstep
      cases hout
    · split at hstep
      · cases hstep
        cases hout
      · cases hstep
        cases mem_singleton.1 hout
        exact ⟨rfl, rfl⟩
  | routeTable t =>
    obtain ⟨⟨table, outs⟩, hpush, hstep⟩ := bind_eq_ok.1 hstep
    cases hstep
    obtain ⟨q, hq, hexit⟩ := mem_filterMap.1 hout
    exact ⟨table, outs, q, hpush, hq, hexit⟩
  | nextHop t =>
    obtain ⟨g', -, hstep⟩ := bind_eq_ok.1 hstep
    split at hstep
    · rename_i ht
      cases hstep
      cases mem_singleton.1 hout
      exact ⟨rfl, ht⟩
    · cases hstep
      cases hout
  | checkDest =>
    simp only [Config.step] at hstep
    split at hstep
    · rename_i hdest
      cases hstep
      cases mem_singleton.1 hout
      exact ⟨rfl, hdest, rfl⟩
    · cases hstep
      cases hout

/-! ### The edges one after the other -/

namespace Config

/-- The next element, as long as the packet stays at its node: `XIANextHop` moves it. -/
def stay (beyond : Nat → UInt8) (c : Config) : Option Config :=
  match c.stage with
  | .nextHop _ => none
  | _ => c.next beyond

variable {beyond : Nat → UInt8} {c d : Config}

theorem next_of_stay (h : c.stay beyond = some d) : c.next beyond = some d := by
  unfold stay at h
  split at h
  · cases h
  · exact h

theorem stay_of_step {s : Step} {stage : Stage} {f : Frame} (hc : ∀ t, c.stage ≠ .nextHop t)
    (h : c.step beyond = .ok s) (hs : s.next = some (stage, f)) :
    c.stay beyond = some ⟨s.router, stage, f⟩ := by
  have hnext : c.next beyond = some ⟨s.router, stage, f⟩ := by
    rw [next, h]
    dsimp only
    rw [hs]
    rfl
  unfold stay
  split
  · rename_i t ht
    exact absurd ht (hc t)
  · exact hnext

end Config

section

open StateTransition Relation

variable (beyond : Nat → UInt8) {r : Router} {f : Frame} {u k : Nat}
variable {p : Packet} {paint : Int16}

theorem verdict_eq_unknown_iff : r.verdict p paint u k = .unknown ↔
      ((p.edgeXid u k).bind fun x => Principal.ofType x.type) = none := by
  unfold Router.verdict
  cases p.edgeXid u k with
  | none => simp
  | some x =>
    rw [bind_some]
    dsimp only
    cases Principal.ofType x.type with
    | none => simp
    | some t =>
      simp only [reduceCtorEq, iff_false]
      split_ifs <;> try simp
      split <;> try split
      all_goals simp

theorem exists_table_of_verdict (hv : r.verdict p paint u k ≠ .unknown) :
    ∃ x t, p.edgeXid u k = some x ∧ Principal.ofType x.type = some t := by
  obtain ⟨t, ht⟩ := ne_none_iff_exists'.1 (mt verdict_eq_unknown_iff.2 hv)
  obtain ⟨x, hx, ht⟩ := bind_eq_some_iff.1 ht
  exact ⟨x, t, hx, ht⟩

theorem verdict_eq_taken_iff {t : Principal} {port : Int} : r.verdict p paint u k = .taken t port ↔
      ∃ x, p.edgeXid u k = some x ∧ Principal.ofType x.type = some t ∧ (r t).enabled = true ∧
        paint.toInt ≠ redirect ∧ (r t).portOf p x = some port ∧ Accepted port := by
  constructor
  · intro hv
    obtain ⟨x, t', hx, ht⟩ := exists_table_of_verdict (by rw [hv]; exact Router.Verdict.noConfusion)
    rw [verdict_eq hx ht] at hv
    split at hv
    · cases hv
    · rename_i henabled
      split at hv
      · cases hv
      · rename_i hpaint
        split at hv
        · cases hv
        · rename_i port' hport
          split at hv
          · rename_i hyes
            cases hv
            exact ⟨x, hx, ht, by simpa using henabled, hpaint, hport, hyes⟩
          · cases hv
  · rintro ⟨x, hx, ht, henabled, hpaint, hport, hyes⟩
    rw [verdict_eq hx ht, henabled, if_neg (by decide), if_neg hpaint, hport]
    exact if_pos hyes

theorem stay_classifier {x : Xid} {t : Principal} (h : f.At u k)
    (hx : f.packet.edgeXid u k = some x) (ht : Principal.ofType x.type = some t) :
    Config.stay beyond ⟨r, .classifier, f⟩ = some ⟨r, .routeTable t, f⟩ := by
  have hstep := step_classifier beyond r h
  rw [hx, bind_some, ht] at hstep
  exact Config.stay_of_step (by simp) hstep rfl

theorem reaches_nextPath (h : f.At u k) (hv : r.verdict f.packet f.paint u k = .skipped) :
    ∃ g, f.Like g ∧ g.nextPath = f.nextPath ∧
      Reaches₁ (Config.stay beyond) ⟨r, .classifier, f⟩ ⟨r, .nextPath, g⟩ := by
  obtain ⟨x, t, hx, ht⟩ := exists_table_of_verdict (by rw [hv]; decide)
  have htable := step_routeTable beyond r h hx ht
  rw [hv] at htable
  obtain ⟨out, g, hlike, hpath, -, hstep⟩ := htable
  refine ⟨g, hlike, hpath, ?_⟩
  exact .tail (.single (stay_classifier beyond h hx ht)) (Config.stay_of_step (by simp) hstep rfl)

theorem reaches_edge (h : f.At u 0) (hk : k < xidEdgeNum)
    (hskip : ∀ j < k, r.verdict f.packet f.paint u j = .skipped) :
    ∃ g, f.Like g ∧ g.At u k ∧
      Reaches (Config.stay beyond) ⟨r, .classifier, f⟩ ⟨r, .classifier, g⟩ := by
  induction k with
  | zero => exact ⟨f, ⟨rfl, rfl⟩, h, .refl⟩
  | succ k ih =>
    obtain ⟨g, hlike, hat, hreach⟩ := ih (by omega) fun j hj => hskip j (by omega)
    have hv : r.verdict g.packet g.paint u k = .skipped := by
      rw [hlike.packet, hlike.paint]
      exact hskip k (by omega)
    obtain ⟨g', hlike', hpath, hreach'⟩ := reaches_nextPath beyond hat hv
    have hnext : selectNext g' = ({ g' with nextPath := UInt8.ofNat (k + 1) }, true) := by
      rw [selectNext, hpath, hat.path]
      simp [hk]
    have hstep : Config.step beyond ⟨r, .nextPath, g'⟩ =
        .ok ⟨r, [], some (.classifier, { g' with nextPath := UInt8.ofNat (k + 1) })⟩ := by
      rw [Config.step]
      dsimp only
      rw [hnext]
      rfl
    have hall : f.Like { g' with nextPath := UInt8.ofNat (k + 1) } :=
      (hlike.trans hlike').trans ⟨rfl, rfl⟩
    refine ⟨_, hall, ⟨hall.on h.toOn, ?_, hk⟩, ?_⟩
    · have : k + 1 < 2 ^ 8 := by
        unfold xidEdgeNum at hk
        omega
      exact UInt8.toNat_ofNat_of_lt this
    · exact (hreach.trans hreach'.to_reflTransGen).tail (Config.stay_of_step (by simp) hstep rfl)

theorem firstEdge_eq_some_iff : r.firstEdge p paint u = some k ↔
    k < xidEdgeNum ∧ r.verdict p paint u k ≠ .skipped ∧
      ∀ j < k, r.verdict p paint u j = .skipped := by
  rw [Router.firstEdge, find?_range_eq_some]
  simp only [ne_eq, decide_not, Bool.not_not, Bool.not_eq_true', decide_eq_true_eq,
    decide_eq_false_iff_not, mem_range]
  exact and_left_comm

theorem exists_firstEdge (hk : k < xidEdgeNum) (hv : r.verdict p paint u k ≠ .skipped) :
    ∃ m ≤ k, r.firstEdge p paint u = some m := by
  cases hm : r.firstEdge p paint u with
  | none => exact absurd (by simpa using find?_range_eq_none.1 hm k hk) hv
  | some m =>
    refine ⟨m, not_lt.1 fun hlt => ?_, rfl⟩
    exact hv ((firstEdge_eq_some_iff.1 hm).2.2 k hlt)

/-- **The first edge that is not skipped decides**; if there is none, all have been tried. -/
theorem reaches_firstEdge (h : f.On u) :
    match r.firstEdge f.packet f.paint u with
    | some k => ∃ g, f.Like g ∧ g.At u k ∧
        Reaches₁ (Config.stay beyond) (r.start f) ⟨r, .classifier, g⟩
    | none => ∃ g, f.Like g ∧
        Reaches₁ (Config.stay beyond) (r.start f) ⟨r, .nextPath, g⟩ ∧
        Config.step beyond ⟨r, .nextPath, g⟩ =
          .ok ⟨r, [(.unroutable, (selectNext g).1)], none⟩ := by
  have hfirst : Config.stay beyond (r.start f) = some ⟨r, .classifier, selectFirst f⟩ := rfl
  have hat : (selectFirst f).At u 0 := ⟨⟨h.last, h.lt, h.pos⟩, rfl, by decide⟩
  cases hedge : r.firstEdge f.packet f.paint u with
  | some k =>
    obtain ⟨hk, -, hskip⟩ := firstEdge_eq_some_iff.1 hedge
    obtain ⟨g, hlike, hg, hreach⟩ := reaches_edge (f := selectFirst f) beyond hat hk hskip
    exact ⟨g, ⟨hlike.packet, hlike.paint⟩, hg, .head' hfirst hreach⟩
  | none =>
    have hskip : ∀ j < xidEdgeNum, r.verdict f.packet f.paint u j = .skipped := fun j hj => by
      simpa using find?_range_eq_none.1 hedge j hj
    obtain ⟨g, hlike, hg, hreach⟩ := reaches_edge (f := selectFirst f) (k := 3) beyond hat
      (by decide) fun j hj => hskip j (by unfold xidEdgeNum; omega)
    have hv : r.verdict g.packet g.paint u 3 = .skipped := by
      rw [hlike.packet, hlike.paint]
      exact hskip 3 (by decide)
    obtain ⟨g', hlike', hpath, hreach'⟩ := reaches_nextPath beyond hg hv
    have hall : (selectFirst f).Like g' := hlike.trans hlike'
    refine ⟨g', ⟨hall.packet, hall.paint⟩, .head' hfirst (hreach.trans hreach'.to_reflTransGen), ?_⟩
    have hnext : (selectNext g').2 = false := by
      rw [selectNext, hpath, hg.path]
      rfl
    rw [Config.step]
    dsimp only
    rw [← Prod.eta (selectNext g'), hnext]
    rfl

end

end Xia
