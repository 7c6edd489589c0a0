import Xia.Xrouted.Equiv.ShortestPath

/-!
# The routes

When the search has reached all ADs, the last loop goes back from every one of them to the first hop
of a shortest path, if this is not longer than 50 hops.  So every route leads to a neighbour that is
on a shortest path (`routes_sound`).

If one AD is not reached, the function returns without any routes.  So the routes are complete
exactly if all ADs can be reached, or none of them within 50 hops (`routes_complete_iff`).
-/

namespace Xia

open List Option AList

namespace Xrouted

open Dijkstra StdMap NetworkTable

namespace NetworkTable

variable {t t' : NetworkTable} {my v x : CString} {n : Nat}

/-! ### Going back -/

theorem get_follow (my : CString) (n : Nat) (t : NetworkTable) (x ad : CString) :
    (follow my n t ad).1.get x = t.get x := by
  induction n generalizing t ad with
  | zero => exact get_touch
  | succ n ih =>
    rw [follow]
    split
    · exact get_touch
    · rw [ih, get_touch]

theorem prevOf_touch (k : CString) : prevOf (t.touch k) = prevOf t := by
  funext x
  rw [prevOf, prevOf, get_touch]

theorem follow_eq_some {ad : CString} : (follow my n t ad).2 = some v ↔
    ∃ i < n, v = (prevOf t)^[i] ad ∧ prevOf t v = my ∧
      ∀ j < i, prevOf t ((prevOf t)^[j] ad) ≠ my := by
  induction n generalizing t ad with
  | zero => simp [follow]
  | succ n ih =>
    rw [follow, get_touch]
    by_cases hprev : (t.get ad).prevNode = my
    · rw [if_pos hprev, some_inj]
      constructor
      · rintro rfl
        exact ⟨0, Nat.succ_pos n, rfl, hprev, by simp⟩
      · rintro ⟨i, -, hv, -, hfirst⟩
        cases i with
        | zero => exact hv.symm
        | succ i => exact absurd hprev (hfirst 0 (Nat.succ_pos i))
    · rw [if_neg hprev, ih, prevOf_touch]
      constructor
      · rintro ⟨i, hi, hv, hmy, hfirst⟩
        refine ⟨i + 1, by omega, hv, hmy, fun j hj => ?_⟩
        cases j with
        | zero => exact hprev
        | succ j => exact hfirst j (by omega)
      · rintro ⟨i, hi, hv, hmy, hfirst⟩
        cases i with
        | zero =>
          rw [hv] at hmy
          exact absurd hmy hprev
        | succ i => exact ⟨i, by omega, hv, hmy, fun j hj => hfirst (j + 1) (by omega)⟩

theorem follow_congr (h : ∀ x, t.get x = t'.get x) (ad : CString) :
    (follow my n t ad).2 = (follow my n t' ad).2 := by
  have hprev : prevOf t = prevOf t' := funext fun x => by rw [prevOf, prevOf, h]
  refine Option.ext fun v => ?_
  rw [follow_eq_some, follow_eq_some, hprev]

end NetworkTable

namespace RouteState

variable {st st' : RouteState} {d k : CString}

/-! ### The last loop -/

def nextHopOf (st : RouteState) (d : CString) : Option CString :=
  (follow st.myAd maxHopCount st.networkTable d).2

def routeBy (st : RouteState) (d ad : CString) : RouteEntry :=
  ⟨d, (st.neighborTable.get ad).hid, (st.neighborTable.get ad).port, 0⟩

/-- The routes when the entries of the list have been passed through. -/
structure Routed (st : RouteState) (l : List CString) (st' : RouteState) : Prop where
  myAd : st'.myAd = st.myAd
  network : ∀ x, st'.networkTable.get x = st.networkTable.get x
  neighbor : ∀ x, st'.neighborTable.get x = st.neighborTable.get x
  hop : ∀ x, x ∈ st'.neighborTable ↔ x ∈ st.neighborTable ∨ ∃ d ∈ st'.adRouteTable,
    st.nextHopOf d = some x
  route : ∀ d r, st'.adRouteTable.lookup d = some r →
    ∃ k ∈ l, (st.networkTable.get k).dest = d ∧ d ≠ st.myAd ∧
      ∃ ad, st.nextHopOf d = some ad ∧ r = st.routeBy d ad
  mem : ∀ k ∈ l, ∀ d ad, (st.networkTable.get k).dest = d → d ≠ st.myAd → st.nextHopOf d = some ad →
    d ∈ st'.adRouteTable

theorem Routed.setNextHop {l : List CString} (h : Routed st l st') (k : CString) :
    Routed st (l ++ [k]) (st'.setNextHop k) := by
  have hroute (d r) (hr : st'.adRouteTable.lookup d = some r) :
      ∃ a ∈ l ++ [k], (st.networkTable.get a).dest = d ∧ d ≠ st.myAd ∧
        ∃ ad, st.nextHopOf d = some ad ∧ r = st.routeBy d ad := by
    obtain ⟨a, ha, hrest⟩ := h.route d r hr
    exact ⟨a, mem_append_left _ ha, hrest⟩
  have hnext (d) : (follow st'.myAd maxHopCount st'.networkTable d).2 = st.nextHopOf d := by
    rw [nextHopOf, h.myAd]
    exact follow_congr h.network d
  unfold RouteState.setNextHop
  dsimp only
  rw [h.network]
  generalize hdest : (st.networkTable.get k).dest = dest
  have hget (x) := get_follow st'.myAd maxHopCount st'.networkTable x dest
  have hnext := hnext dest
  split
  · rename_i hself
    refine ⟨h.myAd, h.network, h.neighbor, h.hop, hroute,
      forall_mem_append.2 ⟨h.mem, forall_mem_singleton.2 fun d ad hd hne => ?_⟩⟩
    exact absurd (hd.symm.trans (hdest.trans (hself.symm.trans h.myAd))) hne
  · rename_i hself
    split
    · rename_i t hfollow
      rw [hfollow] at hnext hget
      refine ⟨h.myAd, fun x => (hget x).trans (h.network x), h.neighbor, h.hop, hroute,
        forall_mem_append.2 ⟨h.mem, forall_mem_singleton.2 fun d ad hd _ hsome => ?_⟩⟩
      rw [← hd, hdest, ← hnext] at hsome
      cases hsome
    · rename_i t ad hfollow
      rw [hfollow] at hnext hget
      set routes := st'.adRouteTable.modify dest fun r => { r with
        dest := dest
        nextHop := (st'.neighborTable.get ad).hid
        port := (st'.neighborTable.get ad).port } with hroutes
      have hentry (d r) (hr : routes.lookup d = some r) :
          ∃ a ∈ l ++ [k], (st.networkTable.get a).dest = d ∧ d ≠ st.myAd ∧
            ∃ ad, st.nextHopOf d = some ad ∧ r = st.routeBy d ad := by
        by_cases hd : d = dest
        · subst hd
          have hr' := get_of_lookup hr
          rw [hroutes, get_modify_self] at hr'
          refine ⟨k, by simp, hdest, fun heq => hself (h.myAd.trans heq.symm), ad, hnext.symm, ?_⟩
          -- the flags are those of a new entry, or of a route that was found before
          have hflags : (st'.adRouteTable.get d).flags = 0 := by
            by_cases hmem : d ∈ st'.adRouteTable
            · obtain ⟨a, -, -, -, ad', -, heq⟩ := hroute _ _ (lookup_of_mem hmem)
              rw [heq]
              rfl
            · rw [get_of_not_mem hmem]
              rfl
          rw [← hr', routeBy, h.neighbor, hflags]
        · rw [hroutes, StdMap.modify, lookup_insert_ne hd] at hr
          exact hroute d r hr
      have hhop (x) : x ∈ st'.neighborTable.touch ad ↔ x ∈ st.neighborTable ∨
          ∃ d ∈ routes, st.nextHopOf d = some x := by
        rw [mem_touch, h.hop]
        constructor
        · rintro (rfl | hx | ⟨d, hd, hx⟩)
          · exact .inr ⟨_, mem_modify.2 (.inl rfl), hnext.symm⟩
          · exact .inl hx
          · exact .inr ⟨d, mem_modify.2 (.inr hd), hx⟩
        · rintro (hx | ⟨d, hd, hx⟩)
          · exact .inr (.inl hx)
          · obtain rfl | hd := mem_modify.1 hd
            · rw [← hnext, some_inj] at hx
              exact .inl hx.symm
            · exact .inr (.inr ⟨d, hd, hx⟩)
      refine ⟨h.myAd, fun x => (hget x).trans (h.network x),
        fun x => get_touch.trans (h.neighbor x), hhop, hentry, forall_mem_append.2
          ⟨fun a ha d ad' hd hne hsome => mem_modify.2 (.inr (h.mem a ha d ad' hd hne hsome)),
            forall_mem_singleton.2 fun d _ hd _ _ => mem_modify.2 (.inl ?_)⟩⟩
      rw [← hd, hdest]

/-- **The last loop** finds a route to every destination from which it can go back. -/
theorem routed_foldl (hempty : st.adRouteTable = ∅) (l : List CString) :
    Routed st l (l.foldl RouteState.setNextHop st) := by
  induction l using List.reverseRecOn with
  | nil =>
    refine ⟨rfl, fun _ => rfl, fun _ => rfl, fun x => ?_, fun d r hr => ?_, by simp⟩
    · rw [foldl_nil, hempty]
      simp [notMem_empty]
    · rw [foldl_nil, hempty] at hr
      cases hr
  | append_singleton l k ih =>
    rw [foldl_append]
    exact ih.setNextHop k

/-! ### The function -/

/-- The state in which routes are computed: every entry has its key as destination, and some
neighbours; those of the AD itself are known. -/
structure Regular (st : RouteState) : Prop where
  self : st.myAd ∈ st.networkTable
  dest : ∀ k ∈ st.networkTable, (st.networkTable.get k).dest = k
  count : ∀ k ∈ st.networkTable,
    (st.networkTable.get k).numNeighbors = (st.networkTable.get k).neighborList.length
  pos : ∀ k ∈ st.networkTable, 0 < (st.networkTable.get k).numNeighbors
  known : ∀ ad, st.networkTable.Advertises st.myAd ad → ad ∈ st.neighborTable

namespace Regular

variable (h : st.Regular)
include h

theorem filterAbnormal_eq_ok : st.networkTable.filterAbnormal = .ok () ↔ [] ∉ st.networkTable := by
  rw [NetworkTable.filterAbnormal_eq_ok]
  constructor
  · intro hall hmem
    have hnormal := hall [] hmem
    rw [NodeStateEntry.abnormal, h.dest [] hmem] at hnormal
    simp at hnormal
  · intro hnot k hk
    have hpos := h.pos k hk
    rw [NodeStateEntry.abnormal, h.dest k hk, Bool.or_eq_false_iff, decide_eq_false_iff_not,
      decide_eq_false_iff_not]
    exact ⟨by omega, fun heq => hnot (heq ▸ hk)⟩

/-- What the function does: the search has either reached all ADs, or it is given up. -/
theorem calcShortestPath_spec (hne : [] ∉ st.networkTable) :
    ∃ t table st', st.calcShortestPath = .ok st' ∧ Searching st.myAd st.networkTable table t ∧
      (((∀ k, k ∉ table) ∧ Routed { st with adRouteTable := ∅, networkTable := t } t.order st') ∨
        ((∃ k, k ∈ table) ∧ (∀ k ∈ table, infinity ≤ (t.get k).cost) ∧ st'.adRouteTable = ∅)) := by
  obtain ⟨b, t, table, hloop, hsearch, -, hend⟩ := mainLoop_spec (I := fun _ => True)
    (fun _ _ _ _ _ _ _ => trivial) (searching_init h.self fun k hk _ => h.dest k hk) trivial hne
    (Nat.lt_succ_self _)
  have hcalc : st.calcShortestPath =
      .ok (if b then t.order.foldl setNextHop { st with adRouteTable := ∅, networkTable := t }
        else { st with adRouteTable := ∅, networkTable := t }) := by
    unfold calcShortestPath
    rw [h.filterAbnormal_eq_ok.2 hne]
    simp only [bind, Except.bind, hloop, pure, Except.pure]
    split <;> rfl
  cases b with
  | true =>
    refine ⟨t, table, _, hcalc, hsearch, .inl ⟨?_, ?_⟩⟩
    · rwa [if_pos rfl] at hend
    · rw [if_pos rfl]
      exact routed_foldl rfl _
  | false =>
    rw [if_neg Bool.false_ne_true] at hend
    exact ⟨t, table, _, hcalc, hsearch, .inr ⟨hend.1, hend.2, rfl⟩⟩

theorem not_ok_of_mem (hmem : [] ∈ st.networkTable) (st' : RouteState) :
    st.calcShortestPath ≠ .ok st' := by
  intro hok
  unfold calcShortestPath at hok
  cases hfilter : st.networkTable.filterAbnormal with
  | error f =>
    rw [hfilter] at hok
    cases hok
  | ok u => exact h.filterAbnormal_eq_ok.1 hfilter hmem

end Regular

theorem mem_of_advertises {t : NetworkTable} {a b : CString} (h : t.Advertises a b) : a ∈ t := by
  by_contra hnot
  rw [Advertises, get_of_not_mem hnot] at h
  cases h

section

variable {my : CString} {t t₀ table : NetworkTable} (hsearch : Searching my t₀ table t)
include hsearch

/-- An AD that has been reached is as far away as its cost says, if none of the others can be
reached. -/
theorem isDist_of_done (hstuck : ∀ k ∈ table, infinity ≤ (t.get k).cost) (hd : d ∈ t₀)
    (hdone : d ∉ table) : IsDist t₀.Advertises my d (costOf my t d) ∧ costOf my t d < infinity := by
  have hlabels := hsearch.labels
  refine ⟨hlabels.isDist (fun a b hab _ => mem_of_advertises hab) (fun x hx hxD => ?_) ⟨hd, hdone⟩,
    hlabels.done d ⟨hd, hdone⟩⟩
  exact hsearch.infinity_le hstuck hx hxD

theorem nextHop_of_done (hd : d ∈ t₀) (hdone : d ∉ table) (hne : d ≠ my) :
    ∃ ad n, costOf my t d = n + 1 ∧ t₀.Advertises my ad ∧ Walk t₀.Advertises n ad d ∧
      ∀ v, (follow my maxHopCount t d).2 = some v ↔ n < maxHopCount ∧ v = ad := by
  have hlabels := hsearch.labels
  have hlt := hlabels.done d ⟨hd, hdone⟩
  obtain ⟨n, hn⟩ : ∃ n, costOf my t d = n + 1 :=
    ⟨_, (hlabels.label d hd hne hlt).2.2⟩
  obtain ⟨⟨-, hE, hprev⟩, hwalk, hfirst⟩ := hlabels.first hd hne hn hlt
  refine ⟨_, n, hn, hE, hwalk, fun v => ?_⟩
  rw [follow_eq_some]
  constructor
  · rintro ⟨i, hi, rfl, hv, hbefore⟩
    rcases Nat.lt_trichotomy i n with hin | rfl | hin
    · exact absurd hv (hfirst i hin)
    · exact ⟨hi, rfl⟩
    · exact absurd hprev (hbefore n hin)
  · rintro ⟨hlt, rfl⟩
    exact ⟨n, hlt, rfl, hprev, hfirst⟩

/-- An entry that was created by the search stands for the empty name.  A neighbour is found for it
only if it is one itself. -/
theorem nextHop_of_unnamed (hne : [] ∉ t₀) (hmy : my ≠ []) {n : Nat} {ad : CString}
    (h : (follow my n t []).2 = some ad) : ad = [] ∧ t₀.Advertises my [] := by
  obtain ⟨i, -, rfl, hprev, hbefore⟩ := follow_eq_some.1 h
  have hout := (hsearch.outside [] hne).2
  split at hout
  · rename_i hadv
    have hi : i = 0 := by
      by_contra hi
      exact hbefore 0 (by omega) hout
    rw [hi]
    exact ⟨rfl, hadv⟩
  · have hfixed : (prevOf t)^[i] [] = [] := Function.iterate_fixed hout i
    rw [hfixed, hout] at hprev
    exact absurd hprev.symm hmy

end

theorem isDist_one {t : NetworkTable} {a b : CString} (h : t.Advertises a b) (hne : a ≠ b) :
    IsDist t.Advertises a b 1 := by
  refine ⟨.concat (.nil a) h, fun m hm => ?_⟩
  have hpos : m ≠ 0 := by
    rintro rfl
    exact hne hm.eq_of_zero
  omega

/-! ### Soundness and completeness -/

/-- The routes to all ADs that can be reached within 50 hops are computed. -/
def RoutesComplete (st : RouteState) : Prop :=
  ∃ st', st.calcShortestPath = .ok st' ∧ ∀ d ∈ st.networkTable, d ≠ st.myAd →
    (∃ n ≤ maxHopCount, Walk st.networkTable.Advertises n st.myAd d) → d ∈ st'.adRouteTable

/-- **The routes are complete** exactly if no entry has an empty name, and all ADs can be reached or
none of them within 50 hops. -/
theorem routes_complete_iff (h : st.Regular) : st.RoutesComplete ↔ [] ∉ st.networkTable ∧
    ((∀ d ∈ st.networkTable, d ≠ st.myAd →
        ∃ n < infinity, Walk st.networkTable.Advertises n st.myAd d) ∨
      ∀ d ∈ st.networkTable, d ≠ st.myAd →
        ¬ ∃ n ≤ maxHopCount, Walk st.networkTable.Advertises n st.myAd d) := by
  by_cases hne : [] ∈ st.networkTable
  · refine iff_of_false ?_ fun hnot => hnot.1 hne
    rintro ⟨st', hok, -⟩
    exact h.not_ok_of_mem hne st' hok
  obtain ⟨t, table, st', hcalc, hsearch, hend⟩ := h.calcShortestPath_spec hne
  have hcomplete : st.RoutesComplete ↔ ∀ d ∈ st.networkTable, d ≠ st.myAd →
      (∃ n ≤ maxHopCount, Walk st.networkTable.Advertises n st.myAd d) → d ∈ st'.adRouteTable := by
    constructor
    · rintro ⟨st'', hok, hall⟩
      rw [hcalc, Except.ok.injEq] at hok
      exact hok ▸ hall
    · exact fun hall => ⟨st', hcalc, hall⟩
  rw [hcomplete]
  rcases hend with ⟨hall, hrouted⟩ | ⟨⟨k, hk⟩, hstuck, hempty⟩
  · -- all ADs have been reached
    have hstuck : ∀ k ∈ table, infinity ≤ (t.get k).cost := fun k hk => absurd hk (hall k)
    refine iff_of_true (fun d hd hdne ⟨n, hn, hwalk⟩ => ?_) ⟨hne, .inl fun d hd hdne => ?_⟩
    · obtain ⟨ad, m, hm, -, -, hfollow⟩ := nextHop_of_done hsearch hd (hall d) hdne
      have hle := (isDist_of_done hsearch hstuck hd (hall d)).1.2 n hwalk
      exact hrouted.mem d (mem_order.2 (hsearch.static.mem d hd)) d ad
        ((hsearch.static.dest d).trans (h.dest d hd)) hdne ((hfollow ad).2 ⟨by omega, rfl⟩)
    · obtain ⟨hdist, hlt⟩ := isDist_of_done hsearch hstuck hd (hall d)
      exact ⟨_, hlt, hdist.1⟩
  · -- the search has been given up, and there are no routes
    obtain ⟨hk₀, hkmy⟩ := hsearch.sub k hk
    have hunreached : ¬ ∃ n < infinity, Walk st.networkTable.Advertises n st.myAd k := by
      rintro ⟨n, hn, hwalk⟩
      refine hsearch.labels.no_walk (fun a b hab _ => mem_of_advertises hab)
        (fun x hx hxD => hsearch.infinity_le hstuck hx hxD) hk₀ (fun hD => hD.2 hk) hn hwalk
    have hnone (d : CString) : d ∉ st'.adRouteTable := by
      rw [hempty]
      exact notMem_empty d
    constructor
    · exact fun hroutes => ⟨hne, .inr fun d hd hdne hnear => hnone d (hroutes d hd hdne hnear)⟩
    · rintro ⟨-, hreached | hfar⟩
      · exact absurd (hreached k hk₀ hkmy) hunreached
      · exact fun d hd hdne hnear => absurd hnear (hfar d hd hdne)

/-- **Every route leads to the first hop of a shortest path**, and routes are computed unless an
entry has an empty name. -/
theorem routes_sound (h : st.Regular) :
    ([] ∉ st.networkTable → ∃ st', st.calcShortestPath = .ok st') ∧
    ∀ st', st.calcShortestPath = .ok st' → ∀ d r, st'.adRouteTable.lookup d = some r →
      r.dest = d ∧ ∃ ad nb n, st.networkTable.Advertises st.myAd ad ∧
        st.neighborTable.lookup ad = some nb ∧ r.nextHop = nb.hid ∧ r.port = nb.port ∧
        Walk st.networkTable.Advertises n ad d ∧
        ∀ m, Walk st.networkTable.Advertises m st.myAd d → n + 1 ≤ m := by
  refine ⟨fun hne => ?_, fun st' hok d r hr => ?_⟩
  · obtain ⟨-, -, st', hcalc, -⟩ := h.calcShortestPath_spec hne
    exact ⟨st', hcalc⟩
  have hne : [] ∉ st.networkTable := fun hmem => h.not_ok_of_mem hmem st' hok
  obtain ⟨t, table, st'', hcalc, hsearch, hend⟩ := h.calcShortestPath_spec hne
  rw [hcalc, Except.ok.injEq] at hok
  subst hok
  rcases hend with ⟨hall, hrouted⟩ | ⟨-, -, hempty⟩
  swap
  · rw [hempty] at hr
    cases hr
  obtain ⟨k, -, hdest, hdne, ad, hnext, rfl⟩ := hrouted.route d r hr
  have hknown {ad : CString} (had : st.networkTable.Advertises st.myAd ad) :=
    lookup_of_mem (h.known ad had)
  change (t.get k).dest = d at hdest
  rw [hsearch.static.dest] at hdest
  change (follow st.myAd maxHopCount t d).2 = some ad at hnext
  refine ⟨rfl, ?_⟩
  by_cases hk : k ∈ st.networkTable
  · -- an AD with an entry
    rw [h.dest k hk] at hdest
    subst hdest
    obtain ⟨v, n, hn, hadv, hwalk, hfollow⟩ := nextHop_of_done hsearch hk (hall k) hdne
    obtain ⟨-, rfl⟩ := (hfollow ad).1 hnext
    refine ⟨ad, _, n, hadv, hknown hadv, rfl, rfl, hwalk, fun m hm => ?_⟩
    rw [← hn]
    exact (isDist_of_done hsearch (fun k hk => absurd hk (hall k)) hk (hall k)).1.2 m hm
  · -- an entry that was created by the search stands for the empty name
    rw [get_of_not_mem hk] at hdest
    change [] = d at hdest
    subst hdest
    have hmy : st.myAd ≠ [] := fun heq => hne (heq ▸ h.self)
    obtain ⟨rfl, hadv⟩ := nextHop_of_unnamed hsearch hne hmy hnext
    exact ⟨[], _, 0, hadv, hknown hadv, rfl, rfl, .nil [], (isDist_one hadv hmy).2⟩

/-! ### Three ADs -/

def adA : CString := [⟨'A', by decide⟩]
def adB : CString := [⟨'B', by decide⟩]
def adC : CString := [⟨'C', by decide⟩]

/-- The AD `A` with its neighbour `B`, which advertises these ADs; `C` advertises `B`. -/
def threeAds (ads : List CString) : RouteState where
  myAd := adA
  myHid := []
  dualRouter := 0
  dualRouterAd := []
  numNeighbors := 1
  lsaSeq := 0
  helloSeq := 0
  helloLsaRatio := 3
  calcDijkstraTicks := 0
  adRouteTable := ∅
  neighborTable := AList.singleton adB ⟨adB, [], 1, 2⟩
  networkTable := ((AList.singleton adA ⟨adA, 0, 1, [adB], false, 0, []⟩).insert adB
    ⟨adB, 0, ads.length, ads, false, 0, []⟩).insert adC ⟨adC, 0, 1, [adB], false, 0, []⟩

theorem mem_threeAds {ads : List CString} :
    k ∈ (threeAds ads).networkTable ↔ k = adC ∨ k = adB ∨ k = adA := by
  rw [threeAds, mem_insert, mem_insert, AList.mem_keys, keys_singleton, mem_singleton]

theorem regular_threeAds {ads : List CString} (h : ads ≠ []) : (threeAds ads).Regular := by
  have hkeys {P : CString → Prop} (hA : P adA) (hB : P adB) (hC : P adC) :
      ∀ k ∈ (threeAds ads).networkTable, P k := by
    intro k hk
    rcases mem_threeAds.1 hk with rfl | rfl | rfl <;> assumption
  have hlength := length_pos_iff.2 h
  refine ⟨mem_threeAds.2 (.inr (.inr rfl)), hkeys rfl rfl rfl, hkeys rfl rfl rfl,
    hkeys Int.one_pos ?_ Int.one_pos, ?_⟩
  · change (0 : Int) < ads.length
    omega
  · intro ad had
    exact had

/-- All three can be reached. -/
theorem routes_complete_threeAds : (threeAds [adC]).Regular ∧ (threeAds [adC]).RoutesComplete := by
  have hregular : (threeAds [adC]).Regular := regular_threeAds (by simp)
  refine ⟨hregular, (routes_complete_iff hregular).2 ⟨by decide, .inl fun d hd hne => ?_⟩⟩
  have hB : Walk (threeAds [adC]).networkTable.Advertises 1 adA adB := .concat (.nil _) (by decide)
  rcases mem_threeAds.1 hd with rfl | rfl | rfl
  · exact ⟨2, by decide, .concat hB (by decide)⟩
  · exact ⟨1, by decide, hB⟩
  · exact absurd rfl hne

theorem routes_sound_threeAds : ∃ st', (threeAds [adC]).calcShortestPath = .ok st' ∧
    ∀ d r, st'.adRouteTable.lookup d = some r → r.dest = d ∧
      ∃ ad nb n, (threeAds [adC]).networkTable.Advertises adA ad ∧
        (threeAds [adC]).neighborTable.lookup ad = some nb ∧ r.nextHop = nb.hid ∧ r.port = nb.port ∧
        Walk (threeAds [adC]).networkTable.Advertises n ad d ∧
        ∀ m, Walk (threeAds [adC]).networkTable.Advertises m adA d → n + 1 ≤ m := by
  have hregular : (threeAds [adC]).Regular := regular_threeAds (by simp)
  obtain ⟨hok, hsound⟩ := routes_sound hregular
  obtain ⟨st', hst'⟩ := hok (by decide)
  exact ⟨st', hst', hsound st' hst'⟩

/-- Nobody advertises `C`, and so there is no route to `B`. -/
theorem not_routesComplete_threeAds :
    (threeAds [adA]).Regular ∧ ¬ (threeAds [adA]).RoutesComplete := by
  refine ⟨regular_threeAds (by simp), ?_⟩
  rintro ⟨st', hok, hroutes⟩
  have hkeys : (threeAds [adA]).calcShortestPath.toOption.map (·.adRouteTable.keys) = some [] := by
    decide
  have hB := hroutes adB (by decide) (by decide) ⟨1, by decide, .concat (.nil _) (by decide)⟩
  rw [hok] at hkeys
  have hnil : st'.adRouteTable.keys = [] := some_inj.1 hkeys
  rw [AList.mem_keys, hnil] at hB
  cases hB

end RouteState

end Xrouted

end Xia
