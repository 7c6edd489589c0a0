import Xia.Xroute.Element
import Xia.Xrouted.Equiv.Routes

/-!
# The routes of the routing element

The search of `calcShortestPath` gives new predecessors to the ADs that it reaches.  An AD that it
does not reach keeps the one it had (`Unmoved`), and the last loop follows it: if it leads back to
an AD that is reached, there is a route to an AD that cannot be reached any more.

`rightRoutes_of_notStale` says that the routes are right if no AD leads back in this way.  The
condition is one on the state in which routes are computed, and `allTries_rightAt` says so for all
runs.
-/

namespace Xia

open List Option AList Function

namespace Xroute

open Dijkstra StdMap Xrouted NetworkTable

variable {my x : CString} {t t₀ t' table : NetworkTable} {st st' : RouteState}
variable {a b : CString}

/-! ### Neighbours in the same AD -/

theorem removeSame_sublist (my : CString) (l : List CString) : removeSame my l <+ l := by
  induction l using removeSame.induct my with
  | case1 => exact .refl _
  | case2 =>
    rw [removeSame, if_pos rfl]
    exact nil_sublist _
  | case3 y hy => rw [removeSame, if_neg hy]
  | case4 y l ih =>
    rw [removeSame, if_pos rfl]
    exact (ih.cons_cons y).cons my
  | case5 y z l hy ih =>
    rw [removeSame, if_neg hy]
    exact ih.cons_cons y

theorem mem_removeSame_of_ne {l : List CString} (h : x ∈ l) (hne : x ≠ my) :
    x ∈ removeSame my l := by
  induction l using removeSame.induct my with
  | case1 => exact h
  | case2 => exact absurd (mem_singleton.1 h) hne
  | case3 y hy =>
    rwa [removeSame, if_neg hy]
  | case4 y l ih =>
    rw [removeSame, if_pos rfl]
    obtain rfl | h := mem_cons.1 h
    · exact absurd rfl hne
    · obtain rfl | h := mem_cons.1 h
      · exact mem_cons_self
      · exact mem_cons_of_mem _ (ih h)
  | case5 y z l hy ih =>
    rw [removeSame, if_neg hy]
    obtain rfl | h := mem_cons.1 h
    · exact mem_cons_self
    · exact mem_cons_of_mem _ (ih h)

theorem get_prune : (prune my t).get x =
    if x = my then { t.get my with neighborList := removeSame my (t.get my).neighborList }
    else t.get x := get_modify

theorem prevOf_prune : prevOf (prune my t) = prevOf t := by
  funext x
  rw [prevOf, prevOf, get_prune]
  split
  · rename_i heq
    rw [heq]
  · rfl

theorem advertises_prune (h : (prune my t).Advertises a b) : t.Advertises a b := by
  rw [Advertises, get_prune] at h
  split at h
  · rename_i heq
    rw [heq]
    exact (removeSame_sublist my _).subset h
  · exact h

theorem advertises_prune_of_ne (h : t.Advertises a b) (hne : b ≠ my) :
    (prune my t).Advertises a b := by
  rw [Advertises, get_prune]
  split
  · rename_i heq
    rw [heq] at h
    exact mem_removeSame_of_ne h hne
  · exact h

theorem walk_of_prune {n : Nat} (h : Walk (prune my t).Advertises n a b) :
    Walk t.Advertises n a b := by
  induction h with
  | nil a => exact .nil a
  | concat _ hE ih => exact .concat ih (advertises_prune hE)

theorem walk_prune {n : Nat} (h : Walk t.Advertises n my x) :
    ∃ m ≤ n, Walk (prune my t).Advertises m my x := by
  induction h with
  | nil a => exact ⟨0, le_rfl, .nil a⟩
  | @concat n a b c hw hE ih =>
    by_cases hc : c = a
    · rw [hc]
      exact ⟨0, Nat.zero_le _, .nil a⟩
    · obtain ⟨m, hm, hw⟩ := ih
      exact ⟨m + 1, by omega, .concat hw (advertises_prune_of_ne hE hc)⟩

theorem mem_prune : x ∈ prune my t ↔ x = my ∨ x ∈ t := mem_modify

theorem erase_prune : (prune my t).erase my = t.erase my := by
  apply AList.ext
  show (prune my t).entries.kerase my = t.entries.kerase my
  rw [prune, StdMap.modify, entries_insert]
  exact kerase_cons_eq rfl

/-! ### The search -/

theorem filterAbnormal_eq_ok : filterAbnormal t = .ok () ↔ ∀ k ∈ t, (t.get k).numNeighbors ≠ 0 := by
  rw [filterAbnormal, forM_eq_ok]
  refine forall_congr' fun k => ?_
  rw [mem_order]
  by_cases hk : (t.get k).numNeighbors = 0
  · simp [hk]
  · simp [hk]

/-- An AD that has no new label has the predecessor that it had. -/
def Unmoved (t₀ t : NetworkTable) : Prop :=
  ∀ k, infinity ≤ (t.get k).cost → prevOf t k = prevOf t₀ k

theorem get_start : (initCosts my (prune my t.resetCosts)).get x =
    (initCosts my (prune my t).resetCosts).get x := by
  have hadv : (prune my t.resetCosts).Advertises my x ↔
      (prune my t).resetCosts.Advertises my x := by
    unfold Advertises
    rw [(static_resetCosts _).neighborList, get_prune, get_prune, if_pos rfl, if_pos rfl,
      (static_resetCosts t).neighborList]
  rw [get_initCosts, get_initCosts]
  simp only [hadv, get_prune, get_resetCosts, mem_prune]
  by_cases hx : x = my
  · subst hx
    by_cases hmem : x ∈ t
    · simp [hmem]
    · simp [hmem]
  · simp [hx]

theorem searching_start (hdest : ∀ k ∈ t, k ≠ my → (t.get k).dest = k) :
    Searching my (prune my t) (t.erase my) (initCosts my (prune my t.resetCosts)) := by
  rw [← erase_prune]
  refine (searching_init (mem_prune.2 (.inl rfl)) fun k hk hne => ?_).congr (fun _ => get_start)
    fun k hk => ?_
  · rw [get_prune, if_neg hne]
    exact hdest k ((mem_prune.1 hk).resolve_left hne) hne
  · apply (static_initCosts my _).mem
    rw [mem_prune] at hk ⊢
    exact hk.imp_right ((static_resetCosts t).mem k)

theorem unmoved_start : Unmoved (prune my t) (initCosts my (prune my t.resetCosts)) := by
  intro k hk
  rw [get_start, get_initCosts, get_resetCosts] at hk
  rw [prevOf, prevOf, get_start, get_initCosts, get_resetCosts]
  by_cases hadv : (prune my t).resetCosts.Advertises my k
  · simp only [hadv, if_true] at hk
    exact absurd hk (by decide)
  · simp only [hadv, if_false] at hk ⊢
    by_cases hmy : k = my
    · simp only [hmy, if_true] at hk
      exact absurd hk (by decide)
    · simp only [hmy, if_false]
      split <;> rfl

theorem Unmoved.settle {s : CString} (h : Unmoved t₀ t) (hsearch : Searching my t₀ table t) :
    Unmoved t₀ (NetworkTable.settle s t) := by
  intro k hk
  by_cases hks : k = s
  · rw [hks, get_settle_self] at hk
    rw [hks, prevOf, get_settle_self]
    exact h s hk
  rw [get_settle hsearch.static hks] at hk
  rw [prevOf, get_settle hsearch.static hks]
  split at hk
  · rename_i hadv
    rw [if_pos hadv]
    unfold offered at hk ⊢
    split at hk
    · -- the label is better than the one before, which is not above infinity
      rename_i hoffer
      simp only [Bool.and_eq_true, Bool.not_eq_true', decide_eq_true_eq] at hoffer
      have hle : (t.get k).cost ≤ infinity := by
        by_cases hk₀ : k ∈ t₀
        · have hmy : k ≠ my := by
            rintro rfl
            have hnot : k ∉ table := fun hmem => (hsearch.sub k hmem).2 rfl
            rw [(hsearch.checked k hk₀).2 hnot] at hoffer
            cases hoffer.1
          have hle := hsearch.labels.le_top k hk₀
          rwa [costOf, if_neg hmy] at hle
        · exact (hsearch.outside k hk₀).1.trans (by decide)
      have hlt := hoffer.2
      simp only at hk
      omega
    · rename_i hoffer
      rw [if_neg hoffer]
      exact h k hk
  · rename_i hadv
    rw [if_neg hadv]
    exact h k hk

/-! ### The function -/

/-- There is a way from the AD of the router that the search can go. -/
def Reached (st : RouteState) (x : CString) : Prop :=
  ∃ n < infinity, Walk st.networkTable.Advertises n st.myAd x

/-- What holds in all states: every entry that has neighbours has its key as destination, and the
neighbours of the AD itself are known. -/
structure Regular (st : RouteState) : Prop where
  named : st.myAd ≠ []
  dest : ∀ k, (st.networkTable.get k).numNeighbors = 0 ∨ (st.networkTable.get k).dest = k
  known : ∀ ad, st.networkTable.Advertises st.myAd ad → ad ∈ st.neighborTable
  ad : ∀ k ∈ st.neighborTable, (st.neighborTable.get k).ad = k

/-- No predecessors lead from an AD that cannot be reached back to one that can.  There are no
abnormal entries, and none without a name. -/
structure NotStale (st : RouteState) : Prop where
  named : [] ∉ st.networkTable
  normal : ∀ k ∈ st.networkTable, (st.networkTable.get k).numNeighbors ≠ 0
  unreached : ∀ d ∈ st.networkTable, ¬ Reached st d →
    ∀ i ≤ maxHopCount, ¬ Reached st ((prevOf st.networkTable)^[i] d)

/-- Every route leads to the first hop of a shortest path. -/
def RightRoutes (st : RouteState) : Prop :=
  ∀ d r, st.adRouteTable.lookup d = some r → r.dest = d ∧
    ∃ ad nb n, st.networkTable.Advertises st.myAd ad ∧ st.neighborTable.lookup ad = some nb ∧
      r.nextHop = nb.hid ∧ r.port = nb.port ∧ Walk st.networkTable.Advertises n ad d ∧
      IsDist st.networkTable.Advertises st.myAd d (n + 1)

theorem reached_self (st : RouteState) : Reached st st.myAd := ⟨0, by decide, .nil _⟩

theorem calcShortestPath_spec (h : Regular st) (hst : NotStale st) :
    ∃ t table st', calcShortestPath st = .ok st' ∧
      Searching st.myAd (prune st.myAd st.networkTable) table t ∧
      Unmoved (prune st.myAd st.networkTable) t ∧ (∀ k ∈ table, infinity ≤ (t.get k).cost) ∧
      RouteState.Routed { st with adRouteTable := ∅, networkTable := t } t.order st' := by
  have hdest : ∀ k ∈ st.networkTable, k ≠ st.myAd → (st.networkTable.get k).dest = k :=
    fun k hk _ => (h.dest k).resolve_left (hst.normal k hk)
  have hne : [] ∉ prune st.myAd st.networkTable := by
    rw [mem_prune]
    exact not_or.2 ⟨h.named.symm, hst.named⟩
  obtain ⟨b, t, table, hloop, hsearch, hunmoved, hend⟩ :=
    mainLoop_spec (fun _ _ _ hsearch hunmoved _ _ => Unmoved.settle hunmoved hsearch)
      (searching_start hdest) unmoved_start hne (Nat.lt_succ_self _)
  have hcalc : calcShortestPath st = .ok (t.order.foldl RouteState.setNextHop
      { st with adRouteTable := ∅, networkTable := t }) := by
    unfold calcShortestPath
    rw [filterAbnormal_eq_ok.2 hst.normal]
    simp only [bind, Except.bind, hloop, pure, Except.pure]
  refine ⟨t, table, _, hcalc, hsearch, hunmoved, fun k hk => ?_, RouteState.routed_foldl rfl _⟩
  split at hend
  · exact absurd hk (hend k)
  · exact hend.2 k hk

section

variable (hsearch : Searching st.myAd (prune st.myAd st.networkTable) table t)
  (hstuck : ∀ k ∈ table, infinity ≤ (t.get k).cost)
include hsearch hstuck

theorem reached_of_done (hx : x ∈ prune st.myAd st.networkTable) (hdone : x ∉ table) :
    Reached st x := by
  obtain ⟨hdist, hlt⟩ := RouteState.isDist_of_done hsearch hstuck hx hdone
  exact ⟨_, hlt, walk_of_prune hdist.1⟩

variable (hunmoved : Unmoved (prune st.myAd st.networkTable) t)
include hunmoved

/-- **An AD that cannot be reached keeps its predecessor.** -/
theorem prevOf_of_not_reached (hx : ¬ Reached st x) : prevOf t x = prevOf st.networkTable x := by
  by_cases hmem : x ∈ prune st.myAd st.networkTable
  · have hleft : x ∈ table := by
      by_contra hdone
      exact hx (reached_of_done hsearch hstuck hmem hdone)
    rw [hunmoved x (hstuck x hleft), prevOf_prune]
  · -- it would be a neighbour otherwise
    have hnot : ¬ (prune st.myAd st.networkTable).Advertises st.myAd x := fun hadv =>
      hx ⟨1, by decide, .concat (.nil _) (advertises_prune hadv)⟩
    have hout : x ∉ st.networkTable := fun h => hmem (mem_prune.2 (.inr h))
    rw [(hsearch.outside x hmem).2, if_neg hnot, prevOf, get_of_not_mem hout]
    rfl

theorem follow_of_not_reached
    (hx : ∀ i ≤ maxHopCount, ¬ Reached st ((prevOf st.networkTable)^[i] x)) (v : CString) :
    (follow st.myAd maxHopCount t x).2 ≠ some v := by
  have hiter : ∀ i ≤ maxHopCount, (prevOf t)^[i] x = (prevOf st.networkTable)^[i] x := by
    intro i
    induction i with
    | zero => exact fun _ => rfl
    | succ i ih =>
      intro hi
      have hi' : i ≤ maxHopCount := by omega
      rw [iterate_succ_apply', iterate_succ_apply', ih hi']
      exact prevOf_of_not_reached hsearch hstuck hunmoved (hx i hi')
  intro hfollow
  obtain ⟨i, hi, rfl, hprev, -⟩ := follow_eq_some.1 hfollow
  rw [← iterate_succ_apply' (prevOf t), hiter (i + 1) hi] at hprev
  refine hx (i + 1) hi ?_
  rw [hprev]
  exact reached_self st

theorem isDist_of_nextHop (h : Regular st) (hst : NotStale st) {d k ad : CString}
    (hd : (t.get k).dest = d) (hdne : d ≠ st.myAd)
    (hnext : (follow st.myAd maxHopCount t d).2 = some ad) :
    (prune st.myAd st.networkTable).Advertises st.myAd ad ∧
      ∃ n, Walk (prune st.myAd st.networkTable).Advertises n ad d ∧
        IsDist (prune st.myAd st.networkTable).Advertises st.myAd d (n + 1) := by
  have hdest : (t.get k).dest = (st.networkTable.get k).dest := by
    rw [hsearch.static.dest, get_prune]
    split
    · rename_i heq
      rw [heq]
    · rfl
  rw [hdest] at hd
  by_cases hk : k ∈ st.networkTable
  · -- an AD with an entry
    rw [(h.dest k).resolve_left (hst.normal k hk)] at hd
    subst hd
    have hk' : k ∈ prune st.myAd st.networkTable := mem_prune.2 (.inr hk)
    have hdone : k ∉ table := by
      intro hleft
      refine follow_of_not_reached hsearch hstuck hunmoved (hst.unreached k hk ?_) ad hnext
      rintro ⟨n, hn, hwalk⟩
      obtain ⟨m, hm, hwalk⟩ := walk_prune hwalk
      exact hsearch.labels.no_walk (fun a b hab _ => RouteState.mem_of_advertises hab)
        (fun x hx hxD => hsearch.infinity_le hstuck hx hxD) hk' (fun hD => hD.2 hleft)
        (hm.trans_lt hn) hwalk
    obtain ⟨v, n, hn, hadv, hwalk, hfollow⟩ := RouteState.nextHop_of_done hsearch hk' hdone hdne
    obtain ⟨-, rfl⟩ := (hfollow ad).1 hnext
    refine ⟨hadv, n, hwalk, ?_⟩
    rw [← hn]
    exact (RouteState.isDist_of_done hsearch hstuck hk' hdone).1
  · -- an entry that was created stands for the empty name
    rw [get_of_not_mem hk] at hd
    change [] = d at hd
    subst hd
    have hne : [] ∉ prune st.myAd st.networkTable := by
      rw [mem_prune]
      exact not_or.2 ⟨hdne, hst.named⟩
    obtain ⟨rfl, hadv⟩ := RouteState.nextHop_of_unnamed hsearch hne h.named hnext
    exact ⟨hadv, 0, .nil [], RouteState.isDist_one hadv h.named⟩

end

/-- **The routes are right if no AD leads back.** -/
theorem rightRoutes_of_notStale (h : Regular st) (hst : NotStale st) :
    ∃ st', calcShortestPath st = .ok st' ∧ RightRoutes st' ∧ Regular st' := by
  obtain ⟨t, table, st', hcalc, hsearch, hunmoved, hstuck, hrouted⟩ := calcShortestPath_spec h hst
  have hadv (a b : CString) : st'.networkTable.Advertises a b ↔
      (prune st.myAd st.networkTable).Advertises a b := by
    unfold Advertises
    rw [hrouted.network, hsearch.static.neighborList]
  have hgraph : st'.networkTable.Advertises = (prune st.myAd st.networkTable).Advertises :=
    funext fun a => funext fun b => propext (hadv a b)
  have hknown {ad : CString} (had : (prune st.myAd st.networkTable).Advertises st.myAd ad) :
      ad ∈ st.neighborTable := h.known ad (advertises_prune had)
  have hfound (d : CString) (r : Xrouted.RouteEntry) (hr : st'.adRouteTable.lookup d = some r) :
      ∃ ad n, (follow st.myAd maxHopCount t d).2 = some ad ∧ r = RouteState.routeBy st d ad ∧
        (prune st.myAd st.networkTable).Advertises st.myAd ad ∧
        Walk (prune st.myAd st.networkTable).Advertises n ad d ∧
        IsDist (prune st.myAd st.networkTable).Advertises st.myAd d (n + 1) := by
    obtain ⟨k, -, hd, hdne, ad, hnext, rfl⟩ := hrouted.route d r hr
    obtain ⟨hadv, n, hwalk, hdist⟩ :=
      isDist_of_nextHop hsearch hstuck hunmoved h hst hd hdne hnext
    exact ⟨ad, n, hnext, rfl, hadv, hwalk, hdist⟩
  have hmem (x : CString) : x ∈ st'.neighborTable ↔ x ∈ st.neighborTable := by
    refine (hrouted.hop x).trans ⟨?_, .inl⟩
    rintro (hx | ⟨d, hd, hx⟩)
    · exact hx
    · obtain ⟨ad, -, hnext, -, had, -⟩ := hfound d _ (lookup_of_mem hd)
      have heq : some ad = some x := hnext.symm.trans hx
      rw [← some_inj.1 heq]
      exact hknown had
  refine ⟨st', hcalc, fun d r hr => ?_, ?_, fun k => ?_, fun ad had => ?_, fun k hk => ?_⟩
  · obtain ⟨ad, n, -, rfl, had, hwalk, hdist⟩ := hfound d r hr
    rw [hgraph, hrouted.myAd]
    refine ⟨rfl, ad, _, n, had, lookup_of_mem ((hmem ad).2 (hknown had)), ?_, ?_, hwalk, hdist⟩
    · rw [hrouted.neighbor]
      rfl
    · rw [hrouted.neighbor]
      rfl
  · rw [hrouted.myAd]
    exact h.named
  · rw [hrouted.network]
    obtain ⟨_, _, _, hget⟩ := hsearch.static.get k
    change (t.get k).numNeighbors = 0 ∨ (t.get k).dest = k
    rw [hget, get_prune]
    have := h.dest k
    split
    · rename_i heq
      rwa [heq] at this ⊢
    · exact this
  · rw [hgraph, hrouted.myAd] at had
    exact (hmem ad).2 (hknown had)
  · rw [hrouted.neighbor]
    exact h.ad k ((hmem k).1 hk)

/-! ### The other steps -/

/-- The state on which the routes are computed, if the event is a new LSA at which this is due. -/
def computed (st : RouteState) : RouteState.Event → Option RouteState
  | .timeout => none
  | .message msg _ =>
    match nextField msg with
    | none => none
    | some (type, _) =>
      if Xrouted.atoi type = 1 ∧ st.myAd ≠ (parseLsa msg).destAd ∧
          st.seen (parseLsa msg) = .ok false ∧
          (store st (parseLsa msg)).calcDijkstraTicks = calcDijkstraInterval
      then some (store st (parseLsa msg)) else none

variable {st₁ : RouteState} {e : RouteState.Event} {out : List Xrouted.Output}

theorem processLsa_of_not_seen {msg : CString} (hmy : st.myAd ≠ (parseLsa msg).destAd)
    (hseen : st.seen (parseLsa msg) = .ok false) :
    processLsa st msg = (do
      let st ← compute (store st (parseLsa msg))
      let sent ← broadcast msg
      return (st, sent)) := by
  unfold processLsa
  dsimp only
  rw [if_neg hmy, hseen]
  rfl

/-- **Such an event computes the routes on that state**, and sends the LSA on. -/
theorem step_of_computed (h : computed st e = some st₁) :
    ∃ msg, st.myAd ≠ (parseLsa msg).destAd ∧ st₁ = store st (parseLsa msg) ∧ step st e = (do
      let st ← calcShortestPath st₁
      let sent ← broadcast msg
      return ({ st with calcDijkstraTicks := 0 }, sent)) := by
  cases e with
  | timeout => cases h
  | message msg port =>
    unfold computed at h
    dsimp only at h
    split at h
    · cases h
    · rename_i type rest hfield
      split at h
      · rename_i hcond
        obtain ⟨htype, hmy, hseen, hticks⟩ := hcond
        cases h
        refine ⟨msg, hmy, rfl, ?_⟩
        have hstep : step st (.message msg port) = processLsa st msg := by
          simp only [step, hfield, htype]
          rfl
        rw [hstep, processLsa_of_not_seen hmy hseen, compute, if_pos hticks]
        cases calcShortestPath (store st (parseLsa msg)) with
        | error f => rfl
        | ok st' => rfl
      · cases h

theorem processLsa_of_not_due {msg : CString}
    (hdue : st.myAd ≠ (parseLsa msg).destAd → st.seen (parseLsa msg) = .ok false →
      (store st (parseLsa msg)).calcDijkstraTicks ≠ calcDijkstraInterval)
    (h : processLsa st msg = .ok (st', out)) :
    st' = st ∨ st.myAd ≠ (parseLsa msg).destAd ∧ st' = store st (parseLsa msg) := by
  by_cases hmy : st.myAd = (parseLsa msg).destAd
  · unfold processLsa at h
    dsimp only at h
    rw [if_pos hmy] at h
    cases h
    exact .inl rfl
  cases hseen : st.seen (parseLsa msg) with
  | error f =>
    unfold processLsa at h
    dsimp only at h
    rw [if_neg hmy, hseen] at h
    cases h
  | ok seen =>
    cases seen with
    | true =>
      unfold processLsa at h
      dsimp only at h
      rw [if_neg hmy, hseen] at h
      cases h
      exact .inl rfl
    | false =>
      rw [processLsa_of_not_seen hmy hseen, compute, if_neg (hdue hmy hseen)] at h
      obtain ⟨st₂, hst, h⟩ := bind_eq_ok.1 h
      obtain ⟨sent, -, h⟩ := bind_eq_ok.1 h
      cases hst
      cases h
      exact .inr ⟨hmy, rfl⟩

theorem runTimer_eq_ok (h : runTimer st = .ok (st', out)) :
    ∃ lsaSeq helloSeq, st' = { st with lsaSeq := lsaSeq, helloSeq := helloSeq } := by
  unfold runTimer at h
  split at h
  · obtain ⟨sent, -, h⟩ := bind_eq_ok.1 h
    cases h
    exact ⟨_, _, rfl⟩
  · split at h
    · obtain ⟨sent, -, h⟩ := bind_eq_ok.1 h
      cases h
      exact ⟨_, _, rfl⟩
    · cases h
      exact ⟨_, _, rfl⟩

theorem step_of_not_computed (h : computed st e = none) (hstep : step st e = .ok (st', out)) :
    (∃ msg port, st' = st.processHello msg port) ∨
      (∃ lsa : Lsa, st.myAd ≠ lsa.destAd ∧ st' = store st lsa) ∨
      ∃ lsaSeq helloSeq, st' = { st with lsaSeq := lsaSeq, helloSeq := helloSeq } := by
  cases e with
  | timeout => exact .inr (.inr (runTimer_eq_ok hstep))
  | message msg port =>
    unfold step at hstep
    unfold computed at h
    dsimp only at h hstep
    split at hstep
    · cases hstep
      exact .inr (.inr ⟨_, _, rfl⟩)
    rename_i type rest hfield
    rw [hfield] at h
    dsimp only at h
    split at hstep
    · cases hstep
      exact .inl ⟨msg, port, rfl⟩
    split at hstep
    · rename_i htype
      have hdue : st.myAd ≠ (parseLsa msg).destAd → st.seen (parseLsa msg) = .ok false →
          (store st (parseLsa msg)).calcDijkstraTicks ≠ calcDijkstraInterval := by
        intro hmy hseen hticks
        rw [if_pos ⟨htype, hmy, hseen, hticks⟩] at h
        cases h
      rcases processLsa_of_not_due hdue hstep with rfl | ⟨hmy, rfl⟩
      · exact .inr (.inr ⟨_, _, rfl⟩)
      · exact .inr (.inl ⟨_, hmy, rfl⟩)
    · split at hstep <;>
      · cases hstep
        exact .inr (.inr ⟨_, _, rfl⟩)

/-! ### What holds in all states -/

theorem regular_store (h : Regular st) {lsa : Lsa} (hmy : st.myAd ≠ lsa.destAd) :
    Regular (store st lsa) := by
  have hget (k : CString) : (store st lsa).networkTable.get k =
      if k = lsa.destAd then lsa.entry else st.networkTable.get k := get_insert_erase
  refine ⟨h.named, fun k => ?_, fun ad had => h.known ad ?_, h.ad⟩
  · rw [hget]
    split
    · rename_i heq
      exact .inr heq.symm
    · exact h.dest k
  · unfold Advertises at had ⊢
    rw [hget] at had
    rwa [show (store st lsa).myAd = st.myAd from rfl, if_neg hmy] at had

/-- The entry of the AD itself, which is made of the neighbours that are known. -/
def ownEntry (st : RouteState) : NodeStateEntry :=
  { (default : NodeStateEntry) with
    dest := st.myAd
    seq := st.lsaSeq
    numNeighbors := st.numNeighbors
    neighborList := st.neighborTable.order.map fun k => (st.neighborTable.get k).ad }

theorem regular_ownEntry (h : Regular st) : Regular { st with
    networkTable := (st.networkTable.erase st.myAd).insert st.myAd (ownEntry st) } := by
  refine ⟨h.named, fun k => ?_, fun ad had => ?_, h.ad⟩
  · rw [get_insert_erase]
    split
    · rename_i heq
      exact .inr heq.symm
    · exact h.dest k
  · rw [Advertises, get_insert_erase, if_pos rfl] at had
    obtain ⟨k, hk, rfl⟩ := List.mem_map.1 had
    have hk := mem_order.1 hk
    change (st.neighborTable.get k).ad ∈ st.neighborTable
    rwa [h.ad k hk]

theorem regular_processHello (h : Regular st) (msg : CString) (port : Int) :
    Regular (st.processHello msg port) := by
  unfold RouteState.processHello
  dsimp only
  generalize (readField (readField msg []).2 []).1 = neighborAd
  generalize (readField (readField (readField msg []).2 []).2 []).1 = neighborHid
  by_cases hmem : neighborAd ∈ st.neighborTable
  · rw [if_pos hmem]
    exact regular_ownEntry h
  · rw [if_neg hmem]
    have hknown : Regular { st with
        neighborTable := st.neighborTable.insert neighborAd ⟨neighborAd, neighborHid, 1, port⟩
        numNeighbors := st.numNeighbors + 1 } := by
      refine ⟨h.named, h.dest, fun ad had => (mem_insert _).2 (.inr (h.known ad had)), ?_⟩
      intro k hk
      rw [get_insert]
      split
      · rename_i heq
        exact heq.symm
      · rename_i hne
        exact h.ad k (((mem_insert _).1 hk).resolve_left hne)
    exact regular_ownEntry hknown

theorem ofText_unparse_ne_nil (x : Xid) : ofText x.unparse ≠ [] := by
  have hmem : (⟨':', by decide⟩ : {c : Char // c ≠ '\x00'}) ∈ ofText x.unparse := by
    rw [ofText, mem_filterMap]
    refine ⟨':', ?_, rfl⟩
    simp [Xid.unparse]
  exact ne_nil_of_mem hmem

theorem regular_init (ad hid : Xid) : Regular (init ad hid) := by
  refine ⟨ofText_unparse_ne_nil ad, fun k => .inl rfl, fun x hx => ?_, fun k hk => ?_⟩
  · cases hx
  · exact absurd hk (notMem_empty k)

/-! ### Runs -/

/-- After the routes have been computed they are right. -/
def RightAt (st : RouteState) (e : RouteState.Event) : Prop :=
  ∀ st₁ ∈ computed st e, ∃ st', calcShortestPath st₁ = .ok st' ∧ RightRoutes st'

/-- The routes are computed on a state in which no AD leads back. -/
def NotStaleAt (st : RouteState) (e : RouteState.Event) : Prop :=
  ∀ st₁ ∈ computed st e, NotStale st₁

theorem regular_step (h : Regular st) (hst : NotStaleAt st e)
    (hstep : step st e = .ok (st', out)) : Regular st' := by
  cases hcomputed : computed st e with
  | none =>
    rcases step_of_not_computed hcomputed hstep with
      ⟨msg, port, rfl⟩ | ⟨lsa, hmy, rfl⟩ | ⟨lsaSeq, helloSeq, rfl⟩
    · exact regular_processHello h msg port
    · exact regular_store h hmy
    · exact ⟨h.named, h.dest, h.known, h.ad⟩
  | some st₁ =>
    obtain ⟨msg, hmy, hst₁, heq⟩ := step_of_computed hcomputed
    have hregular : Regular st₁ := hst₁ ▸ regular_store h hmy
    obtain ⟨st₂, hcalc, -, h₂⟩ := rightRoutes_of_notStale hregular (hst st₁ hcomputed)
    rw [heq] at hstep
    obtain ⟨st₃, hcalc', hstep⟩ := bind_eq_ok.1 hstep
    obtain ⟨sent, -, hstep⟩ := bind_eq_ok.1 hstep
    rw [hcalc] at hcalc'
    cases hcalc'
    cases hstep
    exact ⟨h₂.named, h₂.dest, h₂.known, h₂.ad⟩

/-- **In a run from the start all routes are right** if none of the computations finds an AD that
cannot be reached and leads back to one that can. -/
theorem allTries_rightAt (ad hid : Xid) (es : List RouteState.Event)
    (h : Machine.AllTries step NotStaleAt (init ad hid) es) :
    Machine.AllTries step RightAt (init ad hid) es := by
  refine Machine.allTries_of_allTries (I := Regular) (fun st e hI hC => ?_) (regular_init ad hid) h
  refine ⟨fun st₁ hst₁ => ?_, fun st' out hstep => regular_step hI hC hstep⟩
  obtain ⟨msg, hmy, heq, -⟩ := step_of_computed hst₁
  have hregular : Regular st₁ := heq ▸ regular_store hI hmy
  obtain ⟨st', hcalc, hright, -⟩ := rightRoutes_of_notStale hregular (hC st₁ hst₁)
  exact ⟨st', hcalc, hright⟩

/-! ### A link that disappears -/

def helloFromB : RouteState.Event := .message (ofText ['0', '^', 'B', '^', 'H', '^']) 1

def lsaOf (ad seq : Char) (ads : List CString) : RouteState.Event :=
  .message (ofText ['1', '^', ad, '^', 'H', '^', seq, '^'] ++ formatInt ads.length ++ [caret] ++
    ads.flatMap (· ++ ofText ['^', 'H', '^'])) 1

def ownAd : Xid := ⟨htonl Xid.typeAd, Vector.replicate xidIdLen 0⟩

def Near (st : RouteState) : Prop :=
  [] ∉ st.networkTable.keys ∧ ∀ k ∈ st.networkTable.keys, (st.networkTable.get k).numNeighbors ≠ 0 ∧
      (k = st.myAd ∨ st.networkTable.Advertises st.myAd k)

instance (st : RouteState) : Decidable (Near st) := inferInstanceAs (Decidable (_ ∧ _))

theorem Near.notStale (h : Near st) : NotStale st := by
  refine ⟨h.1, fun k hk => (h.2 k hk).1, fun d hd hnot => absurd ?_ hnot⟩
  rcases (h.2 d hd).2 with rfl | hadv
  · exact reached_self st
  · exact ⟨1, by decide, .concat (.nil _) hadv⟩

/-- The fourth LSA of the AD next to the router makes it compute its routes. -/
theorem allTries_rightAt_near : (computed (Machine.last step (init ownAd ownAd)
      (helloFromB :: ['1', '2', '3'].map (lsaOf 'B' · [ofText ownAd.unparse])))
      (lsaOf 'B' '4' [ofText ownAd.unparse])).isSome ∧
    Machine.AllTries step RightAt (init ownAd ownAd)
      (helloFromB :: ['1', '2', '3', '4'].map (lsaOf 'B' · [ofText ownAd.unparse])) := by
  refine ⟨by decide +kernel, allTries_rightAt _ _ _ ?_⟩
  have hnear : Machine.AllTries step (fun st e => ∀ st₁ ∈ computed st e, Near st₁)
      (init ownAd ownAd)
      (helloFromB :: ['1', '2', '3', '4'].map (lsaOf 'B' · [ofText ownAd.unparse])) := by
    decide +kernel
  exact Machine.allTries_of_allTries (I := fun _ => True)
    (fun st e _ h => ⟨fun st₁ hst₁ => (h st₁ hst₁).notStale, fun _ _ _ => trivial⟩) trivial hnear

/-- The router hears of `C` by way of `B`, and computes its routes.  After that `B` tells that `C`
is no longer next to it. -/
def withdrawal : List RouteState.Event :=
  [helloFromB, lsaOf 'B' '1' [ofText ownAd.unparse, ofText ['C']], lsaOf 'C' '1' [ofText ['B']]] ++
    ['2', '3'].map (lsaOf 'B' · [ofText ownAd.unparse, ofText ['C']]) ++
    ['4', '5', '6'].map (lsaOf 'B' · [ofText ownAd.unparse])

def Dangling (st : RouteState) (d : CString) : Prop :=
  (st.adRouteTable.lookup d).isSome ∧
    ∀ k ∈ st.networkTable.keys, d ∉ (st.networkTable.get k).neighborList

instance (st : RouteState) (d : CString) : Decidable (Dangling st d) :=
  inferInstanceAs (Decidable (_ ∧ _))

theorem Dangling.not_rightRoutes {d : CString} (h : Dangling st d) : ¬ RightRoutes st := by
  intro hright
  obtain ⟨r, hr⟩ := isSome_iff_exists.1 h.1
  obtain ⟨-, ad, nb, n, -, -, -, -, -, hwalk, -⟩ := hright d r hr
  generalize hn : n + 1 = m at hwalk
  cases hwalk with
  | nil => cases hn
  | concat _ hE => exact h.2 _ (RouteState.mem_of_advertises hE) hE

/-- The next computation still has the route to `C`. -/
theorem not_allTries_rightAt_withdrawal : ¬ Machine.AllTries step RightAt (init ownAd ownAd)
      (withdrawal ++ [lsaOf 'B' '7' [ofText ownAd.unparse]]) := by
  intro h
  obtain ⟨⟨st, out⟩, hrun, st₁, hst₁, st', hcalc, hdangling⟩ : ∃ r,
      Machine.run step (init ownAd ownAd) withdrawal = .ok r ∧
      ∃ st₁ ∈ computed r.1 (lsaOf 'B' '7' [ofText ownAd.unparse]),
      ∃ st', calcShortestPath st₁ = .ok st' ∧ Dangling st' (ofText ['C']) := by
    decide +kernel
  obtain ⟨st'', hcalc', hright⟩ := h.of_run hrun st₁ hst₁
  rw [hcalc, Except.ok.injEq] at hcalc'
  subst hcalc'
  exact hdangling.not_rightRoutes hright

end Xroute

end Xia
