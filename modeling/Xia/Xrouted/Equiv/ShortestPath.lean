import Xia.Dijkstra
import Xia.Xrouted.ShortestPath

/-!
# The search for shortest paths

The fields `cost` and `prevNode` of the entries are labels as in `Dijkstra.Labels`, for the graph of
the ADs in which an edge leads from an AD to those that it advertises.  The ADs that have an entry
before the search, and are not in `table`, are done.

All other fields stay as they are (`Static`).  An AD that has no entry before the search gets no
better label than the one from the source (`Searching.outside`).
-/

namespace Xia

open List AList

namespace Xrouted

namespace NetworkTable

open Dijkstra StdMap

variable {t t₀ t' table : NetworkTable} {my a k x : CString}

theorem forM_eq_ok {f : CString → Except Fault Unit} {l : List CString} :
    l.forM f = .ok () ↔ ∀ k ∈ l, f k = .ok () := by
  induction l with
  | nil => simp [pure, Except.pure]
  | cons k l ih =>
    rw [forall_mem_cons, ← ih]
    cases hk : f k with
    | error e => simp [List.forM, hk, bind, Except.bind]
    | ok u => simp [List.forM, hk, bind, Except.bind]

theorem filterAbnormal_eq_ok : t.filterAbnormal = .ok () ↔ ∀ k ∈ t, (t.get k).abnormal = false := by
  rw [filterAbnormal, forM_eq_ok]
  refine forall_congr' fun k => ?_
  rw [mem_order]
  cases (t.get k).abnormal with
  | true => simp
  | false => simp

/-- The AD `a` has told that `b` is next to it. -/
def Advertises (t : NetworkTable) (a b : CString) : Prop := b ∈ (t.get a).neighborList

instance (t : NetworkTable) (a b : CString) : Decidable (t.Advertises a b) :=
  inferInstanceAs (Decidable (b ∈ _))

/-- The search changes only the fields that it uses, and creates entries. -/
structure Static (t₀ t : NetworkTable) : Prop where
  get : ∀ k, ∃ checked cost prevNode,
    t.get k = { t₀.get k with checked := checked, cost := cost, prevNode := prevNode }
  mem : ∀ k ∈ t₀, k ∈ t

namespace Static

theorem refl (t : NetworkTable) : Static t t := ⟨fun _ => ⟨_, _, _, rfl⟩, fun _ => id⟩

theorem trans (h : Static t₀ t) (h' : Static t t') : Static t₀ t' := by
  refine ⟨fun k => ?_, fun k hk => h'.mem k (h.mem k hk)⟩
  obtain ⟨c, d, p, hk⟩ := h.get k
  obtain ⟨c', d', p', hk'⟩ := h'.get k
  exact ⟨c', d', p', by rw [hk', hk]⟩

theorem touch (t : NetworkTable) (k : CString) : Static t (t.touch k) :=
  ⟨fun _ => ⟨_, _, _, get_touch⟩, fun _ ha => mem_touch.2 (.inr ha)⟩

theorem modify (t : NetworkTable) (k : CString) {f : NodeStateEntry → NodeStateEntry}
    (hf : ∀ e, ∃ checked cost prevNode,
      f e = { e with checked := checked, cost := cost, prevNode := prevNode }) :
    Static t (t.modify k f) := by
  refine ⟨fun a => ?_, fun _ ha => mem_modify.2 (.inr ha)⟩
  rw [get_modify]
  split
  · rename_i heq
    rw [heq]
    exact hf _
  · exact ⟨_, _, _, rfl⟩

theorem foldl {ι : Type} {step : NetworkTable → ι → NetworkTable}
    (h : ∀ t i, Static t (step t i)) (l : List ι) (t : NetworkTable) :
    Static t (l.foldl step t) := by
  induction l generalizing t with
  | nil => exact refl t
  | cons i l ih => exact (h t i).trans (ih _)

theorem dest (h : Static t₀ t) (k : CString) : (t.get k).dest = (t₀.get k).dest := by
  obtain ⟨_, _, _, hk⟩ := h.get k
  rw [hk]

theorem neighborList (h : Static t₀ t) (k : CString) :
    (t.get k).neighborList = (t₀.get k).neighborList := by
  obtain ⟨_, _, _, hk⟩ := h.get k
  rw [hk]

theorem seq (h : Static t₀ t) (k : CString) : (t.get k).seq = (t₀.get k).seq := by
  obtain ⟨_, _, _, hk⟩ := h.get k
  rw [hk]

end Static

theorem static_resetCosts (t : NetworkTable) : Static t t.resetCosts :=
  Static.foldl (fun t k => Static.modify t k fun _ => ⟨_, _, _, rfl⟩) _ t

theorem static_initCosts (my : CString) (t : NetworkTable) : Static t (initCosts my t) :=
  (Static.modify t my fun _ => ⟨_, _, _, rfl⟩).trans
    (Static.foldl (fun t k => Static.modify t k fun _ => ⟨_, _, _, rfl⟩) _ _)

theorem static_relax (a : CString) (t : NetworkTable) (k : CString) : Static t (relax a t k) := by
  unfold relax
  dsimp only
  split
  · exact (Static.touch t k).trans (Static.modify _ k fun _ => ⟨_, _, _, rfl⟩)
  · exact Static.touch t k

theorem static_select (table t : NetworkTable) : Static t (select table t).1 := by
  have hloop (l : List CString) (t : NetworkTable) (m : Nat) (s : CString) :
      Static t (l.foldl (selectStep table) (t, m, s)).1 := by
    induction l generalizing t m s with
    | nil => exact Static.refl t
    | cons k l ih =>
      rw [foldl_cons, selectStep]
      dsimp only
      split
      · exact (Static.touch t _).trans (ih _ _ _)
      · exact (Static.touch t _).trans (ih _ _ _)
  exact hloop _ t _ _

theorem static_mainLoop {fuel : Nat} {b : Bool} (h : mainLoop fuel table t = .ok (b, t')) :
    Static t t' := by
  induction fuel generalizing table t with
  | zero => cases h
  | succ fuel ih =>
    rw [mainLoop] at h
    split at h
    · cases h
      exact Static.refl _
    · dsimp only at h
      split at h
      · cases h
        exact static_select table t
      · exact ((static_select table t).trans (Static.modify _ _ fun _ => ⟨_, _, _, rfl⟩)).trans
          ((Static.foldl (static_relax _) _ _).trans (ih h))

/-! ### One step of the search -/

/-- **The search finds an AD with the least cost**, or all of them have not been reached. -/
theorem select_spec (hdest : ∀ k ∈ table, (table.get k).dest = k) (hmem : ∀ k ∈ table, k ∈ t) :
    ∃ m s, select table t = (t, m, s) ∧ (∀ k ∈ table, m ≤ (t.get k).cost) ∧
      ((s = [] ∧ m = infinity) ∨ (s ∈ table ∧ m = (t.get s).cost ∧ m < infinity)) := by
  -- what has been found in the part of the table that was passed through
  have hloop (l : List CString) (hl : ∀ k ∈ l, k ∈ table) (m₀ : Nat) (s₀ : CString) :
      ∃ m s, l.foldl (selectStep table) (t, m₀, s₀) = (t, m, s) ∧ m ≤ m₀ ∧
        (∀ k ∈ l, m ≤ (t.get k).cost) ∧
        ((s = s₀ ∧ m = m₀) ∨ (s ∈ table ∧ m = (t.get s).cost ∧ m < m₀)) := by
    induction l generalizing m₀ s₀ with
    | nil => exact ⟨m₀, s₀, rfl, le_rfl, by simp, .inl ⟨rfl, rfl⟩⟩
    | cons k l ih =>
      obtain ⟨hk, hl⟩ := forall_mem_cons.1 hl
      have htouch : t.touch k = t := if_pos (hmem k hk)
      rw [foldl_cons, selectStep]
      dsimp only
      rw [hdest k hk, htouch]
      split
      · rename_i hlt
        obtain ⟨m, s, hfold, hle, hmin, hfound⟩ := ih hl (t.get k).cost k
        refine ⟨m, s, hfold, hle.trans hlt.le, forall_mem_cons.2 ⟨hle, hmin⟩, .inr ?_⟩
        rcases hfound with ⟨rfl, rfl⟩ | ⟨hs, hm, hlt'⟩
        · exact ⟨hk, rfl, hlt⟩
        · exact ⟨hs, hm, hlt'.trans hlt⟩
      · rename_i hge
        obtain ⟨m, s, hfold, hle, hmin, hfound⟩ := ih hl m₀ s₀
        exact ⟨m, s, hfold, hle, forall_mem_cons.2 ⟨hle.trans (not_lt.1 hge), hmin⟩, hfound⟩
  obtain ⟨m, s, hfold, -, hmin, hfound⟩ :=
    hloop table.order (fun k hk => mem_order.1 hk) infinity []
  exact ⟨m, s, hfold, fun k hk => hmin k (mem_order.2 hk), hfound⟩

/-- The entry of a neighbour of `a` after it has been offered a label with the cost `c`. -/
def offered (c : Nat) (a : CString) (e : NodeStateEntry) : NodeStateEntry :=
  if !e.checked && c < e.cost then { e with cost := c, prevNode := a } else e

theorem offered_offered (c : Nat) (a : CString) (e : NodeStateEntry) :
    offered c a (offered c a e) = offered c a e := by
  by_cases h : (!e.checked && decide (c < e.cost)) = true
  · have hoffered : offered c a e = { e with cost := c, prevNode := a } := if_pos h
    rw [hoffered]
    simp [offered]
  · have hoffered : offered c a e = e := if_neg h
    rw [hoffered, hoffered]

theorem offered_of_checked {c : Nat} {e : NodeStateEntry} (h : e.checked = true) :
    offered c a e = e := by
  simp [offered, h]

theorem get_relax : (relax a t k).get x =
    if x = k then offered ((t.get a).cost + 1) a (t.get x) else t.get x := by
  unfold relax offered
  simp only [get_touch]
  by_cases hx : x = k
  · subst hx
    rw [if_pos rfl]
    split
    · rw [get_modify_self, get_touch]
    · rw [get_touch]
  · rw [if_neg hx]
    split
    · rw [get_modify_of_ne hx, get_touch]
    · rw [get_touch]

/-- **The neighbours of an AD that is done are offered a label by it.** -/
theorem get_foldl_relax (ha : (t.get a).checked = true) (l : List CString) :
    (l.foldl (relax a) t).get x =
      if x ∈ l then offered ((t.get a).cost + 1) a (t.get x) else t.get x := by
  induction l generalizing t with
  | nil => simp
  | cons k l ih =>
    have haget : (relax a t k).get a = t.get a := by
      rw [get_relax, offered_of_checked ha, ite_self]
    rw [foldl_cons, ih (by rw [haget, ha]), haget, get_relax]
    by_cases hx : x = k
    · simp [hx, offered_offered]
    · simp [hx]

/-! ### The search -/

/-- The costs, where that of the source is zero even if it is its own neighbour. -/
def costOf (my : CString) (t : NetworkTable) (k : CString) : Nat :=
  if k = my then 0 else (t.get k).cost

def prevOf (t : NetworkTable) (k : CString) : CString := (t.get k).prevNode

/-- What the search keeps, where `t₀` is the table before it. -/
structure Searching (my : CString) (t₀ table t : NetworkTable) : Prop where
  static : Static t₀ t
  sub : ∀ k ∈ table, k ∈ t₀ ∧ k ≠ my
  dest : ∀ k ∈ table, (table.get k).dest = k
  checked : ∀ k ∈ t₀, (t.get k).checked = true ↔ k ∉ table
  labels : Labels t₀.Advertises my infinity {k | k ∈ t₀} {k | k ∈ t₀ ∧ k ∉ table} (costOf my t)
    (prevOf t)
  outside : ∀ k, k ∉ t₀ → (t.get k).cost ≤ 1 ∧ prevOf t k = if t₀.Advertises my k then my else []

theorem get_resetCosts : t.resetCosts.get x =
    if x ∈ t then { t.get x with checked := false, cost := infinity } else t.get x := by
  rw [resetCosts, get_foldl_modify]
  · simp only [mem_order]
  · exact fun _ => rfl

theorem get_initCosts : (initCosts my t).get x =
    let e := if x = my then { t.get x with checked := true, cost := 0 } else t.get x
    if t.Advertises my x then { e with cost := 1, prevNode := my } else e := by
  unfold initCosts Advertises
  dsimp only
  rw [get_foldl_modify, get_modify_self, get_modify]
  · by_cases hx : x = my
    · simp [hx]
    · simp [hx]
  · exact fun _ => rfl

theorem searching_init (hmy : my ∈ t₀) (hdest : ∀ k ∈ t₀, k ≠ my → (t₀.get k).dest = k) :
    Searching my t₀ (t₀.erase my) (initCosts my t₀.resetCosts) := by
  have hadv (x : CString) : t₀.resetCosts.Advertises my x ↔ t₀.Advertises my x := by
    unfold Advertises
    rw [(static_resetCosts t₀).neighborList]
  have hget (x : CString) : (initCosts my t₀.resetCosts).get x =
      let e := if x = my then { t₀.get x with checked := true, cost := 0 }
        else if x ∈ t₀ then { t₀.get x with checked := false, cost := infinity } else t₀.get x
      if t₀.Advertises my x then { e with cost := 1, prevNode := my } else e := by
    rw [get_initCosts]
    simp only [hadv, get_resetCosts]
    by_cases hx : x = my
    · simp [hx, hmy]
    · simp [hx]
  have hdone : {k | k ∈ t₀ ∧ k ∉ t₀.erase my} = {my} := by
    refine Set.ext fun k => ⟨?_, ?_⟩
    · rintro ⟨hk, hnot⟩
      by_contra hne
      exact hnot (mem_erase.2 ⟨hne, hk⟩)
    · rintro rfl
      exact ⟨hmy, fun h => (mem_erase.1 h).1 rfl⟩
  refine ⟨(static_resetCosts t₀).trans (static_initCosts my _), ?_, ?_, ?_, ?_, ?_⟩
  · intro k hk
    exact (mem_erase.1 hk).symm
  · intro k hk
    obtain ⟨hne, hk⟩ := mem_erase.1 hk
    rw [StdMap.get, lookup_erase_ne hne]
    exact hdest k hk hne
  · intro k hk
    rw [hget, mem_erase]
    by_cases hne : k = my
    · simp only [hne, if_true]
      split <;> simp
    · simp only [hne, if_false, hk, if_true]
      split <;> simp [hne]
  · rw [hdone]
    refine labels_init hmy (by decide) (if_pos rfl) (fun x hx hne hE => ?_) fun x hx hne hE => ?_
    · rw [costOf, if_neg hne, prevOf, hget]
      simp [hE]
    · rw [costOf, if_neg hne, hget]
      simp only [hE, hne, if_false]
      rw [if_pos (show x ∈ t₀ from hx)]
  · intro k hk
    have hne : k ≠ my := fun heq => hk (heq ▸ hmy)
    rw [prevOf, hget]
    simp only [hne, if_false, hk, get_of_not_mem hk]
    split
    · exact ⟨le_rfl, rfl⟩
    · exact ⟨Nat.zero_le _, rfl⟩

/-- The AD that has been selected is done, and offers labels to its neighbours. -/
def settle (s : CString) (t : NetworkTable) : NetworkTable :=
  let t := t.modify s fun e => { e with checked := true }
  (t.get s).neighborList.foldl (relax s) t

theorem get_settle {s : CString} (hstatic : Static t₀ t) (hx : x ≠ s) : (settle s t).get x =
    if t₀.Advertises s x then offered ((t.get s).cost + 1) s (t.get x) else t.get x := by
  unfold settle Advertises
  dsimp only
  rw [get_foldl_relax (by rw [get_modify_self]), get_modify_self, get_modify_of_ne hx,
    hstatic.neighborList]
  rfl

theorem get_settle_self {s : CString} : (settle s t).get s = { t.get s with checked := true } := by
  unfold settle
  dsimp only
  rw [get_foldl_relax (by rw [get_modify_self]), offered_of_checked (by rw [get_modify_self]),
    ite_self, get_modify_self]

/-- **An AD with the least cost is done.** -/
theorem Searching.settle {s : CString} (h : Searching my t₀ table t) (hs : s ∈ table)
    (hlt : (t.get s).cost < infinity) (hmin : ∀ k ∈ table, (t.get s).cost ≤ (t.get k).cost) :
    Searching my t₀ (table.erase s) (NetworkTable.settle s t) := by
  obtain ⟨hs₀, hsmy⟩ := h.sub s hs
  have hcost (k : CString) (hk : k ≠ my) : costOf my t k = (t.get k).cost := if_neg hk
  have hchecked (k : CString) (hk : k ∈ t₀) (hne : k ≠ s) :
      ((NetworkTable.settle s t).get k).checked = (t.get k).checked := by
    rw [get_settle h.static hne, offered]
    split
    · split <;> rfl
    · rfl
  have hdone : {k | k ∈ t₀ ∧ k ∉ table.erase s} = insert s {k | k ∈ t₀ ∧ k ∉ table} := by
    refine Set.ext fun k => ⟨?_, ?_⟩
    · rintro ⟨hk, hnot⟩
      by_cases hks : k = s
      · exact .inl hks
      · exact .inr ⟨hk, fun hkt => hnot (mem_erase.2 ⟨hks, hkt⟩)⟩
    · rintro (rfl | ⟨hk, hnot⟩)
      · exact ⟨hs₀, fun hmem => (mem_erase.1 hmem).1 rfl⟩
      · exact ⟨hk, fun hmem => hnot (mem_erase.1 hmem).2⟩
  refine ⟨?_, ?_, ?_, ?_, ?_, ?_⟩
  · exact h.static.trans ((Static.modify _ _ fun _ => ⟨_, _, _, rfl⟩).trans
      (Static.foldl (static_relax s) _ _))
  · exact fun k hk => h.sub k (mem_erase.1 hk).2
  · intro k hk
    obtain ⟨hne, hk⟩ := mem_erase.1 hk
    rw [StdMap.get, lookup_erase_ne hne]
    exact h.dest k hk
  · intro k hk
    rw [mem_erase]
    by_cases hne : k = s
    · simp [hne, get_settle_self]
    · rw [hchecked k hk hne, h.checked k hk]
      simp [hne]
  · rw [hdone]
    refine h.labels.settle hs₀ (fun hmem => hmem.2 hs) (by rwa [hcost s hsmy]) ?_ ?_ ?_
    · intro x hx hxD
      have hxt : x ∈ table := by
        by_contra hnot
        exact hxD ⟨hx, hnot⟩
      rw [hcost s hsmy, hcost x (h.sub x hxt).2]
      exact hmin x hxt
    · intro x hx hxD hE hbetter
      have hne : x ≠ s := fun heq => hxD (.inl heq)
      have hxt : x ∈ table := by
        by_contra hnot
        exact hxD (.inr ⟨hx, hnot⟩)
      have hxmy := (h.sub x hxt).2
      have hfalse : (t.get x).checked = false := by
        rw [← Bool.not_eq_true, h.checked x hx]
        exact not_not.2 hxt
      rw [hcost s hsmy, hcost x hxmy] at hbetter
      rw [costOf, if_neg hxmy, prevOf, get_settle h.static hne, if_pos hE, offered,
        if_pos (by simp [hfalse, hbetter]), hcost s hsmy]
      exact ⟨rfl, rfl⟩
    · intro x hx hnot
      by_cases hne : x = s
      · rw [hne, costOf, costOf, prevOf, get_settle_self]
        exact ⟨rfl, rfl⟩
      · have hsame : (NetworkTable.settle s t).get x = t.get x := by
          rw [get_settle h.static hne]
          split
          · rename_i hE
            refine if_neg fun hoffer => ?_
            simp only [Bool.and_eq_true, Bool.not_eq_true', decide_eq_true_eq] at hoffer
            have hxt : x ∈ table := by
              by_contra hxt
              rw [(h.checked x hx).2 hxt] at hoffer
              cases hoffer.1
            refine hnot ⟨fun hmem => ?_, hE, ?_⟩
            · exact hmem.elim hne fun hmem => hmem.2 hxt
            · rw [hcost s hsmy, hcost x (h.sub x hxt).2]
              exact hoffer.2
          · rfl
        rw [costOf, costOf, prevOf, hsame]
        exact ⟨rfl, rfl⟩
  · -- an AD without an entry has at most the cost one, which cannot be improved
    intro k hk
    obtain ⟨hle, hprev⟩ := h.outside k hk
    have hne : k ≠ s := fun heq => hk (heq ▸ hs₀)
    have hsame : (NetworkTable.settle s t).get k = t.get k := by
      rw [get_settle h.static hne]
      split
      · refine if_neg ?_
        simp only [Bool.and_eq_true, decide_eq_true_eq, not_and, not_lt]
        omega
      · rfl
    rw [prevOf, hsame]
    exact ⟨hle, hprev⟩

theorem Searching.infinity_le (h : Searching my t₀ table t)
    (hstuck : ∀ k ∈ table, infinity ≤ (t.get k).cost) {x : CString} (hx : x ∈ t₀)
    (hxD : x ∉ {k | k ∈ t₀ ∧ k ∉ table}) : infinity ≤ costOf my t x := by
  have hxt : x ∈ table := by
    by_contra hnot
    exact hxD ⟨hx, hnot⟩
  rw [costOf, if_neg (h.sub x hxt).2]
  exact hstuck x hxt

theorem Searching.congr (h : Searching my t₀ table t) (hget : ∀ k, t'.get k = t.get k)
    (hmem : ∀ k ∈ t₀, k ∈ t') : Searching my t₀ table t' := by
  have hcost : costOf my t' = costOf my t := funext fun k => by rw [costOf, costOf, hget]
  have hprev : prevOf t' = prevOf t := funext fun k => by rw [prevOf, prevOf, hget]
  refine ⟨⟨fun k => ?_, hmem⟩, h.sub, h.dest, fun k hk => ?_, ?_, fun k hk => ?_⟩
  · rw [hget]
    exact h.static.get k
  · rw [hget]
    exact h.checked k hk
  · rw [hcost, hprev]
    exact h.labels
  · rw [hget, hprev]
    exact h.outside k hk

/-- **The search ends**: all ADs are done, or none of those that are left can be reached.  It keeps
whatever its steps keep. -/
theorem mainLoop_spec {I : NetworkTable → Prop} (hI : ∀ table t s, Searching my t₀ table t → I t →
      s ∈ table → (t.get s).cost < infinity → I (NetworkTable.settle s t))
    {fuel : Nat} (h : Searching my t₀ table t) (hIt : I t) (hne : [] ∉ t₀)
    (hfuel : table.keys.length < fuel) : ∃ b t' table', mainLoop fuel table t = .ok (b, t') ∧
      Searching my t₀ table' t' ∧ I t' ∧ if b then ∀ k, k ∉ table'
        else (∃ k, k ∈ table') ∧ ∀ k ∈ table', infinity ≤ (t'.get k).cost := by
  induction fuel generalizing table t with
  | zero => omega
  | succ fuel ih =>
    rw [mainLoop]
    by_cases hempty : table.keys = []
    · rw [if_pos hempty]
      refine ⟨true, t, table, rfl, h, hIt, ?_⟩
      rw [if_pos rfl]
      intro k hk
      rw [AList.mem_keys, hempty] at hk
      cases hk
    · rw [if_neg hempty]
      obtain ⟨m, s, hselect, hmin, hfound⟩ :=
        select_spec h.dest fun k hk => h.static.mem k (h.sub k hk).1
      rw [hselect]
      dsimp only
      rcases hfound with ⟨rfl, rfl⟩ | ⟨hs, rfl, hlt⟩
      · rw [if_pos rfl]
        refine ⟨false, t, table, rfl, h, hIt, ?_⟩
        rw [if_neg Bool.false_ne_true]
        exact ⟨exists_mem_of_ne_nil _ hempty, hmin⟩
      · have hsne : s ≠ [] := fun heq => hne (heq ▸ (h.sub s hs).1)
        rw [if_neg hsne]
        refine ih (h.settle hs hlt hmin) (hI table t s h hIt hs hlt) ?_
        have := length_keys_erase hs
        omega

end NetworkTable

end Xrouted

end Xia
