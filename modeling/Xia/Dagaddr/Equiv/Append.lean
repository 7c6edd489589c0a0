import Xia.Dagaddr.Equiv.Combine
import Xia.Routes

/-!
# Appending graphs

`g * r` has the nodes of `g` and the named nodes of `r`, the edges of both, and an edge from every
sink of `g` to every source of `r`, where a dummy source counts as its successors (`mul_eq`,
`mem_outOf_append`).

The routes of a graph are the XIDs along the paths from a source to a sink, without the dummy
sources.  `g * r` is related by a bisimulation to the joined networks of `g` and `r`, in which the
dummy sources of `r` are skipped, and so its routes are those of `g` followed by those of `r`
(`routes_mul`).
-/

namespace Xia

open List hiding Vector

namespace Dagaddr

namespace Graph

variable {g r : Graph} {i j : Nat} {n : Node}

/-! ### The sources -/

theorem mem_pushSources {v : List Nat} (hi : r.nodes[i]? = some n) : j ∈ r.pushSources v i ↔
    j ∈ v ∨ (r.isSource i = true ∧ if n.isDummy then j ∈ r.outOf i else j = i) := by
  have hall : (r.outOf i).foldl (fun v j => (pushBackUnique (· == ·) v j).2) v =
      pushAll v (r.outOf i) := by
    simp only [pushBackUnique_beq]
    rfl
  rw [pushSources, List.getD, hi, Option.getD_some, hall]
  by_cases hsource : r.isSource i = true
  · by_cases hdummy : n.isDummy = true
    · simp [hsource, hdummy]
    · simp [hsource, hdummy]
  · simp [hsource]

theorem mem_sources : j ∈ r.sources ↔ ∃ i n, r.nodes[i]? = some n ∧ r.isSource i = true ∧
    if n.isDummy then j ∈ r.outOf i else j = i := by
  have hfold (l : List Nat) (v : List Nat) (hl : ∀ i ∈ l, i < r.nodes.length) :
      j ∈ l.foldl r.pushSources v ↔ j ∈ v ∨ ∃ i ∈ l, ∃ n, r.nodes[i]? = some n ∧
        r.isSource i = true ∧ if n.isDummy then j ∈ r.outOf i else j = i := by
    induction l generalizing v with
    | nil => simp
    | cons i l ih =>
      obtain ⟨hi, hl⟩ := forall_mem_cons.1 hl
      have hn : r.nodes[i]? = some r.nodes[i] := getElem?_eq_getElem hi
      rw [foldl_cons, ih _ hl, mem_pushSources hn, or_assoc]
      simp [hi]
  rw [sources, hfold _ _ (by simp)]
  constructor
  · rintro (h | ⟨i, -, n, h⟩)
    · cases h
    · exact ⟨i, n, h⟩
  · rintro ⟨i, n, hn, h⟩
    exact .inr ⟨i, mem_range.2 (List.getElem?_eq_some_iff.1 hn).1, n, hn, h⟩

theorem named_of_mem_sources (hr : r.WellFormed) (havoid : r.AvoidsDummies) (hj : j ∈ r.sources) :
    r.IsNamedAt j := by
  obtain ⟨i, n, hn, -, hj⟩ := mem_sources.1 hj
  split at hj
  · exact havoid.named hr hj
  · rename_i hnamed
    exact ⟨n, hj ▸ hn, by simpa using hnamed⟩

/-! ### The graph that results -/

def joins (g r : Graph) : List (Nat × Nat) :=
  g.sinks.flatMap fun s => r.sources.map fun j => (s, place g.nodes.length r.nodes j)

/-- The graph `g * r`. -/
def append (g r : Graph) : Graph :=
  (g.pushes (named r.nodes)).links (mergeLinks r true (place g.nodes.length r.nodes) ++ joins g r)

@[simp] theorem nodes_append : (g.append r).nodes = g.nodes ++ named r.nodes := by
  rw [append, nodes_links, nodes_pushes]

theorem inside_joins (hr : r.WellFormed) (havoid : r.AvoidsDummies) :
    (g.pushes (named r.nodes)).Inside (joins g r) := by
  intro e he
  obtain ⟨s, hs, he⟩ := mem_flatMap.1 he
  obtain ⟨j, hj, rfl⟩ := List.mem_map.1 he
  obtain ⟨m, hm, hnamed⟩ := named_of_mem_sources hr havoid hj
  have hlt : s < g.nodes.length := by simpa using (mem_filter.1 hs).1
  refine ⟨?_, (isMapping_places g r j m hm (by simp [hnamed])).2⟩
  rw [nodes_pushes, length_append]
  exact Nat.lt_add_right _ hlt

theorem inside_append (hr : r.WellFormed) (havoid : r.AvoidsDummies) :
    (g.pushes (named r.nodes)).Inside
      (mergeLinks r true (place g.nodes.length r.nodes) ++ joins g r) := by
  intro e he
  rcases mem_append.1 he with he | he
  · exact inside_mergeLinks hr (fun _ => havoid) (isMapping_places g r) e he
  · exact inside_joins hr havoid e he

/-- **`operator*`.** -/
theorem mul_eq (hg : g.WellFormed) (hr : r.WellFormed) (havoid : r.AvoidsDummies) :
    g.mul r = .ok (g.append r) := by
  have hpushes := hg.pushes (named r.nodes)
  have hlinks := inside_mergeLinks hr (fun _ => havoid) (isMapping_places g r)
  have hjoins := inside_joins hr havoid (g := g)
  rw [mul, mergeGraph, mergeNodes_true hg]
  dsimp only
  rw [nil_append, foldlM_mergeEdgesOf hr hpushes (fun _ => havoid) (isMapping_places g r),
    append, links_append]
  simp only [Result.ok_bind, pure, Except.pure]
  refine foldlM_links (hpushes.links hlinks) (fun s hs e he => ?_) fun s hs k hk hnodes => ?_
  · rw [nodes_links]
    exact hjoins e (mem_flatMap.2 ⟨s, hs, he⟩)
  · rw [map_eq_flatMap]
    have hsub (j : Nat) (hj : j ∈ r.sources) : (g.pushes (named r.nodes)).Inside
        [(s, place g.nodes.length r.nodes j)] := by
      intro e he
      rw [mem_singleton.1 he]
      exact hjoins _ (mem_flatMap.2 ⟨s, hs, List.mem_map_of_mem hj⟩)
    rw [nodes_links] at hnodes
    refine foldlM_links hk (fun j hj e he => ?_) fun j hj k' hk' hnodes' => ?_
    · rw [hnodes]
      exact hsub j hj e he
    · obtain ⟨m, hm, hnamed⟩ := named_of_mem_sources hr havoid hj
      obtain ⟨hs, hplace⟩ := hsub j hj _ mem_cons_self
      rw [← hnodes, ← hnodes'] at hs hplace
      rw [joinEdge, (isMapping_places g r j m hm (by simp [hnamed])).1]
      simp only [inBounds, Result.ok_bind]
      exact addEdge_eq hk' hs hplace

theorem mem_joins {e : Nat × Nat} : e ∈ joins g r ↔ (e.1 < g.nodes.length ∧ g.isSink e.1 = true) ∧
    ∃ j ∈ r.sources, e.2 = place g.nodes.length r.nodes j := by
  simp only [joins, sinks, mem_flatMap, mem_filter, mem_range, List.mem_map]
  constructor
  · rintro ⟨s, hs, j, hj, rfl⟩
    exact ⟨hs, j, hj, rfl⟩
  · rintro ⟨hs, j, hj, he⟩
    exact ⟨e.1, hs, j, hj, by rw [← he]⟩

section

variable (hg : g.WellFormed) (hr : r.WellFormed) (havoid : r.AvoidsDummies)
include hg hr havoid

theorem wellFormed_append : (g.append r).WellFormed :=
  (hg.pushes _).links (inside_append hr havoid)

/-- **The edges of `g * r`** are those of `g`, those of `r`, and those from the sinks to the
sources. -/
theorem mem_outOf_append : j ∈ (g.append r).outOf i ↔ j ∈ g.outOf i ∨
    (j ≠ i ∧ ∃ a b, r.IsNamedAt a ∧ b ∈ r.outOf a ∧
      i = place g.nodes.length r.nodes a ∧ j = place g.nodes.length r.nodes b) ∨
    ((i < g.nodes.length ∧ g.isSink i = true) ∧
      ∃ b ∈ r.sources, j = place g.nodes.length r.nodes b) := by
  rw [append, outOf_links (hg.pushes _) (inside_append hr havoid), mem_pushAll, outOf_pushes,
    mem_targets, mem_append, mem_mergeLinks, mem_joins]
  refine or_congr_right ?_
  simp only [Bool.true_and, Prod.mk.injEq]
  constructor
  · rintro ⟨⟨a, b, n, hn, hnamed, hb, rfl, rfl⟩ | hjoin, hne⟩
    · exact .inl ⟨hne, a, b, ⟨n, hn, hnamed⟩, hb, rfl, rfl⟩
    · exact .inr hjoin
  · rintro (⟨hne, a, b, ⟨n, hn, hnamed⟩, h⟩ | ⟨hi, b, hb, rfl⟩)
    · exact ⟨.inl ⟨a, b, n, hn, hnamed, h⟩, hne⟩
    · exact ⟨.inr ⟨hi, b, hb, rfl⟩, (hi.1.trans_le (le_place _ r.nodes b)).ne'⟩

theorem mem_outOf_append_left (hi : i < g.nodes.length) : j ∈ (g.append r).outOf i ↔
    j ∈ g.outOf i ∨ (g.isSink i = true ∧ ∃ b ∈ r.sources, j = place g.nodes.length r.nodes b) := by
  rw [mem_outOf_append hg hr havoid]
  constructor
  · rintro (h | ⟨-, a, b, -, -, heq, -⟩ | ⟨⟨-, h⟩, hb⟩)
    · exact .inl h
    · exact absurd (heq ▸ le_place _ r.nodes a) (not_le.2 hi)
    · exact .inr ⟨h, hb⟩
  · rintro (h | ⟨h, hb⟩)
    · exact .inl h
    · exact .inr (.inr ⟨⟨hi, h⟩, hb⟩)

end

theorem place_inj {l a b : Nat} (ha : r.IsNamedAt a) (hb : r.IsNamedAt b)
    (h : place l r.nodes a = place l r.nodes b) : a = b := by
  obtain ⟨m, hm, hmn⟩ := ha
  obtain ⟨n, hn, hnn⟩ := hb
  rcases Nat.lt_trichotomy a b with hab | rfl | hab
  · have := place_lt_place l hm hmn hab
    omega
  · rfl
  · have := place_lt_place l hn hnn hab
    omega

/-- The nodes of `r` come behind those of `g`. -/
theorem Acyclic.append (hga : g.Acyclic) (hra : r.Acyclic) (hg : g.WellFormed) (hr : r.WellFormed)
    (havoid : r.AvoidsDummies) : (g.append r).Acyclic := by
  obtain ⟨rank, hrank⟩ := hga
  obtain ⟨rank', hrank'⟩ := hra
  have hplace (a : Nat) : ¬ place g.nodes.length r.nodes a < g.nodes.length :=
    not_lt.2 (le_place _ _ a)
  -- every place is that of one node only
  let s : Set Nat := {a | r.IsNamedAt a}
  have hinj : Set.InjOn (place g.nodes.length r.nodes) s := fun a ha b hb => place_inj ha hb
  set unplace := Function.invFunOn (place g.nodes.length r.nodes) s
  have hinv (a : Nat) (ha : a ∈ s) : unplace (place g.nodes.length r.nodes a) = a :=
    hinj.leftInvOn_invFunOn ha
  let bound := (Finset.range g.nodes.length).sup rank
  have hbound (a : Nat) (ha : a < g.nodes.length) : rank a ≤ bound :=
    Finset.le_sup (Finset.mem_range.2 ha)
  refine ⟨fun i => if i < g.nodes.length then rank i
    else bound + 1 + rank' (unplace i), fun i j hj => ?_⟩
  dsimp only
  rcases (mem_outOf_append hg hr havoid).1 hj with
    hj | ⟨-, a, b, ha, hb, rfl, rfl⟩ | ⟨⟨hi, -⟩, b, hb, rfl⟩
  · rw [if_pos (hg.lt_of_mem hj), if_pos (hg.range i j hj)]
    exact hrank i j hj
  · rw [if_neg (hplace a), if_neg (hplace b), hinv a ha, hinv b (havoid.named hr hb)]
    have := hrank' a b hb
    omega
  · rw [if_pos hi, if_neg (hplace b)]
    have := hbound i hi
    omega

/-! ### The routes -/

/-- The XID of a node, except for a dummy source. -/
def routeXids (g : Graph) (i : Nat) : List Xid :=
  ((g.nodes[i]?).filter fun n => !(n.isDummy && g.isSource i)).toList.map Node.xid

/-- The graph as a network: it is entered at its sources, and left at its sinks. -/
def network (g : Graph) : Network Nat Xid where
  edge i j := j ∈ g.outOf i
  label := g.routeXids
  entry i := i < g.nodes.length ∧ g.isSource i = true
  exit i := i < g.nodes.length ∧ g.isSink i = true

/-- The XIDs along the paths from a source to a sink, without the dummy sources. -/
def routes (g : Graph) : Language Xid := g.network.language

def IsDummyAt (g : Graph) (i : Nat) : Prop := ∃ n, g.nodes[i]? = some n ∧ n.isDummy = true

/-- The nodes of `g * r` are those of `g`, and the named ones of `r` at their places. -/
def StandsFor (g r : Graph) (i : Nat) : Nat ⊕ Nat → Prop
  | .inl a => i = a ∧ a < g.nodes.length
  | .inr c => r.IsNamedAt c ∧ i = place g.nodes.length r.nodes c

theorem skip_entry : (r.network.skip r.IsDummyAt).entry j ↔ j ∈ r.sources := by
  rw [mem_sources]
  constructor
  · rintro (⟨⟨hj, hsource⟩, hnamed⟩ | ⟨i, ⟨-, hsource⟩, ⟨n, hn, hdummy⟩, hj⟩)
    · have hn : r.nodes[j]? = some r.nodes[j] := getElem?_eq_getElem hj
      refine ⟨j, r.nodes[j], hn, hsource, ?_⟩
      rw [if_neg fun hdummy => hnamed ⟨_, hn, hdummy⟩]
    · exact ⟨i, n, hn, hsource, by rwa [if_pos hdummy]⟩
  · rintro ⟨i, n, hn, hsource, hj⟩
    have hi : i < r.nodes.length := (List.getElem?_eq_some_iff.1 hn).1
    split at hj
    · rename_i hdummy
      exact .inr ⟨i, ⟨hi, hsource⟩, ⟨n, hn, hdummy⟩, hj⟩
    · rename_i hnamed
      subst hj
      refine .inl ⟨⟨hi, hsource⟩, ?_⟩
      rintro ⟨m, hm, hdummy⟩
      rw [hn, Option.some_inj] at hm
      exact hnamed (hm ▸ hdummy)

section

variable (hg : g.WellFormed) (hr : r.WellFormed) (havoid : r.AvoidsDummies)
include hg hr havoid

theorem isSource_append_left (hi : i < g.nodes.length) :
    (g.append r).isSource i = g.isSource i := by
  rw [Bool.eq_iff_iff, isSource_iff (wellFormed_append hg hr havoid), isSource_iff hg]
  refine forall_congr' fun a => not_congr ?_
  rw [mem_outOf_append hg hr havoid]
  constructor
  · rintro (h | ⟨-, -, b, -, -, -, rfl⟩ | ⟨-, b, -, rfl⟩)
    · exact h
    · exact absurd (le_place _ _ b) (not_le.2 hi)
    · exact absurd (le_place _ _ b) (not_le.2 hi)
  · exact .inl

theorem mem_outOf_append_right (hra : r.Acyclic) (hi : r.IsNamedAt i) :
    j ∈ (g.append r).outOf (place g.nodes.length r.nodes i) ↔
      ∃ b ∈ r.outOf i, j = place g.nodes.length r.nodes b := by
  have hplace := le_place g.nodes.length r.nodes i
  rw [mem_outOf_append hg hr havoid]
  constructor
  · rintro (h | ⟨-, a, b, ha, hb, heq, rfl⟩ | ⟨⟨h, -⟩, -⟩)
    · exact absurd (hg.lt_of_mem h) (not_lt.2 hplace)
    · rw [place_inj hi ha heq]
      exact ⟨b, hb, rfl⟩
    · exact absurd h (not_lt.2 hplace)
  · rintro ⟨b, hb, rfl⟩
    refine .inr (.inl ⟨fun heq => ?_, i, b, hi, hb, rfl, rfl⟩)
    exact hra.ne hb (place_inj (havoid.named hr hb) hi heq)

/-- A node of `r` is no source: the sinks of `g` lead to it if nothing else does. -/
theorem not_isSource_append_right (hga : g.Acyclic) (hra : r.Acyclic) (hne : g.nodes ≠ [])
    (hi : r.IsNamedAt i) : (g.append r).isSource (place g.nodes.length r.nodes i) = false := by
  rw [← Bool.not_eq_true, isSource_iff (wellFormed_append hg hr havoid)]
  intro hsource
  obtain ⟨n, hn, hnamed⟩ := hi
  obtain ⟨s, hs, hsink⟩ := hga.exists_sink hg hne
  have hnot : i ∉ r.sources := fun hmem => hsource s
    ((mem_outOf_append_left hg hr havoid hs).2 (.inr ⟨hsink, i, hmem, rfl⟩))
  rw [mem_sources] at hnot
  have hin : ∃ a, i ∈ r.outOf a := by
    by_contra hin
    push Not at hin
    exact hnot ⟨i, n, hn, (isSource_iff hr).2 hin, by simp [hnamed]⟩
  obtain ⟨a, ha⟩ := hin
  have halt := hr.lt_of_mem ha
  have hm : r.nodes[a]? = some r.nodes[a] := getElem?_eq_getElem halt
  by_cases hdummy : r.nodes[a].isDummy = true
  · -- a dummy source is a source
    refine hnot ⟨a, _, hm, (isSource_iff hr).2 fun b hb => ?_, by rwa [if_pos hdummy]⟩
    exact absurd (havoid b a _ hb hm) (by simp [hdummy])
  · have hnamed : r.IsNamedAt a := ⟨_, hm, by simpa using hdummy⟩
    exact hsource _ ((mem_outOf_append_right hg hr havoid hra hnamed).2 ⟨i, ha, rfl⟩)

/-- **`g * r` stands for the joined networks.** -/
theorem bisim_append (hga : g.Acyclic) (hra : r.Acyclic) (hne : g.nodes ≠ [])
    (hsources : r.sources ≠ []) : Network.Bisim (g.StandsFor r) (g.append r).network
      (g.network.join (r.network.skip r.IsDummyAt)) where
  label := by
    rintro i (a | c)
    · rintro ⟨rfl, hi⟩
      change routeXids _ _ = routeXids _ _
      rw [routeXids, routeXids, isSource_append_left hg hr havoid hi, nodes_append,
        getElem?_append_left hi]
    · rintro ⟨⟨m, hm, hnamed⟩, rfl⟩
      change routeXids _ _ = routeXids _ _
      rw [routeXids, routeXids, nodes_append, getElem?_place hm hnamed, hm]
      simp [Option.filter, hnamed]
  exit := by
    rintro i (a | c)
    · rintro ⟨rfl, hi⟩
      refine iff_of_false (fun hexit => ?_) id
      have hnil : (g.append r).outOf i = [] := by simpa [isSink] using hexit.2
      obtain ⟨b, hb⟩ := exists_mem_of_ne_nil _ hsources
      have hout (j : Nat) := mem_outOf_append_left hg hr havoid hi (j := j)
      simp only [hnil, not_mem_nil, false_iff, not_or, not_and, not_exists] at hout
      refine (hout _).2 ?_ b hb rfl
      rw [isSink, decide_eq_true_eq, eq_nil_iff_forall_not_mem]
      exact fun j => (hout j).1
    · rintro ⟨⟨m, hm, hnamed⟩, rfl⟩
      have hout (j : Nat) := mem_outOf_append_right hg hr havoid hra ⟨m, hm, hnamed⟩ (j := j)
      have hlt := (isMapping_places g r c m hm (by simp [hnamed])).2
      rw [nodes_pushes, ← nodes_append] at hlt
      refine and_congr (iff_of_true hlt (List.getElem?_eq_some_iff.1 hm).1) ?_
      rw [isSink, isSink, decide_eq_true_eq, decide_eq_true_eq, eq_nil_iff_forall_not_mem,
        eq_nil_iff_forall_not_mem]
      constructor
      · exact fun h b hb => h _ ((hout _).2 ⟨b, hb, rfl⟩)
      · intro h j hj
        obtain ⟨b, hb, -⟩ := (hout j).1 hj
        exact h b hb
  forth := by
    rintro i (a | c) j
    · rintro ⟨rfl, hi⟩ hj
      rcases (mem_outOf_append_left hg hr havoid hi).1 hj with hj | ⟨hsink, b, hb, rfl⟩
      · exact ⟨.inl j, hj, rfl, hg.range i j hj⟩
      · exact ⟨.inr b, ⟨⟨hi, hsink⟩, skip_entry.2 hb⟩, named_of_mem_sources hr havoid hb, rfl⟩
    · rintro ⟨hc, rfl⟩ hj
      obtain ⟨b, hb, rfl⟩ := (mem_outOf_append_right hg hr havoid hra hc).1 hj
      exact ⟨.inr b, hb, havoid.named hr hb, rfl⟩
  back := by
    rintro i (a | c) d
    · rintro ⟨rfl, hi⟩ hd
      cases d with
      | inl b =>
        exact ⟨b, (mem_outOf_append_left hg hr havoid hi).2 (.inl hd), rfl, hg.range i b hd⟩
      | inr c =>
        have hc := skip_entry.1 hd.2
        exact ⟨_, (mem_outOf_append_left hg hr havoid hi).2 (.inr ⟨hd.1.2, c, hc, rfl⟩),
          named_of_mem_sources hr havoid hc, rfl⟩
    · rintro ⟨hc, rfl⟩ hd
      cases d with
      | inl b => exact hd.elim
      | inr b =>
        exact ⟨_, (mem_outOf_append_right hg hr havoid hra hc).2 ⟨b, hd, rfl⟩,
          havoid.named hr hd, rfl⟩
  entry_forth := by
    rintro i ⟨hi, hsource⟩
    by_cases hlt : i < g.nodes.length
    · exact ⟨.inl i, ⟨hlt, isSource_append_left hg hr havoid hlt ▸ hsource⟩, rfl, hlt⟩
    · rw [nodes_append, length_append] at hi
      obtain ⟨c, m, hm, hnamed, hplace⟩ := exists_place
        (by omega : i - g.nodes.length < (named r.nodes).length) g.nodes.length
      rw [Nat.add_sub_cancel' (not_lt.1 hlt)] at hplace
      have hnot := not_isSource_append_right hg hr havoid hga hra hne ⟨m, hm, hnamed⟩
      rw [hplace, hsource] at hnot
      cases hnot
  entry_back := by
    rintro (a | c) hentry
    · refine ⟨a, ⟨?_, ?_⟩, rfl, hentry.1⟩
      · rw [nodes_append, length_append]
        exact Nat.lt_add_right _ hentry.1
      · rw [isSource_append_left hg hr havoid hentry.1]
        exact hentry.2
    · exact hentry.elim

omit hg havoid in
theorem append_of_sources_nil (hra : r.Acyclic) (hne : r.nodes ≠ []) (hsources : r.sources = [])
    (halone : ∀ i, r.IsDummyAt i → r.outOf i ≠ [] ∨ r.nodes.length = 1) :
    g.append r = g ∧ r.routes = 1 := by
  obtain ⟨i, hi, hsource⟩ := hra.exists_source hr hne
  have hn : r.nodes[i]? = some r.nodes[i] := getElem?_eq_getElem hi
  have hnot (j : Nat) : ¬ if r.nodes[i].isDummy then j ∈ r.outOf i else j = i := by
    intro hj
    have hmem : j ∈ r.sources := mem_sources.2 ⟨i, _, hn, hsource, hj⟩
    rw [hsources] at hmem
    cases hmem
  have hdummy : r.nodes[i].isDummy = true := by
    by_contra hnamed
    exact hnot i (by rw [if_neg hnamed])
  have hnil : r.outOf i = [] := by
    rw [eq_nil_iff_forall_not_mem]
    intro j hj
    exact hnot j (by rwa [if_pos hdummy])
  have hlength : r.nodes.length = 1 := (halone i ⟨_, hn, hdummy⟩).resolve_left (by simp [hnil])
  obtain rfl : i = 0 := by omega
  obtain ⟨n, hnodes⟩ := length_eq_one_iff.1 hlength
  simp only [hnodes, getElem_cons_zero] at hdummy
  constructor
  · have hjoins : joins g r = [] := by
      rw [joins, hsources]
      exact flatMap_eq_nil_iff.2 fun _ _ => rfl
    rw [append, hjoins]
    simp [hnodes, named, hdummy, mergeLinks, pushes, links]
  · have hlabel : r.network.label 0 = [] := by
      simp [network, routeXids, hnodes, hdummy, hsource, Option.filter]
    ext w
    rw [Language.mem_one]
    constructor
    · rintro ⟨a, ⟨ha, -⟩, hw⟩
      obtain rfl : a = 0 := by omega
      cases hw with
      | exit => exact hlabel
      | edge hedge =>
        change _ ∈ r.outOf 0 at hedge
        rw [hnil] at hedge
        cases hedge
    · rintro rfl
      refine ⟨0, ⟨hi, hsource⟩, hlabel ▸ .exit ⟨hi, ?_⟩⟩
      simp [isSink, hnil]

/-- **The routes of `g * r` are those of `g` followed by those of `r`.** -/
theorem routes_append (hga : g.Acyclic) (hra : r.Acyclic) (hgne : g.nodes ≠ [])
    (hrne : r.nodes ≠ []) (halone : ∀ i, r.IsDummyAt i → r.outOf i ≠ [] ∨ r.nodes.length = 1) :
    (g.append r).routes = g.routes * r.routes := by
  by_cases hsources : r.sources = []
  · obtain ⟨happend, hroutes⟩ := append_of_sources_nil hr hra hrne hsources halone
    rw [happend, hroutes, mul_one]
  · have hskip : (r.network.skip r.IsDummyAt).language = r.routes := by
      refine Network.language_skip fun a ⟨_, hsource⟩ hdummy => ⟨?_, fun ⟨_, hsink⟩ => ?_⟩
      · obtain ⟨n, hn, hn'⟩ := hdummy
        simp [network, routeXids, hn, hn', hsource, Option.filter]
      · have hnil : r.outOf a = [] := by simpa [isSink] using hsink
        have hlength := (halone a hdummy).resolve_left (by simp [hnil])
        -- the sources are other nodes than this one
        obtain ⟨b, hb⟩ := exists_mem_of_ne_nil _ hsources
        obtain ⟨m, hm, hnamed⟩ := named_of_mem_sources hr havoid hb
        obtain ⟨n, hn, hn'⟩ := hdummy
        have hblt := (List.getElem?_eq_some_iff.1 hm).1
        have halt := (List.getElem?_eq_some_iff.1 hn).1
        obtain rfl : a = b := by omega
        rw [hm, Option.some_inj] at hn
        rw [← hn, hnamed] at hn'
        cases hn'
    rw [routes, (bisim_append hg hr havoid hga hra hgne hsources).language_eq,
      Network.language_join, hskip]
    rfl

end

/-! ### Graphs that are built from nodes -/

/-- The graphs that are built from nodes with the operators.  `contents` is what the containers
contain. -/
inductive Built (contents : Nat → UInt32 × Vector UInt8 xidIdLen) : Graph → Prop
  | node (n : Node) (h : contents n.ptr = (n.type, n.id)) : Built contents (ofNode n)
  | mul {g r k : Graph} (hg : Built contents g) (hr : Built contents r) (h : g.mul r = .ok k) :
      Built contents k
  | add {g r k : Graph} (hg : Built contents g) (hr : Built contents r) (h : g.add r = .ok k) :
      Built contents k

/-- What the operators keep. -/
structure IsBuilt (contents : Nat → UInt32 × Vector UInt8 xidIdLen) (g : Graph) : Prop
    extends g.Proper where
  ne_nil : g.nodes ≠ []
  avoids : g.AvoidsDummies
  contents : ∀ n ∈ g.nodes, contents n.ptr = (n.type, n.id)

variable {contents : Nat → UInt32 × Vector UInt8 xidIdLen}

theorem isBuilt_ofNode (h : contents n.ptr = (n.type, n.id)) : IsBuilt contents (ofNode n) := by
  have hnode : ofNode n = empty.push n := by
    rw [ofNode, addNode_fresh wellFormed_empty (by simp [empty])]
  rw [hnode]
  refine ⟨proper_empty.push n, by simp [push, empty], fun i j m hj _ => ?_, ?_⟩
  · rw [outOf_push] at hj
    cases hj
  · simpa [push, empty] using h

theorem IsBuilt.append (hg : IsBuilt contents g) (hr : IsBuilt contents r) :
    IsBuilt contents (g.append r) where
  toProper := (hg.toProper.pushes _).links (inside_append hr.toWellFormed hr.avoids)
  ne_nil := by simp [hg.ne_nil]
  avoids := by
    intro i j n hj hn
    have hplace {b : Nat} (hnamed : r.IsNamedAt b) (hb : j = place g.nodes.length r.nodes b) :
        n.isDummy = false := by
      obtain ⟨m, hm, hnamed⟩ := hnamed
      rw [hb, nodes_append, getElem?_place hm hnamed, Option.some_inj] at hn
      rw [← hn, hnamed]
    rcases (mem_outOf_append hg.toWellFormed hr.toWellFormed hr.avoids).1 hj with
      hj | ⟨-, a, b, -, hb, -, hplaced⟩ | ⟨-, b, hb, hplaced⟩
    · rw [nodes_append, getElem?_append_left (hg.range i j hj)] at hn
      exact hg.avoids i j n hj hn
    · exact hplace (hr.avoids.named hr.toWellFormed hb) hplaced
    · exact hplace (named_of_mem_sources hr.toWellFormed hr.avoids hb) hplaced
  contents := by
    intro n hn
    rw [nodes_append, mem_append] at hn
    exact hn.elim (hg.contents n) fun hn => hr.contents n (mem_filter.1 hn).1

/-- Nodes that are merged are in the same container, and so have the same type. -/
theorem IsBuilt.add {k : Graph} (hg : IsBuilt contents g) (hr : IsBuilt contents r)
    (hk : g.add r = .ok k) : IsBuilt contents k := by
  obtain ⟨new, f, hmerges, hinside, hadd⟩ := add_eq hg.toWellFormed hr.toWellFormed
  rw [hadd, Except.ok.injEq] at hk
  subst hk
  have hcontents : ∀ n ∈ g.nodes ++ new, contents n.ptr = (n.type, n.id) := by
    intro n hn
    exact (mem_append.1 hn).elim (hg.contents n) fun hn => hr.contents n (hmerges.subset hn)
  refine ⟨(hg.toProper.pushes new).links hinside, ?_, fun i j n hj hn => ?_, ?_⟩
  · simp [nodes_pushes, hg.ne_nil]
  · rw [outOf_links (hg.toWellFormed.pushes new) hinside, mem_pushAll, outOf_pushes, mem_targets,
      mem_mergeLinks] at hj
    rw [nodes_links, nodes_pushes] at hn
    rcases hj with hj | ⟨⟨a, b, -, -, -, hb, he⟩, -⟩
    · rw [getElem?_append_left (hg.range i j hj)] at hn
      exact hg.avoids i j n hj hn
    · obtain ⟨m, hm, hnamed⟩ := hr.avoids.named hr.toWellFormed hb
      obtain ⟨m', hm', hptr⟩ := hmerges.node b m hm
      obtain ⟨-, rfl⟩ := Prod.mk.inj he
      rw [hn, Option.some_inj] at hm'
      have hsame := hcontents n (mem_of_getElem? hn)
      rw [hm', hptr, hr.contents m (mem_of_getElem? hm), Prod.mk.injEq] at hsame
      rw [Node.isDummy, hm', ← hsame.1]
      exact hnamed
  · simpa only [nodes_links, nodes_pushes] using hcontents

theorem Built.isBuilt (h : Built contents g) : IsBuilt contents g := by
  induction h with
  | node n h => exact isBuilt_ofNode h
  | mul _ _ hk ihg ihr =>
    rw [mul_eq ihg.toWellFormed ihr.toWellFormed ihr.avoids, Except.ok.injEq] at hk
    exact hk ▸ ihg.append ihr
  | add _ _ hk ihg ihr => exact ihg.add ihr hk

/-- **Appending concatenates the routes**, and does not make cycles. -/
theorem routes_mul (hg : Built contents g) (hr : Built contents r) (hga : g.Acyclic)
    (hra : r.Acyclic) (halone : ∀ i, r.IsDummyAt i → r.outOf i ≠ [] ∨ r.nodes.length = 1) :
    ∃ k, g.mul r = .ok k ∧ k.routes = g.routes * r.routes ∧ k.Acyclic := by
  have hg' := hg.isBuilt
  have hr' := hr.isBuilt
  refine ⟨g.append r, mul_eq hg'.toWellFormed hr'.toWellFormed hr'.avoids, ?_, ?_⟩
  · exact routes_append hg'.toWellFormed hr'.toWellFormed hr'.avoids hga hra hg'.ne_nil hr'.ne_nil
      halone
  · exact hga.append hra hg'.toWellFormed hr'.toWellFormed hr'.avoids

def someAd : Graph := ⟨[⟨1, Xid.typeAd, .replicate _ 1⟩], [[]], [[]]⟩

def someHost : Graph :=
  ⟨[.dummySource, ⟨2, Xid.typeHid, .replicate _ 2⟩], [[1], []], [[], [0]]⟩

theorem routes_someAd_mul_someHost : ∃ k, someAd.mul someHost = .ok k ∧
    k.routes = someAd.routes * someHost.routes ∧ k.Acyclic := by
  let contents (ptr : Nat) : UInt32 × Vector UInt8 xidIdLen :=
    if ptr = 0 then (typeDummySource, .replicate _ 0)
    else if ptr = 1 then (Xid.typeAd, .replicate _ 1) else (Xid.typeHid, .replicate _ 2)
  have had : Built contents someAd := .node ⟨1, Xid.typeAd, .replicate _ 1⟩ rfl
  have hhost : Built contents someHost :=
    .mul (.node .dummySource rfl) (.node ⟨2, Xid.typeHid, .replicate _ 2⟩ rfl) (by decide)
  refine routes_mul had hhost ⟨id, ?_⟩ ⟨id, ?_⟩ ?_
  · rintro (_ | i) j hj <;> cases hj
  · rintro (_ | _ | i) j hj
    · obtain rfl : j = 1 := by simpa [outOf, someHost] using hj
      decide
    · cases hj
    · cases hj
  · rintro (_ | i) ⟨n, hn, hdummy⟩
    · exact .inl (by decide)
    · cases i with
      | zero =>
        cases hn
        cases hdummy
      | succ i => cases hn

end Graph

end Dagaddr

end Xia
