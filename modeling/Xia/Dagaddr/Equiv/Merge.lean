import Xia.Dagaddr.Equiv.Combine

/-!
# Merging graphs

If no handle is repeated, a node is given by its handle, and the edges of `g + r` are those of `g`
and those of `r` (`IsSum`).  So a source that both have is the source of `g + r`, and likewise
for a sink.  But a cycle may consist of edges of `g` and edges of `r`: `g + r` is acyclic exactly if
there is an order of the handles in which the edges of both lead upwards (`add_acyclic_iff`).
-/

namespace Xia

open List Option

namespace Dagaddr

namespace Graph

variable {g r : Graph} {s t i j p : Nat} {n : Node}

def handles (g : Graph) : List Nat := g.nodes.map Node.ptr

def Edge (g : Graph) (a b : Nat) : Prop :=
  ∃ i j, j ∈ g.outOf i ∧ g.handles[i]? = some a ∧ g.handles[j]? = some b

/-- A graph without repeated handles, whose only source and whose only sink have these handles. -/
structure SingleEnds (g : Graph) (s t : Nat) : Prop extends g.WellFormed where
  nodup : g.handles.Nodup
  source : ∀ i a, g.handles[i]? = some a → (g.isSource i = true ↔ a = s)
  sink : ∀ i a, g.handles[i]? = some a → (g.isSink i = true ↔ a = t)
  source_mem : s ∈ g.handles
  sink_mem : t ∈ g.handles

theorem length_handles : g.handles.length = g.nodes.length := length_map _

theorem getElem?_inj (hnodup : g.handles.Nodup) (hi : g.handles[i]? = some p)
    (hj : g.handles[j]? = some p) : i = j :=
  (List.getElem?_inj (List.getElem?_eq_some_iff.1 hi).1 hnodup).1 (hi.trans hj.symm)

theorem WellFormed.edge (hg : g.WellFormed) (hj : j ∈ g.outOf i) :
    ∃ a b, g.handles[i]? = some a ∧ g.handles[j]? = some b := by
  have hi : i < g.handles.length := length_handles ▸ hg.lt_of_mem hj
  have hj : j < g.handles.length := length_handles ▸ hg.range i j hj
  exact ⟨_, _, getElem?_eq_getElem hi, getElem?_eq_getElem hj⟩

theorem isSource_iff_edge (hg : g.WellFormed) (hnodup : g.handles.Nodup)
    (hp : g.handles[i]? = some p) : g.isSource i = true ↔ ∀ a, ¬ g.Edge a p := by
  rw [isSource_iff hg]
  constructor
  · rintro h a ⟨b, j, hj, -, hjp⟩
    exact h b (getElem?_inj hnodup hjp hp ▸ hj)
  · intro h b hb
    obtain ⟨a, _, ha, -⟩ := hg.edge hb
    exact h a ⟨b, i, hb, ha, hp⟩

theorem isSink_iff_edge (hg : g.WellFormed) (hnodup : g.handles.Nodup)
    (hp : g.handles[i]? = some p) : g.isSink i = true ↔ ∀ b, ¬ g.Edge p b := by
  rw [isSink, decide_eq_true_eq, eq_nil_iff_forall_not_mem]
  constructor
  · rintro h b ⟨a, j, hj, hap, -⟩
    exact h j (getElem?_inj hnodup hap hp ▸ hj)
  · intro h j hj
    obtain ⟨_, b, -, hb⟩ := hg.edge hj
    exact h b ⟨i, j, hj, hp, hb⟩

/-- **An acyclic graph is one whose handles can be ordered.** -/
theorem acyclic_iff_edge (hg : g.WellFormed) (hnodup : g.handles.Nodup) :
    g.Acyclic ↔ ∃ rank : Nat → Nat, ∀ a b, g.Edge a b → rank a < rank b := by
  constructor
  · rintro ⟨rank, hrank⟩
    refine ⟨fun a => rank (g.handles.idxOf a), ?_⟩
    rintro a b ⟨i, j, hj, ha, hb⟩
    have hidx {i p : Nat} (hp : g.handles[i]? = some p) : g.handles.idxOf p = i := by
      obtain ⟨hi, rfl⟩ := List.getElem?_eq_some_iff.1 hp
      exact hnodup.idxOf_getElem i hi
    simpa only [hidx ha, hidx hb] using hrank i j hj
  · rintro ⟨rank, hrank⟩
    refine ⟨fun i => rank (g.handles.getD i 0), fun i j hj => ?_⟩
    obtain ⟨a, b, ha, hb⟩ := hg.edge hj
    simpa [ha, hb] using hrank a b ⟨i, j, hj, ha, hb⟩

/-! ### The merged graph -/

/-- The graph `g + r` has the handles and the edges of both graphs. -/
structure IsSum (g r k : Graph) : Prop extends k.WellFormed where
  nodup : k.handles.Nodup
  mem : ∀ p, p ∈ k.handles ↔ p ∈ g.handles ∨ p ∈ r.handles
  edge : ∀ a b, k.Edge a b ↔ g.Edge a b ∨ r.Edge a b

theorem exists_isSum (hg : g.WellFormed) (hr : r.WellFormed) (hgn : g.handles.Nodup)
    (hrn : r.handles.Nodup) (hra : r.Acyclic) : ∃ k, g.add r = .ok k ∧ g.IsSum r k := by
  obtain ⟨new, f, hmerges, hinside, hadd⟩ := add_eq hg hr
  refine ⟨_, hadd, ?_⟩
  set k := (g.pushes new).links (mergeLinks r false f) with hk
  have hhandles : k.handles = g.handles ++ new.map Node.ptr := by
    rw [handles, hk, nodes_links, nodes_pushes, map_append, handles]
  have hleft {i a : Nat} (ha : g.handles[i]? = some a) : k.handles[i]? = some a := by
    rw [hhandles, getElem?_append_left (List.getElem?_eq_some_iff.1 ha).1, ha]
  have hright {i a : Nat} (ha : r.handles[i]? = some a) : k.handles[f i]? = some a := by
    rw [handles, getElem?_map] at ha
    obtain ⟨n, hn, rfl⟩ := map_eq_some_iff.1 ha
    obtain ⟨m, hm, hptr⟩ := hmerges.node i n hn
    rw [handles, hk, nodes_links, nodes_pushes, getElem?_map, hm, map_some, hptr]
  have hout (i j : Nat) : j ∈ k.outOf i ↔ j ∈ g.outOf i ∨
      (∃ a b, b ∈ r.outOf a ∧ i = f a ∧ j = f b) ∧ j ≠ i := by
    rw [hk, outOf_links (hg.pushes new) hinside, mem_pushAll, outOf_pushes, mem_targets,
      mem_mergeLinks]
    refine or_congr_right (and_congr_left fun _ => ?_)
    constructor
    · rintro ⟨a, b, n, -, -, hb, he⟩
      exact ⟨a, b, hb, Prod.mk.inj he⟩
    · rintro ⟨a, b, hb, rfl, rfl⟩
      exact ⟨a, b, _, getElem?_eq_getElem (hr.lt_of_mem hb), rfl, hb, rfl⟩
  refine ⟨(hg.pushes new).links hinside, ?_, fun p => ?_, fun a b => ?_⟩
  · rw [handles, hk, nodes_links, nodes_pushes]
    exact hmerges.nodup hgn
  · rw [hhandles, mem_append]
    constructor
    · exact Or.imp_right fun hp => map_subset _ hmerges.subset hp
    · rintro (hp | hp)
      · exact .inl hp
      · obtain ⟨i, hi⟩ := getElem?_of_mem hp
        rw [← mem_append, ← hhandles]
        exact mem_of_getElem? (hright hi)
  · constructor
    · rintro ⟨i, j, hj, hia, hjb⟩
      rcases (hout i j).1 hj with hj | ⟨⟨i', j', hj', rfl, rfl⟩, -⟩
      · obtain ⟨a', b', ha, hb⟩ := hg.edge hj
        rw [hleft ha, some_inj] at hia
        rw [hleft hb, some_inj] at hjb
        exact .inl ⟨i, j, hj, hia ▸ ha, hjb ▸ hb⟩
      · obtain ⟨a', b', ha, hb⟩ := hr.edge hj'
        rw [hright ha, some_inj] at hia
        rw [hright hb, some_inj] at hjb
        exact .inr ⟨i', j', hj', hia ▸ ha, hjb ▸ hb⟩
    · rintro (⟨i, j, hj, ha, hb⟩ | ⟨i, j, hj, ha, hb⟩)
      · exact ⟨i, j, (hout i j).2 (.inl hj), hleft ha, hleft hb⟩
      · -- an edge between different nodes leads to different places
        have hne : f j ≠ f i := by
          intro heq
          have hb' := hright hb
          rw [heq, hright ha, some_inj] at hb'
          exact hra.ne hj (getElem?_inj hrn hb (hb' ▸ ha))
        exact ⟨f i, f j, (hout _ _).2 (.inr ⟨⟨i, j, hj, rfl, rfl⟩, hne⟩), hright ha, hright hb⟩

/-- **The source and the sink that two graphs have in common are those of their sum.** -/
theorem IsSum.singleEnds {k : Graph} (h : g.IsSum r k) (hg : g.SingleEnds s t)
    (hr : r.SingleEnds s t) : k.SingleEnds s t where
  toWellFormed := h.toWellFormed
  nodup := h.nodup
  source := by
    intro i a ha
    have hin {q : Graph} (hq : q.SingleEnds s t) (hmem : a ∈ q.handles) :
        (∀ b, ¬ q.Edge b a) ↔ a = s := by
      obtain ⟨i, hi⟩ := getElem?_of_mem hmem
      rw [← isSource_iff_edge hq.toWellFormed hq.nodup hi, hq.source i a hi]
    rw [isSource_iff_edge h.toWellFormed h.nodup ha]
    simp only [h.edge, not_or, forall_and]
    constructor
    · rintro ⟨hg', hr'⟩
      exact ((h.mem a).1 (mem_of_getElem? ha)).elim (fun hmem => (hin hg hmem).1 hg')
        fun hmem => (hin hr hmem).1 hr'
    · rintro rfl
      exact ⟨(hin hg hg.source_mem).2 rfl, (hin hr hr.source_mem).2 rfl⟩
  sink := by
    intro i a ha
    have hout {q : Graph} (hq : q.SingleEnds s t) (hmem : a ∈ q.handles) :
        (∀ b, ¬ q.Edge a b) ↔ a = t := by
      obtain ⟨i, hi⟩ := getElem?_of_mem hmem
      rw [← isSink_iff_edge hq.toWellFormed hq.nodup hi, hq.sink i a hi]
    rw [isSink_iff_edge h.toWellFormed h.nodup ha]
    simp only [h.edge, not_or, forall_and]
    constructor
    · rintro ⟨hg', hr'⟩
      exact ((h.mem a).1 (mem_of_getElem? ha)).elim (fun hmem => (hout hg hmem).1 hg')
        fun hmem => (hout hr hmem).1 hr'
    · rintro rfl
      exact ⟨(hout hg hg.sink_mem).2 rfl, (hout hr hr.sink_mem).2 rfl⟩
  source_mem := (h.mem s).2 (.inl hg.source_mem)
  sink_mem := (h.mem t).2 (.inl hg.sink_mem)

/-- **Merging keeps the source and the sink**, and it makes no cycle exactly if the edges of both
graphs lead upwards in one order of the handles. -/
theorem add_acyclic_iff (hg : g.SingleEnds s t) (hr : r.SingleEnds s t) (hra : r.Acyclic) :
    ∃ k, g.add r = .ok k ∧ k.SingleEnds s t ∧
      (k.Acyclic ↔ ∃ rank : Nat → Nat, ∀ a b, g.Edge a b ∨ r.Edge a b → rank a < rank b) := by
  obtain ⟨k, hadd, hsum⟩ := exists_isSum hg.toWellFormed hr.toWellFormed hg.nodup hr.nodup hra
  refine ⟨k, hadd, hsum.singleEnds hg hr, ?_⟩
  rw [acyclic_iff_edge hsum.toWellFormed hsum.nodup]
  simp only [hsum.edge]

/-! ### Lines -/

def line (a b c d : Node) : Graph := ⟨[a, b, c, d], [[1], [2], [3], []], [[], [0], [1], [2]]⟩

theorem mem_outOf_line {a b c d : Node} : j ∈ (line a b c d).outOf i ↔ i < 3 ∧ j = i + 1 := by
  match i with
  | 0 | 1 | 2 => simp [outOf, line]
  | 3 => simp [outOf, line]
  | i + 4 => simp [outOf, line]

theorem acyclic_line (a b c d : Node) : (line a b c d).Acyclic := by
  refine ⟨id, fun i j hj => ?_⟩
  have := (mem_outOf_line.1 hj).2
  simp only [id]
  omega

theorem singleEnds_line {a b c d : Node} (h : [a.ptr, b.ptr, c.ptr, d.ptr].Nodup) :
    (line a b c d).SingleEnds a.ptr d.ptr := by
  have hwf : (line a b c d).WellFormed := by
    refine ⟨rfl, rfl, fun i j hj => ?_, fun i j => ?_⟩
    · obtain ⟨hi, rfl⟩ := mem_outOf_line.1 hj
      simp only [line, length_cons, length_nil]
      omega
    · rw [mem_outOf_line]
      rcases Nat.lt_or_ge j 4 with hj | hj
      · interval_cases j
        · simp [inOf, line]
        all_goals
          simp only [inOf, line, getD_cons_succ, getD_cons_zero, mem_singleton]
          omega
      · have hnil : (line a b c d).inOf j = [] := by
          rw [inOf, List.getD, getElem?_eq_none hj, getD_none]
        rw [hnil, mem_nil_iff, iff_false]
        omega
  have hnodup : (line a b c d).handles.Nodup := h
  have hends (i p : Nat) (hp : (line a b c d).handles[i]? = some p) :
      ((line a b c d).isSource i = true ↔ p = a.ptr) ∧
        ((line a b c d).isSink i = true ↔ p = d.ptr) := by
    have hat {k q : Nat} (hq : (line a b c d).handles[k]? = some q) : p = q ↔ i = k := by
      constructor
      · rintro rfl
        exact getElem?_inj hnodup hp hq
      · rintro rfl
        exact some_inj.1 (hp.symm.trans hq)
    rw [hat (k := 0) rfl, hat (k := 3) rfl]
    have hi : i < 4 := (List.getElem?_eq_some_iff.1 hp).1
    interval_cases i <;> simp [isSource, isSink, inOf, outOf, line]
  exact ⟨hwf, hnodup, fun i p hp => (hends i p hp).1, fun i p hp => (hends i p hp).2,
    by simp [handles, line], by simp [handles, line]⟩

theorem edge_line {a b c d : Node} {p q : Nat} (h : (line a b c d).Edge p q) :
    p = a.ptr ∧ q = b.ptr ∨ p = b.ptr ∧ q = c.ptr ∨ p = c.ptr ∧ q = d.ptr := by
  obtain ⟨i, j, hj, hp, hq⟩ := h
  obtain ⟨hi, rfl⟩ := mem_outOf_line.1 hj
  match i with
  | 0 | 1 | 2 =>
    simp only [handles, line, map_cons, map_nil, getElem?_cons_zero,
      getElem?_cons_succ, some_inj] at hp hq
    simp [← hp, ← hq]

def nodeAt (ptr : Nat) : Node := ⟨ptr, Xid.typeHid, .replicate _ ptr.toUInt8⟩

/-- Two ways between the same ends. -/
theorem add_acyclic_lines : ∃ k, (line .dummySource (nodeAt 1) (nodeAt 2) (nodeAt 5)).add
      (line .dummySource (nodeAt 3) (nodeAt 4) (nodeAt 5)) = .ok k ∧ k.SingleEnds 0 5 ∧
        k.Acyclic := by
  have hg : (line .dummySource (nodeAt 1) (nodeAt 2) (nodeAt 5)).SingleEnds 0 5 :=
    singleEnds_line (by decide)
  have hr : (line .dummySource (nodeAt 3) (nodeAt 4) (nodeAt 5)).SingleEnds 0 5 :=
    singleEnds_line (by decide)
  obtain ⟨k, hadd, hends, hacyclic⟩ := add_acyclic_iff hg hr (acyclic_line _ _ _ _)
  refine ⟨k, hadd, hends, hacyclic.2 ⟨id, ?_⟩⟩
  rintro p q (h | h) <;>
    rcases edge_line h with ⟨rfl, rfl⟩ | ⟨rfl, rfl⟩ | ⟨rfl, rfl⟩ <;> decide

/-- The two nodes in the middle, passed in one order and in the other. -/
theorem not_acyclic_crossing : ∃ g r k : Graph, g.SingleEnds 0 3 ∧ g.Acyclic ∧ r.SingleEnds 0 3 ∧
    r.Acyclic ∧ g.add r = .ok k ∧ ¬ k.Acyclic := by
  refine ⟨line .dummySource (nodeAt 1) (nodeAt 2) (nodeAt 3),
    line .dummySource (nodeAt 2) (nodeAt 1) (nodeAt 3),
    ⟨[.dummySource, nodeAt 1, nodeAt 2, nodeAt 3], [[1, 2], [2, 3], [3, 1], []],
      [[], [0, 2], [1, 0], [2, 1]]⟩, singleEnds_line (by decide), acyclic_line _ _ _ _,
    singleEnds_line (by decide), acyclic_line _ _ _ _, by decide, ?_⟩
  rintro ⟨rank, hrank⟩
  have hup : rank 1 < rank 2 := hrank 1 2 (by decide)
  have hdown : rank 2 < rank 1 := hrank 2 1 (by decide)
  omega

end Graph

end Dagaddr

end Xia
