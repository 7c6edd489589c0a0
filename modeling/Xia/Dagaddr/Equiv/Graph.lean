import Xia.Dagaddr.Graph

/-!
# Building graphs

All functions of the library enter edges with `add_edge`.  `links` is the graph after a list of
edges has been entered, and `outOf_links` says which successors a node has then: those it had,
followed by the new ones in the order in which they came, each of them once and without loops.

`Proper` is what all graphs have in common: they are well formed, and no edge is there twice.
-/

namespace Xia

open List Function

namespace Dagaddr

/-! ### Vectors without duplicates -/

/-- The vector after `vector_push_back_unique` for each of the elements. -/
def pushAll (v es : List Nat) : List Nat :=
  es.foldl (fun v e => if e ∈ v then v else v ++ [e]) v

theorem pushBackUnique_beq (v : List Nat) (e : Nat) :
    (pushBackUnique (· == ·) v e).2 = if e ∈ v then v else v ++ [e] := by
  unfold pushBackUnique
  split
  · rename_i i hi
    obtain ⟨hlt, heq, -⟩ := findIdx?_eq_some_iff_getElem.1 hi
    rw [if_pos]
    rw [← beq_iff_eq.1 heq]
    exact getElem_mem hlt
  · rename_i hnone
    rw [if_neg]
    intro hmem
    have hne := findIdx?_eq_none_iff.1 hnone e hmem
    simp at hne

@[simp] theorem pushAll_nil (v : List Nat) : pushAll v [] = v := rfl

theorem pushAll_cons (v : List Nat) (e : Nat) (es : List Nat) :
    pushAll v (e :: es) = pushAll (if e ∈ v then v else v ++ [e]) es := rfl

theorem pushAll_append (v es fs : List Nat) :
    pushAll v (es ++ fs) = pushAll (pushAll v es) fs := foldl_append

@[simp] theorem mem_pushAll {v es : List Nat} {j : Nat} : j ∈ pushAll v es ↔ j ∈ v ∨ j ∈ es := by
  induction es generalizing v with
  | nil => simp
  | cons e es ih =>
    rw [pushAll_cons, ih, mem_cons]
    split
    · rename_i hmem
      constructor
      · rintro (h | h)
        · exact .inl h
        · exact .inr (.inr h)
      · rintro (h | rfl | h)
        · exact .inl h
        · exact .inl hmem
        · exact .inr h
    · rw [mem_append, mem_singleton, or_assoc]

theorem nodup_pushAll {v : List Nat} (hv : v.Nodup) (es : List Nat) : (pushAll v es).Nodup := by
  induction es generalizing v with
  | nil => exact hv
  | cons e es ih =>
    rw [pushAll_cons]
    split
    · exact ih hv
    · rename_i hnot
      refine ih (nodup_append.2 ⟨hv, nodup_singleton e, ?_⟩)
      intro a ha b hb
      rw [mem_singleton.1 hb]
      rintro rfl
      exact hnot ha

theorem pushAll_eq_append {v es : List Nat} (h : (v ++ es).Nodup) : pushAll v es = v ++ es := by
  induction es generalizing v with
  | nil => simp
  | cons e es ih =>
    have hnot : e ∉ v := fun hmem => (nodup_append.1 h).2.2 e hmem e (by simp) rfl
    rw [append_cons] at h
    rw [pushAll_cons, if_neg hnot, ih h, append_assoc]
    rfl

theorem length_pushAll_le (v es : List Nat) : (pushAll v es).length ≤ v.length + es.length := by
  induction es generalizing v with
  | nil => simp
  | cons e es ih =>
    rw [pushAll_cons]
    have hlength := ih (if e ∈ v then v else v ++ [e])
    split at hlength
    · simp only [length_cons] at hlength ⊢
      rw [if_pos ‹_›]
      omega
    · simp only [length_append, length_cons, length_nil] at hlength ⊢
      rw [if_neg ‹_›]
      omega

theorem flatMap_eq_of_unique {α β : Type} {l : List α} (hl : l.Nodup) {f : α → List β} {a : α}
    (ha : a ∈ l) (h : ∀ b ∈ l, b ≠ a → f b = []) : l.flatMap f = f a := by
  induction l with
  | nil => cases ha
  | cons c l ih =>
    obtain ⟨hc, hl⟩ := nodup_cons.1 hl
    rw [flatMap_cons]
    rcases mem_cons.1 ha with rfl | hal
    · rw [flatMap_eq_nil_iff.2, append_nil]
      intro b hb
      exact h b (mem_cons_of_mem _ hb) fun heq => hc (heq ▸ hb)
    · have hne : c ≠ a := fun heq => hc (heq ▸ hal)
      rw [h c mem_cons_self hne, nil_append]
      exact ih hl hal fun b hb => h b (mem_cons_of_mem _ hb)

theorem Node.equalTo_iff {m n : Node} : m.equalTo n = true ↔ m.type = n.type ∧ m.id = n.id := by
  simp [Node.equalTo]

def Node.xid (n : Node) : Xid := ⟨htonl n.type, n.id⟩

namespace Graph

variable {g : Graph} {a b i : Nat}

/-! ### Nodes -/

theorem addNode_fresh (h : g.WellFormed) {n : Node} (hn : ∀ m ∈ g.nodes, m.ptr ≠ n.ptr) :
    g.addNode n false = (g.nodes.length, g.push n) := by
  have hnone : g.nodes.findIdx? (Node.same · n) = none := by
    rw [findIdx?_eq_none_iff]
    intro m hm
    simp [Node.same, hn m hm]
  rw [addNode_false h, hnone]

def pushes (g : Graph) (ns : List Node) : Graph := ns.foldl push g

theorem nodes_pushes (ns : List Node) : (g.pushes ns).nodes = g.nodes ++ ns := by
  induction ns generalizing g with
  | nil => simp [pushes]
  | cons n ns ih =>
    refine ih.trans ?_
    simp [push]

theorem outOf_pushes (ns : List Node) (i : Nat) : (g.pushes ns).outOf i = g.outOf i := by
  induction ns generalizing g with
  | nil => rfl
  | cons n ns ih => exact ih.trans (outOf_push n i)

theorem WellFormed.pushes (h : g.WellFormed) (ns : List Node) : (g.pushes ns).WellFormed := by
  induction ns generalizing g with
  | nil => exact h
  | cons n ns ih => exact ih (h.push n)

/-! ### Edges -/

/-- The graph after `add_edge`. -/
def link (g : Graph) (a b : Nat) : Graph :=
  if a = b then g
  else { g with
    outEdges := g.outEdges.set a (pushAll (g.outOf a) [b])
    inEdges := g.inEdges.set b (pushAll (g.inOf b) [a]) }

@[simp] theorem nodes_link : (g.link a b).nodes = g.nodes := by
  unfold link
  split <;> rfl

theorem WellFormed.outOf_of_le (h : g.WellFormed) (hi : g.nodes.length ≤ i) : g.outOf i = [] := by
  rw [outOf, List.getD, getElem?_eq_none (h.out_length ▸ hi)]
  rfl

theorem WellFormed.lt_of_mem {j : Nat} (h : g.WellFormed) (hj : j ∈ g.outOf i) :
    i < g.nodes.length := by
  by_contra hge
  rw [h.outOf_of_le (not_lt.1 hge)] at hj
  cases hj

theorem addEdge_eq (h : g.WellFormed) (ha : a < g.nodes.length) (hb : b < g.nodes.length) :
    g.addEdge a b = .ok (g.link a b) := by
  have hget {l : List (List Nat)} {k : Nat} (hk : k < l.length) : l[k]? = some (l.getD k []) := by
    simp [List.getD, hk]
  unfold addEdge link
  split
  · rfl
  · rw [hget (h.out_length ▸ ha), hget (h.in_length ▸ hb)]
    simp only [inBounds, Result.ok_bind, pushBackUnique_beq]
    rfl

theorem addEdge_eq_ok {g' : Graph} (h : g.WellFormed) (ha : a < g.nodes.length) :
    g.addEdge a b = .ok g' ↔ b < g.nodes.length ∧ g' = g.link a b := by
  by_cases hb : b < g.nodes.length
  · simp [addEdge_eq h ha hb, hb, eq_comm]
  · have hnone : g.inEdges[b]? = none := getElem?_eq_none (by rw [h.in_length]; omega)
    refine iff_of_false (fun hok => ?_) fun hok => hb hok.1
    rw [addEdge, if_neg (by omega)] at hok
    obtain ⟨out, -, hok⟩ := Result.bind_eq_ok.1 hok
    obtain ⟨into, hinto, -⟩ := Result.bind_eq_ok.1 hok
    rw [hnone, inBounds_eq_ok] at hinto
    cases hinto

theorem WellFormed.link (h : g.WellFormed) (ha : a < g.nodes.length) (hb : b < g.nodes.length) :
    (g.link a b).WellFormed := h.addEdge (addEdge_eq h ha hb)

theorem outOf_link (h : g.WellFormed) (ha : a < g.nodes.length) : (g.link a b).outOf i =
      pushAll (g.outOf i) (if a = i ∧ b ≠ i then [b] else []) := by
  unfold Graph.link
  by_cases hab : a = b
  · rw [if_pos hab, if_neg, pushAll_nil]
    rintro ⟨rfl, hne⟩
    exact hne hab.symm
  · rw [if_neg hab]
    by_cases hai : a = i
    · subst hai
      rw [if_pos ⟨rfl, Ne.symm hab⟩]
      simp [outOf, List.getD, h.out_length ▸ ha]
    · rw [if_neg fun hi => hai hi.1, pushAll_nil]
      simp [outOf, List.getD, getElem?_set_ne hai]

/-- The graph after `add_edge` for each of the edges. -/
def links (g : Graph) (es : List (Nat × Nat)) : Graph := es.foldl (fun g e => g.link e.1 e.2) g

/-- The new successors of a node. -/
def targets (es : List (Nat × Nat)) (i : Nat) : List Nat :=
  (es.filter fun e => e.1 = i ∧ e.2 ≠ i).map Prod.snd

def Inside (g : Graph) (es : List (Nat × Nat)) : Prop :=
  ∀ e ∈ es, e.1 < g.nodes.length ∧ e.2 < g.nodes.length

variable {es : List (Nat × Nat)}

theorem links_append (es fs : List (Nat × Nat)) : g.links (es ++ fs) = (g.links es).links fs :=
  foldl_append

@[simp] theorem nodes_links : (g.links es).nodes = g.nodes := by
  induction es generalizing g with
  | nil => rfl
  | cons e es ih => exact ih.trans nodes_link

theorem targets_append (es fs : List (Nat × Nat)) (i : Nat) :
    targets (es ++ fs) i = targets es i ++ targets fs i := by
  simp [targets]

theorem mem_targets {j : Nat} : j ∈ targets es i ↔ (i, j) ∈ es ∧ j ≠ i := by
  unfold targets
  constructor
  · intro h
    obtain ⟨⟨a, b⟩, he, rfl⟩ := mem_map.1 h
    simp only [mem_filter, decide_eq_true_eq] at he
    obtain ⟨hmem, rfl, hne⟩ := he
    exact ⟨hmem, hne⟩
  · rintro ⟨hmem, hne⟩
    exact mem_map.2 ⟨(i, j), mem_filter.2 ⟨hmem, by simp [hne]⟩, rfl⟩

theorem WellFormed.links (h : g.WellFormed) (hes : g.Inside es) : (g.links es).WellFormed := by
  induction es generalizing g with
  | nil => exact h
  | cons e es ih =>
    obtain ⟨he, hes⟩ := forall_mem_cons.1 hes
    refine ih (h.link he.1 he.2) fun e' he' => ?_
    rw [nodes_link]
    exact hes e' he'

/-- **The successors of a node after edges have been entered.** -/
theorem outOf_links (h : g.WellFormed) (hes : g.Inside es) (i : Nat) :
    (g.links es).outOf i = pushAll (g.outOf i) (targets es i) := by
  induction es generalizing g with
  | nil => rfl
  | cons e es ih =>
    obtain ⟨he, hes⟩ := forall_mem_cons.1 hes
    have hes' : (g.link e.1 e.2).Inside es := by
      intro e' he'
      rw [nodes_link]
      exact hes e' he'
    refine (ih (h.link he.1 he.2) hes').trans ?_
    have htargets : targets (e :: es) i =
        (if e.1 = i ∧ e.2 ≠ i then [e.2] else []) ++ targets es i := by
      unfold targets
      by_cases he : e.1 = i ∧ e.2 ≠ i
      · rw [filter_cons_of_pos (by simpa using he), if_pos he]
        rfl
      · rw [filter_cons_of_neg (by simpa using he), if_neg he]
        rfl
    rw [outOf_link h he.1, htargets, pushAll_append]

/-- **A loop that enters edges in every iteration**, in which an iteration may fail. -/
theorem foldlM_links_iff {ι : Type} {step : Graph → ι → Result Graph} {P : ι → Prop}
    {fs : ι → List (Nat × Nat)} {is : List ι} {g' : Graph} (h : g.WellFormed)
    (hfs : ∀ i ∈ is, P i → g.Inside (fs i))
    (hstep : ∀ i ∈ is, ∀ k : Graph, k.WellFormed → k.nodes = g.nodes →
      ∀ k', step k i = .ok k' ↔ P i ∧ k' = k.links (fs i)) :
    is.foldlM step g = .ok g' ↔ (∀ i ∈ is, P i) ∧ g' = g.links (is.flatMap fs) := by
  induction is generalizing g with
  | nil =>
    rw [foldlM_nil, Result.pure_eq_ok]
    simp [Graph.links, eq_comm]
  | cons i is ih =>
    obtain ⟨hi, hfs⟩ := forall_mem_cons.1 hfs
    obtain ⟨hstep₁, hstep⟩ := forall_mem_cons.1 hstep
    have hrest (hP : P i) : is.foldlM step (g.links (fs i)) = .ok g' ↔
        (∀ i ∈ is, P i) ∧ g' = (g.links (fs i)).links (is.flatMap fs) := by
      refine ih (h.links (hi hP)) ?_ ?_
      · intro j hj hPj e he
        rw [nodes_links]
        exact hfs j hj hPj e he
      · intro j hj k hk hnodes
        exact hstep j hj k hk (hnodes.trans nodes_links)
    rw [foldlM_cons, Result.bind_eq_ok, flatMap_cons, links_append, forall_mem_cons]
    simp only [hstep₁ g h rfl]
    constructor
    · rintro ⟨k, ⟨hP, rfl⟩, hloop⟩
      obtain ⟨hall, rfl⟩ := (hrest hP).1 hloop
      exact ⟨⟨hP, hall⟩, rfl⟩
    · rintro ⟨⟨hP, hall⟩, rfl⟩
      exact ⟨_, ⟨hP, rfl⟩, (hrest hP).2 ⟨hall, rfl⟩⟩

theorem foldlM_links {ι : Type} {step : Graph → ι → Result Graph} {fs : ι → List (Nat × Nat)}
    {is : List ι} (h : g.WellFormed) (hfs : ∀ i ∈ is, g.Inside (fs i))
    (hstep : ∀ i ∈ is, ∀ k : Graph, k.WellFormed → k.nodes = g.nodes →
      step k i = .ok (k.links (fs i))) :
    is.foldlM step g = .ok (g.links (is.flatMap fs)) := by
  refine (foldlM_links_iff (P := fun _ => True) h (fun i hi _ => hfs i hi) ?_).2
    ⟨fun _ _ => trivial, rfl⟩
  intro i hi k hk hnodes k'
  rw [hstep i hi k hk hnodes]
  simp [eq_comm]

theorem foldlM_addEdge_from {g' : Graph} (h : g.WellFormed) (ha : a < g.nodes.length)
    {ts : List Nat} : ts.foldlM (fun g t => g.addEdge a t) g = .ok g' ↔
      (∀ t ∈ ts, t < g.nodes.length) ∧ g' = g.links (ts.map (a, ·)) := by
  rw [map_eq_flatMap]
  refine foldlM_links_iff h (fun t _ ht e he => ?_) fun t _ k hk hnodes k' => ?_
  · rw [mem_singleton.1 he]
    exact ⟨ha, ht⟩
  · rw [← hnodes]
    exact addEdge_eq_ok hk (hnodes ▸ ha)

theorem targets_flatMap {ι : Type} (is : List ι) (fs : ι → List (Nat × Nat)) (i : Nat) :
    targets (is.flatMap fs) i = is.flatMap fun k => targets (fs k) i := by
  induction is with
  | nil => rfl
  | cons k is ih => rw [flatMap_cons, targets_append, ih, flatMap_cons]

theorem targets_map (a i : Nat) (ts : List Nat) :
    targets (ts.map (a, ·)) i = if a = i then ts.filter (· ≠ i) else [] := by
  unfold targets
  by_cases ha : a = i
  · rw [if_pos ha, filter_map, map_map]
    simp only [ha, comp_def, true_and, map_id']
  · rw [if_neg ha, filter_map]
    simp [comp_def, ha]

/-! ### Graphs without duplicate edges -/

/-- What all graphs have in common. -/
structure Proper (g : Graph) : Prop extends g.WellFormed where
  nodup : ∀ i, (g.outOf i).Nodup

theorem proper_empty : empty.Proper where
  toWellFormed := wellFormed_empty
  nodup := by simp [outOf, empty]

theorem Proper.push (h : g.Proper) (n : Node) : (g.push n).Proper where
  toWellFormed := h.toWellFormed.push n
  nodup := by
    intro i
    rw [outOf_push]
    exact h.nodup i

theorem Proper.pushes (h : g.Proper) (ns : List Node) : (g.pushes ns).Proper where
  toWellFormed := h.toWellFormed.pushes ns
  nodup := by
    intro i
    rw [outOf_pushes]
    exact h.nodup i

theorem Proper.addNode (h : g.Proper) (n : Node) (dup : Bool) : (g.addNode n dup).2.Proper := by
  rcases addNode_cases h.toWellFormed n dup with ⟨i, -, heq⟩ | heq
  · rw [heq]
    exact h
  · rw [heq]
    exact h.push n

theorem Proper.links (h : g.Proper) (hes : g.Inside es) : (g.links es).Proper where
  toWellFormed := h.toWellFormed.links hes
  nodup := by
    intro i
    rw [outOf_links h.toWellFormed hes]
    exact nodup_pushAll (h.nodup i) _

/-! ### Acyclic graphs -/

/-- There is an order of the nodes in which all edges lead upwards. -/
def Acyclic (g : Graph) : Prop := ∃ rank : Nat → Nat, ∀ i, ∀ j ∈ g.outOf i, rank i < rank j

theorem Acyclic.ne {j : Nat} (h : g.Acyclic) (hj : j ∈ g.outOf i) : j ≠ i := by
  obtain ⟨rank, hrank⟩ := h
  rintro rfl
  exact lt_irrefl _ (hrank j j hj)

theorem Acyclic.exists_sink (h : g.Acyclic) (hg : g.WellFormed) (hne : g.nodes ≠ []) :
    ∃ i < g.nodes.length, g.isSink i = true := by
  obtain ⟨rank, hrank⟩ := h
  obtain ⟨i, hi, hmax⟩ := Finset.exists_max_image (Finset.range g.nodes.length) rank
    (Finset.nonempty_range_iff.2 (by simpa using hne))
  refine ⟨i, Finset.mem_range.1 hi, ?_⟩
  rw [isSink, decide_eq_true_eq, eq_nil_iff_forall_not_mem]
  intro j hj
  exact absurd (hrank i j hj) (not_lt.2 (hmax j (Finset.mem_range.2 (hg.range i j hj))))

theorem isSource_iff {j : Nat} (hg : g.WellFormed) : g.isSource j = true ↔ ∀ i, j ∉ g.outOf i := by
  rw [isSource, decide_eq_true_eq, eq_nil_iff_forall_not_mem]
  exact forall_congr' fun i => not_congr (hg.mirror i j).symm

theorem Acyclic.exists_source (h : g.Acyclic) (hg : g.WellFormed) (hne : g.nodes ≠ []) :
    ∃ i < g.nodes.length, g.isSource i = true := by
  obtain ⟨rank, hrank⟩ := h
  obtain ⟨i, hi, hmin⟩ := Finset.exists_min_image (Finset.range g.nodes.length) rank
    (Finset.nonempty_range_iff.2 (by simpa using hne))
  refine ⟨i, Finset.mem_range.1 hi, (isSource_iff hg).2 fun a ha => ?_⟩
  exact absurd (hrank a i ha) (not_lt.2 (hmin a (Finset.mem_range.2 (hg.lt_of_mem ha))))

end Graph

end Dagaddr

end Xia
