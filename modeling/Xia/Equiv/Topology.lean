import Xia.Kahn
import Xia.XiaPath

/-!
# Order and validity of paths

`topological_ordering` is Kahn's algorithm (`topologicalOrdering_eq`).  `Valid p src dst` says what
a valid path is, and `isValid_iff` that `is_valid` decides it.  In the order of a valid path the
source is first, the destination last, and every edge goes forward.
-/

namespace Xia

open List Option

namespace XiaPath

variable {p : XiaPath} {src dst : Nat}
variable {i j n : Nat} {r : List Nat × List Int} {r' : List Nat × (Nat → Int)}

/-! ### The graph of a path -/

def edgesOf (p : XiaPath) (i : Nat) : List Nat := ((p.nodes[i]?).map PathNode.edges).getD []

def xidOf (p : XiaPath) (i : Nat) : Xid := ((p.nodes[i]?).map PathNode.xid).getD Xid.zero

def InRange (p : XiaPath) : Prop := ∀ i, ∀ e ∈ p.edgesOf i, e < p.nodes.length

/-- A path that is a graph with one source, one destination and no cycle. -/
structure Valid (p : XiaPath) (src dst : Nat) : Prop where
  src_eq : p.src = some src
  dst_eq : p.dst = some dst
  src_lt : src < p.nodes.length
  dst_lt : dst < p.nodes.length
  ne : src ≠ dst
  inRange : p.InRange
  acyclic : ∃ rank : Nat → Nat, ∀ i, ∀ j ∈ p.edgesOf i, rank i < rank j
  incoming : ∀ j < p.nodes.length, (∃ i, j ∈ p.edgesOf i) ↔ j ≠ src
  outgoing : ∀ i < p.nodes.length, p.edgesOf i = [] ↔ i = dst
  degree : ∀ i, (p.edgesOf i).length ≤ xidEdgeNum

theorem lt_of_mem_edgesOf (h : j ∈ p.edgesOf i) : i < p.nodes.length := by
  by_contra hge
  rw [edgesOf, getElem?_eq_none (by omega)] at h
  cases h

theorem edgesOf_eq {node : PathNode} (h : p.nodes[i]? = some node) : p.edgesOf i = node.edges := by
  rw [edgesOf, h]
  rfl

theorem xidOf_eq {node : PathNode} (h : p.nodes[i]? = some node) : p.xidOf i = node.xid := by
  rw [xidOf, h]
  rfl

theorem getElem?_nodes (h : i < p.nodes.length) : p.nodes[i]? = some ⟨p.xidOf i, p.edgesOf i⟩ := by
  have hnode : p.nodes[i]? = some p.nodes[i] := getElem?_eq_getElem h
  rw [xidOf_eq hnode, edgesOf_eq hnode, hnode]

theorem flatMap_edgesOf (p : XiaPath) :
    (List.range p.nodes.length).flatMap p.edgesOf = p.nodes.flatMap PathNode.edges := by
  rw [flatMap_def, flatMap_def]
  congr 1
  apply ext_getElem?
  intro i
  by_cases hi : i < p.nodes.length
  · simp [hi, edgesOf]
  · simp [hi]

theorem mem_flatMap_edgesOf :
    j ∈ (List.range p.nodes.length).flatMap p.edgesOf ↔ ∃ i, j ∈ p.edgesOf i := by
  simp only [mem_flatMap, mem_range]
  constructor
  · rintro ⟨i, -, hj⟩
    exact ⟨i, hj⟩
  · rintro ⟨i, hj⟩
    exact ⟨i, lt_of_mem_edgesOf hj, hj⟩

/-! ### Counting edges -/

/-- How often each of the first `n` nodes occurs among the edges. -/
def countList (n : Nat) (es : List Nat) : List Int := (List.range n).map fun i => (es.count i : Int)

theorem getElem?_countList (hi : i < n) (es : List Nat) :
    (countList n es)[i]? = some (es.count i : Int) := by
  simp [countList, hi]

theorem modify_countList (n e : Nat) (es : List Nat) :
    (countList n es).modify e (· + 1) = countList n (es ++ [e]) := by
  apply ext_getElem?
  intro i
  rw [getElem?_modify]
  by_cases hi : i < n
  · rw [getElem?_countList hi, getElem?_countList hi, count_append]
    by_cases he : e = i
    · simp [he]
    · simp [he]
  · simp [countList, hi]

theorem addIndegree_countList {fs es : List Nat} {indegree : List Int} :
    addIndegree n (countList n fs) es = .ok indegree ↔
      (∀ e ∈ es, e < n) ∧ indegree = countList n (fs ++ es) := by
  induction es generalizing fs with
  | nil => simp [addIndegree, eq_comm]
  | cons e es ih =>
    rw [addIndegree]
    split
    · rename_i he
      rw [modify_countList, ih]
      simp [he]
    · rename_i he
      simp [he]

theorem countList_nil (n : Nat) : countList n [] = List.replicate n 0 := by
  simp [countList]

/-! ### Kahn's algorithm -/

/-- The stacks are the same, and the list and the function count the same edges. -/
structure Agree (n : Nat) (r : List Nat × List Int) (r' : List Nat × (Nat → Int)) : Prop where
  stack : r.1 = r'.1
  length : r.2.length = n
  counts : ∀ i < n, r.2[i]? = some (r'.2 i)

theorem Agree.dropEdge {e : Nat} (h : Agree n r r') (he : e < n) :
    Agree n (dropEdge r e) (Kahn.dropEdge r' e) := by
  obtain ⟨stack, indegree⟩ := r
  obtain ⟨stack', deg⟩ := r'
  obtain ⟨rfl, hlen, hcounts⟩ := h
  have hdrop : ∀ i < n, (indegree.modify e (· - 1))[i]? =
      some (Function.update deg e (deg e - 1) i) := by
    intro i hi
    rw [getElem?_modify, hcounts i hi]
    by_cases heq : e = i
    · subst heq
      simp
    · rw [Function.update_of_ne (Ne.symm heq)]
      simp [heq]
  refine ⟨?_, by rw [XiaPath.dropEdge, length_modify, hlen], hdrop⟩
  simp only [XiaPath.dropEdge, Kahn.dropEdge, hdrop e he, some_inj]

theorem Agree.foldl_dropEdge {es : List Nat} (h : Agree n r r') (hes : ∀ e ∈ es, e < n) :
    Agree n (es.foldl XiaPath.dropEdge r) (es.foldl Kahn.dropEdge r') := by
  induction es generalizing r r' with
  | nil => exact h
  | cons e es ih =>
    exact ih (h.dropEdge (hes e mem_cons_self)) fun e' he' => hes e' (mem_cons_of_mem _ he')

theorem topologicalVisit_eq {fuel : Nat} (hp : p.InRange) (h : Agree p.nodes.length r r') :
    p.topologicalVisit fuel r.1 r.2 = Kahn.visit p.edgesOf fuel r'.1 r'.2 := by
  induction fuel generalizing r r' with
  | zero => rfl
  | succ fuel ih =>
    obtain ⟨stack, indegree⟩ := r
    obtain ⟨stack', deg⟩ := r'
    obtain rfl : stack = stack' := h.stack
    cases stack with
    | nil => rfl
    | cons i stack =>
      have hpop : Agree p.nodes.length (stack, indegree) (stack, deg) := ⟨rfl, h.length, h.counts⟩
      exact congrArg (i :: ·) (ih (hpop.foldl_dropEdge (hp i)))

def indegree (p : XiaPath) (i : Nat) : Nat :=
  ((List.range p.nodes.length).flatMap p.edgesOf).count i

theorem indegree_eq_zero : p.indegree i = 0 ↔ ∀ j, i ∉ p.edgesOf j := by
  rw [indegree, count_eq_zero, mem_flatMap_edgesOf, not_exists]

/-- The order in which Kahn's algorithm visits the nodes of the path. -/
def order (p : XiaPath) : List Nat :=
  Kahn.visit p.edgesOf p.nodes.length
    ((List.range p.nodes.length).filter fun i => p.indegree i = 0).reverse fun i => p.indegree i

/-- **`topological_ordering` is Kahn's algorithm.** -/
theorem topologicalOrdering_eq (hp : p.InRange) : p.topologicalOrdering =
    .ok (if p.order.length = p.nodes.length then some p.order else none) := by
  have hrange : ∀ e ∈ (List.range p.nodes.length).flatMap p.edgesOf, e < p.nodes.length := by
    intro e he
    obtain ⟨i, hi⟩ := mem_flatMap_edgesOf.1 he
    exact hp i e hi
  have hadd : addIndegree p.nodes.length (List.replicate p.nodes.length 0)
      (p.nodes.flatMap PathNode.edges) =
        .ok (countList p.nodes.length ((List.range p.nodes.length).flatMap p.edgesOf)) := by
    rw [← countList_nil, ← flatMap_edgesOf]
    exact addIndegree_countList.2 ⟨hrange, rfl⟩
  have hroots : ((List.range p.nodes.length).filter fun i => decide
      ((countList p.nodes.length ((List.range p.nodes.length).flatMap p.edgesOf))[i]? = some 0)) =
      (List.range p.nodes.length).filter fun i => p.indegree i = 0 := by
    refine filter_congr fun i hi => decide_eq_decide.2 ?_
    rw [getElem?_countList (mem_range.1 hi), some_inj, indegree, Int.natCast_eq_zero]
  have hagree : ∀ stack, Agree p.nodes.length
      (stack, countList p.nodes.length ((List.range p.nodes.length).flatMap p.edgesOf))
      (stack, fun i => (p.indegree i : Int)) :=
    fun stack => ⟨rfl, by simp [countList], fun i hi => getElem?_countList hi _⟩
  rw [topologicalOrdering]
  dsimp only
  rw [hadd, Result.ok_bind, hroots, topologicalVisit_eq hp (hagree _)]
  rfl

theorem visited_order (hp : p.InRange) :
    Kahn.Visited (List.range p.nodes.length) p.edgesOf p.order := by
  have hsucc : ∀ i ∈ List.range p.nodes.length, ∀ j ∈ p.edgesOf i,
      j ∈ List.range p.nodes.length := fun i _ j hj => mem_range.2 (hp i j hj)
  have hroots : ∀ i, i ∈ ((List.range p.nodes.length).filter fun i => p.indegree i = 0).reverse ↔
      i ∈ List.range p.nodes.length ∧
        ((List.range p.nodes.length).flatMap p.edgesOf).count i = 0 := by
    intro i
    rw [mem_reverse, mem_filter, decide_eq_true_eq, indegree]
  have hspec := Kahn.visit_spec nodup_range hsucc
    (nodup_reverse.2 (nodup_range.filter _)) hroots fun _ => rfl
  rwa [length_range] at hspec

/-! ### Validity -/

theorem checkDegrees_eq_some {nodes : List PathNode} {fs : List Nat} {indegree : List Int} :
    checkDegrees p dst i nodes (countList p.nodes.length fs) = .ok (some indegree) ↔
      (∀ j node, nodes[j]? = some node → (node.edges = [] → i + j = dst) ∧
        node.edges.length ≤ xidEdgeNum ∧ ∀ e ∈ node.edges, e < p.nodes.length) ∧
      indegree = countList p.nodes.length (fs ++ nodes.flatMap PathNode.edges) := by
  induction nodes generalizing i fs with
  | nil => simp [checkDegrees, eq_comm]
  | cons node nodes ih =>
    have hsplit : (∀ j n, (node :: nodes)[j]? = some n → (n.edges = [] → i + j = dst) ∧
          n.edges.length ≤ xidEdgeNum ∧ ∀ e ∈ n.edges, e < p.nodes.length) ↔
        ((node.edges = [] → i = dst) ∧ node.edges.length ≤ xidEdgeNum ∧
          ∀ e ∈ node.edges, e < p.nodes.length) ∧
        ∀ j n, nodes[j]? = some n → (n.edges = [] → i + 1 + j = dst) ∧
          n.edges.length ≤ xidEdgeNum ∧ ∀ e ∈ n.edges, e < p.nodes.length := by
      constructor
      · intro h
        refine ⟨by simpa using h 0 node rfl, fun j n hn => ?_⟩
        have := h (j + 1) n (by simpa using hn)
        rwa [show i + (j + 1) = i + 1 + j by omega] at this
      · rintro ⟨hhead, htail⟩ j n hn
        cases j with
        | zero =>
          obtain rfl : node = n := by simpa using hn
          exact hhead
        | succ j =>
          rw [show i + (j + 1) = i + 1 + j by omega]
          exact htail j n (by simpa using hn)
    rw [checkDegrees, hsplit]
    split
    · rename_i hbad
      simp [hbad.1, hbad.2]
    · rename_i hgood
      split
      · rename_i hmany
        simp only [Except.ok.injEq, reduceCtorEq, false_iff]
        rintro ⟨⟨⟨-, hle, -⟩, -⟩, -⟩
        omega
      · rename_i hfew
        have hempty : node.edges = [] → i = dst := by tauto
        simp only [Result.bind_eq_ok, addIndegree_countList]
        constructor
        · rintro ⟨_, ⟨hrange, rfl⟩, hrest⟩
          obtain ⟨htail, rfl⟩ := ih.1 hrest
          exact ⟨⟨⟨hempty, by omega, hrange⟩, htail⟩, by simp⟩
        · rintro ⟨⟨⟨-, -, hrange⟩, htail⟩, rfl⟩
          exact ⟨_, ⟨hrange, rfl⟩, ih.2 ⟨htail, by simp⟩⟩

theorem checkDegrees_nodes {indegree : List Int} :
    checkDegrees p dst 0 p.nodes (List.replicate p.nodes.length 0) = .ok (some indegree) ↔
      ((∀ i < p.nodes.length, p.edgesOf i = [] → i = dst) ∧
        (∀ i, (p.edgesOf i).length ≤ xidEdgeNum) ∧ p.InRange) ∧
      indegree = countList p.nodes.length ((List.range p.nodes.length).flatMap p.edgesOf) := by
  rw [← countList_nil, checkDegrees_eq_some, nil_append, ← flatMap_edgesOf]
  refine and_congr_left fun _ => ?_
  simp only [Nat.zero_add]
  constructor
  · intro h
    have hnode : ∀ i < p.nodes.length, (p.edgesOf i = [] → i = dst) ∧
        (p.edgesOf i).length ≤ xidEdgeNum ∧ ∀ e ∈ p.edgesOf i, e < p.nodes.length :=
      fun i hi => h i _ (getElem?_nodes hi)
    refine ⟨fun i hi => (hnode i hi).1, fun i => ?_, fun i e he => ?_⟩
    · by_cases hi : i < p.nodes.length
      · exact (hnode i hi).2.1
      · simp [edgesOf, hi]
    · exact (hnode i (lt_of_mem_edgesOf he)).2.2 e he
  · rintro ⟨hempty, hdegree, hrange⟩ i node hnode
    rw [← edgesOf_eq hnode]
    exact ⟨hempty i (List.getElem?_eq_some_iff.1 hnode).1, hdegree i, hrange i⟩

theorem isValid_of_src_none (h : p.src = none ∨ p.dst = none) : p.isValid = .ok false := by
  rw [isValid]
  rcases h with h | h
  · simp [h]
  · cases p.src <;> simp [h]

/-- What `is_valid` checks, one condition after the other. -/
theorem isValid_eq_true : p.isValid = .ok true ↔ ∃ src dst, p.src = some src ∧ p.dst = some dst ∧
    src < p.nodes.length ∧ dst < p.nodes.length ∧ src ≠ dst ∧
    ((∀ i < p.nodes.length, p.edgesOf i = [] → i = dst) ∧
      (∀ i, (p.edgesOf i).length ≤ xidEdgeNum) ∧ p.InRange) ∧
    (∀ i < p.nodes.length, p.indegree i = 0 → i = src) ∧ p.order.length = p.nodes.length := by
  cases hsrc : p.src with
  | none => simp [isValid_of_src_none (.inl hsrc)]
  | some src =>
    cases hdst : p.dst with
    | none => simp [isValid_of_src_none (.inr hdst)]
    | some dst =>
      simp only [isValid, hsrc, hdst, Option.some.injEq, exists_and_left, exists_eq_left']
      split
      · rename_i hbad
        simp only [Except.ok.injEq, Bool.false_eq_true, false_iff]
        rintro ⟨h₁, h₂, h₃, -⟩
        omega
      · rename_i hgood
        have hlt : src < p.nodes.length ∧ dst < p.nodes.length ∧ src ≠ dst := by omega
        have hany : ((List.range p.nodes.length).any fun i =>
            (countList p.nodes.length ((List.range p.nodes.length).flatMap p.edgesOf))[i]? = some 0
              && decide (i ≠ src)) = false ↔
            ∀ i < p.nodes.length, p.indegree i = 0 → i = src := by
          rw [List.any_eq_false]
          refine forall_congr' fun i => ?_
          rw [mem_range]
          refine imp_congr_right fun hi => ?_
          simp only [getElem?_countList hi, Bool.and_eq_true, decide_eq_true_eq, some_inj,
            Int.natCast_eq_zero, indegree, not_and, not_not, ne_eq]
        rw [Result.bind_eq_ok]
        constructor
        · rintro ⟨found, hcheck, hrest⟩
          cases found with
          | none => cases hrest
          | some ind =>
            obtain ⟨hdegrees, rfl⟩ := checkDegrees_nodes.1 hcheck
            dsimp only at hrest
            split at hrest
            · cases hrest
            · rename_i hroots
              rw [topologicalOrdering_eq hdegrees.2.2, Result.ok_bind] at hrest
              refine ⟨hlt.1, hlt.2.1, hlt.2.2, hdegrees, hany.1 (by simpa using hroots), ?_⟩
              by_contra hlen
              rw [if_neg hlen] at hrest
              cases hrest
        · rintro ⟨-, -, -, hdegrees, hroots, hlen⟩
          refine ⟨_, checkDegrees_nodes.2 ⟨hdegrees, rfl⟩, ?_⟩
          dsimp only
          rw [if_neg (by rw [hany.2 hroots]; decide), topologicalOrdering_eq hdegrees.2.2,
            if_pos hlen]
          rfl

theorem exists_root {rank : Nat → Nat} (hrank : ∀ i, ∀ j ∈ p.edgesOf i, rank i < rank j)
    (hne : 0 < p.nodes.length) : ∃ j < p.nodes.length, ∀ i, j ∉ p.edgesOf i := by
  obtain ⟨j, hj, hmin⟩ := Finset.exists_min_image (Finset.range p.nodes.length) rank
    ⟨0, Finset.mem_range.2 hne⟩
  refine ⟨j, Finset.mem_range.1 hj, fun i hi => ?_⟩
  have hle := hmin i (Finset.mem_range.2 (lt_of_mem_edgesOf hi))
  have hlt := hrank i j hi
  omega

theorem exists_sink (hp : p.InRange) {rank : Nat → Nat}
    (hrank : ∀ i, ∀ j ∈ p.edgesOf i, rank i < rank j) (hne : 0 < p.nodes.length) :
    ∃ i < p.nodes.length, p.edgesOf i = [] := by
  obtain ⟨i, hi, hmax⟩ := Finset.exists_max_image (Finset.range p.nodes.length) rank
    ⟨0, Finset.mem_range.2 hne⟩
  refine ⟨i, Finset.mem_range.1 hi, eq_nil_iff_forall_not_mem.2 fun j hj => ?_⟩
  have hle := hmax j (Finset.mem_range.2 (hp i j hj))
  have hlt := hrank i j hj
  omega

theorem acyclic_iff : Kahn.Acyclic (List.range p.nodes.length) p.edgesOf ↔
    ∃ rank : Nat → Nat, ∀ i, ∀ j ∈ p.edgesOf i, rank i < rank j := by
  refine exists_congr fun rank => ⟨fun h i j hj => ?_, fun h i _ => h i⟩
  exact h i (mem_range.2 (lt_of_mem_edgesOf hj)) j hj

theorem order_length_iff (hp : p.InRange) : p.order.length = p.nodes.length ↔
    ∃ rank : Nat → Nat, ∀ i, ∀ j ∈ p.edgesOf i, rank i < rank j := by
  rw [← acyclic_iff, ← (visited_order hp).length_eq_iff nodup_range
    (fun i _ j hj => mem_range.2 (hp i j hj)), length_range]

/-- **`is_valid` decides whether a path is valid.** -/
theorem isValid_iff : p.isValid = .ok true ↔ ∃ src dst, p.Valid src dst := by
  rw [isValid_eq_true]
  refine exists_congr fun src => exists_congr fun dst => ?_
  constructor
  · rintro ⟨hsrc, hdst, hsrclt, hdstlt, hne, ⟨hempty, hdegree, hrange⟩, hroots, hlen⟩
    obtain ⟨rank, hrank⟩ := (order_length_iff hrange).1 hlen
    -- the node without incoming edges is the source, the node without outgoing ones the destination
    obtain ⟨root, hroot, hin⟩ := exists_root hrank (by omega)
    obtain ⟨sink, hsink, hout⟩ := exists_sink hrange hrank (by omega)
    obtain rfl := hroots root hroot (indegree_eq_zero.2 hin)
    obtain rfl := hempty sink hsink hout
    refine ⟨hsrc, hdst, hsrclt, hdstlt, hne, hrange, ⟨rank, hrank⟩, fun j hj => ?_, fun i hi => ?_,
      hdegree⟩
    · constructor
      · rintro ⟨i, hi⟩ rfl
        exact hin i hi
      · intro hjne
        by_contra hno
        exact hjne (hroots j hj (indegree_eq_zero.2 (not_exists.1 hno)))
    · exact ⟨hempty i hi, fun h => h ▸ hout⟩
  · intro h
    refine ⟨h.src_eq, h.dst_eq, h.src_lt, h.dst_lt, h.ne,
      ⟨fun i hi => (h.outgoing i hi).1, h.degree, h.inRange⟩, fun i hi hzero => ?_,
      (order_length_iff h.inRange).2 h.acyclic⟩
    by_contra hne
    obtain ⟨j, hj⟩ := (h.incoming i hi).2 hne
    exact indegree_eq_zero.1 hzero j hj

/-! ### The order of a valid path -/

def place (p : XiaPath) (i : Nat) : Nat := p.order.idxOf i

namespace Valid

variable (h : p.Valid src dst)
include h

theorem order_perm : p.order.Perm (List.range p.nodes.length) := by
  have hvis := visited_order h.inRange
  refine (hvis.nodup.subperm hvis.subset).perm_of_length_le ?_
  rw [(order_length_iff h.inRange).2 h.acyclic, length_range]

theorem order_length : p.order.length = p.nodes.length := by
  rw [h.order_perm.length_eq, length_range]

theorem mem_order : i ∈ p.order ↔ i < p.nodes.length := by
  rw [h.order_perm.mem_iff, mem_range]

theorem topologicalOrdering : p.topologicalOrdering = .ok (some p.order) := by
  rw [topologicalOrdering_eq h.inRange, if_pos h.order_length]

theorem place_lt (hj : j ∈ p.edgesOf i) : p.place i < p.place j :=
  (visited_order h.inRange).idxOf_lt (mem_range.2 (lt_of_mem_edgesOf hj)) hj
    (h.mem_order.2 (h.inRange i j hj))

theorem place_lt_length (hi : i < p.nodes.length) : p.place i < p.nodes.length := by
  have hlt := idxOf_lt_length_of_mem (h.mem_order.2 hi)
  rwa [h.order_length] at hlt

theorem order_getElem? (hi : i < p.nodes.length) : p.order[p.place i]? = some i :=
  getElem?_idxOf (h.mem_order.2 hi)

theorem place_inj (hi : i < p.nodes.length) (heq : p.place i = p.place j) : i = j := by
  exact (idxOf_inj (h.mem_order.2 hi)).1 heq

theorem order_eq_cons : ∃ rest, p.order = src :: rest := by
  cases horder : p.order with
  | nil =>
    have hlen := h.order_length
    rw [horder] at hlen
    have := h.src_lt
    simp at hlen
    omega
  | cons i rest =>
    have hi : i < p.nodes.length := h.mem_order.1 (by rw [horder]; exact mem_cons_self)
    by_contra hne
    have hisrc : i ≠ src := fun heq => hne ⟨rest, heq ▸ rfl⟩
    -- a node other than the source has a predecessor, which comes earlier
    obtain ⟨j, hj⟩ := (h.incoming i hi).2 hisrc
    have hlt := h.place_lt hj
    have hzero : p.place i = 0 := by simp [place, horder]
    omega

theorem place_src : p.place src = 0 := by
  obtain ⟨rest, hrest⟩ := h.order_eq_cons
  simp [place, hrest]

theorem place_dst : p.place dst + 1 = p.nodes.length := by
  have hlt := h.place_lt_length h.dst_lt
  by_contra hne
  have hnext : p.place dst + 1 < p.order.length := by
    rw [h.order_length]
    omega
  -- the last node has no successor, so it is the destination
  set last := p.order[p.order.length - 1] with hlast
  have hmem : last ∈ p.order := getElem_mem _
  have hplace : p.place last = p.order.length - 1 :=
    (visited_order h.inRange).nodup.idxOf_getElem _ _
  have hsink : p.edgesOf last = [] := by
    refine eq_nil_iff_forall_not_mem.2 fun j hj => ?_
    have h₁ := h.place_lt hj
    have h₂ := h.place_lt_length (h.inRange _ j hj)
    rw [h.order_length] at hplace
    omega
  rw [(h.outgoing last (h.mem_order.1 hmem)).1 hsink] at hplace
  omega

end Valid

end XiaPath

end Xia
