import Xia.Dagaddr.Combine
import Xia.Dagaddr.Equiv.Graph

/-!
# What the operators do

`merge_graph` gives every node of the second graph a place in the result, apart from the dummy
sources if it allows duplicates, and then enters the edges between these places (`mergeLinks`).
With duplicates the nodes come behind those of the first graph, in their order (`place`); without
them a node comes to a node in the same container (`Merges`).

An edge to a dummy source cannot be entered if duplicates are allowed, because -1 is no place.
Graphs that have been built from nodes have no such edges.
-/

namespace Xia

open List Option

namespace Dagaddr

namespace Graph

variable {g r k : Graph} {f : Nat → Nat} {ns : List Node} {dup : Bool} {i j : Nat} {n : Node}

/-! ### The edges -/

def AvoidsDummies (g : Graph) : Prop :=
  ∀ i j n, j ∈ g.outOf i → g.nodes[j]? = some n → n.isDummy = false

def IsNamedAt (g : Graph) (i : Nat) : Prop := ∃ n, g.nodes[i]? = some n ∧ n.isDummy = false

/-- The edges that `merge_graph` enters, if the places of the nodes are given by `f`. -/
def mergeLinks (r : Graph) (allowDuplicateNodes : Bool) (f : Nat → Nat) : List (Nat × Nat) :=
  (List.range r.nodes.length).flatMap fun i =>
    if allowDuplicateNodes && (r.nodes.getD i Node.dummySource).isDummy then []
    else (r.outOf i).map fun j => (f i, f j)

theorem mem_mergeLinks {e : Nat × Nat} : e ∈ mergeLinks r dup f ↔
    ∃ i j n, r.nodes[i]? = some n ∧ (dup && n.isDummy) = false ∧ j ∈ r.outOf i ∧
      e = (f i, f j) := by
  simp only [mergeLinks, mem_flatMap, mem_range]
  constructor
  · rintro ⟨i, hi, he⟩
    split at he
    · cases he
    · rename_i hkept
      obtain ⟨j, hj, rfl⟩ := List.mem_map.1 he
      exact ⟨i, j, r.nodes[i], getElem?_eq_getElem hi,
        by simpa [List.getD, hi] using hkept, hj, rfl⟩
  · rintro ⟨i, j, n, hn, hkept, hj, rfl⟩
    refine ⟨i, (List.getElem?_eq_some_iff.1 hn).1, ?_⟩
    rw [List.getD, hn, getD_some, if_neg (by simp [hkept])]
    exact List.mem_map_of_mem hj

/-- The places that `node_mapping` has for the nodes. -/
def IsMapping (mapping : List (Option Nat)) (r k : Graph) (dup : Bool) (f : Nat → Nat) : Prop :=
  ∀ i n, r.nodes[i]? = some n → (dup && n.isDummy) = false →
    mapping[i]?.join = some (f i) ∧ f i < k.nodes.length

theorem AvoidsDummies.named (h : r.AvoidsDummies) (hr : r.WellFormed) (hj : j ∈ r.outOf i) :
    r.IsNamedAt j :=
  have hm := getElem?_eq_getElem (hr.range i j hj)
  ⟨_, hm, h i j _ hj hm⟩

theorem kept_of_mem (hr : r.WellFormed) (hdummy : dup = true → r.AvoidsDummies)
    (hj : j ∈ r.outOf i) : ∃ m, r.nodes[j]? = some m ∧ (dup && m.isDummy) = false := by
  cases dup with
  | false => exact ⟨_, getElem?_eq_getElem (hr.range i j hj), rfl⟩
  | true => exact (hdummy rfl).named hr hj

theorem inside_mergeLinks {mapping : List (Option Nat)} (hr : r.WellFormed)
    (hdummy : dup = true → r.AvoidsDummies) (hmap : IsMapping mapping r k dup f) :
    k.Inside (mergeLinks r dup f) := by
  intro e he
  obtain ⟨i, j, n, hn, hkept, hj, rfl⟩ := mem_mergeLinks.1 he
  obtain ⟨m, hm, hkept'⟩ := kept_of_mem hr hdummy hj
  exact ⟨(hmap i n hn hkept).2, (hmap j m hm hkept').2⟩

/-- **The edges are entered between the places of their ends.** -/
theorem foldlM_mergeEdgesOf {mapping : List (Option Nat)} (hr : r.WellFormed) (hk : k.WellFormed)
    (hdummy : dup = true → r.AvoidsDummies) (hmap : IsMapping mapping r k dup f) :
    (List.range r.outEdges.length).foldlM (mergeEdgesOf r dup mapping) k =
      .ok (k.links (mergeLinks r dup f)) := by
  have hinside := inside_mergeLinks hr hdummy hmap
  rw [hr.out_length]
  refine foldlM_links hk (fun i hi e he => ?_) fun i hi k' hk' hnodes => ?_
  · exact hinside e (mem_flatMap.2 ⟨i, hi, he⟩)
  · have hi := mem_range.1 hi
    have hn : r.nodes[i]? = some r.nodes[i] := getElem?_eq_getElem hi
    rw [mergeEdgesOf, hn, List.getD, hn, getD_some]
    simp only [inBounds, Result.ok_bind]
    split
    · rfl
    · rename_i hkept
      obtain ⟨hplace, hlt⟩ := hmap i _ hn (by simpa using hkept)
      rw [map_eq_flatMap]
      refine foldlM_links hk' (fun j hj e he => ?_) fun j hj k'' hk'' hnodes' => ?_
      · rw [mem_singleton.1 he, hnodes]
        obtain ⟨m, hm, hkept'⟩ := kept_of_mem hr hdummy hj
        exact ⟨hlt, (hmap j m hm hkept').2⟩
      · obtain ⟨m, hm, hkept'⟩ := kept_of_mem hr hdummy hj
        obtain ⟨hplace', hlt'⟩ := hmap j m hm hkept'
        have hsize : k''.nodes.length = k.nodes.length := by rw [hnodes', hnodes]
        rw [mergeEdge, hplace, hplace']
        simp only [inBounds, Result.ok_bind]
        exact addEdge_eq hk'' (by omega) (by omega)

/-! ### The nodes, with duplicates -/

/-- The places of the nodes that are not dummy sources, from `n` on. -/
def places : Nat → List Node → List (Option Nat)
  | _, [] => []
  | n, m :: ms => if m.isDummy then none :: places n ms else some n :: places (n + 1) ms

def named (ns : List Node) : List Node := ns.filter fun m => !m.isDummy

def place (n : Nat) (ns : List Node) (i : Nat) : Nat := n + (named (ns.take i)).length

theorem le_place (n : Nat) (ns : List Node) (i : Nat) : n ≤ place n ns i := Nat.le_add_right _ _

theorem mergeNodes_true (h : g.WellFormed) (mapping : List (Option Nat)) :
    mergeNodes true ns (g, mapping) =
      (g.pushes (named ns), mapping ++ places g.nodes.length ns) := by
  induction ns generalizing g mapping with
  | nil => simp [mergeNodes, named, pushes, places]
  | cons m ns ih =>
    by_cases hm : m.isDummy = true
    · rw [mergeNodes, if_pos (by simp [hm]), ih h, places, if_pos hm, named, named,
        filter_cons_of_neg (by simp [hm])]
      simp
    · rw [mergeNodes, if_neg (by simp [hm]), addNode_true h]
      dsimp only
      rw [ih (h.push m), places, if_neg hm, named, named, filter_cons_of_pos (by simp [hm])]
      simp [pushes, push]

theorem getElem?_places {n : Nat} {m : Node} (hm : ns[i]? = some m) (hnamed : m.isDummy = false) :
    (places n ns)[i]? = some (some (place n ns i)) := by
  induction ns generalizing n i with
  | nil => cases hm
  | cons a ns ih =>
    cases i with
    | zero =>
      obtain rfl : a = m := by simpa using hm
      simp [places, hnamed, place, named]
    | succ i =>
      rw [getElem?_cons_succ] at hm
      by_cases ha : a.isDummy = true
      · rw [places, if_pos ha, getElem?_cons_succ, ih hm]
        simp [place, named, ha]
      · rw [places, if_neg ha, getElem?_cons_succ, ih hm, place, place, take_succ_cons,
          named, named, filter_cons_of_pos (by simp [ha]), length_cons]
        congr 2
        omega

theorem named_eq (hn : ns[i]? = some n) (hnamed : n.isDummy = false) :
    named ns = named (ns.take i) ++ n :: named (ns.drop (i + 1)) := by
  obtain ⟨hi, rfl⟩ := List.getElem?_eq_some_iff.1 hn
  have hsplit : ns = ns.take i ++ ns[i] :: ns.drop (i + 1) := by simp
  have hhead : named (ns[i] :: ns.drop (i + 1)) = ns[i] :: named (ns.drop (i + 1)) :=
    filter_cons_of_pos (by simp [hnamed])
  rw [← hhead, named, named, named, ← filter_append, ← hsplit]

theorem getElem?_place (hn : ns[i]? = some n) (hnamed : n.isDummy = false) :
    (g.nodes ++ named ns)[place g.nodes.length ns i]? = some n := by
  rw [place, getElem?_append_right (by omega), named_eq hn hnamed]
  simp

theorem place_lt_place (l : Nat) (hn : ns[i]? = some n) (hnamed : n.isDummy = false) (hij : i < j) :
    place l ns i < place l ns j := by
  have htake : (ns.take j)[i]? = some n := by rw [getElem?_take_of_lt hij, hn]
  have heq := congrArg List.length (named_eq htake hnamed)
  rw [take_take, Nat.min_eq_left hij.le, length_append, length_cons] at heq
  unfold place
  omega

theorem exists_place {p : Nat} (hp : p < (named ns).length) (l : Nat) :
    ∃ i n, ns[i]? = some n ∧ n.isDummy = false ∧ place l ns i = l + p := by
  induction ns generalizing p with
  | nil => simp [named] at hp
  | cons a ns ih =>
    by_cases ha : a.isDummy = true
    · have hnamed : named (a :: ns) = named ns := by simp [named, ha]
      rw [hnamed] at hp
      obtain ⟨i, n, hn, hname, hplace⟩ := ih hp
      refine ⟨i + 1, n, hn, hname, ?_⟩
      rw [← hplace, place, place, take_succ_cons, named, filter_cons_of_neg (by simp [ha])]
      rfl
    · have hnamed : named (a :: ns) = a :: named ns := by simp [named, ha]
      cases p with
      | zero => exact ⟨0, a, rfl, by simpa using ha, by simp [place, named]⟩
      | succ p =>
        rw [hnamed, length_cons] at hp
        obtain ⟨i, n, hn, hname, hplace⟩ := ih (by omega : p < (named ns).length)
        refine ⟨i + 1, n, hn, hname, ?_⟩
        have hcount : (named ((a :: ns).take (i + 1))).length = (named (ns.take i)).length + 1 := by
          rw [take_succ_cons, named, filter_cons_of_pos (by simp [ha]), length_cons]
          rfl
        unfold place at hplace ⊢
        omega

theorem isMapping_places (g r : Graph) : IsMapping (places g.nodes.length r.nodes) r
    (g.pushes (named r.nodes)) true (place g.nodes.length r.nodes) := by
  intro i n hn hkept
  have hnamed : n.isDummy = false := by simpa using hkept
  refine ⟨by rw [getElem?_places hn hnamed]; rfl, ?_⟩
  rw [nodes_pushes]
  exact (List.getElem?_eq_some_iff.1 (getElem?_place hn hnamed)).1

/-! ### The nodes, without duplicates -/

/-- The places of the nodes, where `new` are those that the graph did not have. -/
structure Merges (g : Graph) (ns new : List Node) (f : Nat → Nat) : Prop where
  node : ∀ i n, ns[i]? = some n → ∃ m, (g.nodes ++ new)[f i]? = some m ∧ m.ptr = n.ptr
  subset : new ⊆ ns
  nodup : (g.nodes.map Node.ptr).Nodup → ((g.nodes ++ new).map Node.ptr).Nodup

theorem addNode_false_cases (h : g.WellFormed) (n : Node) : ∃ a new,
    g.addNode n false = (a, g.pushes new) ∧ new ⊆ [n] ∧
      (∃ m, (g.nodes ++ new)[a]? = some m ∧ m.ptr = n.ptr) ∧
      ((g.nodes.map Node.ptr).Nodup → ((g.nodes ++ new).map Node.ptr).Nodup) := by
  rw [addNode_false h]
  cases hfind : g.nodes.findIdx? (Node.same · n) with
  | none =>
    refine ⟨g.nodes.length, [n], rfl, List.Subset.refl _, ⟨n, by simp, rfl⟩, fun hnodup => ?_⟩
    have hfresh := findIdx?_eq_none_iff.1 hfind
    rw [map_append, map_singleton, nodup_append]
    refine ⟨hnodup, nodup_singleton _, ?_⟩
    intro a ha b hb
    obtain ⟨m, hm, rfl⟩ := List.mem_map.1 ha
    rw [mem_singleton.1 hb]
    simpa [Node.same] using hfresh m hm
  | some a =>
    obtain ⟨ha, hsame, -⟩ := findIdx?_eq_some_iff_getElem.1 hfind
    refine ⟨a, [], rfl, nil_subset _, ⟨g.nodes[a], ?_, by simpa [Node.same] using hsame⟩, ?_⟩
    · rw [append_nil, getElem?_eq_getElem ha]
    · rw [append_nil]
      exact id

theorem mergeNodes_false (h : g.WellFormed) (ns : List Node) (mapping : List (Option Nat)) :
    ∃ (fs : List Nat) (new : List Node),
      mergeNodes false ns (g, mapping) = (g.pushes new, mapping ++ fs.map some) ∧
      fs.length = ns.length ∧ Merges g ns new (fs.getD · 0) := by
  induction ns generalizing g mapping with
  | nil =>
    exact ⟨[], [], by simp [mergeNodes, pushes], rfl, ⟨by simp, List.Subset.refl _, by simp⟩⟩
  | cons n ns ih =>
    obtain ⟨a, new₁, hadd, hsub₁, ⟨m, hm, hptr⟩, hnodup₁⟩ := addNode_false_cases h n
    obtain ⟨fs, new₂, hrest, hlength, hmerges⟩ := ih (h.pushes new₁) (mapping ++ [some a])
    have hpushes : (g.pushes new₁).pushes new₂ = g.pushes (new₁ ++ new₂) := foldl_append.symm
    have happend : (g.pushes new₁).nodes ++ new₂ = g.nodes ++ (new₁ ++ new₂) := by
      rw [nodes_pushes, append_assoc]
    refine ⟨a :: fs, new₁ ++ new₂, ?_, by simp [hlength], ⟨?_, ?_, ?_⟩⟩
    · rw [mergeNodes, if_neg (by simp), hadd]
      dsimp only
      rw [hrest, hpushes]
      simp
    · intro i n' hn'
      cases i with
      | zero =>
        obtain rfl : n = n' := by simpa using hn'
        refine ⟨m, ?_, hptr⟩
        rw [← append_assoc]
        exact getElem?_append_left (List.getElem?_eq_some_iff.1 hm).1 ▸ hm
      | succ i =>
        rw [← happend]
        exact hmerges.node i n' hn'
    · intro x hx
      rcases mem_append.1 hx with hx | hx
      · rw [mem_singleton.1 (hsub₁ hx)]
        exact mem_cons_self
      · exact mem_cons_of_mem _ (hmerges.subset hx)
    · intro hnodup
      rw [← happend]
      refine hmerges.nodup ?_
      rw [nodes_pushes]
      exact hnodup₁ hnodup

/-- **`operator+`.** -/
theorem add_eq (hg : g.WellFormed) (hr : r.WellFormed) : ∃ new f, Merges g r.nodes new f ∧
    (g.pushes new).Inside (mergeLinks r false f) ∧
    g.add r = .ok ((g.pushes new).links (mergeLinks r false f)) := by
  obtain ⟨fs, new, hnodes, hlength, hmerges⟩ := mergeNodes_false hg r.nodes []
  have hmap : IsMapping (fs.map some) r (g.pushes new) false (fs.getD · 0) := by
    intro i n hn _
    obtain ⟨m, hm, -⟩ := hmerges.node i n hn
    have hi : i < fs.length := hlength ▸ (List.getElem?_eq_some_iff.1 hn).1
    refine ⟨by simp [hi], ?_⟩
    rw [nodes_pushes]
    exact (List.getElem?_eq_some_iff.1 hm).1
  have hdummy : false = true → r.AvoidsDummies := by simp
  refine ⟨new, _, hmerges, inside_mergeLinks hr hdummy hmap, ?_⟩
  rw [add, mergeGraph, hnodes]
  dsimp only
  rw [nil_append, foldlM_mergeEdgesOf hr (hg.pushes new) hdummy hmap]
  rfl

end Graph

end Dagaddr

end Xia
