import Xia.Equiv.Path

/-!
# What the validation of a path accesses

`is_valid` counts the incoming edges of every node in an array that it indexes with the edges it is
to validate.  A path with an edge to a node that does not exist is rejected only if the loop has met
a node with a wrong number of edges before (`validation_safe_iff`); otherwise the count is written
outside the array.  The functions that print a path validate it first, and on a valid path they
access its nodes only.
-/

namespace Xia

open Result

namespace XiaPath

variable {p : XiaPath} {src dst : Nat} {f : Fault}

/-! ### The count -/

theorem addIndegree_eq_error {n : Nat} {fs es : List Nat} :
    addIndegree n (countList n fs) es = .error f ↔ f = .outOfBounds ∧ ∃ e ∈ es, n ≤ e := by
  induction es generalizing fs with
  | nil => simp [addIndegree]
  | cons e es ih =>
    rw [addIndegree]
    split
    · rename_i he
      rw [modify_countList, ih]
      simp only [List.exists_mem_cons_iff]
      constructor
      · rintro ⟨rfl, hes⟩
        exact ⟨rfl, .inr hes⟩
      · rintro ⟨rfl, hge | hes⟩
        · omega
        · exact ⟨rfl, hes⟩
    · rename_i he
      simp only [Except.error.injEq, List.exists_mem_cons_iff]
      constructor
      · rintro rfl
        exact ⟨rfl, .inl (by omega)⟩
      · rintro ⟨rfl, -⟩
        rfl

/-- The node passes the checks of the loop: only the destination has no edges, and no node has more
than four. -/
def DegreeOk (dst i : Nat) (edges : List Nat) : Prop :=
  (edges = [] → i = dst) ∧ edges.length ≤ xidEdgeNum

theorem checkDegrees_eq_error {i : Nat} {nodes : List PathNode} {fs : List Nat} :
    checkDegrees p dst i nodes (countList p.nodes.length fs) = .error f ↔
      f = .outOfBounds ∧ ∃ (k : Nat) (node : PathNode), nodes[k]? = some node ∧
        (∃ e ∈ node.edges, p.nodes.length ≤ e) ∧
        ∀ j ≤ k, ∀ node', nodes[j]? = some node' → DegreeOk dst (i + j) node'.edges := by
  induction nodes generalizing i fs with
  | nil => simp [checkDegrees]
  | cons node nodes ih =>
    by_cases hok : DegreeOk dst i node.edges
    · have hempty : ¬ (node.edges = [] ∧ i ≠ dst) := fun h => h.2 (hok.1 h.1)
      rw [checkDegrees, if_neg hempty, if_neg (Nat.not_lt.2 hok.2)]
      cases hadd : addIndegree p.nodes.length (countList p.nodes.length fs) node.edges with
      | error g =>
        obtain ⟨rfl, hstray⟩ := addIndegree_eq_error.1 hadd
        constructor
        · intro h
          obtain rfl : Fault.outOfBounds = f := Except.error.inj h
          refine ⟨rfl, 0, node, rfl, hstray, fun j hj node' hnode' => ?_⟩
          obtain rfl : j = 0 := by omega
          obtain rfl : node = node' := Option.some.inj hnode'
          exact hok
        · rintro ⟨rfl, -⟩
          rfl
      | ok indegree =>
        obtain ⟨hrange, rfl⟩ := addIndegree_countList.1 hadd
        rw [ok_bind, ih]
        refine and_congr_right fun _ => ⟨?_, ?_⟩
        · rintro ⟨k, nodek, hk, hstray, hall⟩
          refine ⟨k + 1, nodek, hk, hstray, fun j hj node' hnode' => ?_⟩
          cases j with
          | zero =>
            obtain rfl : node = node' := Option.some.inj hnode'
            exact hok
          | succ j =>
            have hj' := hall j (by omega) node' hnode'
            rwa [Nat.add_right_comm, Nat.add_assoc] at hj'
        · rintro ⟨k, nodek, hk, ⟨e, he, hge⟩, hall⟩
          cases k with
          | zero =>
            obtain rfl : node = nodek := Option.some.inj hk
            have hlt := hrange e he
            omega
          | succ k =>
            refine ⟨k, nodek, hk, ⟨e, he, hge⟩, fun j hj node' hnode' => ?_⟩
            have hj' := hall (j + 1) (by omega) node' hnode'
            rwa [Nat.add_right_comm, Nat.add_assoc]
    -- the loop returns at this node
    · have hret : checkDegrees p dst i (node :: nodes) (countList p.nodes.length fs) =
          .ok none := by
        rw [checkDegrees]
        by_cases hempty : node.edges = [] ∧ i ≠ dst
        · rw [if_pos hempty]
        · rw [if_neg hempty, if_pos]
          by_contra hle
          refine hok ⟨fun hnil => ?_, Nat.not_lt.1 hle⟩
          by_contra hne
          exact hempty ⟨hnil, hne⟩
      rw [hret]
      refine iff_of_false (by simp) ?_
      rintro ⟨-, k, nodek, -, -, hall⟩
      exact hok (hall 0 (Nat.zero_le k) node rfl)

/-! ### Validation -/

/-- The path has a source and a destination, and an edge of the node `k` leads into nowhere, with
all nodes up to `k` as they should be. -/
def Strays (p : XiaPath) : Prop :=
  ∃ src dst, p.src = some src ∧ p.dst = some dst ∧ src < p.nodes.length ∧ dst < p.nodes.length ∧
    src ≠ dst ∧ ∃ k, (∃ e ∈ p.edgesOf k, p.nodes.length ≤ e) ∧ ∀ j ≤ k, DegreeOk dst j (p.edgesOf j)

theorem checkDegrees_nodes_eq_error :
    checkDegrees p dst 0 p.nodes (List.replicate p.nodes.length 0) = .error f ↔
      f = .outOfBounds ∧ ∃ k, (∃ e ∈ p.edgesOf k, p.nodes.length ≤ e) ∧
        ∀ j ≤ k, DegreeOk dst j (p.edgesOf j) := by
  rw [← countList_nil, checkDegrees_eq_error]
  refine and_congr_right fun _ => exists_congr fun k => ?_
  constructor
  · rintro ⟨node, hk, hstray, hall⟩
    have hlt : k < p.nodes.length := (List.getElem?_eq_some_iff.1 hk).1
    rw [edgesOf_eq hk]
    refine ⟨hstray, fun j hj => ?_⟩
    have hnode := getElem?_nodes (p := p) (i := j) (by omega)
    have hok := hall j hj _ hnode
    rwa [Nat.zero_add] at hok
  · rintro ⟨⟨e, he, hge⟩, hall⟩
    have hlt := lt_of_mem_edgesOf he
    refine ⟨_, getElem?_nodes hlt, ⟨e, he, hge⟩, fun j hj node' hnode' => ?_⟩
    rw [Nat.zero_add, ← edgesOf_eq hnode']
    exact hall j hj

/-- **`is_valid` goes wrong exactly on a path that strays**, by an access outside its array. -/
theorem isValid_eq_error : p.isValid = .error f ↔ f = .outOfBounds ∧ p.Strays := by
  cases hsrc : p.src with
  | none => simp [isValid_of_src_none (.inl hsrc), Strays, hsrc]
  | some src =>
    cases hdst : p.dst with
    | none => simp [isValid_of_src_none (.inr hdst), Strays, hdst]
    | some dst =>
      rw [isValid, hsrc, hdst]
      dsimp only
      by_cases hbad : p.nodes.length ≤ src ∨ p.nodes.length ≤ dst ∨ src = dst
      · rw [if_pos hbad]
        refine iff_of_false (by simp) ?_
        rintro ⟨-, src', dst', hsrc', hdst', hslt, hdlt, hne, -⟩
        rw [hsrc, Option.some.injEq] at hsrc'
        rw [hdst, Option.some.injEq] at hdst'
        omega
      · rw [if_neg hbad]
        push Not at hbad
        have hstrays : p.Strays ↔ ∃ k, (∃ e ∈ p.edgesOf k, p.nodes.length ≤ e) ∧
            ∀ j ≤ k, DegreeOk dst j (p.edgesOf j) := by
          simp [Strays, hsrc, hdst, hbad]
        rw [hstrays]
        cases hcheck : checkDegrees p dst 0 p.nodes (List.replicate p.nodes.length 0) with
        | error g =>
          obtain ⟨rfl, hstray⟩ := checkDegrees_nodes_eq_error.1 hcheck
          constructor
          · intro h
            exact ⟨(Except.error.inj h).symm, hstray⟩
          · rintro ⟨rfl, -⟩
            rfl
        | ok r =>
          have hno : ¬ ∃ k, (∃ e ∈ p.edgesOf k, p.nodes.length ≤ e) ∧
              ∀ j ≤ k, DegreeOk dst j (p.edgesOf j) := fun hstray => by
            have herror := checkDegrees_nodes_eq_error.2 ⟨rfl, hstray⟩
            rw [hcheck] at herror
            cases herror
          refine iff_of_false ?_ fun h => hno h.2
          rw [ok_bind]
          cases r with
          | none => exact avoids_pure _
          | some indegree =>
            -- all edges are in range, so the ordering does not go wrong either
            have hrange := (checkDegrees_nodes.1 hcheck).1.2.2
            dsimp only
            split
            · exact avoids_pure _
            · rw [topologicalOrdering_eq hrange, ok_bind]
              exact avoids_pure _

/-! ### Printing -/

theorem unparseFallback_inside (hp : p.InRange) {primary fuel node : Nat}
    (hnode : node < p.nodes.length) : (p.unparseFallback primary fuel node).Avoids f := by
  induction fuel generalizing node with
  | zero => exact avoids_ok _
  | succ fuel ih =>
    rw [unparseFallback, inBounds_nodes hnode, ok_bind]
    have hnext := hp node
    dsimp only
    split
    · exact avoids_pure _
    · rename_i e next hedges
      refine avoids_ite ?_ (avoids_pure _)
      exact (ih (hnext next (by simp [hedges]))).bind fun _ _ => avoids_pure _
    · exact avoids_pure _

theorem unparseReLoop_inside (hp : p.InRange) {fuel prev : Nat} (hprev : prev < p.nodes.length) :
    (p.unparseReLoop fuel prev).Avoids f := by
  induction fuel generalizing prev with
  | zero => exact avoids_ok _
  | succ fuel ih =>
    rw [unparseReLoop, inBounds_nodes hprev, ok_bind]
    have hnext := hp prev
    dsimp only
    split
    · exact avoids_pure _
    · rename_i primary hedges
      have hlt := hnext primary (by simp [hedges])
      rw [inBounds_nodes hlt, ok_bind]
      exact (ih hlt).bind fun _ _ => avoids_pure _
    · rename_i primary fallback hedges
      have hlt := hnext primary (by simp [hedges])
      refine (unparseFallback_inside hp (hnext fallback (by simp [hedges]))).bind fun r _ => ?_
      cases r with
      | none => exact avoids_pure _
      | some text =>
        dsimp only
        rw [inBounds_nodes hlt, ok_bind]
        exact (ih hlt).bind fun _ _ => avoids_pure _
    · exact avoids_pure _

theorem unparseRe_inside (h : ¬ p.Strays) : p.unparseRe.Avoids f := by
  have hvalid : p.isValid.Avoids f := fun herror => h (isValid_eq_error.1 herror).2
  refine hvalid.bind fun valid hvalid => ?_
  cases valid with
  | false => exact avoids_pure _
  | true =>
    obtain ⟨src, dst, hp⟩ := isValid_iff.1 hvalid
    rw [if_pos rfl, hp.src_eq]
    exact (unparseReLoop_inside hp.inRange hp.src_lt).bind fun _ _ => avoids_pure _

theorem unparseDag_inside (h : ¬ p.Strays) : p.unparseDag.Avoids f := by
  have hvalid : p.isValid.Avoids f := fun herror => h (isValid_eq_error.1 herror).2
  refine hvalid.bind fun valid hvalid => ?_
  cases valid with
  | false => exact avoids_pure _
  | true =>
    obtain ⟨src, dst, hp⟩ := isValid_iff.1 hvalid
    rw [if_pos rfl, hp.unparseNode, ok_bind]
    exact avoids_pure _

theorem unparse_inside (h : ¬ p.Strays) : p.unparse.Avoids f := by
  refine (unparseRe_inside h).bind fun s _ => ?_
  refine avoids_ite (avoids_pure _) ?_
  exact (unparseDag_inside h).bind fun _ _ => avoids_pure _

/-- The validation of the path and the functions that print it access nodes of the path only, and a
path with an edge into nowhere is rejected. -/
structure ValidationSafe (p : XiaPath) : Prop where
  isValid : p.isValid.Avoids .outOfBounds
  unparse : p.unparse.Avoids .outOfBounds
  unparseRe : p.unparseRe.Avoids .outOfBounds
  unparseDag : p.unparseDag.Avoids .outOfBounds
  rejects : ¬ p.InRange → p.isValid = .ok false

/-- **Validation is safe exactly on the paths that do not stray.** -/
theorem validation_safe_iff (p : XiaPath) : p.ValidationSafe ↔ ¬ p.Strays := by
  constructor
  · intro h hstray
    exact h.isValid (isValid_eq_error.2 ⟨rfl, hstray⟩)
  · intro h
    refine ⟨fun herror => h (isValid_eq_error.1 herror).2, unparse_inside h, unparseRe_inside h,
      unparseDag_inside h, fun hrange => ?_⟩
    cases hvalid : p.isValid with
    | error g => exact absurd (isValid_eq_error.1 hvalid).2 h
    | ok valid =>
      cases valid with
      | false => rfl
      | true =>
        obtain ⟨src, dst, hp⟩ := isValid_iff.1 hvalid
        exact absurd hp.inRange hrange

/-- One entry, as a packet may bring it, whose edge leads to the node 5. -/
def strayEntry : XidNode :=
  ⟨Xid.zero, #v[wireEdge 5, wireEdge xidEdgeUnused, wireEdge xidEdgeUnused, wireEdge xidEdgeUnused]⟩

/-- The path of this entry, and one that `parse_dag` accepts. -/
theorem not_validationSafe_stray : ¬ (parseNode [strayEntry]).ValidationSafe ∧
    (empty.parse "DAG 5 - AD:01".toList).1 = true ∧
    ¬ (empty.parse "DAG 5 - AD:01".toList).2.ValidationSafe := by
  have hnode : (parseNode [strayEntry]).isValid = .error .outOfBounds := by decide +kernel
  have hdag : (empty.parse "DAG 5 - AD:01".toList).2.isValid = .error .outOfBounds := by
    decide +kernel
  exact ⟨fun h => h.isValid hnode, by decide +kernel, fun h => h.isValid hdag⟩

end XiaPath

end Xia
