import Xia.Packet

/-!
# Paths and packets dereference no null pointer

The functions on paths and packets can leave a vector or violate an assertion, but they hold no
pointer that may be null.  A null pointer in the transport is therefore always a missing entry of
one of its tables.
-/

namespace Xia

open Result

/-- A field is missing or too short, but the header has no pointer to follow. -/
theorem ExtHeader.map_field_avoids {α : Type} (h : ExtHeader) (key : UInt8) (width : Nat)
    (f : Nat → α) : Avoids ((h.field key width).map f) .nullDeref := by
  unfold ExtHeader.field
  split
  · exact avoids_ok _
  · split
    · exact avoids_ok _
    · exact avoids_error.2 (by decide)

namespace XiaPath

variable (p : XiaPath)

theorem xid_avoids (node : Option Nat) : (p.xid node).Avoids .nullDeref := inBounds_avoids _

theorem destXid_avoids : p.destXid.Avoids .nullDeref := p.xid_avoids _

theorem addIndegree_avoids (n : Nat) (indegree : List Int) (es : List Nat) :
    (addIndegree n indegree es).Avoids .nullDeref := by
  induction es generalizing indegree with
  | nil => simp [addIndegree]
  | cons e es ih =>
    rw [addIndegree]
    split
    · exact ih _
    · simp

theorem topologicalOrdering_avoids : p.topologicalOrdering.Avoids .nullDeref := by
  unfold topologicalOrdering
  exact (addIndegree_avoids _ _ _).bind fun indegree _ => avoids_pure _

theorem checkDegrees_avoids (dst i : Nat) (nodes : List PathNode) (indegree : List Int) :
    (p.checkDegrees dst i nodes indegree).Avoids .nullDeref := by
  induction nodes generalizing i indegree with
  | nil => simp [checkDegrees]
  | cons node nodes ih =>
    rw [checkDegrees]
    split_ifs
    · simp
    · simp
    · exact (addIndegree_avoids _ _ _).bind fun indegree' _ => ih _ _

theorem isValid_avoids : p.isValid.Avoids .nullDeref := by
  unfold isValid
  split
  · dsimp only
    split
    · simp
    · refine (p.checkDegrees_avoids _ _ _ _).bind fun r _ => ?_
      split
      · simp
      · split
        · simp
        · exact p.topologicalOrdering_avoids.bind fun order _ => avoids_pure _
  · simp

theorem unparseFallback_avoids (primary fuel node : Nat) :
    (p.unparseFallback primary fuel node).Avoids .nullDeref := by
  induction fuel generalizing node with
  | zero => simp [unparseFallback]
  | succ fuel ih =>
    rw [unparseFallback]
    refine (inBounds_avoids _).bind fun n _ => ?_
    split
    · simp
    · split
      · exact (ih _).bind fun s _ => avoids_pure _
      · simp
    · simp

theorem unparseReLoop_avoids (fuel prev : Nat) : (p.unparseReLoop fuel prev).Avoids .nullDeref := by
  induction fuel generalizing prev with
  | zero => simp [unparseReLoop]
  | succ fuel ih =>
    rw [unparseReLoop]
    refine (inBounds_avoids _).bind fun n _ => ?_
    split
    · simp
    · exact (inBounds_avoids _).bind fun m _ => (ih _).bind fun s _ => avoids_pure _
    · refine (p.unparseFallback_avoids _ _ _).bind fun r _ => ?_
      split
      · simp
      · exact (inBounds_avoids _).bind fun m _ => (ih _).bind fun s _ => avoids_pure _
    · simp

theorem unparseRe_avoids : p.unparseRe.Avoids .nullDeref := by
  unfold unparseRe
  refine p.isValid_avoids.bind fun valid _ => ?_
  split
  · split
    · simp
    · exact (p.unparseReLoop_avoids _ _).bind fun s _ => avoids_pure _
  · simp

theorem wireEdges_avoids (order edges : List Nat) : (wireEdges order edges).Avoids .nullDeref := by
  unfold wireEdges
  refine Avoids.bind (avoids_mapM fun e => ?_) fun idxs _ => avoids_pure _
  dsimp only
  split_ifs <;> simp

theorem unparseNode_avoids : p.unparseNode.Avoids .nullDeref := by
  unfold unparseNode
  refine p.topologicalOrdering_avoids.bind fun order _ => ?_
  split
  · simp
  · simp
  · refine Avoids.bind (avoids_mapIdxM fun k i => ?_) fun nodes _ => avoids_pure _
    exact (wireEdges_avoids _ _).bind fun edges _ => avoids_pure _

theorem unparseDag_avoids : p.unparseDag.Avoids .nullDeref := by
  unfold unparseDag
  refine p.isValid_avoids.bind fun valid _ => ?_
  split
  · refine p.unparseNode_avoids.bind fun nodes _ => ?_
    split <;> simp
  · simp

theorem unparse_avoids : p.unparse.Avoids .nullDeref := by
  unfold unparse
  refine p.unparseRe_avoids.bind fun s _ => ?_
  split
  · simp
  · exact p.unparseDag_avoids.bind fun s _ => avoids_pure _

theorem wireNodes_avoids : p.wireNodes.Avoids .nullDeref := by
  unfold wireNodes
  refine p.unparseNode_avoids.bind fun nodes _ => ?_
  split
  · simp
  · split_ifs <;> simp

end XiaPath

namespace Packet

theorem encap_avoids (nxt hlim : UInt8) (last : Int8) (plen : Nat) (dst src : XiaPath)
    (body : List UInt8) : (encap nxt hlim last plen dst src body).Avoids .nullDeref := by
  unfold encap
  refine dst.wireNodes_avoids.bind fun dnode _ => src.wireNodes_avoids.bind fun snode _ => ?_
  split_ifs <;> simp

theorem skipExtHeaders_avoids (fuel : Nat) (nxt : UInt8) (d : List UInt8) :
    (skipExtHeaders fuel nxt d).Avoids .nullDeref := by
  induction fuel generalizing nxt d with
  | zero => simp [skipExtHeaders]
  | succ fuel ih =>
    unfold skipExtHeaders
    split
    · split
      · split
        · simp
        · exact ih _ _
      · simp
    · simp

theorem extHeader_avoids (p : Packet) : p.extHeader.Avoids .nullDeref := by
  unfold extHeader ExtHeader.parse
  split
  · split_ifs <;> simp
  · simp

theorem payload_avoids (p : Packet) : p.payload.Avoids .nullDeref := skipExtHeaders_avoids _ _ _

end Packet

end Xia
