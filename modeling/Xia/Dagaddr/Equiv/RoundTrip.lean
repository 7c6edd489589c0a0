import Xia.Dagaddr.Equiv.DagString
import Xia.Dagaddr.Equiv.Lines

/-!
# The text of an address, read by the API

`Graph(dag_string())` is the address, renumbered: the source comes first, and the other nodes have
the numbers of the text plus one.
-/

namespace Xia

open List Option

namespace Dagaddr

namespace Graph

variable {g : Graph} {source sink : Nat}

def printedNodes (g : Graph) (source sink : Nat) : List (Node × List Nat) :=
  (g.inner source sink ++ [sink]).map fun i =>
    (g.nodes.getD i Node.dummySource, g.edgeNumbers source sink i)

/-- The place of a node among the lines that are printed. -/
def lineNumber (g : Graph) (source sink i : Nat) : Nat :=
  if i = source then 0 else g.number source sink i + 1

namespace IsDag

variable (h : g.IsDag source sink)
include h

theorem unwords_line (w : Text) (i : Nat) :
    unwords (w :: (g.edgeNumbers source sink i).map XiaPath.decimal) =
      w ++ g.outEdgesForIndex i source sink := by
  rw [unwords_cons, outEdgesForIndex, ← h.map_indexInDagString]
  simp [spaced, flatMap_map]

variable (hne : source ≠ sink)
include hne

theorem length_printedNodes : (g.printedNodes source sink).length + 1 = g.nodes.length := by
  have hlt := h.source_lt
  have hlt' := h.sink_lt
  rw [printedNodes, length_map, length_append, h.length_inner hne, length_singleton]
  omega

theorem getElem?_printedNodes {i : Nat} (hi : i < g.nodes.length) (his : i ≠ source) :
    (g.printedNodes source sink)[g.number source sink i]? =
      some (g.nodes.getD i Node.dummySource, g.edgeNumbers source sink i) := by
  rw [printedNodes, getElem?_map, number, if_neg his]
  by_cases hsink : i = sink
  · have hlast : g.indexInDagString i source sink = (g.inner source sink).length := by
      rw [indexInDagString, if_pos hsink, h.length_inner hne]
    rw [hlast, getElem?_concat_length, hsink]
    rfl
  · have hget := getElem?_inner hne hi his hsink
    rw [getElem?_append_left (List.getElem?_eq_some_iff.1 hget).1, hget]
    rfl

theorem mem_printedNodes {x : Node × List Nat} (hx : x ∈ g.printedNodes source sink) :
    ∃ i < g.nodes.length, i ≠ source ∧
      x = (g.nodes.getD i Node.dummySource, g.edgeNumbers source sink i) := by
  obtain ⟨i, hi, rfl⟩ := List.mem_map.1 hx
  rcases mem_append.1 hi with hi | hi
  · obtain ⟨hlt, his, -⟩ := mem_inner hi
    exact ⟨i, hlt, his, rfl⟩
  · rw [mem_singleton.1 hi]
    exact ⟨sink, h.sink_lt, hne.symm, rfl⟩

theorem printable (hsize : g.nodes.length < 2 ^ 31)
    (htypes : ∀ i n, g.nodes[i]? = some n → i ≠ source → n.type ∈ addressTypes) :
    Printable (g.edgeNumbers source sink source) (g.printedNodes source sink) := by
  have hlength := h.length_printedNodes hne
  refine ⟨fun x hx => ?_, fun e he => ?_, fun x hx e he => ?_⟩
  · obtain ⟨i, hi, his, rfl⟩ := h.mem_printedNodes hne hx
    rw [getD_eq_getElem _ _ hi]
    exact htypes i _ (getElem?_eq_getElem hi) his
  · have := h.mem_edgeNumbers he
    omega
  · obtain ⟨i, -, -, rfl⟩ := h.mem_printedNodes hne hx
    have := h.mem_edgeNumbers he
    omega

/-- **The text of an address** without the ends of lines. -/
theorem filter_dagString
    (htypes : ∀ i n, g.nodes[i]? = some n → i ≠ source → n.type ∈ addressTypes) :
    g.dagString.filter (· ≠ '\n') =
      dagText (['D', 'A', 'G'] :: (g.edgeNumbers source sink source).map XiaPath.decimal)
        ((g.printedNodes source sink).map fun x => x.1.toText :: x.2.map XiaPath.decimal) := by
  have hsource : (['D', 'A', 'G'] ++ g.outEdgesForIndex source source sink).filter (· ≠ '\n') =
      unwords (['D', 'A', 'G'] :: (g.edgeNumbers source sink source).map XiaPath.decimal) := by
    rw [← h.unwords_line,
      filter_unwords (isLine_decimal ⟨by decide, by decide⟩ (by decide) _).words]
  have hline {i : Nat} (hi : i < g.nodes.length) (his : i ≠ source) :
      (g.nodeText i ++ g.outEdgesForIndex i source sink).filter (· ≠ '\n') =
        unwords ((g.nodes.getD i Node.dummySource).toText ::
          (g.edgeNumbers source sink i).map XiaPath.decimal) := by
    have hnode : g.nodes[i]? = some (g.nodes.getD i Node.dummySource) := by simp [List.getD, hi]
    obtain ⟨hword, hdash⟩ := Node.isWord_toText (htypes i _ hnode his)
    rw [nodeText, hnode, map_some, getD_some, ← h.unwords_line,
      filter_unwords (isLine_decimal hword hdash _).words]
  have hend : endLine.filter (· ≠ '\n') = [' ', '-', ' '] := by decide
  -- the sink is a line without numbers
  have hsink := hline h.sink_lt hne.symm
  rw [outEdgesForIndex, h.outOf_sink, flatMap_nil, append_nil] at hsink
  have hinner : ((g.inner source sink).flatMap fun i =>
      g.nodeText i ++ g.outEdgesForIndex i source sink ++ endLine).filter (· ≠ '\n') =
        (g.inner source sink).flatMap fun i => unwords ((g.nodes.getD i Node.dummySource).toText ::
          (g.edgeNumbers source sink i).map XiaPath.decimal) ++ [' ', '-', ' '] := by
    rw [filter_flatMap]
    refine flatMap_congr fun i hi => ?_
    obtain ⟨hlt, his, -⟩ := mem_inner hi
    rw [filter_append, hline hlt his, hend]
  rw [dagString, lastIndex_eq h.source_lt h.isSource, lastIndex_eq h.sink_lt h.isSink]
  dsimp only
  rw [← inner, filter_append, filter_append, filter_append, hsource, hend, hinner,
    hsink, dagText, printedNodes, flatMap_map, flatMap_map, flatMap_append,
    append_assoc, append_assoc, ← append_assoc [' ', '-', ' '], gap_flatMap]
  simp

end IsDag

/-- **An address that is printed and read is the same, renumbered.** -/
theorem dagString_roundTrip (libc : Libc) (h : g.IsDag source sink) (hne : sink ≠ source)
    (hsize : g.nodes.length < 255)
    (htypes : ∀ i n, g.nodes[i]? = some n → i ≠ source → n.type ∈ addressTypes) :
    ∃ k f, ofString libc g.dagString = .ok k ∧ Iso f g k := by
  have hprint := h.printable hne.symm (by omega) htypes
  have hlength := h.length_printedNodes hne.symm
  have hnum {i : Nat} (hi : i < g.nodes.length) (his : i ≠ source) :
      g.number source sink i + 1 < g.nodes.length := by
    have hlt := h.indexInDagString_lt hi his
    rw [number, if_neg his]
    omega
  have hedges (i : Nat) : (g.edgeNumbers source sink i).map (· + 1) =
      (g.outOf i).map (g.lineNumber source sink) := by
    rw [edgeNumbers, List.map_map]
    refine map_congr_left fun j hj => ?_
    rw [lineNumber, if_neg (h.ne_source hj)]
    rfl
  have hnodup (i : Nat) : ((g.edgeNumbers source sink i).map (· + 1)).Nodup :=
    (h.nodup_edgeNumbers hne.symm i).map (add_left_injective 1)
  refine ⟨_, g.lineNumber source sink,
    hprint.ofString_eq (h.filter_dagString hne.symm htypes) ?_, ?_⟩
  · rw [dagString, lastIndex_eq h.source_lt h.isSource, lastIndex_eq h.sink_lt h.isSink]
    simp only [append_assoc]
    exact (prefix_append _ _).isInfix
  · constructor
    · rw [length_printed, hlength]
    · intro i hi
      unfold lineNumber
      split
      · omega
      · exact hnum hi ‹_›
    · intro i hi j hj heq
      unfold lineNumber at heq
      split at heq <;> split at heq
      · rw [‹i = source›, ‹j = source›]
      · cases heq
      · cases heq
      · exact h.number_inj hne.symm hi hj (Nat.succ_injective heq)
    · intro i n hn
      have hi := (List.getElem?_eq_some_iff.1 hn).1
      by_cases his : i = source
      · rw [lineNumber, if_pos his]
        rw [his] at hn
        obtain ⟨htype, hid⟩ := Node.equalTo_iff.1 (h.dummy n hn)
        exact ⟨_, node_printed_zero, Node.equalTo_iff.2 ⟨htype.symm, hid.symm⟩⟩
      · rw [lineNumber, if_neg his]
        refine ⟨_, hprint.node_succ (h.getElem?_printedNodes hne.symm hi his), ?_⟩
        simp [Node.equalTo_iff, hn]
    · intro i hi
      by_cases his : i = source
      · rw [lineNumber, if_pos his, hprint.outOf_zero,
          pushAll_eq_append (by simpa using hnodup source), nil_append, hedges, his]
      · rw [lineNumber, if_neg his, hprint.outOf_succ (h.getElem?_printedNodes hne.symm hi his)]
        have hfilter : ((g.edgeNumbers source sink i).map (· + 1)).filter
            (· ≠ g.number source sink i + 1) = (g.edgeNumbers source sink i).map (· + 1) := by
          refine filter_eq_self.2 fun e he => decide_eq_true ?_
          obtain ⟨j, hj, rfl⟩ := List.mem_map.1 he
          intro heq
          exact h.number_not_mem hne.symm hi (Nat.succ_injective heq ▸ hj)
        rw [hfilter, pushAll_eq_append (by simpa using hnodup i), nil_append, hedges]

theorem dagString_roundTrip_fallback : fallbackAddress.IsDag 0 3 ∧
      ∃ k f, ofString default fallbackAddress.dagString = .ok k ∧ Iso f fallbackAddress k := by
  have hforward : fallbackAddress.IsForward 3 := by decide
  have hdag := hforward.isDag (by decide) (by decide)
  exact ⟨hdag, dagString_roundTrip default hdag (by decide) (by decide)
    fun i n hn => hforward.mem_addressTypes hn⟩

end Graph

end Dagaddr

end Xia
