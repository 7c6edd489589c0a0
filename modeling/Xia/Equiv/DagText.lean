import Xia.Equiv.Topology
import Xia.Equiv.Words

/-!
# Reading the DAG form of a path

A line of the DAG form is an XID and the numbers of the nodes that its edges lead to.  `parse_dag`
takes a `-` as the end of the numbers only while it still expects one, that is, after fewer than
four of them.  In a text that ends every line with a `-` it reads all lines if they have fewer than
four numbers (`parseDagWords_dashed`), and after a line with four it takes the `-` for an XID and
fails (`parseDagWords_full`).
-/

namespace Xia

open List

namespace XiaPath

variable {atEnd : Bool} {es : List Nat}

theorem handleOfInt_natCast {n : Nat} (hn : n < 2 ^ 64) : handleOfInt n = n := by
  rw [handleOfInt, Int.emod_eq_of_lt (Int.natCast_nonneg n) (by exact_mod_cast hn),
    Int.toNat_natCast]

theorem parseIndices_decimal (hes : ∀ e ∈ es, e < 2 ^ 31) (k : Nat) (ws : List Text) :
    parseIndices atEnd (es.length + k) (es.map decimal ++ ws) =
      (parseIndices atEnd k ws).map fun r => (es ++ r.1, r.2) := by
  induction es with
  | nil =>
    rw [length_nil, Nat.zero_add, map_nil, nil_append]
    cases parseIndices atEnd k ws <;> rfl
  | cons e es ih =>
    have he := hes e mem_cons_self
    have hdash : decimal e ≠ ['-'] := by
      intro heq
      have := isDigit_of_mem_decimal (n := e) (c := '-') (by simp [heq])
      cases this
    rw [length_cons, Nat.add_right_comm, map_cons, cons_append, parseIndices,
      if_neg hdash, cpInteger_decimal he]
    dsimp only
    rw [ih fun e' he' => hes e' (mem_cons_of_mem _ he'), handleOfInt_natCast (by omega)]
    cases parseIndices atEnd k ws <;> rfl

/-- The words of a line that ends with a `-`. -/
def dashed (edges : List Nat) : List Text := edges.map decimal ++ [['-']]

/-- The words of a node, in a text that ends every line with a `-`. -/
def lineWords (node : PathNode) : List Text := node.xid.unparse :: dashed node.edges

theorem parseIndices_dashed (hes : ∀ e ∈ es, e < 2 ^ 31) (hlen : es.length < xidEdgeNum)
    (ws : List Text) : parseIndices atEnd xidEdgeNum (dashed es ++ ws) = some (es, ws, false) := by
  obtain ⟨k, hk⟩ : ∃ k, xidEdgeNum = es.length + (k + 1) := ⟨xidEdgeNum - es.length - 1, by omega⟩
  rw [dashed, append_assoc, hk, parseIndices_decimal hes, singleton_append, parseIndices,
    if_pos rfl]
  simp

theorem parseIndices_full (hes : ∀ e ∈ es, e < 2 ^ 31) (hlen : es.length = xidEdgeNum)
    (ws : List Text) :
    parseIndices atEnd xidEdgeNum (dashed es ++ ws) = some (es, ['-'] :: ws, false) := by
  have hread : parseIndices atEnd (es.length + 0) (es.map decimal ++ ['-'] :: ws) = _ :=
    parseIndices_decimal hes 0 (['-'] :: ws)
  rw [Nat.add_zero, hlen] at hread
  rw [dashed, append_assoc, singleton_append, hread, parseIndices]
  simp

/-- A node that is written as `parse_dag` can read it, but for the number of its edges. -/
structure Legible (node : PathNode) : Prop where
  named : Xid.Named node.xid.type
  small : ∀ e ∈ node.edges, e < 2 ^ 31

theorem parseDagNodes_line {node : PathNode} (hnode : Legible node)
    (hlen : node.edges.length < xidEdgeNum) (fuel : Nat) (ws : List Text) (acc : List PathNode) :
    parseDagNodes (fuel + 1) (lineWords node ++ ws) acc =
      parseDagNodes fuel ws (acc ++ [node]) := by
  rw [lineWords, cons_append, parseDagNodes, Xid.parse_unparse hnode.named]
  dsimp only
  rw [parseIndices_dashed hnode.small hlen]
  dsimp only
  rw [if_neg (by simp)]

theorem parseDagNodes_dashed {nodes : List PathNode} {x : Xid} {fuel : Nat}
    (hread : ∀ node ∈ nodes, Legible node) (hlen : ∀ node ∈ nodes, node.edges.length < xidEdgeNum)
    (hx : Xid.Named x.type) (hfuel : nodes.length < fuel) (acc : List PathNode) :
    parseDagNodes fuel (nodes.flatMap lineWords ++ [x.unparse]) acc =
      (true, acc ++ nodes ++ [⟨x, []⟩]) := by
  induction nodes generalizing fuel acc with
  | nil =>
    obtain ⟨fuel, rfl⟩ : ∃ k, fuel = k + 1 := ⟨fuel - 1, by simp at hfuel; omega⟩
    rw [flatMap_nil, nil_append, parseDagNodes, Xid.parse_unparse hx]
    simp [parseIndices]
  | cons node nodes ih =>
    obtain ⟨fuel, rfl⟩ : ∃ k, fuel = k + 1 := ⟨fuel - 1, by simp at hfuel; omega⟩
    obtain ⟨hnode, hread⟩ := forall_mem_cons.1 hread
    obtain ⟨hlt, hlen⟩ := forall_mem_cons.1 hlen
    rw [flatMap_cons, append_assoc, parseDagNodes_line hnode hlt,
      ih hread hlen (by simpa using hfuel)]
    simp

theorem parseDagNodes_full {nodes : List PathNode} {x : Xid} {fuel : Nat}
    (hread : ∀ node ∈ nodes, Legible node) (hlen : ∀ node ∈ nodes, node.edges.length ≤ xidEdgeNum)
    (hfull : ∃ node ∈ nodes, node.edges.length = xidEdgeNum) (hfuel : nodes.length < fuel)
    (acc : List PathNode) :
    (parseDagNodes fuel (nodes.flatMap lineWords ++ [x.unparse]) acc).1 = false := by
  induction nodes generalizing fuel acc with
  | nil =>
    obtain ⟨node, hmem, -⟩ := hfull
    cases hmem
  | cons node nodes ih =>
    obtain ⟨fuel, rfl⟩ : ∃ k, fuel = k + 2 := ⟨fuel - 2, by simp at hfuel; omega⟩
    obtain ⟨hnode, hread⟩ := forall_mem_cons.1 hread
    obtain ⟨hle, hlen⟩ := forall_mem_cons.1 hlen
    rw [flatMap_cons, append_assoc]
    by_cases heq : node.edges.length = xidEdgeNum
    · rw [lineWords, cons_append, parseDagNodes, Xid.parse_unparse hnode.named]
      dsimp only
      rw [parseIndices_full hnode.small heq]
      rfl
    · rw [parseDagNodes_line hnode (lt_of_le_of_ne hle heq)]
      exact ih hread hlen (((exists_mem_cons_iff ..).1 hfull).resolve_left heq)
        (by simpa using hfuel) _

section

variable {edges : List Nat} {nodes : List PathNode} {x : Xid}

theorem length_lt_lines (nodes : List PathNode) (x : Xid) :
    nodes.length < (nodes.flatMap lineWords ++ [x.unparse]).length := by
  induction nodes with
  | nil => simp
  | cons node nodes ih =>
    simp only [flatMap_cons, length_append, length_cons, lineWords] at ih ⊢
    omega

/-- **A text whose lines have fewer than four numbers is read back.** -/
theorem parseDagWords_dashed (hedges : ∀ e ∈ edges, e < 2 ^ 31) (hdeg : edges.length < xidEdgeNum)
    (hread : ∀ node ∈ nodes, Legible node) (hlen : ∀ node ∈ nodes, node.edges.length < xidEdgeNum)
    (hx : Xid.Named x.type) :
    parseDagWords (dashed edges ++ (nodes.flatMap lineWords ++ [x.unparse])) =
      (true, ofNodes (nodes ++ [⟨x, []⟩]) ⟨Xid.zero, edges⟩) := by
  rw [parseDagWords, parseIndices_dashed hedges hdeg]
  dsimp only
  rw [parseDagNodes_dashed hread hlen hx (length_lt_lines nodes x)]
  rfl

/-- **A text with a line of four numbers is rejected**, if the line ends with a `-`. -/
theorem parseDagWords_full (hedges : ∀ e ∈ edges, e < 2 ^ 31) (hdeg : edges.length ≤ xidEdgeNum)
    (hread : ∀ node ∈ nodes, Legible node) (hlen : ∀ node ∈ nodes, node.edges.length ≤ xidEdgeNum)
    (hfull : edges.length = xidEdgeNum ∨ ∃ node ∈ nodes, node.edges.length = xidEdgeNum) :
    (parseDagWords (dashed edges ++ (nodes.flatMap lineWords ++ [x.unparse]))).1 = false := by
  rw [parseDagWords]
  by_cases hlen' : edges.length = xidEdgeNum
  · rw [parseIndices_full hedges hlen']
    rfl
  · have hfail := parseDagNodes_full (x := x) hread hlen (hfull.resolve_left hlen')
      (length_lt_lines nodes x) []
    rw [parseIndices_dashed hedges (lt_of_le_of_ne hdeg hlen')]
    dsimp only
    revert hfail
    generalize parseDagNodes _ _ _ = r
    rintro hfail
    obtain ⟨ok, read⟩ := r
    obtain rfl : ok = false := hfail
    rfl

end

end XiaPath

end Xia
