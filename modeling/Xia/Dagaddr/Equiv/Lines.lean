import Xia.Dagaddr.Equiv.Text

/-!
# Reading the form with indices

`construct_from_dag_string` makes a node of every line and enters the edges of the line from it.
`constructFromDagString_eq_ok` says when this works and which graph it gives.  A text as it is
printed is read as the lines that were printed (`dagLines_dagText`), and the graph has then a node
for every line, with the edges of the line (`Printable.ofString_eq`).
-/

namespace Xia

open List

namespace Dagaddr

namespace Graph

variable {libc : Libc} {g g' : Graph} {i m : Nat}
variable {ls : List (List Text)} {l : List Text}

/-! ### The loops -/

def dagLines (s : Text) : List (List Text) := (split '-' (s.filter (· ≠ '\n'))).map lineElems

def HasXid (l : List Text) : Prop := ∃ w, l.head? = some w ∧ 2 ≤ (split ':' w).length

def IsIndex (m : Nat) (w : Text) : Prop := 0 ≤ dagPosition w ∧ dagPosition w < m

def linePtr (libc : Libc) (i : Nat) : Nat := if i = 0 then 0 else libc.new i

def lineNode (libc : Libc) (i : Nat) (l : List Text) : Node :=
  if i = 0 then Node.dummySource else Node.read libc (libc.new i) (l.headD [])

theorem ptr_lineNode (l : List Text) : (lineNode libc i l).ptr = linePtr libc i := by
  unfold lineNode linePtr
  split <;> rfl

theorem linePtr_injective : Function.Injective (linePtr libc) := by
  intro i j h
  unfold linePtr at h
  split at h <;> split at h
  · omega
  · exact absurd h.symm (libc.new_ne_zero j)
  · exact absurd h (libc.new_ne_zero i)
  · exact libc.new_injective h

theorem addDagNodes_cons (line : Text) (lines : List Text) (idxs : List Nat)
    {r : Graph × List Nat} : addDagNodes libc i (line :: lines) (g, idxs) = .ok r ↔
      (i = 0 ∨ HasXid (lineElems line)) ∧
        addDagNodes libc (i + 1) lines ((g.addNode (lineNode libc i (lineElems line)) false).2,
          idxs ++ [(g.addNode (lineNode libc i (lineElems line)) false).1]) = .ok r := by
  rw [addDagNodes]
  by_cases hi : i = 0
  · simp [hi, lineNode]
  · simp only [hi, if_false, false_or, Result.bind_eq_ok, inBounds_eq_ok, Node.ofString_eq_ok,
      lineNode, HasXid]
    cases lineElems line <;> simp

/-- **Pass 1**: the node of the line `k` has the index `k`. -/
theorem addDagNodes_eq_ok {lines : List Text} (h : g.WellFormed) (hlength : g.nodes.length = i)
    (hfresh : ∀ n ∈ g.nodes, ∀ k, i ≤ k → n.ptr ≠ linePtr libc k) (idxs : List Nat)
    {r : Graph × List Nat} : addDagNodes libc i lines (g, idxs) = .ok r ↔
      (∀ x ∈ lines.zipIdx i, x.2 = 0 ∨ HasXid (lineElems x.1)) ∧
        r = (g.pushes ((lines.zipIdx i).map fun x => lineNode libc x.2 (lineElems x.1)),
          idxs ++ List.range' i lines.length) := by
  induction lines generalizing i g idxs with
  | nil => simp [addDagNodes, pushes, eq_comm]
  | cons line lines ih =>
    have hnew := addNode_fresh h (n := lineNode libc i (lineElems line)) fun n hn => by
      rw [ptr_lineNode]
      exact hfresh n hn i le_rfl
    rw [addDagNodes_cons, hnew, ih (h.push _) (by simp [push, hlength])]
    · simp [zipIdx_cons, pushes, range'_succ, and_assoc, hlength]
    · intro n hn k hk
      rcases mem_append.1 hn with hn | hn
      · exact hfresh n hn k (by omega)
      · rw [mem_singleton.1 hn, ptr_lineNode]
        intro heq
        have := linePtr_injective heq
        omega

def lineLinks (x : List Text × Nat) : List (Nat × Nat) :=
  x.1.tail.map fun w => (x.2, (dagPosition w).toNat)

theorem IsIndex.toNat_lt {w : Text} (h : IsIndex m w) : (dagPosition w).toNat < m := by
  obtain ⟨h₀, hlt⟩ := h
  omega

theorem addDagLine_eq_ok {w : Text} (h : g.WellFormed) (hlength : g.nodes.length = m)
    (hi : i < m) : addDagLine (List.range m) i g w = .ok g' ↔
      IsIndex m w ∧ g' = g.link i (dagPosition w).toNat := by
  simp only [addDagLine, Result.bind_eq_ok, inBounds_eq_ok, getElem?_range hi, atInt]
  by_cases hw : IsIndex m w
  · have hlt := hw.toNat_lt
    simp [hw, hw.1, getElem?_range hlt, addEdge_eq h (hlength ▸ hi) (hlength ▸ hlt), eq_comm]
  · have hnone : (if 0 ≤ dagPosition w then (List.range m)[(dagPosition w).toNat]? else none) =
        none := by
      split
      · refine getElem?_eq_none ?_
        rw [length_range]
        by_contra hlt
        exact hw ⟨‹_›, by omega⟩
      · rfl
    simp [hw, hnone]

theorem foldlM_addDagLine {ws : List Text} (h : g.WellFormed) (hlength : g.nodes.length = m)
    (hi : i < m) : ws.foldlM (addDagLine (List.range m) i) g = .ok g' ↔
      (∀ w ∈ ws, IsIndex m w) ∧ g' = g.links (ws.map fun w => (i, (dagPosition w).toNat)) := by
  rw [map_eq_flatMap]
  refine foldlM_links_iff h (fun w _ hw e he => ?_) fun w _ k hk hnodes k' => ?_
  · rw [mem_singleton.1 he, hlength]
    exact ⟨hi, hw.toNat_lt⟩
  · exact addDagLine_eq_ok hk (by rw [hnodes, hlength]) hi

theorem addDagEdges_eq (idxs : List Nat) (lines : List Text) :
    addDagEdges idxs i lines g = (lines.zipIdx i).foldlM
      (fun g x => (lineElems x.1).tail.foldlM (addDagLine idxs x.2) g) g := by
  induction lines generalizing i g with
  | nil => rfl
  | cons line lines ih =>
    rw [addDagEdges, zipIdx_cons, foldlM_cons]
    exact congrArg _ (funext fun g => ih)

theorem lt_of_mem_zipIdx {α : Type} {l : List α} {x : α × Nat} (hx : x ∈ l.zipIdx) :
    x.2 < l.length := by
  have hlt := snd_lt_of_mem_zipIdx hx
  omega

/-- **Pass 2**: the numbers are those of the lines. -/
theorem addDagEdges_eq_ok {lines : List Text} (h : g.WellFormed)
    (hlength : g.nodes.length = lines.length) :
    addDagEdges (List.range lines.length) 0 lines g = .ok g' ↔
      (∀ x ∈ lines.zipIdx, ∀ w ∈ (lineElems x.1).tail, IsIndex lines.length w) ∧
        g' = g.links (lines.zipIdx.flatMap fun x => lineLinks (lineElems x.1, x.2)) := by
  rw [addDagEdges_eq]
  refine foldlM_links_iff h (fun x hx hws e he => ?_) fun x hx k hk hnodes k' => ?_
  · obtain ⟨w, hw, rfl⟩ := mem_map.1 he
    rw [hlength]
    exact ⟨lt_of_mem_zipIdx hx, (hws w hw).toNat_lt⟩
  · exact foldlM_addDagLine hk (by rw [hnodes, hlength]) (lt_of_mem_zipIdx hx)

/-! ### The graph -/

def dagNodes (libc : Libc) (ls : List (List Text)) : Graph :=
  empty.pushes (ls.zipIdx.map fun x => lineNode libc x.2 x.1)

def dagLinks (ls : List (List Text)) : List (Nat × Nat) := ls.zipIdx.flatMap lineLinks

def dagGraph (libc : Libc) (ls : List (List Text)) : Graph := (dagNodes libc ls).links (dagLinks ls)

/-- The lines can be read: there is an XID in every line but the first, and the other words are
numbers of lines. -/
structure ReadableDag (ls : List (List Text)) : Prop where
  xids : ∀ l ∈ ls.tail, HasXid l
  indices : ∀ l ∈ ls, ∀ w ∈ l.tail, IsIndex ls.length w

theorem forall_mem_zipIdx {α : Type} {P : α → Prop} (l : List α) :
    (∀ x ∈ l.zipIdx, x.2 = 0 ∨ P x.1) ↔ ∀ a ∈ l.tail, P a := by
  cases l with
  | nil => simp
  | cons a l =>
    rw [zipIdx_cons, forall_mem_cons, tail_cons]
    constructor
    · rintro ⟨-, h⟩ b hb
      obtain ⟨i, hi, rfl⟩ := getElem_of_mem hb
      refine (h (l[i], i + 1) ?_).resolve_left (Nat.succ_ne_zero i)
      rw [mk_mem_zipIdx_iff_le_and_getElem?_sub]
      simp [hi]
    · intro h
      exact ⟨.inl rfl, fun x hx => .inr (h x.1 (fst_mem_of_mem_zipIdx hx))⟩

theorem length_dagNodes (ls : List (List Text)) : (dagNodes libc ls).nodes.length = ls.length := by
  simp [dagNodes, nodes_pushes, empty]

theorem wellFormed_dagNodes (ls : List (List Text)) : (dagNodes libc ls).WellFormed :=
  wellFormed_empty.pushes _

/-- **The graph that is read from the form with indices.** -/
theorem constructFromDagString_eq_ok {s : Text} : constructFromDagString libc s = .ok g ↔
    ReadableDag (dagLines s) ∧ g = dagGraph libc (dagLines s) := by
  rw [dagLines, dagGraph]
  unfold constructFromDagString
  dsimp only
  generalize split '-' (s.filter (· ≠ '\n')) = lines
  have hzip : (lines.map lineElems).zipIdx = lines.zipIdx.map fun x => (lineElems x.1, x.2) := by
    rw [zipIdx_map]
    rfl
  have hnodes : dagNodes libc (lines.map lineElems) =
      empty.pushes (lines.zipIdx.map fun x => lineNode libc x.2 (lineElems x.1)) := by
    rw [dagNodes, hzip, map_map]
    rfl
  have hlinks : dagLinks (lines.map lineElems) =
      lines.zipIdx.flatMap fun x => lineLinks (lineElems x.1, x.2) := by
    rw [dagLinks, hzip, flatMap_map]
  have hxids : (∀ x ∈ lines.zipIdx, x.2 = 0 ∨ HasXid (lineElems x.1)) ↔
      ∀ l ∈ (lines.map lineElems).tail, HasXid l := by
    rw [← forall_mem_zipIdx, hzip, forall_mem_map]
  have hindices : (∀ x ∈ lines.zipIdx, ∀ w ∈ (lineElems x.1).tail, IsIndex lines.length w) ↔
      ∀ l ∈ lines.map lineElems, ∀ w ∈ l.tail, IsIndex (lines.map lineElems).length w := by
    rw [length_map, forall_mem_map]
    constructor
    · intro h l hl
      obtain ⟨i, hi, rfl⟩ := getElem_of_mem hl
      refine h (lines[i], i) ?_
      rw [mk_mem_zipIdx_iff_le_and_getElem?_sub]
      simp [hi]
    · exact fun h x hx => h x.1 (fst_mem_of_mem_zipIdx hx)
  rw [Result.bind_eq_ok, hlinks]
  simp only [addDagNodes_eq_ok (i := 0) wellFormed_empty rfl (by simp [empty]) [], hxids]
  have hedges : addDagEdges (List.range lines.length) 0 lines
      (dagNodes libc (lines.map lineElems)) = .ok g ↔ _ :=
    addDagEdges_eq_ok (wellFormed_dagNodes _) (by rw [length_dagNodes, length_map])
  rw [hindices, hnodes] at hedges
  rw [hnodes]
  constructor
  · rintro ⟨r, ⟨hx, rfl⟩, hr⟩
    rw [nil_append, ← range_eq_range'] at hr
    obtain ⟨hi, hg⟩ := hedges.1 hr
    exact ⟨⟨hx, hi⟩, hg⟩
  · rintro ⟨⟨hx, hi⟩, hg⟩
    refine ⟨_, ⟨hx, rfl⟩, ?_⟩
    rw [nil_append, ← range_eq_range']
    exact hedges.2 ⟨hi, hg⟩

theorem zipIdx_eq_map_range {α : Type} (l : List α) (d : α) :
    l.zipIdx = (List.range l.length).map fun i => (l.getD i d, i) := by
  refine ext_getElem (by simp) fun i hi _ => ?_
  rw [length_zipIdx] at hi
  simp [List.getD, hi]

theorem targets_dagLinks (ls : List (List Text)) (i : Nat) : targets (dagLinks ls) i =
      ((ls.getD i []).tail.map fun w => (dagPosition w).toNat).filter (· ≠ i) := by
  have hline (k : Nat) : targets (lineLinks (ls.getD k [], k)) i = if k = i then
      ((ls.getD k []).tail.map fun w => (dagPosition w).toNat).filter (· ≠ i) else [] := by
    rw [← targets_map, map_map]
    rfl
  rw [dagLinks, zipIdx_eq_map_range ls [], flatMap_map, targets_flatMap]
  simp only [hline]
  by_cases hi : i < ls.length
  · rw [flatMap_eq_of_unique nodup_range (mem_range.2 hi) fun k _ hk => if_neg hk, if_pos rfl]
  · have hnil : ls.getD i [] = [] := by simp [List.getD, getElem?_eq_none (not_lt.1 hi)]
    rw [hnil]
    refine flatMap_eq_nil_iff.2 fun k hk => if_neg ?_
    have := mem_range.1 hk
    omega

theorem inside_dagLinks (h : ReadableDag ls) : (dagNodes libc ls).Inside (dagLinks ls) := by
  intro e he
  obtain ⟨x, hx, he⟩ := mem_flatMap.1 he
  obtain ⟨w, hw, rfl⟩ := mem_map.1 he
  rw [length_dagNodes]
  exact ⟨lt_of_mem_zipIdx hx, (h.indices x.1 (fst_mem_of_mem_zipIdx hx) w hw).toNat_lt⟩

theorem outOf_dagNodes (ls : List (List Text)) (i : Nat) : (dagNodes libc ls).outOf i = [] :=
  outOf_pushes _ i

theorem nodes_dagGraph (ls : List (List Text)) :
    (dagGraph libc ls).nodes = ls.zipIdx.map fun x => lineNode libc x.2 x.1 := by
  rw [dagGraph, nodes_links, dagNodes, nodes_pushes]
  rfl

/-- **The edges of a node are those of its line**, without repetitions and loops. -/
theorem outOf_dagGraph (h : ReadableDag ls) (i : Nat) : (dagGraph libc ls).outOf i =
      pushAll [] (((ls.getD i []).tail.map fun w => (dagPosition w).toNat).filter (· ≠ i)) := by
  rw [dagGraph, outOf_links (wellFormed_dagNodes ls) (inside_dagLinks h), outOf_dagNodes,
    targets_dagLinks]

theorem proper_dagGraph (h : ReadableDag ls) : (dagGraph libc ls).Proper := by
  refine Proper.links ⟨wellFormed_dagNodes ls, fun i => ?_⟩ (inside_dagLinks h)
  rw [outOf_dagNodes]
  exact nodup_nil

/-! ### The text that is printed -/

def dagText (l : List Text) (ls : List (List Text)) : Text :=
  unwords l ++ ls.flatMap fun l => [' ', '-', ' '] ++ unwords l

structure IsLine (l : List Text) : Prop where
  ne : l ≠ []
  words : ∀ w ∈ l, IsWord w
  dash : ∀ w ∈ l, '-' ∉ w

theorem IsLine.dash_not_mem (h : IsLine l) : '-' ∉ unwords l := by
  intro hmem
  rcases mem_unwords hmem with heq | ⟨w, hw, hc⟩
  · cases heq
  · exact h.dash w hw hc

theorem IsLine.unwords_ne (h : IsLine l) : unwords l ≠ [] := by
  obtain ⟨w, ws, rfl⟩ := exists_cons_of_ne_nil h.ne
  rw [unwords_cons]
  exact append_ne_nil_of_left_ne_nil (h.words w mem_cons_self).ne _

theorem map_lineElems_dagText {a : Text} (ha : ∀ c ∈ a, isBlank c = true) (hl : IsLine l)
    (hls : ∀ l ∈ ls, IsLine l) : (split '-' (a ++ dagText l ls)).map lineElems = l :: ls := by
  have hdash : '-' ∉ a ++ unwords l := by
    intro hmem
    rcases mem_append.1 hmem with hmem | hmem
    · cases ha _ hmem
    · exact hl.dash_not_mem hmem
  have hblank : ∀ c ∈ [' '], isBlank c = true := by simp [isBlank]
  induction ls generalizing a l with
  | nil =>
    have hline := lineElems_unwords ha hl.ne hl.words (b := []) (by simp)
    rw [append_nil] at hline
    rw [dagText, flatMap_nil, append_nil, split_of_not_mem hdash
      (append_ne_nil_of_right_ne_nil _ hl.unwords_ne), map_singleton, hline]
  | cons l' ls ih =>
    obtain ⟨hl', hls⟩ := forall_mem_cons.1 hls
    have hshape : a ++ dagText l (l' :: ls) =
        (a ++ (unwords l ++ [' '])) ++ '-' :: ([' '] ++ dagText l' ls) := by
      simp [dagText]
    have hdash' : '-' ∉ a ++ (unwords l ++ [' ']) := by
      simpa using hdash
    have hrest : '-' ∉ [' '] ++ unwords l' := by
      simpa using hl'.dash_not_mem
    rw [hshape, split_append hdash', map_cons, lineElems_unwords ha hl.ne hl.words hblank,
      ih hblank hl' hls hrest]

/-- **The lines that are read are the lines that were printed.** -/
theorem dagLines_dagText {s : Text} (hs : s.filter (· ≠ '\n') = dagText l ls) (hl : IsLine l)
    (hls : ∀ l ∈ ls, IsLine l) : dagLines s = l :: ls := by
  rw [dagLines, hs]
  exact map_lineElems_dagText (a := []) (by simp) hl hls

/-- The lines that are printed for the edges of the source and for the other nodes. -/
def printedLines (es : List Nat) (ns : List (Node × List Nat)) : List (List Text) :=
  (['D', 'A', 'G'] :: es.map XiaPath.decimal) ::
    ns.map fun x => x.1.toText :: x.2.map XiaPath.decimal

structure Printable (es : List Nat) (ns : List (Node × List Nat)) : Prop where
  types : ∀ x ∈ ns, x.1.type ∈ addressTypes
  source : ∀ e ∈ es, e < ns.length ∧ e + 1 < 2 ^ 31
  edges : ∀ x ∈ ns, ∀ e ∈ x.2, e < ns.length ∧ e + 1 < 2 ^ 31

section Printed

variable {es : List Nat} {ns : List (Node × List Nat)} {s : Text}

theorem isLine_decimal {w : Text} (hw : IsWord w) (hdash : '-' ∉ w) (es : List Nat) :
    IsLine (w :: es.map XiaPath.decimal) where
  ne := cons_ne_nil _ _
  words := by
    simpa [hw] using fun e _ => XiaPath.isWord_decimal e
  dash := by
    simp only [mem_cons, mem_map, forall_eq_or_imp, forall_exists_index, and_imp,
      forall_apply_eq_imp_iff₂]
    refine ⟨hdash, fun e _ hmem => ?_⟩
    cases XiaPath.isDigit_of_mem_decimal hmem

theorem map_dagPosition_decimal {es : List Nat} (hes : ∀ e ∈ es, e + 1 < 2 ^ 31) :
    (es.map XiaPath.decimal).map (fun w => (dagPosition w).toNat) = es.map (· + 1) := by
  rw [map_map]
  refine map_congr_left fun e he => ?_
  rw [Function.comp_apply, dagPosition_decimal (hes e he)]
  omega

theorem length_printed : (dagGraph libc (printedLines es ns)).nodes.length = ns.length + 1 := by
  simp [nodes_dagGraph, printedLines]

theorem node_printed_zero :
    (dagGraph libc (printedLines es ns)).nodes[0]? = some Node.dummySource := by
  simp [nodes_dagGraph, printedLines, lineNode]

namespace Printable

variable (h : Printable es ns)
include h

theorem readableDag : ReadableDag (printedLines es ns) where
  xids := by
    intro l hl
    obtain ⟨x, hx, rfl⟩ := mem_map.1 hl
    have hread := Node.ofString_toText default 0 (h.types x hx)
    exact ⟨_, rfl, (Node.ofString_eq_ok.1 hread).1⟩
  indices := by
    have hindex {es : List Nat} (hes : ∀ e ∈ es, e < ns.length ∧ e + 1 < 2 ^ 31) :
        ∀ w ∈ es.map XiaPath.decimal, IsIndex (printedLines es ns).length w := by
      intro w hw
      obtain ⟨e, he, rfl⟩ := mem_map.1 hw
      obtain ⟨hlt, hint⟩ := hes e he
      rw [IsIndex, dagPosition_decimal hint]
      simp only [printedLines, length_cons, length_map]
      omega
    intro l hl
    rcases mem_cons.1 hl with rfl | hl
    · exact hindex h.source
    · obtain ⟨x, hx, rfl⟩ := mem_map.1 hl
      have := hindex (h.edges x hx)
      simpa [printedLines] using this

/-- **A printed text is read**, whatever ends of lines it has. -/
theorem ofString_eq (hs : s.filter (· ≠ '\n') = dagText (['D', 'A', 'G'] :: es.map XiaPath.decimal)
      (ns.map fun x => x.1.toText :: x.2.map XiaPath.decimal))
    (hdag : ['D', 'A', 'G'] <:+: s) :
    ofString libc s = .ok (dagGraph libc (printedLines es ns)) := by
  have hlines : dagLines s = printedLines es ns := by
    refine dagLines_dagText hs (isLine_decimal ⟨by decide, by decide⟩ (by decide) es) ?_
    intro l hl
    obtain ⟨x, hx, rfl⟩ := mem_map.1 hl
    obtain ⟨hword, hdash⟩ := Node.isWord_toText (h.types x hx)
    exact isLine_decimal hword hdash x.2
  rw [ofString, if_pos hdag, constructFromDagString_eq_ok, hlines]
  exact ⟨h.readableDag, rfl⟩

theorem node_succ {j : Nat} {x : Node × List Nat} (hj : ns[j]? = some x) :
    (dagGraph libc (printedLines es ns)).nodes[j + 1]? =
      some ⟨libc.new (j + 1), x.1.type, x.1.id⟩ := by
  have hread := (Node.ofString_eq_ok.1 (Node.ofString_toText libc (libc.new (j + 1))
    (h.types x (mem_of_getElem? hj)))).2
  rw [nodes_dagGraph, getElem?_map, getElem?_zipIdx]
  simp [printedLines, hj, lineNode, hread]

theorem outOf_zero :
    (dagGraph libc (printedLines es ns)).outOf 0 = pushAll [] (es.map (· + 1)) := by
  rw [outOf_dagGraph h.readableDag]
  simp only [printedLines, getD_cons_zero, tail_cons]
  rw [map_dagPosition_decimal fun e he => (h.source e he).2, filter_eq_self.2 (by simp)]

theorem outOf_succ {j : Nat} {x : Node × List Nat} (hj : ns[j]? = some x) :
    (dagGraph libc (printedLines es ns)).outOf (j + 1) =
      pushAll [] ((x.2.map (· + 1)).filter (· ≠ j + 1)) := by
  have hline : (printedLines es ns).getD (j + 1) [] = x.1.toText :: x.2.map XiaPath.decimal := by
    simp [printedLines, List.getD, hj]
  rw [outOf_dagGraph h.readableDag, hline, tail_cons,
    map_dagPosition_decimal fun e he => (h.edges x (mem_of_getElem? hj) e he).2]

end Printable

end Printed

end Graph

end Dagaddr

end Xia
