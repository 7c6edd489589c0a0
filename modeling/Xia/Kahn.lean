import Mathlib

/-!
# Kahn's algorithm

A graph is a list `V` of nodes and a function `succ` from a node to the list of its successors.
`visit` takes a node without remaining incoming edges off a stack, drops its outgoing edges and
pushes every node that loses its last incoming edge, until the stack is empty.

`Inv` is what the loop keeps.  `deg b` counts the edges into `b` from the nodes that were not
visited yet; while the edges of a node are dropped, those still to come are `pending`.  The result
is `visit_spec`: the nodes are listed once, each after all its predecessors, and a node that is
missing has a predecessor that is missing.  So all nodes are listed exactly if the graph has no
cycle (`Visited.length_eq_iff`).
-/

namespace Kahn

open List Function

variable {α : Type*} [DecidableEq α]

/-- Take one edge into `b` away; a node without incoming edges goes on the stack. -/
def dropEdge : List α × (α → Int) → α → List α × (α → Int)
  | (stack, deg), b =>
    let deg := Function.update deg b (deg b - 1)
    (if deg b = 0 then b :: stack else stack, deg)

/-- The nodes in the order in which they are taken off the stack. -/
def visit (succ : α → List α) : Nat → List α → (α → Int) → List α
  | 0, _, _ => []
  | _ + 1, [], _ => []
  | fuel + 1, a :: stack, deg =>
    let r := (succ a).foldl dropEdge (stack, deg)
    a :: visit succ fuel r.1 r.2

/-- Every edge goes forward along the rank. -/
def Acyclic (V : List α) (succ : α → List α) : Prop :=
  ∃ rank : α → Nat, ∀ a ∈ V, ∀ b ∈ succ a, rank a < rank b

/-- Every node of the list comes after all its predecessors. -/
def Ordered (V : List α) (succ : α → List α) (order : List α) : Prop :=
  ∀ l₁ b l₂, order = l₁ ++ b :: l₂ → ∀ a ∈ V, b ∈ succ a → a ∈ l₁

/-- The edges into `b` from the nodes that are not done. -/
def remaining (V : List α) (succ : α → List α) (done : List α) (b : α) : Nat :=
  ((V.filter (· ∉ done)).flatMap succ).count b

/-- The invariant: `done` was visited, `stack` is ready, `pending` are the edges of the last visited
node that are still to be dropped. -/
structure Inv (V : List α) (succ : α → List α) (done stack pending : List α) (deg : α → Int) :
    Prop where
  nodup : (done ++ stack).Nodup
  subset : ∀ a ∈ done ++ stack, a ∈ V
  deg_eq : ∀ b, deg b = remaining V succ done b + pending.count b
  ready : ∀ b ∈ V, b ∈ done ++ stack ↔ deg b = 0
  ordered : Ordered V succ done

variable {V : List α} {succ : α → List α} {done stack pending order : List α} {deg : α → Int}

/-! ### Steps -/

theorem remaining_eq_zero_iff {b : α} :
    remaining V succ done b = 0 ↔ ∀ a ∈ V, b ∈ succ a → a ∈ done := by
  rw [remaining, count_eq_zero]
  simp only [mem_flatMap, mem_filter, decide_eq_true_eq, not_exists, not_and]
  constructor
  · intro h a ha hb
    by_contra hdone
    exact h a ⟨ha, hdone⟩ hb
  · rintro h a ⟨ha, hdone⟩ hb
    exact hdone (h a ha hb)

theorem remaining_concat {a : α} (hV : V.Nodup) (ha : a ∈ V) (hdone : a ∉ done) (b : α) :
    remaining V succ done b = remaining V succ (done ++ [a]) b + (succ a).count b := by
  have hperm : (V.filter (· ∉ done)).Perm (a :: V.filter (· ∉ done ++ [a])) := by
    refine (perm_ext_iff_of_nodup (hV.filter _) ?_).2 fun x => ?_
    · refine nodup_cons.2 ⟨?_, hV.filter _⟩
      simp
    · simp only [mem_filter, mem_cons, mem_append, not_mem_nil, or_false, decide_eq_true_eq, not_or]
      by_cases hx : x = a
      · simp [hx, ha, hdone]
      · simp [hx]
  rw [remaining, remaining, (hperm.flatMap_right succ).count_eq b, flatMap_cons, count_append]
  omega

omit [DecidableEq α] in
theorem ordered_concat {a : α} (h : Ordered V succ done)
    (ha : ∀ c ∈ V, a ∈ succ c → c ∈ done) : Ordered V succ (done ++ [a]) := by
  intro l₁ b l₂ heq c hc hb
  rcases eq_nil_or_concat l₂ with rfl | ⟨l₂, z, rfl⟩
  · obtain ⟨rfl, hb'⟩ := append_inj' heq rfl
    obtain rfl : a = b := by simpa using hb'
    exact ha c hc hb
  · rw [concat_eq_append, ← cons_append, ← append_assoc] at heq
    obtain ⟨hdone, -⟩ := append_inj' heq rfl
    exact h l₁ b l₂ hdone c hc hb

theorem Inv.dropEdge {b : α} (h : Inv V succ done stack (b :: pending) deg) (hb : b ∈ V) :
    Inv V succ done (Kahn.dropEdge (stack, deg) b).1 pending (Kahn.dropEdge (stack, deg) b).2 := by
  have hdeg : ∀ c, Function.update deg b (deg b - 1) c =
      remaining V succ done c + pending.count c := by
    intro c
    by_cases hc : c = b
    · subst hc
      rw [update_self, h.deg_eq, count_cons_self]
      omega
    · rw [update_of_ne hc, h.deg_eq, count_cons_of_ne (Ne.symm hc)]
  -- an edge into `b` is pending, so `b` is not ready yet
  have hnot : b ∉ done ++ stack := by
    rw [h.ready b hb, h.deg_eq, count_cons_self]
    omega
  have hother : ∀ c, c ≠ b → Function.update deg b (deg b - 1) c = deg c :=
    fun c hc => update_of_ne hc _ _
  unfold Kahn.dropEdge
  dsimp only
  split
  · rename_i hzero
    have hmem : ∀ c, c ∈ done ++ b :: stack ↔ c = b ∨ c ∈ done ++ stack := by
      intro c
      simp only [mem_append, mem_cons]
      tauto
    refine ⟨?_, fun c hc => ?_, hdeg, fun c hc => ?_, h.ordered⟩
    · rw [nodup_middle]
      exact nodup_cons.2 ⟨hnot, h.nodup⟩
    · rcases (hmem c).1 hc with rfl | hc
      · exact hb
      · exact h.subset c hc
    · rw [hmem]
      by_cases heq : c = b
      · subst heq
        exact iff_of_true (.inl rfl) hzero
      · rw [hother c heq, ← h.ready c hc]
        simp [heq]
  · rename_i hzero
    refine ⟨h.nodup, h.subset, hdeg, fun c hc => ?_, h.ordered⟩
    by_cases heq : c = b
    · subst heq
      exact iff_of_false hnot hzero
    · rw [hother c heq, h.ready c hc]

theorem Inv.foldl_dropEdge {r : List α × (α → Int)}
    (h : Inv V succ done r.1 pending r.2) (hpending : ∀ b ∈ pending, b ∈ V) :
    Inv V succ done (pending.foldl Kahn.dropEdge r).1 [] (pending.foldl Kahn.dropEdge r).2 := by
  induction pending generalizing r with
  | nil => exact h
  | cons b pending ih =>
    exact ih (h.dropEdge (hpending b mem_cons_self)) fun c hc => hpending c (mem_cons_of_mem _ hc)

theorem Inv.pop {a : α} (hV : V.Nodup) (h : Inv V succ done (a :: stack) [] deg) :
    Inv V succ (done ++ [a]) stack (succ a) deg := by
  have ha : a ∈ V := h.subset a (by simp)
  have hdone : a ∉ done := by
    have hnodup := h.nodup
    rw [nodup_middle, nodup_cons] at hnodup
    exact fun hmem => hnodup.1 (mem_append_left _ hmem)
  have happend : done ++ [a] ++ stack = done ++ a :: stack := by simp
  refine ⟨happend ▸ h.nodup, happend ▸ h.subset, fun b => ?_, happend ▸ h.ready, ?_⟩
  · rw [h.deg_eq, remaining_concat hV ha hdone]
    simp
  · refine ordered_concat h.ordered (remaining_eq_zero_iff.1 ?_)
    have hzero := (h.ready a ha).1 (by simp)
    rw [h.deg_eq] at hzero
    simpa using hzero

/-! ### Runs -/

structure Visited (V : List α) (succ : α → List α) (order : List α) : Prop where
  nodup : order.Nodup
  subset : ∀ a ∈ order, a ∈ V
  ordered : Ordered V succ order
  missing : ∀ b ∈ V, b ∉ order → ∃ a ∈ V, a ∉ order ∧ b ∈ succ a

theorem Inv.visited (h : Inv V succ done [] [] deg) : Visited V succ done := by
  refine ⟨by simpa using h.nodup, by simpa using h.subset, h.ordered, fun b hb hdone => ?_⟩
  by_contra hnone
  refine hdone ?_
  have hzero : remaining V succ done b = 0 := remaining_eq_zero_iff.2 fun a ha hba => by
    by_contra hnot
    exact hnone ⟨a, ha, hnot, hba⟩
  have hready := (h.ready b hb).2 (by simp [h.deg_eq, hzero])
  simpa using hready

theorem Inv.visit {fuel : Nat} (hV : V.Nodup) (hsucc : ∀ a ∈ V, ∀ b ∈ succ a, b ∈ V)
    (h : Inv V succ done stack [] deg) (hfuel : V.length ≤ done.length + fuel) :
    Visited V succ (done ++ Kahn.visit succ fuel stack deg) := by
  induction fuel generalizing done stack deg with
  | zero =>
    -- everything is done, so the stack is empty
    have hlen : (done ++ stack).length ≤ V.length :=
      (h.nodup.subperm h.subset).length_le
    rw [length_append] at hlen
    obtain rfl : stack = [] := length_eq_zero_iff.1 (by omega)
    simpa [Kahn.visit] using h.visited
  | succ fuel ih =>
    cases stack with
    | nil => simpa [Kahn.visit] using h.visited
    | cons a stack =>
      have ha : a ∈ V := h.subset a (by simp)
      have hnext := (h.pop hV).foldl_dropEdge (r := (stack, deg)) (hsucc a ha)
      have hrest := ih hnext (by simp; omega)
      rw [append_assoc] at hrest
      exact hrest

/-- **What Kahn's algorithm visits.** -/
theorem visit_spec {roots : List α} (hV : V.Nodup) (hsucc : ∀ a ∈ V, ∀ b ∈ succ a, b ∈ V)
    (hroots : roots.Nodup) (hmem : ∀ a, a ∈ roots ↔ a ∈ V ∧ (V.flatMap succ).count a = 0)
    (hdeg : ∀ b, deg b = (V.flatMap succ).count b) :
    Visited V succ (visit succ V.length roots deg) := by
  have hinv : Inv V succ [] roots [] deg := by
    refine ⟨by simpa using hroots, fun a ha => ((hmem a).1 (by simpa using ha)).1, fun b => ?_,
      fun b hb => ?_, fun l₁ b l₂ heq => by simp at heq⟩
    · simp [remaining, hdeg]
    · rw [nil_append, hmem, hdeg]
      simp [hb]
  exact hinv.visit hV hsucc (by simp)

theorem Visited.idxOf_lt (h : Visited V succ order) {a b : α} (ha : a ∈ V) (hb : b ∈ succ a)
    (hmem : b ∈ order) : order.idxOf a < order.idxOf b := by
  obtain ⟨l₁, l₂, rfl⟩ := append_of_mem hmem
  have hnot : b ∉ l₁ := by
    have hnodup := h.nodup
    rw [nodup_middle, nodup_cons] at hnodup
    exact fun hb₁ => hnodup.1 (mem_append_left _ hb₁)
  have ha₁ : a ∈ l₁ := h.ordered l₁ b l₂ rfl a ha hb
  rw [idxOf_append_of_mem ha₁, idxOf_append_of_notMem hnot]
  have hlt := idxOf_lt_length_of_mem ha₁
  simp
  omega

/-- **All nodes are visited exactly if the graph has no cycle.** -/
theorem Visited.length_eq_iff (h : Visited V succ order) (hV : V.Nodup)
    (hsucc : ∀ a ∈ V, ∀ b ∈ succ a, b ∈ V) :
    order.length = V.length ↔ Acyclic V succ := by
  constructor
  · intro hlen
    have hperm : order.Perm V :=
      (h.nodup.subperm h.subset).perm_of_length_le hlen.ge
    refine ⟨order.idxOf, fun a ha b hb => h.idxOf_lt ha hb ?_⟩
    exact hperm.mem_iff.2 (hsucc a ha b hb)
  · rintro ⟨rank, hrank⟩
    -- of the missing nodes one has the smallest rank, and its predecessor is missing too
    have hall : ∀ n b, rank b = n → b ∈ V → b ∈ order := by
      intro n
      induction n using Nat.strong_induction_on with
      | h n ih =>
        intro b hn hb
        by_contra hnot
        obtain ⟨a, ha, hna, hba⟩ := h.missing b hb hnot
        exact hna (ih (rank a) (hn ▸ hrank a ha b hba) a rfl ha)
    have hperm : order.Perm V := (perm_ext_iff_of_nodup h.nodup hV).2 fun a =>
      ⟨h.subset a, fun ha => hall _ a rfl ha⟩
    exact hperm.length_eq

end Kahn
