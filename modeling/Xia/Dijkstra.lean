import Mathlib

/-!
# Shortest paths by labels

The algorithm of Dijkstra in a graph whose edges all cost one.  The nodes of `K` have a label: the
cost of a path from the source, and the node before them on it.  A cost of `top` stands for no path.
The nodes of `D` are done.

`Labels` is what the algorithm keeps.  It holds at first, when only the source is done
(`labels_init`), and a node with the least cost among the others can be done next (`Labels.settle`).
If the nodes that are left all have the cost `top`, there are no paths to them (`Labels.no_walk`),
and the costs of the others are their distances (`Labels.isDist`).  Going back from one of these
from node to node one finds the first node of a shortest path (`Labels.first`).
-/

namespace Dijkstra

variable {α : Type*} {E : α → α → Prop} {a b c s x : α} {m n : Nat}

/-- There is a path with `n` edges. -/
inductive Walk (E : α → α → Prop) : Nat → α → α → Prop
  | nil (a : α) : Walk E 0 a a
  | concat {n : Nat} {a b c : α} (h : Walk E n a b) (hbc : E b c) : Walk E (n + 1) a c

theorem Walk.eq_of_zero (h : Walk E 0 a b) : a = b := by
  cases h
  rfl

def IsDist (E : α → α → Prop) (a b : α) (n : Nat) : Prop :=
  Walk E n a b ∧ ∀ m, Walk E m a b → n ≤ m

/-- What the labels say while the nodes of `D` are done. -/
structure Labels (E : α → α → Prop) (s : α) (top : Nat) (K D : Set α) (cost : α → Nat)
    (prev : α → α) : Prop where
  subset : D ⊆ K
  source : s ∈ D
  cost_source : cost s = 0
  label : ∀ x ∈ K, x ≠ s → cost x < top → prev x ∈ D ∧ E (prev x) x ∧ cost x = cost (prev x) + 1
  edge : ∀ a ∈ D, ∀ x ∈ K, E a x → cost x ≤ cost a + 1
  mono : ∀ a ∈ D, ∀ x ∈ K, x ∉ D → cost a ≤ cost x
  done : ∀ a ∈ D, cost a < top
  le_top : ∀ x ∈ K, cost x ≤ top

variable {K D : Set α} {top : Nat} {cost cost' : α → Nat} {prev prev' : α → α}

theorem labels_init (hs : s ∈ K) (htop : 1 < top) (hsource : cost s = 0)
    (hnear : ∀ x ∈ K, x ≠ s → E s x → cost x = 1 ∧ prev x = s)
    (hfar : ∀ x ∈ K, x ≠ s → ¬ E s x → cost x = top) : Labels E s top K {s} cost prev where
  subset := by simpa using hs
  source := rfl
  cost_source := hsource
  label := by
    intro x hx hne hlt
    by_cases hE : E s x
    · obtain ⟨hcost, hprev⟩ := hnear x hx hne hE
      rw [hprev, hsource]
      exact ⟨rfl, hE, hcost⟩
    · exact absurd (hfar x hx hne hE) hlt.ne
  edge := by
    rintro a rfl x hx hE
    by_cases hne : x = a
    · rw [hne, hsource]
      exact Nat.zero_le _
    · rw [(hnear x hx hne hE).1, hsource]
  mono := by
    rintro a rfl x - -
    rw [hsource]
    exact Nat.zero_le _
  done := by
    rintro a rfl
    omega
  le_top := by
    intro x hx
    by_cases hne : x = s
    · rw [hne, hsource]
      exact Nat.zero_le _
    · by_cases hE : E s x
      · have := (hnear x hx hne hE).1
        omega
      · exact (hfar x hx hne hE).le

namespace Labels

variable (h : Labels E s top K D cost prev)
include h

/-- **A node with the least cost can be done next**, and its neighbours get a label by it if this is
better than the one they have. -/
theorem settle (ha : a ∈ K) (haD : a ∉ D) (hlt : cost a < top)
    (hmin : ∀ x ∈ K, x ∉ D → cost a ≤ cost x)
    (hbetter : ∀ x ∈ K, x ∉ insert a D → E a x → cost a + 1 < cost x →
      cost' x = cost a + 1 ∧ prev' x = a)
    (hkeep : ∀ x ∈ K, ¬ (x ∉ insert a D ∧ E a x ∧ cost a + 1 < cost x) →
      cost' x = cost x ∧ prev' x = prev x) :
    Labels E s top K (insert a D) cost' prev' := by
  have hdone : ∀ x ∈ insert a D, cost' x = cost x := by
    intro x hx
    have hxK : x ∈ K := hx.elim (fun heq => heq ▸ ha) fun hx => h.subset hx
    exact (hkeep x hxK fun hnot => hnot.1 hx).1
  have hle : ∀ x ∈ K, cost' x ≤ cost x := by
    intro x hx
    by_cases hcase : x ∉ insert a D ∧ E a x ∧ cost a + 1 < cost x
    · rw [(hbetter x hx hcase.1 hcase.2.1 hcase.2.2).1]
      exact hcase.2.2.le
    · exact (hkeep x hx hcase).1.le
  have hmem : a ∈ insert a D := Set.mem_insert a D
  have hsub {x : α} (hx : x ∈ D) : x ∈ insert a D := Set.mem_insert_of_mem a hx
  refine ⟨Set.insert_subset ha h.subset, hsub h.source, ?_, ?_, ?_, ?_, ?_, ?_⟩
  · rw [hdone s (hsub h.source), h.cost_source]
  · intro x hx hne hxlt
    by_cases hcase : x ∉ insert a D ∧ E a x ∧ cost a + 1 < cost x
    · obtain ⟨hcost, hprev⟩ := hbetter x hx hcase.1 hcase.2.1 hcase.2.2
      rw [hprev, hdone a hmem]
      exact ⟨hmem, hcase.2.1, hcost⟩
    · obtain ⟨hcost, hprev⟩ := hkeep x hx hcase
      rw [hcost] at hxlt ⊢
      obtain ⟨hD, hE, heq⟩ := h.label x hx hne hxlt
      rw [hprev, hdone _ (hsub hD)]
      exact ⟨hsub hD, hE, heq⟩
  · rintro b hb x hx hE
    rw [hdone b hb]
    rcases Set.mem_insert_iff.1 hb with rfl | hb
    · by_cases hxD : x ∈ insert b D
      · -- a node that was done before costs no more
        rw [hdone x hxD]
        rcases Set.mem_insert_iff.1 hxD with rfl | hxD
        · exact Nat.le_succ _
        · exact (h.mono x hxD b ha haD).trans (Nat.le_succ _)
      · by_cases hbetter' : cost b + 1 < cost x
        · exact (hbetter x hx hxD hE hbetter').1.le
        · exact (hle x hx).trans (not_lt.1 hbetter')
    · exact (hle x hx).trans (h.edge b hb x hx hE)
  · intro b hb x hx hxD
    have hba : cost b ≤ cost a := by
      rcases Set.mem_insert_iff.1 hb with rfl | hb
      · exact le_rfl
      · exact h.mono b hb a ha haD
    rw [hdone b hb]
    by_cases hcase : x ∉ insert a D ∧ E a x ∧ cost a + 1 < cost x
    · rw [(hbetter x hx hcase.1 hcase.2.1 hcase.2.2).1]
      omega
    · rw [(hkeep x hx hcase).1]
      exact hba.trans (hmin x hx fun hxD' => hxD (hsub hxD'))
  · intro b hb
    rw [hdone b hb]
    rcases Set.mem_insert_iff.1 hb with rfl | hb
    · exact hlt
    · exact h.done b hb
  · exact fun x hx => (hle x hx).trans (h.le_top x hx)

theorem walk (hx : x ∈ K) (hlt : cost x < top) : Walk E (cost x) s x := by
  induction hn : cost x using Nat.strongRecOn generalizing x with
  | ind n ih =>
    by_cases hne : x = s
    · subst hne
      rw [← hn, h.cost_source]
      exact .nil x
    · obtain ⟨hD, hE, heq⟩ := h.label x hx hne hlt
      have hprev := ih (cost (prev x)) (by omega) (h.subset hD) (h.done _ hD) rfl
      rw [← hn, heq]
      exact .concat hprev hE

/-- A path to a node leads through a node that is not done, unless the node itself is done and costs
no more. -/
theorem le_of_walk (hK : ∀ a b, E a b → b ∈ K → a ∈ K) (hw : Walk E n s x) (hx : x ∈ K) :
    (x ∈ D ∧ cost x ≤ n) ∨ ∃ y ∈ K, y ∉ D ∧ cost y ≤ n := by
  generalize hs : s = s' at hw
  induction hw with
  | nil a =>
    subst hs
    exact .inl ⟨h.source, by rw [h.cost_source]⟩
  | @concat n a b c hw hE ih =>
    rcases ih (hK b c hE hx) hs with ⟨hb, hle⟩ | ⟨y, hy, hyD, hle⟩
    · have hedge := h.edge b hb c hx hE
      by_cases hc : c ∈ D
      · exact .inl ⟨hc, by omega⟩
      · exact .inr ⟨c, hx, hc, by omega⟩
    · exact .inr ⟨y, hy, hyD, by omega⟩

/-- **If the nodes that are left have no label, there is no path to them.** -/
theorem no_walk (hK : ∀ a b, E a b → b ∈ K → a ∈ K)
    (hstuck : ∀ x ∈ K, x ∉ D → top ≤ cost x) (hx : x ∈ K) (hxD : x ∉ D) (hn : n < top) :
    ¬ Walk E n s x := by
  intro hw
  rcases h.le_of_walk hK hw hx with ⟨hD, -⟩ | ⟨y, hy, hyD, hle⟩
  · exact hxD hD
  · have := hstuck y hy hyD
    omega

/-- **If the nodes that are left have no label, the costs of the others are their distances.** -/
theorem isDist (hK : ∀ a b, E a b → b ∈ K → a ∈ K)
    (hstuck : ∀ x ∈ K, x ∉ D → top ≤ cost x) (hx : x ∈ D) : IsDist E s x (cost x) := by
  have hxK : x ∈ K := h.subset hx
  have hlt := h.done x hx
  refine ⟨h.walk hxK hlt, fun m hw => ?_⟩
  rcases h.le_of_walk hK hw hxK with ⟨-, hle⟩ | ⟨y, hy, hyD, hle⟩
  · exact hle
  · have := hstuck y hy hyD
    omega

/-- The node before is the source exactly if the cost is one. -/
theorem prev_eq_source_iff (hx : x ∈ K) (hne : x ≠ s)
    (hlt : cost x < top) : prev x = s ↔ cost x = 1 := by
  obtain ⟨hD, -, heq⟩ := h.label x hx hne hlt
  constructor
  · intro hprev
    rw [heq, hprev, h.cost_source]
  · intro hone
    by_contra hprev
    have := (h.label _ (h.subset hD) hprev (h.done _ hD)).2.2
    omega

/-- **Going back from a node one comes to the first node of a path.** -/
theorem first (hx : x ∈ K) (hne : x ≠ s) (hcost : cost x = n + 1)
    (hlt : cost x < top) : (prev^[n] x ∈ K ∧ E s (prev^[n] x) ∧ prev (prev^[n] x) = s) ∧
      Walk E n (prev^[n] x) x ∧ ∀ i < n, prev (prev^[i] x) ≠ s := by
  induction n generalizing x with
  | zero =>
    have hprev := (h.prev_eq_source_iff hx hne hlt).2 hcost
    have hE := (h.label x hx hne hlt).2.1
    rw [hprev] at hE
    exact ⟨⟨hx, hE, hprev⟩, .nil x, by simp⟩
  | succ n ih =>
    obtain ⟨hD, hE, heq⟩ := h.label x hx hne hlt
    have hprev : prev x ≠ s := fun hprev => by
      have := (h.prev_eq_source_iff hx hne hlt).1 hprev
      omega
    obtain ⟨hfirst, hw, hnot⟩ := ih (h.subset hD) hprev (by omega) (h.done _ hD)
    refine ⟨hfirst, .concat hw hE, fun i hi => ?_⟩
    cases i with
    | zero => exact hprev
    | succ i => exact hnot i (by omega)

end Labels

end Dijkstra
