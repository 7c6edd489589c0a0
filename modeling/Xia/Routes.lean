import Mathlib

/-!
# The routes through a graph

A network is a graph with labelled nodes, some of which are entries and some of which are exits.
Its language has the words that are spelled along the paths from an entry to an exit.  A node may
have no label, or more than one.

The language does not change along a bisimulation (`Bisim.language_eq`).  `join M N` leads from the
exits of `M` to the entries of `N`, and its words are those of `M` followed by those of `N`
(`language_join`).  `skip` enters behind the entries that have no label (`language_skip`).
-/

/-- A graph with labels, entries and exits. -/
structure Network (α β : Type*) where
  edge : α → α → Prop
  label : α → List β
  entry : α → Prop
  exit : α → Prop

namespace Network

variable {α β γ : Type*}

/-- The words along the paths from a node to an exit. -/
inductive Spells (N : Network α β) : α → List β → Prop
  | exit {a : α} (h : N.exit a) : Spells N a (N.label a)
  | edge {a b : α} {w : List β} (h : N.edge a b) (hw : Spells N b w) : Spells N a (N.label a ++ w)

/-- The words along the paths from an entry to an exit. -/
def language (N : Network α β) : Language β := {w | ∃ a, N.entry a ∧ N.Spells a w}

theorem mem_language {N : Network α β} {w : List β} :
    w ∈ N.language ↔ ∃ a, N.entry a ∧ N.Spells a w := Iff.rfl

/-! ### Bisimulations -/

/-- The nodes that are related have the same labels, are both exits or none, and have edges to
related nodes; every entry is related to an entry. -/
structure Bisim (R : α → γ → Prop) (M : Network α β) (N : Network γ β) : Prop where
  label : ∀ a c, R a c → M.label a = N.label c
  exit : ∀ a c, R a c → (M.exit a ↔ N.exit c)
  forth : ∀ a c b, R a c → M.edge a b → ∃ d, N.edge c d ∧ R b d
  back : ∀ a c d, R a c → N.edge c d → ∃ b, M.edge a b ∧ R b d
  entry_forth : ∀ a, M.entry a → ∃ c, N.entry c ∧ R a c
  entry_back : ∀ c, N.entry c → ∃ a, M.entry a ∧ R a c

namespace Bisim

variable {R : α → γ → Prop} {M : Network α β} {N : Network γ β}

theorem symm (h : Bisim R M N) : Bisim (fun c a => R a c) N M where
  label c a hR := (h.label a c hR).symm
  exit c a hR := (h.exit a c hR).symm
  forth c a d hR hd := h.back a c d hR hd
  back c a b hR hb := h.forth a c b hR hb
  entry_forth := h.entry_back
  entry_back := h.entry_forth

theorem spells (h : Bisim R M N) {a : α} {c : γ} {w : List β} (hR : R a c) (hw : M.Spells a w) :
    N.Spells c w := by
  induction hw generalizing c with
  | exit ha =>
    rw [h.label _ _ hR]
    exact .exit ((h.exit _ _ hR).1 ha)
  | edge hab _ ih =>
    obtain ⟨d, hcd, hbd⟩ := h.forth _ _ _ hR hab
    rw [h.label _ _ hR]
    exact .edge hcd (ih hbd)

theorem language_le (h : Bisim R M N) : M.language ≤ N.language := by
  rintro w ⟨a, ha, hw⟩
  obtain ⟨c, hc, hR⟩ := h.entry_forth a ha
  exact ⟨c, hc, h.spells hR hw⟩

/-- **Related networks have the same language.** -/
theorem language_eq (h : Bisim R M N) : M.language = N.language :=
  le_antisymm h.language_le h.symm.language_le

end Bisim

/-! ### Joining networks -/

/-- The second network behind the first one: every exit of the first one leads to every entry of the
second one. -/
def join (M : Network α β) (N : Network γ β) : Network (α ⊕ γ) β where
  edge
    | .inl a, .inl b => M.edge a b
    | .inl a, .inr c => M.exit a ∧ N.entry c
    | .inr _, .inl _ => False
    | .inr c, .inr d => N.edge c d
  label := Sum.elim M.label N.label
  entry := Sum.elim M.entry fun _ => False
  exit := Sum.elim (fun _ => False) N.exit

section

variable {M : Network α β} {N : Network γ β}

theorem spells_join_inr {c : γ} {w : List β} : (join M N).Spells (.inr c) w ↔ N.Spells c w := by
  constructor
  · intro h
    generalize hx : (Sum.inr c : α ⊕ γ) = x at h
    induction h generalizing c with
    | exit h =>
      subst hx
      exact .exit h
    | @edge _ y _ h _ ih =>
      subst hx
      cases y with
      | inl b => exact h.elim
      | inr d => exact .edge h (ih rfl)
  · intro h
    induction h with
    | exit h => exact .exit (N := join M N) (a := .inr _) h
    | edge h _ ih => exact .edge (N := join M N) (a := .inr _) (b := .inr _) h ih

/-- A path from the first network to an exit is a path to an exit of the first network, followed by
a path from an entry of the second one. -/
theorem spells_join_inl {a : α} {w : List β} : (join M N).Spells (.inl a) w ↔
    ∃ u v c, w = u ++ v ∧ M.Spells a u ∧ N.entry c ∧ N.Spells c v := by
  constructor
  · intro h
    generalize hx : (Sum.inl a : α ⊕ γ) = x at h
    induction h generalizing a with
    | exit h =>
      subst hx
      exact h.elim
    | @edge _ y v h hv ih =>
      subst hx
      cases y with
      | inl b =>
        obtain ⟨u, v, c, rfl, hu, hc, hv⟩ := ih rfl
        exact ⟨M.label a ++ u, v, c, (List.append_assoc ..).symm, .edge h hu, hc, hv⟩
      | inr c => exact ⟨M.label a, v, c, rfl, .exit h.1, h.2, spells_join_inr.1 hv⟩
  · rintro ⟨u, v, c, rfl, hu, hc, hv⟩
    induction hu with
    | exit h =>
      exact .edge (N := join M N) (a := .inl _) (b := .inr c) ⟨h, hc⟩ (spells_join_inr.2 hv)
    | edge h _ ih =>
      rw [List.append_assoc]
      exact .edge (N := join M N) (a := .inl _) (b := .inl _) h ih

/-- **The words of the joined networks are those of the first one followed by those of the second
one.** -/
theorem language_join : (join M N).language = M.language * N.language := by
  ext w
  rw [Language.mem_mul]
  constructor
  · rintro ⟨a | c, ha, hw⟩
    · obtain ⟨u, v, c, rfl, hu, hc, hv⟩ := spells_join_inl.1 hw
      exact ⟨u, ⟨a, ha, hu⟩, v, ⟨c, hc, hv⟩, rfl⟩
    · exact ha.elim
  · rintro ⟨u, ⟨a, ha, hu⟩, v, ⟨c, hc, hv⟩, rfl⟩
    exact ⟨.inl a, ha, spells_join_inl.2 ⟨u, v, c, rfl, hu, hc, hv⟩⟩

end

/-! ### Entries without a label -/

/-- The network that is entered behind the silent entries. -/
def skip (N : Network α β) (silent : α → Prop) : Network α β where
  edge := N.edge
  label := N.label
  entry b := (N.entry b ∧ ¬ silent b) ∨ ∃ a, N.entry a ∧ silent a ∧ N.edge a b
  exit := N.exit

theorem spells_skip {N : Network α β} {silent : α → Prop} {a : α} {w : List β} :
    (N.skip silent).Spells a w ↔ N.Spells a w := by
  constructor <;> intro h
  · induction h with
    | exit h => exact .exit (N := N) h
    | edge h _ ih => exact .edge (N := N) h ih
  · induction h with
    | exit h => exact .exit (N := N.skip silent) h
    | edge h _ ih => exact .edge (N := N.skip silent) h ih

/-- **Entries without a label can be skipped** unless they are exits. -/
theorem language_skip {N : Network α β} {silent : α → Prop}
    (h : ∀ a, N.entry a → silent a → N.label a = [] ∧ ¬ N.exit a) :
    (N.skip silent).language = N.language := by
  ext w
  simp only [mem_language, spells_skip]
  constructor
  · rintro ⟨b, ⟨hb, -⟩ | ⟨a, ha, hsilent, hab⟩, hw⟩
    · exact ⟨b, hb, hw⟩
    · refine ⟨a, ha, ?_⟩
      have hstep := Spells.edge hab hw
      rwa [(h a ha hsilent).1] at hstep
  · rintro ⟨a, ha, hw⟩
    by_cases hsilent : silent a
    · cases hw with
      | exit hexit => exact absurd hexit (h a ha hsilent).2
      | @edge _ b w hab hw =>
        rw [(h a ha hsilent).1]
        exact ⟨b, .inr ⟨a, ha, hsilent, hab⟩, hw⟩
    · exact ⟨a, .inl ⟨ha, hsilent⟩, hw⟩

end Network
