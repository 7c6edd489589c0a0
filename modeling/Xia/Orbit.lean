import Mathlib

/-!
# Runs that end

A system with a partial step function, as in Mathlib's `StateTransition`, run from a state `a`.  The
run ends if `eval f a` is defined.

On finitely many states a run ends exactly if it does not come back to a state it has been in
(`dom_iff_not_circles`).  `Abstracts f g rel final` says that a step of `f` stands for one or more
steps of `g`, and that `g` ends where `f` has no step; then the runs of `g` end exactly if the runs
of `f` do not circle (`Abstracts.dom_iff_not_circles`).
-/

namespace Orbit

open StateTransition Relation

variable {σ τ : Type*} {f : σ → Option σ} {g : τ → Option τ} {a : σ} {b : τ}

/-- The run comes back to a state. -/
def Circles (f : σ → Option σ) (a : σ) : Prop := ∃ b, Reaches f a b ∧ Reaches₁ f b b

theorem not_dom_of_endless {P : σ → Prop} (hP : ∀ x, P x → ∃ y, P y ∧ Reaches₁ f x y) (ha : P a) :
    ¬ (eval f a).Dom := by
  intro hdom
  -- the induction is on the steps that are left, and covers all states that are still to come
  have hnone : ∀ y, Reaches f a y → ¬ P y := by
    refine evalInduction (C := fun x => ∀ y, Reaches f x y → ¬ P y) (Part.get_mem hdom) ?_
    intro x _ ih y hxy hy
    obtain ⟨z, hz, hyz⟩ := hP y hy
    obtain ⟨x', hx', hx'z⟩ := TransGen.head'_iff.1 (TransGen.trans_right hxy hyz)
    exact ih x' hx' z hx'z hz
  exact hnone a .refl ha

theorem dom_of_step {x : σ} (h : ∀ y, f x = some y → (eval f y).Dom) : (eval f x).Dom := by
  cases hx : f x with
  | none => exact (mem_eval.2 ⟨.refl, hx⟩).1
  | some y =>
    rw [reaches_eval (ReflTransGen.single hx)]
    exact h y hx

theorem dom_of_measure {P : σ → Prop} (μ : σ → Nat)
    (hstep : ∀ x y, P x → f x = some y → P y ∧ μ y < μ x) (ha : P a) : (eval f a).Dom := by
  induction hn : μ a using Nat.strongRecOn generalizing a with
  | ind n ih =>
    refine dom_of_step fun y hy => ?_
    obtain ⟨hP, hlt⟩ := hstep a y ha hy
    exact ih (μ y) (hn ▸ hlt) hP rfl

theorem not_circles_of_dom (h : (eval f a).Dom) : ¬ Circles f a := by
  rintro ⟨b, hab, hbb⟩
  rw [reaches_eval hab] at h
  exact not_dom_of_endless (P := (· = b)) (fun x hx => ⟨b, rfl, hx ▸ hbb⟩) rfl h

/-- **On finitely many states a run ends exactly if it does not circle.** -/
theorem dom_iff_not_circles {S : Set σ} (hS : S.Finite)
    (hclosed : ∀ x ∈ S, ∀ y, f x = some y → y ∈ S) (ha : a ∈ S) :
    (eval f a).Dom ↔ ¬ Circles f a := by
  refine ⟨not_circles_of_dom, fun hno => ?_⟩
  have hsub : ∀ x, Reaches f a x → x ∈ S := by
    intro x hx
    induction hx with
    | refl => exact ha
    | tail _ hy ih => exact hclosed _ ih _ hy
  have hfinite : Finite {x // Reaches f a x} := (hS.subset hsub).to_subtype
  -- "comes later" is a strict order on the states that are reached
  let later : {x // Reaches f a x} → {x // Reaches f a x} → Prop := fun y x => Reaches₁ f x y
  have : IsTrans _ later := ⟨fun x y z hxy hyz => TransGen.trans hyz hxy⟩
  have : Std.Irrefl later := ⟨fun x hx => hno ⟨x, x.2, hx⟩⟩
  have hwf : WellFounded later := Finite.wellFounded_of_trans_of_irrefl later
  have hdom : ∀ x : {x // Reaches f a x}, (eval f x.1).Dom := by
    intro x
    induction x using hwf.induction with
    | _ x ih =>
      refine dom_of_step fun y hy => ?_
      exact ih ⟨y, x.2.tail hy⟩ (TransGen.single hy)
  exact hdom ⟨a, .refl⟩

/-- A step of `f` stands for one or more steps of `g`, and where `f` has no step `g` ends, in a
state that `final` relates to it.  (In Mathlib's `Respects` it ends at once.) -/
def Abstracts (f : σ → Option σ) (g : τ → Option τ) (rel final : σ → τ → Prop) : Prop :=
  ∀ a b, rel a b → match f a with
    | some a' => ∃ b', rel a' b' ∧ Reaches₁ g b b'
    | none => ∃ d ∈ eval g b, final a d

namespace Abstracts

variable {rel final : σ → τ → Prop} {a' : σ}

theorem step (h : Abstracts f g rel final) (hab : rel a b) (ha : f a = some a') :
    ∃ b', rel a' b' ∧ Reaches₁ g b b' := by
  have hstep := h a b hab
  rwa [ha] at hstep

theorem reaches (h : Abstracts f g rel final) (hab : rel a b) (ha : Reaches f a a') :
    ∃ b', rel a' b' ∧ Reaches g b b' := by
  induction ha with
  | refl => exact ⟨b, hab, .refl⟩
  | tail _ hy ih =>
    obtain ⟨c, hc, hbc⟩ := ih
    obtain ⟨d, hd, hcd⟩ := h.step hc hy
    exact ⟨d, hd, hbc.trans hcd.to_reflTransGen⟩

theorem exists_mem_eval (h : Abstracts f g rel final) (hab : rel a b) (ha : a' ∈ eval f a) :
    ∃ d ∈ eval g b, final a' d := by
  obtain ⟨hreach, hnone⟩ := mem_eval.1 ha
  obtain ⟨b', hab', hbb'⟩ := h.reaches hab hreach
  have hend := h a' b' hab'
  rw [hnone] at hend
  rwa [reaches_eval hbb']

theorem exists_final (h : Abstracts f g rel final) {d : τ} (hab : rel a b) (hd : d ∈ eval g b) :
    ∃ c ∈ eval f a, final c d := by
  -- a step of the abstraction stands for several steps of the system, so the induction is over all
  -- that are left
  have hlater : ∀ e, Reaches g b e → ∀ a, rel a e → ∃ c ∈ eval f a, final c d := by
    refine evalInduction (C := fun b => ∀ e, Reaches g b e → ∀ a, rel a e →
      ∃ c ∈ eval f a, final c d) hd ?_
    intro b hb ih e hbe a hae
    cases ha : f a with
    | none =>
      have hend := h a e hae
      rw [ha] at hend
      obtain ⟨d', hd', hfinal⟩ := hend
      rw [← reaches_eval hbe] at hd'
      exact ⟨a, mem_eval.2 ⟨.refl, ha⟩, Part.mem_unique hd' hb ▸ hfinal⟩
    | some a' =>
      obtain ⟨e', hae', hee'⟩ := h.step hae ha
      obtain ⟨b', hbb', hbe'⟩ := TransGen.head'_iff.1 (TransGen.trans_right hbe hee')
      rw [reaches_eval (ReflTransGen.single ha)]
      exact ih b' hbb' e' hbe' a' hae'
  exact hlater b .refl a hab

/-- **The runs of a system end exactly if those of its finite abstraction do not circle.** -/
theorem dom_iff_not_circles (h : Abstracts f g rel final) {S : Set σ} (hS : S.Finite)
    (hclosed : ∀ x ∈ S, ∀ y, f x = some y → y ∈ S) (ha : a ∈ S) (hab : rel a b) :
    (eval g b).Dom ↔ ¬ Circles f a := by
  rw [← Orbit.dom_iff_not_circles hS hclosed ha]
  constructor
  · intro hdom
    obtain ⟨c, hc, -⟩ := h.exists_final hab (Part.get_mem hdom)
    exact hc.1
  · intro hdom
    obtain ⟨d, hd, -⟩ := h.exists_mem_eval hab (Part.get_mem hdom)
    exact hd.1

end Abstracts

end Orbit
