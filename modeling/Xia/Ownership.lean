import Mathlib

/-!
# Objects that are given away

A trace lists what a program does with its objects, in order: it uses them, and it gives them away
(by freeing them or by passing them on).  After that an object belongs to somebody else.

`Affine t` says that nothing is done with an object after it was given away, and `GivenOnce o t`
that `o` is given away exactly once and not touched afterwards.
-/

namespace Ownership

open List

variable {ι : Type}

/-- One thing that is done with an object. -/
inductive Act (ι : Type) where
  | use (o : ι)
  | give (o : ι)
deriving DecidableEq

def Act.obj : Act ι → ι
  | use o | give o => o

/-- Nothing is done with `o` after it was given away. -/
def AffineAt (o : ι) (t : List (Act ι)) : Prop := t.Pairwise fun a b => a = .give o → b.obj ≠ o

/-- Nothing is done with any object after it was given away. -/
def Affine (t : List (Act ι)) : Prop := ∀ o, AffineAt o t

/-- `o` is given away exactly once and not touched afterwards. -/
def GivenOnce [DecidableEq ι] (o : ι) (t : List (Act ι)) : Prop :=
  t.count (.give o) = 1 ∧ AffineAt o t

instance [DecidableEq ι] (o : ι) (t : List (Act ι)) : Decidable (AffineAt o t) :=
  inferInstanceAs (Decidable (List.Pairwise _ _))

instance [DecidableEq ι] (o : ι) (t : List (Act ι)) : Decidable (GivenOnce o t) :=
  inferInstanceAs (Decidable (_ ∧ _))

variable {o : ι} {t t' : List (Act ι)}

theorem affineAt_append_of_not_give (h : .give o ∉ t) (h' : AffineAt o t') :
    AffineAt o (t ++ t') := by
  refine pairwise_append.2 ⟨?_, h', fun a ha b _ hgive => ?_⟩
  · exact pairwise_of_forall_mem_list fun a ha b _ hgive => absurd (hgive ▸ ha) h
  · exact absurd (hgive ▸ ha) h

theorem not_affineAt_of_give (t t' : List (Act ι)) {a : Act ι} (ha : a.obj = o) :
    ¬ AffineAt o (t ++ .give o :: a :: t') := by
  intro h
  have hcons := (pairwise_append.1 h).2.1
  exact rel_of_pairwise_cons hcons mem_cons_self rfl ha

theorem givenOnce_append_give [DecidableEq ι] (h : .give o ∉ t) : GivenOnce o (t ++ [.give o]) := by
  refine ⟨?_, affineAt_append_of_not_give h (pairwise_singleton _ _)⟩
  rw [count_append, count_eq_zero_of_not_mem h, count_singleton_self]

end Ownership
