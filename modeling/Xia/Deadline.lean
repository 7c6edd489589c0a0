import Mathlib

/-!
# One timer for many deadlines

A timer is scheduled to fire at some time, or not at all.  It serves a deadline if it fires no later
than that (`Before`).  `arm` schedules it for one more deadline, and serves those that it served
(`before_arm_iff`).

When the timer fires, the earliest deadline after `now` is searched for.  The search begins with
`now`, which stands for none found, and goes on with `earlier`.  A deadline that has been met is
served by what is found in the end (`found_earlier_self`, `Found.earlier`, `Found.before`).
-/

namespace Deadline

variable {α : Type*} [LinearOrder α] {timer : Option α} {now acc e x : α}

/-- The timer fires no later than the deadline. -/
def Before (timer : Option α) (e : α) : Prop := ∃ t, timer = some t ∧ t ≤ e

/-- The timer is scheduled for a deadline, unless it fires earlier anyway. -/
def arm (timer : Option α) (e : α) : Option α :=
  match timer with
  | none => some e
  | some t => if e ≤ t then some e else some t

theorem before_some {t : α} : Before (some t) e ↔ t ≤ e := by
  constructor
  · rintro ⟨t, ⟨⟩, h⟩
    exact h
  · exact fun h => ⟨t, rfl, h⟩

theorem not_before_none : ¬ Before none e := by
  rintro ⟨t, h, -⟩
  cases h

/-- **An armed timer serves its new deadline, and those from before.** -/
theorem before_arm_iff : Before (arm timer e) x ↔ e ≤ x ∨ Before timer x := by
  cases timer with
  | none =>
    change Before (some e) x ↔ _
    rw [before_some]
    exact (or_iff_left not_before_none).symm
  | some t =>
    rw [before_some]
    by_cases hle : e ≤ t
    · rw [arm, if_pos hle, before_some]
      exact ⟨.inl, Or.rec id hle.trans⟩
    · rw [arm, if_neg hle, before_some]
      exact ⟨.inr, Or.rec (le_of_not_ge hle).trans id⟩

/-- One step of the search for the earliest deadline after `now`. -/
def earlier (now acc e : α) : α := if now < e ∧ (e < acc ∨ acc = now) then e else acc

/-- What has been found so far serves the deadline. -/
def Found (now acc e : α) : Prop := now < acc ∧ acc ≤ e

theorem le_earlier (h : now ≤ acc) : now ≤ earlier now acc e := by
  unfold earlier
  split
  · rename_i he
    exact he.1.le
  · exact h

theorem found_earlier_self (h : now ≤ acc) (he : now < e) : Found now (earlier now acc e) e := by
  unfold earlier
  split
  · exact ⟨he, le_rfl⟩
  · rename_i hnot
    -- something was found before that is not later
    have hnot : ¬ (e < acc ∨ acc = now) := fun hor => hnot ⟨he, hor⟩
    rw [not_or, not_lt] at hnot
    exact ⟨lt_of_le_of_ne h (Ne.symm hnot.2), hnot.1⟩

theorem Found.earlier (h : Found now acc x) (e : α) : Found now (earlier now acc e) x := by
  unfold Deadline.earlier
  split
  · rename_i he
    have hlt : e < acc := he.2.resolve_right h.1.ne'
    exact ⟨he.1, hlt.le.trans h.2⟩
  · exact h

theorem Found.before (h : Found now acc e) : Before (if now < acc then some acc else none) e := by
  rw [if_pos h.1, before_some]
  exact h.2

end Deadline
