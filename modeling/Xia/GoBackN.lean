import Mathlib

/-!
# Go-back-N over a channel that loses, repeats and reorders

One direction of a connection.  The sender numbers its messages from 0 on and may send any of them
again at any time; the receiver takes only the message with the expected number, and acknowledges
every packet with the number that it expects next.

The messages and acknowledgements on the way are kept as lists of which only the members matter:
`channel` replaces them by any lists of their members, so packets can get lost, arrive more than
once and in any order, but cannot be forged.

`Inv` is the invariant of the protocol.  It does not need the acknowledgements to be processed in
order: `base` may move back.
-/

namespace GoBackN

open List

structure State (α : Type) where
  /-- the messages sent so far; a message's number is its position -/
  log : List α
  /-- the last acknowledgement that the sender processed -/
  base : Nat
  /-- the number of the message that the receiver waits for -/
  expected : Nat
  /-- what the receiver has handed up -/
  delivered : List α
  /-- the messages on the way, with their numbers -/
  data : List (Nat × α)
  /-- the acknowledgements on the way -/
  acks : List Nat

variable {α : Type}

def State.empty : State α := ⟨[], 0, 0, [], [], []⟩

inductive Step : State α → State α → Prop
  | send (s : State α) (a : α) :
      Step s { s with log := s.log ++ [a], data := s.data ++ [(s.log.length, a)] }
  | resend (s : State α) (n : Nat) (a : α) (h : s.log[n]? = some a) :
      Step s { s with data := s.data ++ [(n, a)] }
  | receive (s : State α) (a : α) (h : (s.expected, a) ∈ s.data) :
      Step s { s with
        expected := s.expected + 1, delivered := s.delivered ++ [a]
        acks := s.acks ++ [s.expected + 1] }
  /-- a packet other than the expected one -/
  | discard (s : State α) : Step s { s with acks := s.acks ++ [s.expected] }
  | ack (s : State α) (n : Nat) (h : n ∈ s.acks) : Step s { s with base := n }
  | channel (s : State α) (data : List (Nat × α)) (acks : List Nat) (hdata : data ⊆ s.data)
      (hacks : acks ⊆ s.acks) : Step s { s with data, acks }

def Steps : State α → State α → Prop := Relation.ReflTransGen Step

structure Inv (s : State α) : Prop where
  delivered : s.delivered = s.log.take s.expected
  expected_le : s.expected ≤ s.log.length
  data : ∀ n a, (n, a) ∈ s.data → s.log[n]? = some a
  acks : ∀ n ∈ s.acks, n ≤ s.expected
  base_le : s.base ≤ s.expected

theorem inv_empty : Inv (State.empty : State α) :=
  ⟨rfl, Nat.le_refl _, by simp [State.empty], by simp [State.empty], Nat.le_refl _⟩

variable {s s' : State α}

theorem Inv.step (h : Inv s) (hs : Step s s') : Inv s' := by
  cases hs with
  | send a =>
    -- the log grows at its end, where nothing has been delivered yet
    have hgrow : ∀ (n : Nat) b, s.log[n]? = some b → (s.log ++ [a])[n]? = some b := by
      intro n b hn
      rw [getElem?_append_left (List.getElem?_eq_some_iff.1 hn).1, hn]
    refine ⟨?_, ?_, fun n b hmem => ?_, h.acks, h.base_le⟩
    · rw [h.delivered, take_append_of_le_length h.expected_le]
    · rw [length_append]
      exact Nat.le_add_right_of_le h.expected_le
    · rcases mem_append.1 hmem with hmem | hmem
      · exact hgrow n b (h.data n b hmem)
      · obtain ⟨rfl, rfl⟩ := Prod.mk.inj (mem_singleton.1 hmem)
        rw [getElem?_append_right (Nat.le_refl _), Nat.sub_self]
        rfl
  | resend n a hn =>
    refine ⟨h.delivered, h.expected_le, fun m b hmem => ?_, h.acks, h.base_le⟩
    rcases mem_append.1 hmem with hmem | hmem
    · exact h.data m b hmem
    · obtain ⟨rfl, rfl⟩ := Prod.mk.inj (mem_singleton.1 hmem)
      exact hn
  | receive a hmem =>
    -- the channel forges nothing: the message with the expected number is the one in the log
    have hlog := h.data s.expected a hmem
    have hlt : s.expected < s.log.length := (List.getElem?_eq_some_iff.1 hlog).1
    refine ⟨?_, hlt, h.data, fun n hn => ?_, Nat.le_succ_of_le h.base_le⟩
    · rw [h.delivered, take_add_one, hlog]
      rfl
    · rcases mem_append.1 hn with hn | hn
      · exact Nat.le_succ_of_le (h.acks n hn)
      · exact Nat.le_of_eq (mem_singleton.1 hn)
  | discard =>
    refine ⟨h.delivered, h.expected_le, h.data, fun n hn => ?_, h.base_le⟩
    rcases mem_append.1 hn with hn | hn
    · exact h.acks n hn
    · exact Nat.le_of_eq (mem_singleton.1 hn)
  -- `n` may be below the old `base`; it is not above `expected`
  | ack n hn => exact ⟨h.delivered, h.expected_le, h.data, h.acks, h.acks n hn⟩
  | channel data acks hdata hacks =>
    exact ⟨h.delivered, h.expected_le, fun n a hmem => h.data n a (hdata hmem),
      fun n hn => h.acks n (hacks hn), h.base_le⟩

/-- **The invariant holds all along.** -/
theorem Inv.steps (h : Inv s) (hs : Steps s s') : Inv s' := by
  induction hs with
  | refl => exact h
  | tail _ hstep ih => exact ih.step hstep

theorem Inv.delivered_prefix_log (h : Inv s) : s.delivered <+: s.log := by
  rw [h.delivered]
  exact take_prefix _ _

theorem Inv.lt_of_mem_data (h : Inv s) {n : Nat} {a : α} (hmem : (n, a) ∈ s.data) :
    n < s.log.length :=
  (List.getElem?_eq_some_iff.1 (h.data n a hmem)).1

/-! ### Sequences of steps -/

theorem Steps.refl (s : State α) : Steps s s := Relation.ReflTransGen.refl

theorem Steps.single (h : Step s s') : Steps s s' := Relation.ReflTransGen.single h

theorem Steps.trans {s₁ s₂ s₃ : State α} (h : Steps s₁ s₂) (h' : Steps s₂ s₃) : Steps s₁ s₃ :=
  Relation.ReflTransGen.trans h h'

theorem steps_resend (s : State α) (ms : List (Nat × α))
    (h : ∀ m ∈ ms, s.log[m.1]? = some m.2) : Steps s { s with data := s.data ++ ms } := by
  induction ms generalizing s with
  | nil =>
    rw [append_nil]
    exact .refl s
  | cons m ms ih =>
    have hrest := ih { s with data := s.data ++ [m] } fun m' hm' =>
      h m' (mem_cons_of_mem _ hm')
    rw [append_assoc] at hrest
    exact (Steps.single (.resend s m.1 m.2 (h m mem_cons_self))).trans hrest

end GoBackN
