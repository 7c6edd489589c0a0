import Xia.Blit
import Xia.Click.Basic

/-!
# Accesses to buffers

A buffer is the list of its bytes.  An access that is not inside it is a fault.
-/

namespace Xia

/-- `memcpy` from a buffer. -/
def readAt (buf : List UInt8) (off n : Nat) : Result (List UInt8) :=
  if off + n ≤ buf.length then .ok ((buf.drop off).take n) else .error .outOfBounds

/-- `memcpy` into a buffer. -/
def writeAt (off : Nat) (src buf : List UInt8) : Result (List UInt8) :=
  if off + src.length ≤ buf.length then .ok (Blit.blit off src buf) else .error .outOfBounds

variable {buf src : List UInt8} {off n : Nat}

theorem readAt_eq_ok {l : List UInt8} :
    readAt buf off n = .ok l ↔ off + n ≤ buf.length ∧ l = (buf.drop off).take n := by
  unfold readAt
  split
  · rename_i h
    simp [h, eq_comm]
  · rename_i h
    simp [h]

theorem writeAt_append (src a b : List UInt8) (h : src.length ≤ b.length) :
    writeAt a.length src (a ++ b) = .ok (a ++ src ++ b.drop src.length) := by
  rw [writeAt, if_pos (by simpa using h), Blit.blit_append]

theorem writeAt_singleton_append (b : UInt8) (rest : List UInt8) (h : off < buf.length) :
    writeAt off [b] (buf ++ rest) = .ok (buf.set off b ++ rest) := by
  have hboth : off < (buf ++ rest).length := by
    rw [List.length_append]
    omega
  rw [writeAt, if_pos (by simpa using hboth), Blit.blit_singleton b hboth,
    List.set_append_left _ _ h]

theorem writeAt_eq_ok {l : List UInt8} :
    writeAt off src buf = .ok l ↔ off + src.length ≤ buf.length ∧ l = Blit.blit off src buf := by
  unfold writeAt
  split
  · rename_i h
    simp [h, eq_comm]
  · rename_i h
    simp [h]

theorem length_of_writeAt {l : List UInt8} (h : writeAt off src buf = .ok l) :
    off + src.length ≤ buf.length ∧ l.length = buf.length := by
  obtain ⟨hle, rfl⟩ := writeAt_eq_ok.1 h
  exact ⟨hle, Blit.length_blit hle⟩

end Xia
