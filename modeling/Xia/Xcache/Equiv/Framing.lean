import Xia.Xcache.Framing

/-!
# What the readers pass on

A command reaches `ParseFromString` as it was written exactly if it is not empty, shorter than the
buffer and free of zero bytes (`reads_exactly_iff`).  A longer one draws in the next record, and a
zero byte ends the C string.
-/

namespace Xia

open List

namespace Xcache

/-- The records that the loop reads as they are. -/
def Framed (bytes : List UInt8) : Prop :=
  0 < bytes.length ∧ bytes.length < bufSize ∧ 0 ∉ bytes

instance (bytes : List UInt8) : Decidable (Framed bytes) := inferInstanceAs (Decidable (_ ∧ _ ∧ _))

variable {beyond : Nat → List UInt8} {bytes buffer : List UInt8} {rest socket : List ReadResult}

theorem cString_zero (bytes more beyond : List UInt8) :
    cString (bytes ++ 0 :: more) beyond = bytes.takeWhile (· ≠ 0) := by
  unfold cString
  induction bytes with
  | nil => simp
  | cons b bytes ih =>
    by_cases hb : b = 0
    · simp [hb]
    · simpa [hb] using ih

theorem takeWhile_ne_zero_eq_self_iff : bytes.takeWhile (· ≠ 0) = bytes ↔ 0 ∉ bytes := by
  rw [takeWhile_eq_self_iff]
  constructor
  · intro h hmem
    simpa using h 0 hmem
  · intro h b hb
    rw [decide_eq_true_eq]
    rintro rfl
    exact h hb

theorem controllerRead_short (hpos : 0 < bytes.length) (hlt : bytes.length < bufSize) :
    controllerRead beyond (.record bytes :: rest) = .passed (bytes.takeWhile (· ≠ 0)) rest := by
  have hmin : min bytes.length bufSize = bytes.length := by omega
  have hbuf : emptyBuf.drop bytes.length = 0 :: List.replicate (bufSize - bytes.length - 1) 0 := by
    rw [emptyBuf, drop_replicate, ← replicate_succ]
    congr 1
    omega
  simp only [controllerRead, readLoop, hmin]
  rw [if_neg (by omega), if_neg (by omega), take_of_length_le (by omega), hbuf, cString_zero,
    nil_append]

/-- The loop takes at least one result of `read` off the front. -/
theorem exists_taken_of_readLoop {i : Nat} {buf : List UInt8}
    (h : readLoop beyond i socket buf buffer = .passed bytes rest) :
    ∃ r taken, socket = r :: (taken ++ rest) := by
  induction socket generalizing i buf buffer with
  | nil => cases h
  | cons r socket ih =>
    cases r with
    | eof => cases h
    | error =>
      cases h
      exact ⟨_, [], rfl⟩
    | record b =>
      simp only [readLoop] at h
      split_ifs at h
      · obtain ⟨r', taken, rfl⟩ := ih h
        exact ⟨_, r' :: taken, rfl⟩
      · cases h
        exact ⟨_, [], rfl⟩

theorem length_lt_of_readLoop {i : Nat} {buf : List UInt8}
    (h : readLoop beyond i socket buf buffer = .passed bytes rest) :
    rest.length < socket.length := by
  obtain ⟨r, taken, rfl⟩ := exists_taken_of_readLoop h
  simp only [length_cons, length_append]
  omega

theorem controllerRead_long (hle : bufSize ≤ bytes.length) (text : List UInt8) :
    controllerRead beyond (.record bytes :: rest) ≠ .passed text rest := by
  have hmin : min bytes.length bufSize = bufSize := by omega
  intro h
  simp only [controllerRead, readLoop, hmin] at h
  rw [if_neg (by decide), if_pos trivial] at h
  -- the loop goes on with the next record, so that `rest` is not all that is left
  exact absurd (length_lt_of_readLoop h) (lt_irrefl _)

theorem controllerRead_eq_iff :
    controllerRead beyond (.record bytes :: rest) = .passed bytes rest ↔ Framed bytes := by
  by_cases hlong : bufSize ≤ bytes.length
  · refine iff_of_false (controllerRead_long hlong bytes) (fun h => ?_)
    exact absurd h.2.1 (by omega)
  · by_cases hpos : 0 < bytes.length
    · rw [controllerRead_short hpos (by omega), Outcome.passed.injEq, takeWhile_ne_zero_eq_self_iff]
      exact ⟨fun h => ⟨hpos, by omega, h.1⟩, fun h => ⟨h.2.2, rfl⟩⟩
    -- an empty record looks like the end of the connection
    · refine iff_of_false (fun h => ?_) (fun h => hpos h.1)
      have hnil : bytes = [] := length_eq_zero_iff.1 (by omega)
      subst hnil
      cases h

theorem getResponseBlocking_eq_iff :
    getResponseBlocking beyond socket = some (0, some bytes, rest) ↔
      controllerRead beyond socket = .passed bytes rest := by
  unfold getResponseBlocking controllerRead
  cases readLoop beyond 0 socket emptyBuf [] with
  | blocked => simp
  | closed rest' => simp
  | passed buffer rest' => simp

/-- **A command is read as it was written exactly if it is framed**, by the controller and by its
clients, whatever follows it on the socket and whatever lies behind the buffer. -/
theorem reads_exactly_iff (beyond : Nat → List UInt8) (bytes : List UInt8)
    (rest : List ReadResult) :
    (controllerRead beyond (.record bytes :: rest) = .passed bytes rest ∧
      getResponseBlocking beyond (.record bytes :: rest) = some (0, some bytes, rest)) ↔
      Framed bytes := by
  rw [getResponseBlocking_eq_iff, and_self]
  exact controllerRead_eq_iff

/-- The command `XCACHE_STORE` for context 0 has a zero byte, and arrives cut off. -/
theorem not_reads_exactly_zero :
    ∃ beyond, controllerRead beyond [.record [8, 1, 16, 0, 26, 1, 65]] = .passed [8, 1, 16] [] ∧
      ¬ (controllerRead beyond [.record [8, 1, 16, 0, 26, 1, 65]] =
          .passed [8, 1, 16, 0, 26, 1, 65] [] ∧
        getResponseBlocking beyond [.record [8, 1, 16, 0, 26, 1, 65]] =
          some (0, some [8, 1, 16, 0, 26, 1, 65], [])) := by
  refine ⟨fun _ => [], by decide, fun h => ?_⟩
  exact absurd h.1 (by decide)

end Xcache

end Xia
