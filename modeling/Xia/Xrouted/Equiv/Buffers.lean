import Xia.Xrouted.Equiv.CleanUp

/-!
# The buffers for link state advertisements

`sendLSA` and `processLSA` copy a text to a buffer of 1024 bytes.  The text of `sendLSA` grows with
the neighbours (`length_lsaText`), and the text that `processLSA` copies is what was received, which
is as long as the buffer if it is full (`length_recvMessage_lt_iff`).

`step_eq_overrun_iff` connects this with the fault of the model, and `allTries_fits_iff` is the
result for the runs of the daemon.
-/

namespace Xia

open List

namespace Xrouted

/-! ### The lengths -/

theorem ofText_cons {c : Char} (hc : c ≠ '\x00') (s : Text) :
    ofText (c :: s) = ⟨c, hc⟩ :: ofText s := by
  rw [ofText, filterMap_cons, dif_pos hc]
  rfl

theorem length_ofText {s : Text} (hs : '\x00' ∉ s) : (ofText s).length = s.length := by
  induction s with
  | nil => rfl
  | cons c s ih =>
    obtain ⟨hc, hs⟩ := not_or.1 (mem_cons.not.1 hs)
    rw [ofText_cons (Ne.symm hc), length_cons, ih hs, length_cons]

namespace RouteState

open NetworkTable StdMap

variable {st : RouteState} {e : Event}

/-- A text that is received is shorter than the buffer exactly if the buffer holds a zero. -/
theorem length_recvMessage_lt_iff {data : Text} (hdata : data.length ≤ bufferSize)
    (beyond : CString) :
    (recvMessage data beyond).length < bufferSize ↔ data.length < bufferSize ∨ '\x00' ∈ data := by
  unfold recvMessage
  split
  · rename_i hzero
    refine iff_of_true ?_ hzero
    have htake : '\x00' ∉ data.takeWhile (· ≠ '\x00') := fun hmem =>
      absurd (mem_takeWhile_imp hmem) (by simp)
    rw [length_ofText htake]
    rcases hzero with hlt | hmem
    · exact (takeWhile_sublist _).length_le.trans_lt hlt
    · refine ((takeWhile_sublist _).length_le.lt_of_ne fun heq => htake ?_).trans_le hdata
      rwa [(takeWhile_sublist _).eq_of_length heq]
  · rename_i hzero
    refine iff_of_false ?_ hzero
    rw [not_or] at hzero
    rw [length_append, length_ofText hzero.2]
    omega

/-- The length of the text that `sendLSA` makes. -/
def lsaSize (st : RouteState) : Nat :=
  7 + (formatInt st.dualRouter).length + st.myAd.length + st.myHid.length +
    (formatInt st.lsaSeq).length + (formatInt st.numNeighbors).length +
    (st.neighborTable.order.map fun k =>
      (st.neighborTable.get k).ad.length + (st.neighborTable.get k).hid.length + 2).sum

theorem length_lsaText (st : RouteState) : st.lsaText.length = st.lsaSize := by
  have hsum (l : List CString) : ((l.flatMap fun k =>
      [(st.neighborTable.get k).ad, (st.neighborTable.get k).hid]).flatMap (· ++ [caret])).length =
        (l.map fun k =>
          (st.neighborTable.get k).ad.length + (st.neighborTable.get k).hid.length + 2).sum := by
    induction l with
    | nil => rfl
    | cons k l ih =>
      rw [flatMap_cons, flatMap_append, length_append, ih, map_cons, sum_cons]
      simp
      omega
  rw [lsaText, flatMap_append, length_append, hsum, lsaSize]
  simp [ofText]
  omega

/-! ### What is copied -/

def SendsLsa (st : RouteState) (e : Event) : Prop :=
  e = .timeout ∧ st.helloSeq = st.helloLsaRatio

/-- The event is an LSA that is new and is sent on, since the computation of the routes, if there is
one, has succeeded. -/
def SendsOn (st : RouteState) (e : Event) (msg : CString) : Prop :=
  ∃ port, e = .message msg port ∧ IsLsa (parseLsa msg).destAd msg ∧
    st.myAd ≠ (parseLsa msg).destAd ∧ st.seen (parseLsa msg) = .ok false ∧
    ∃ r, (st.stored (parseLsa msg)).tick = .ok r

/-- **The daemon writes behind a buffer exactly if a text is too long for it**: an LSA of its own,
an LSA that it sends on, or a Hello. -/
theorem step_eq_overrun_iff : step st e = .error .overrun ↔
    (st.SendsLsa e ∧ ¬ st.lsaText.length + 1 ≤ bufferSize) ∨
    (∃ msg, st.SendsOn e msg ∧ ¬ msg.length + 1 ≤ bufferSize) ∨
    (e = .timeout ∧ st.helloSeq < st.helloLsaRatio ∧ ¬ st.helloText.length + 1 ≤ bufferSize) := by
  have hbroadcast (msg : CString) :
      broadcast msg = .error .overrun ↔ ¬ msg.length + 1 ≤ bufferSize :=
    broadcast_eq_error_iff.trans (and_iff_right rfl)
  rw [step_eq_error_iff, timeoutHandler_eq_error_iff, hbroadcast, hbroadcast]
  constructor
  · rintro (⟨he, ⟨hlt, h⟩ | ⟨heq, h⟩⟩ | ⟨msg, port, he, hlsa, h⟩)
    · exact .inr (.inr ⟨he, hlt, h⟩)
    · exact .inl ⟨⟨he, heq⟩, h⟩
    · obtain ⟨hmy, h | ⟨hseen, h | ⟨hr, h⟩⟩⟩ := processLsa_eq_error_iff.1 h
      · cases fault_of_seen h
      · cases ((tick_eq_error_iff (by decide)).1 h).1
      · exact .inr (.inl ⟨msg, ⟨port, he, hlsa, hmy, hseen, hr⟩, (hbroadcast msg).1 h⟩)
  · rintro (⟨⟨he, heq⟩, h⟩ | ⟨msg, ⟨port, he, hlsa, hmy, hseen, hr⟩, h⟩ | ⟨he, hlt, h⟩)
    · exact .inl ⟨he, .inr ⟨heq, h⟩⟩
    · refine .inr ⟨msg, port, he, hlsa, processLsa_eq_error_iff.2 ⟨hmy, .inr ⟨hseen, .inr ?_⟩⟩⟩
      exact ⟨hr, (hbroadcast msg).2 h⟩
    · exact .inl ⟨he, .inl ⟨hlt, h⟩⟩

/-! ### Runs -/

/-- The texts that `sendLSA` and `processLSA` copy fit in their buffers, with the zero at the end.
-/
def FitsAt (st : RouteState) (i : Input) : Prop :=
  (st.SendsLsa i.event → st.lsaText.length + 1 ≤ bufferSize) ∧
    ∀ msg, st.SendsOn i.event msg → msg.length + 1 ≤ bufferSize

/-- The neighbours leave room in the buffer whenever the daemon sends an LSA, and the data of an LSA
that it sends on are shorter than the buffer or have a zero in them. -/
def FitsWhen (st : RouteState) : Input → Prop
  | .timeout => st.helloSeq = st.helloLsaRatio → st.lsaSize + 1 ≤ bufferSize
  | .received data beyond port =>
    st.SendsOn (.message (recvMessage data beyond) port) (recvMessage data beyond) →
      data.1.length < bufferSize ∨ '\x00' ∈ data.1

theorem fitsAt_iff (i : Input) : st.FitsAt i ↔ st.FitsWhen i := by
  cases i with
  | timeout =>
    rw [FitsAt, FitsWhen, length_lsaText]
    refine ⟨fun h heq => h.1 ⟨rfl, heq⟩, fun h => ⟨fun hsends => h hsends.2, fun msg hmsg => ?_⟩⟩
    obtain ⟨port, he, -⟩ := hmsg
    cases he
  | received data beyond port =>
    rw [FitsAt, FitsWhen, ← length_recvMessage_lt_iff data.2 beyond]
    refine ⟨fun h => h.2 _, fun h => ⟨fun hsends => ?_, fun msg hmsg => ?_⟩⟩
    · cases hsends.1
    · obtain ⟨port', he, -⟩ := id hmsg
      cases he
      exact h hmsg

/-- **In a run from the start all texts fit in their buffers exactly if the neighbours leave room
whenever an LSA is sent and no LSA that is sent on fills the buffer.** -/
theorem allTries_fits_iff (myAd myHid : CString) (dualRouter : Bool) (is : List Input) :
    Machine.AllTries inputStep FitsAt (init myAd myHid dualRouter) is ↔
      Machine.AllTries inputStep FitsWhen (init myAd myHid dualRouter) is :=
  Machine.allTries_iff (I := fun _ => True) (fun _ i _ => fitsAt_iff i)
    (fun _ _ _ _ _ _ _ => trivial) trivial

/-- The text of an XID, of which only the last digit matters here. -/
def sampleXid (type : Text) (digit : Char) : Text := type ++ ':' :: List.replicate 39 '0' ++ [digit]

def sampleHello (digit : Char) : Input :=
  .received ⟨['0', '^'] ++ sampleXid ['A', 'D'] digit ++ ['^'] ++ sampleXid ['H', 'I', 'D'] digit ++
    ['^'], by simp [sampleXid, bufferSize]⟩ [] 1

def fullLsa : Input :=
  .received ⟨['1', '^', '0', '^', 'B', '^', 'H', '^', '1', '^', '1', '^', 'A', '^', 'H', '^'] ++
    List.replicate 1008 'x', by rw [length_append, length_replicate]; decide⟩ [] 1

/-- Eleven neighbours are too many for an LSA, and an LSA that fills the buffer is one byte too
long. -/
theorem not_allTries_fits_sample : ¬ Machine.AllTries inputStep FitsAt
      (init (ofText (sampleXid ['A', 'D'] 'f')) (ofText (sampleXid ['H', 'I', 'D'] 'f')) false)
      (['0', '1', '2', '3', '4', '5', '6', '7', '8', '9', 'a'].map sampleHello ++
        [.timeout, .timeout, .timeout, .timeout]) ∧
    ¬ Machine.AllTries inputStep FitsAt
      (init (ofText (sampleXid ['A', 'D'] 'f')) (ofText (sampleXid ['H', 'I', 'D'] 'f')) false)
      [fullLsa] := by
  constructor
  · intro h
    obtain ⟨⟨st, out⟩, hrun, heq, hlong⟩ : ∃ r, Machine.run inputStep
          (init (ofText (sampleXid ['A', 'D'] 'f')) (ofText (sampleXid ['H', 'I', 'D'] 'f')) false)
          (['0', '1', '2', '3', '4', '5', '6', '7', '8', '9', 'a'].map sampleHello ++
            [.timeout, .timeout, .timeout]) = .ok r ∧
        r.1.helloSeq = r.1.helloLsaRatio ∧ ¬ r.1.lsaText.length + 1 ≤ bufferSize := by
      decide +kernel
    rw [show [Input.timeout, .timeout, .timeout, .timeout] =
      [.timeout, .timeout, .timeout] ++ [.timeout] from rfl, ← append_assoc] at h
    exact hlong ((h.of_run hrun).1 ⟨rfl, heq⟩)
  · intro h
    have hfault : step (init (ofText (sampleXid ['A', 'D'] 'f'))
        (ofText (sampleXid ['H', 'I', 'D'] 'f')) false) fullLsa.event = .error .overrun := by
      decide +kernel
    rcases step_eq_overrun_iff.1 hfault with ⟨⟨he, -⟩, -⟩ | ⟨msg, hmsg, hlong⟩ | ⟨he, -⟩
    · cases he
    · exact hlong (h.1.2 msg hmsg)
    · cases he

end RouteState

end Xrouted

end Xia
