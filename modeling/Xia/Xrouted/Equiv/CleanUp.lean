import Xia.Xrouted.Equiv.Flooding

/-!
# The abnormal entries

The loop at the beginning of `calcShortestPath` erases an entry and then advances the iterator that
points to it.  So it is sound exactly for a table without abnormal entries (`cleansUp_iff`), in
which it has nothing to do, and `step_eq_erasedIterator_iff` says that the daemon fails in this way
at no other place.

Abnormal entries come from others: an LSA can have no neighbours, and an AD that is only named by
its neighbours gets an entry by the computation itself, which the next one finds.
-/

namespace Xia

open List

namespace Xrouted

namespace NetworkTable

open Ownership StdMap

variable {t : NetworkTable}

/-- The loop erases the abnormal entries, and no others, and does nothing with an entry after it was
erased. -/
structure CleansUp (t : NetworkTable) : Prop where
  removes : ∀ k, .give k ∈ t.cleanUpTrace ↔ k ∈ t ∧ (t.get k).abnormal
  affine : Affine t.cleanUpTrace

theorem give_mem_cleanUpTrace {k : CString} :
    .give k ∈ t.cleanUpTrace ↔ k ∈ t ∧ (t.get k).abnormal := by
  rw [cleanUpTrace, mem_flatMap]
  constructor
  · rintro ⟨a, ha, hgive⟩
    rw [mem_cons, mem_append, mem_singleton] at hgive
    rcases hgive with hgive | hgive | hgive
    · cases hgive
    · split at hgive
      · rename_i habnormal
        cases mem_singleton.1 hgive
        exact ⟨mem_order.1 ha, habnormal⟩
      · cases hgive
    · cases hgive
  · rintro ⟨hk, habnormal⟩
    refine ⟨k, mem_order.2 hk, ?_⟩
    rw [if_pos habnormal]
    exact mem_cons_of_mem _ mem_cons_self

/-- **The loop is sound exactly if it has nothing to do.** -/
theorem cleansUp_iff : t.CleansUp ↔ ∀ k ∈ t, (t.get k).abnormal = false := by
  constructor
  · intro h k hk
    by_contra habnormal
    rw [Bool.not_eq_false] at habnormal
    obtain ⟨pre, post, hsplit⟩ := append_of_mem (mem_order.2 hk)
    have haffine := h.affine k
    rw [cleanUpTrace, hsplit, flatMap_append, flatMap_cons, if_pos habnormal] at haffine
    change AffineAt k (_ ++ .use k :: .give k :: .use k :: _) at haffine
    rw [append_cons] at haffine
    exact not_affineAt_of_give _ _ (show (Act.use k).obj = k from rfl) haffine
  · intro h
    refine ⟨fun k => give_mem_cleanUpTrace, fun k => ?_⟩
    have hnot : .give k ∉ t.cleanUpTrace := by
      intro hmem
      obtain ⟨hk, habnormal⟩ := give_mem_cleanUpTrace.1 hmem
      rw [h k hk] at habnormal
      cases habnormal
    rw [← append_nil t.cleanUpTrace]
    exact affineAt_append_of_not_give hnot .nil

theorem filterAbnormal_eq_error_iff {f : Fault} :
    t.filterAbnormal = .error f ↔ f = .erasedIterator ∧ ¬ t.CleansUp := by
  have hloop (l : List CString) {f : Fault}
      (h : (l.forM fun k => if (t.get k).abnormal then .error .erasedIterator else .ok ()) =
        (.error f : Except Fault Unit)) : f = .erasedIterator := by
    induction l with
    | nil => cases h
    | cons k l ih =>
      by_cases hk : (t.get k).abnormal = true
      · simpa [List.forM, hk, bind, Except.bind, eq_comm] using h
      · exact ih (by simpa [List.forM, hk, bind, Except.bind] using h)
  rw [cleansUp_iff, ← filterAbnormal_eq_ok]
  cases hfilter : t.filterAbnormal with
  | ok u => simp
  | error g =>
    rw [hloop _ hfilter]
    simp [eq_comm]

end NetworkTable

namespace RouteState

open NetworkTable StdMap

variable {st : RouteState} {e : Event} {t : NetworkTable} {msg : CString}
variable {f : Fault}

/-! ### When the routes are computed -/

def lsaTable (st : RouteState) (lsa : Lsa) : NetworkTable :=
  (st.networkTable.erase lsa.destAd).insert lsa.destAd lsa.entry

/-- The event is an LSA that is new and makes the daemon compute the routes on the table `t`. -/
def Computes (st : RouteState) (e : Event) (t : NetworkTable) : Prop :=
  ∃ msg port, e = .message msg port ∧ IsLsa (parseLsa msg).destAd msg ∧
    st.myAd ≠ (parseLsa msg).destAd ∧ st.seen (parseLsa msg) = .ok false ∧
    st.calcDijkstraTicks + 1 = calcDijkstraInterval ∧ t = st.lsaTable (parseLsa msg)

/-! ### Where the daemon fails -/

theorem broadcast_eq_error_iff :
    broadcast msg = .error f ↔ f = .overrun ∧ ¬ msg.length + 1 ≤ bufferSize := by
  unfold broadcast
  split
  · rename_i hlt
    exact iff_of_false nofun fun h => h.2 hlt
  · rename_i hge
    rw [Except.error.injEq, eq_comm]
    exact (and_iff_left hge).symm

theorem fault_of_mainLoop {fuel : Nat} {table : NetworkTable}
    (h : mainLoop fuel table t = .error f) : f = .endless := by
  induction fuel generalizing table t with
  | zero =>
    cases h
    rfl
  | succ fuel ih =>
    unfold mainLoop at h
    split at h
    · cases h
    · dsimp only at h
      split at h
      · cases h
      · exact ih h

theorem fault_of_seen {lsa : Lsa} (h : st.seen lsa = .error f) : f = .overflow := by
  unfold seen at h
  split at h
  · cases h
  · split at h
    · rcases bind_eq_error.1 h with h | ⟨d, -, h⟩
      · unfold subInt at h
        split at h
        · cases h
        · cases h
          rfl
      · cases h
    · cases h

theorem calcShortestPath_eq_error_iff (hf : f ≠ .endless) :
    st.calcShortestPath = .error f ↔ f = .erasedIterator ∧ ¬ st.networkTable.CleansUp := by
  rw [← filterAbnormal_eq_error_iff, calcShortestPath, bind_eq_error]
  refine ⟨fun h => h.resolve_right ?_, .inl⟩
  rintro ⟨-, -, h⟩
  rcases bind_eq_error.1 h with h | ⟨⟨complete, t⟩, -, h⟩
  · exact hf (fault_of_mainLoop h)
  · dsimp only at h
    split at h <;> cases h

theorem tick_eq_error_iff (hf : f ≠ .endless) : st.tick = .error f ↔
    f = .erasedIterator ∧ st.calcDijkstraTicks + 1 = calcDijkstraInterval ∧
      ¬ st.networkTable.CleansUp := by
  unfold tick
  dsimp only
  split
  · rename_i hticks
    rw [bind_eq_error, calcShortestPath_eq_error_iff hf, and_iff_right hticks]
    refine ⟨fun h => h.resolve_right ?_, .inl⟩
    rintro ⟨st', -, h⟩
    cases h
  · rename_i hticks
    exact iff_of_false nofun fun h => hticks h.2.1

def stored (st : RouteState) (lsa : Lsa) : RouteState :=
  { st.markDualRouter lsa with networkTable := st.lsaTable lsa }

theorem markDualRouter_eq (st : RouteState) (lsa : Lsa) : st.markDualRouter lsa =
      { st with dualRouterAd := if lsa.isDualRouter = 1 then lsa.destAd else st.dualRouterAd } := by
  unfold markDualRouter
  split <;> rfl

theorem stored_ticks (lsa : Lsa) : (st.stored lsa).calcDijkstraTicks = st.calcDijkstraTicks := by
  rw [stored, markDualRouter_eq]

theorem markDualRouter_seen (lsa lsa' : Lsa) :
    (st.markDualRouter lsa).seen lsa' = st.seen lsa' := by
  rw [markDualRouter_eq]
  rfl

theorem processLsa_of_ne (hmy : st.myAd ≠ (parseLsa msg).destAd) : st.processLsa msg = (do
      let seen ← st.seen (parseLsa msg)
      if seen then return (st.markDualRouter (parseLsa msg), [])
      else (st.markDualRouter (parseLsa msg)).acceptLsa msg (parseLsa msg)) := by
  unfold processLsa
  dsimp only
  rw [markDualRouter_myAd, if_neg hmy, markDualRouter_seen]

theorem processLsa_of_not_seen (hmy : st.myAd ≠ (parseLsa msg).destAd)
    (hseen : st.seen (parseLsa msg) = .ok false) : st.processLsa msg = (do
      let (st, out) ← (st.stored (parseLsa msg)).tick
      let sent ← broadcast msg
      return (st, out ++ sent)) := by
  rw [processLsa_of_ne hmy, hseen, stored, lsaTable, markDualRouter_eq]
  rfl

/-- `processLSA` fails before the LSA is stored, when the routes are computed, or when it is sent
on. -/
theorem processLsa_eq_error_iff : st.processLsa msg = .error f ↔
    st.myAd ≠ (parseLsa msg).destAd ∧ (st.seen (parseLsa msg) = .error f ∨
      st.seen (parseLsa msg) = .ok false ∧ ((st.stored (parseLsa msg)).tick = .error f ∨
        (∃ r, (st.stored (parseLsa msg)).tick = .ok r) ∧ broadcast msg = .error f)) := by
  by_cases hmy : st.myAd = (parseLsa msg).destAd
  · refine iff_of_false ?_ fun h => h.1 hmy
    unfold processLsa
    dsimp only
    rw [markDualRouter_myAd, if_pos hmy]
    nofun
  rw [and_iff_right hmy]
  cases hseen : st.seen (parseLsa msg) with
  | error g =>
    rw [processLsa_of_ne hmy, hseen]
    simp [bind, Except.bind]
  | ok seen =>
    cases seen with
    | true =>
      rw [processLsa_of_ne hmy, hseen]
      simp [bind, Except.bind, pure, Except.pure]
    | false =>
      rw [processLsa_of_not_seen hmy hseen, bind_eq_error]
      constructor
      · rintro (h | ⟨r, hr, h⟩)
        · exact .inr ⟨rfl, .inl h⟩
        · rcases bind_eq_error.1 h with h | ⟨sent, -, h⟩
          · exact .inr ⟨rfl, .inr ⟨⟨r, hr⟩, h⟩⟩
          · cases h
      · rintro (h | ⟨-, h | ⟨⟨r, hr⟩, h⟩⟩)
        · cases h
        · exact .inl h
        · exact .inr ⟨r, hr, bind_eq_error.2 (.inl h)⟩

theorem timeoutHandler_eq_error_iff : st.timeoutHandler = .error f ↔
    (st.helloSeq < st.helloLsaRatio ∧ broadcast st.helloText = .error f) ∨
      (st.helloSeq = st.helloLsaRatio ∧ broadcast st.lsaText = .error f) := by
  unfold timeoutHandler
  split
  · rename_i hlt
    rw [bind_eq_error]
    constructor
    · rintro (h | ⟨sent, -, h⟩)
      · exact .inl ⟨hlt, h⟩
      · cases h
    · rintro (⟨-, h⟩ | ⟨heq, -⟩)
      · exact .inl h
      · omega
  · rename_i hge
    split
    · rename_i heq
      rw [bind_eq_error, sendLsa, bind_eq_error]
      constructor
      · rintro ((h | ⟨sent, -, h⟩) | ⟨r, -, h⟩)
        · exact .inr ⟨heq, h⟩
        · cases h
        · cases h
      · rintro (⟨hlt, -⟩ | ⟨-, h⟩)
        · exact absurd hlt hge
        · exact .inl (.inl h)
    · rename_i hne
      refine iff_of_false nofun ?_
      rintro (⟨hlt, -⟩ | ⟨heq, -⟩)
      · exact hge hlt
      · exact hne heq

theorem step_eq_error_iff : step st e = .error f ↔ (e = .timeout ∧ st.timeoutHandler = .error f) ∨
      ∃ msg port, e = .message msg port ∧ IsLsa (parseLsa msg).destAd msg ∧
        st.processLsa msg = .error f := by
  constructor
  · intro h
    cases e with
    | timeout => exact .inl ⟨rfl, h⟩
    | message msg port =>
      simp only [step] at h
      split at h
      · cases h
      · rename_i type rest hfield
        split at h
        · cases h
        · split at h
          · rename_i htype
            exact .inr ⟨msg, port, rfl, ⟨⟨type, rest, hfield, htype⟩, rfl⟩, h⟩
          · split at h <;> cases h
  · rintro (⟨rfl, h⟩ | ⟨msg, port, rfl, hlsa, h⟩)
    · exact h
    · rw [step_lsa hlsa, h]

/-- **The daemon uses an erased iterator exactly if it computes the routes on a table with an
abnormal entry.** -/
theorem step_eq_erasedIterator_iff :
    step st e = .error .erasedIterator ↔ ∃ t, st.Computes e t ∧ ¬ t.CleansUp := by
  have hbroadcast (msg : CString) : broadcast msg ≠ .error .erasedIterator := by
    intro h
    cases (broadcast_eq_error_iff.1 h).1
  rw [step_eq_error_iff, timeoutHandler_eq_error_iff]
  constructor
  · rintro (⟨-, ⟨-, h⟩ | ⟨-, h⟩⟩ | ⟨msg, port, rfl, hlsa, h⟩)
    · exact absurd h (hbroadcast _)
    · exact absurd h (hbroadcast _)
    · obtain ⟨hmy, h | ⟨hseen, h | ⟨-, h⟩⟩⟩ := processLsa_eq_error_iff.1 h
      · cases fault_of_seen h
      · obtain ⟨-, hticks, hclean⟩ := (tick_eq_error_iff (by decide)).1 h
        rw [stored_ticks] at hticks
        exact ⟨_, ⟨msg, port, rfl, hlsa, hmy, hseen, hticks, rfl⟩, hclean⟩
      · exact absurd h (hbroadcast _)
  · rintro ⟨t, ⟨msg, port, rfl, hlsa, hmy, hseen, hticks, rfl⟩, hclean⟩
    refine .inr ⟨msg, port, rfl, hlsa, processLsa_eq_error_iff.2 ⟨hmy, .inr ⟨hseen, .inl ?_⟩⟩⟩
    exact (tick_eq_error_iff (by decide)).2 ⟨rfl, by rw [stored_ticks, hticks], hclean⟩

/-! ### Runs -/

/-- If the event makes the daemon compute the routes, the first loop does what it is for, and the
daemon uses no erased iterator. -/
def CleansUpAt (st : RouteState) (e : Event) : Prop :=
  (∀ t, st.Computes e t → t.CleansUp) ∧ step st e ≠ .error .erasedIterator

/-- **In a run from the start all computations are sound exactly if each of them finds a table
without abnormal entries.** -/
theorem allTries_cleansUpAt_iff (myAd myHid : CString) (dualRouter : Bool) (es : List Event) :
    Machine.AllTries step CleansUpAt (init myAd myHid dualRouter) es ↔ Machine.AllTries step
        (fun st e => ∀ t, st.Computes e t → ∀ k ∈ t, (t.get k).abnormal = false)
        (init myAd myHid dualRouter) es := by
  refine Machine.allTries_iff (I := fun _ => True) (fun st e _ => ?_) (fun _ _ _ _ _ _ _ => trivial)
    trivial
  rw [CleansUpAt, ne_eq, step_eq_erasedIterator_iff]
  constructor
  · exact fun h t ht => cleansUp_iff.1 (h.1 t ht)
  · refine fun h => ⟨fun t ht => cleansUp_iff.2 (h t ht), ?_⟩
    rintro ⟨t, ht, hclean⟩
    exact hclean (cleansUp_iff.2 (h t ht))

/-- A Hello from the AD `N`, of which nothing is heard after that. -/
def helloFromN : Event := .message (ofText ['0', '^', 'N', '^', 'H', '^']) 1

/-- An LSA from the AD `B`, which is next to `A`. -/
def lsaFromB (seq : Char) : Event :=
  .message (ofText
    ['1', '^', '0', '^', 'B', '^', 'H', '^', seq, '^', '1', '^', 'A', '^', 'H', '^']) 1

/-- The fourth LSA makes the router `A` compute its routes, by which `N` gets an entry.  The eighth
one makes it erase that entry. -/
theorem not_allTries_cleansUpAt_hello :
    ¬ Machine.AllTries step CleansUpAt (init (ofText ['A']) (ofText ['H']) false)
      (helloFromN :: ['1', '2', '3', '4', '5', '6', '7', '8'].map lsaFromB) := by
  intro h
  obtain ⟨⟨st, out⟩, hrun, hstep⟩ : ∃ r, Machine.run step (init (ofText ['A']) (ofText ['H']) false)
        (helloFromN :: ['1', '2', '3', '4', '5', '6', '7'].map lsaFromB) = .ok r ∧
      step r.1 (lsaFromB '8') = .error .erasedIterator := by decide +kernel
  have hlast : Machine.AllTries step CleansUpAt (init (ofText ['A']) (ofText ['H']) false)
      ((helloFromN :: ['1', '2', '3', '4', '5', '6', '7'].map lsaFromB) ++ [lsaFromB '8']) := h
  exact (hlast.of_run hrun).2 hstep

end RouteState

end Xrouted

end Xia
