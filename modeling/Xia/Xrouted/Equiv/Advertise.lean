import Xia.Dagaddr.Equiv.Text
import Xia.Xrouted.Equiv.Buffers

/-!
# Link state advertisements arrive as they were sent

`parseLsa_lsaText`: the scanner of `processLSA` reads from the text of `sendLSA` what it was made
of.  It needs that the neighbours are counted, which is an invariant of a router that has heard
nothing but Hellos (`Counted`), and that no field has the delimiter in it.

`lsa_arrives` says what another router has for the AD once it has accepted the LSA.
-/

namespace Xia

open List Option AList

namespace Xrouted

/-! ### Fields -/

variable {f s : CString}

theorem nextField_append (hf : caret ∉ f) : nextField (f ++ caret :: s) = some (f, s) := by
  have hall : ∀ c ∈ f, decide (c ≠ caret) = true := fun c hc =>
    decide_eq_true fun h => hf (h ▸ hc)
  rw [nextField, if_pos (by simp), takeWhile_append_of_pos hall, dropWhile_append_of_pos hall]
  simp

theorem readField_append (hf : caret ∉ f) (value : CString) :
    readField (f ++ caret :: s) value = (f, s) := by
  rw [readField, nextField_append hf, getD_some]

theorem caret_not_mem_readField (s : CString) {value : CString} (hvalue : caret ∉ value) :
    caret ∉ (readField s value).1 := by
  unfold readField nextField
  split
  · exact fun hmem => absurd (mem_takeWhile_imp hmem) (by simp)
  · exact hvalue

/-! ### Numbers -/

theorem map_val_ofText {s : Text} (hs : '\x00' ∉ s) : (ofText s).map Subtype.val = s := by
  induction s with
  | nil => rfl
  | cons c s ih =>
    obtain ⟨hc, hs⟩ := not_or.1 (mem_cons.not.1 hs)
    rw [ofText_cons (Ne.symm hc), map_cons, ih hs]

theorem formatInt_of_nonneg {n : Int} (hn : 0 ≤ n) :
    formatInt n = ofText (XiaPath.decimal n.toNat) := by
  rw [formatInt, if_neg (by omega), nil_append, show n.natAbs = n.toNat by omega]

/-- **A number is read as it was printed.** -/
theorem atoi_formatInt {n : Int} (hlow : 0 ≤ n) (hhigh : n < 2 ^ 31) : atoi (formatInt n) = n := by
  rw [formatInt_of_nonneg hlow, atoi, map_val_ofText (XiaPath.not_mem_decimal rfl _),
    Dagaddr.sscanfInt_decimal (by omega), getD_some, Int.toNat_of_nonneg hlow]

theorem caret_not_mem_formatInt {n : Int} (hn : 0 ≤ n) : caret ∉ formatInt n := by
  rw [formatInt_of_nonneg hn]
  intro hmem
  have hval := List.mem_map_of_mem (f := Subtype.val) hmem
  rw [map_val_ofText (XiaPath.not_mem_decimal rfl _)] at hval
  exact XiaPath.not_mem_decimal (c := '^') rfl _ hval

namespace RouteState

open NetworkTable StdMap

variable {st st' : RouteState} {out : List Output}

/-! ### A router that has only heard Hellos -/

/-- The neighbours are counted, and no field of an LSA has the delimiter in it. -/
structure Counted (st : RouteState) : Prop where
  numNeighbors : st.numNeighbors = st.neighborTable.keys.length
  ad : ∀ k ∈ st.neighborTable, (st.neighborTable.get k).ad = k ∧ caret ∉ k
  hid : ∀ k ∈ st.neighborTable, caret ∉ (st.neighborTable.get k).hid
  lsaSeq : 0 ≤ st.lsaSeq ∧ st.lsaSeq < maxSeqnum
  dualRouter : st.dualRouter = 0 ∨ st.dualRouter = 1
  myAd : caret ∉ st.myAd
  myHid : caret ∉ st.myHid

theorem counted_init {myAd myHid : CString} (had : caret ∉ myAd) (hhid : caret ∉ myHid)
    (dualRouter : Bool) : (init myAd myHid dualRouter).Counted where
  numNeighbors := rfl
  ad := nofun
  hid := nofun
  lsaSeq := ⟨le_rfl, show (0 : Int) < maxSeqnum by decide⟩
  dualRouter := by
    cases dualRouter with
    | false => exact .inl rfl
    | true => exact .inr rfl
  myAd := had
  myHid := hhid

theorem Counted.insert (h : st.Counted) {k hid : CString} (hk : k ∉ st.neighborTable)
    (hcaret : caret ∉ k) (hhid : caret ∉ hid) (cost port : Int) :
    Counted { st with
      neighborTable := st.neighborTable.insert k ⟨k, hid, cost, port⟩
      numNeighbors := st.numNeighbors + 1 } := by
  refine { h with numNeighbors := ?_, ad := fun a ha => ?_, hid := fun a ha => ?_ }
  · dsimp only
    rw [h.numNeighbors, length_keys_insert hk, Nat.cast_succ]
  · rw [get_insert]
    split
    · rename_i heq
      exact ⟨heq.symm, heq ▸ hcaret⟩
    · rename_i hne
      exact h.ad a (((mem_insert _).1 ha).resolve_left hne)
  · rw [get_insert]
    split
    · exact hhid
    · rename_i hne
      exact h.hid a (((mem_insert _).1 ha).resolve_left hne)

theorem counted_processHello (h : st.Counted) (msg : CString) (port : Int) :
    (st.processHello msg port).Counted := by
  unfold processHello
  dsimp only
  split
  · exact { h with }
  · rename_i hk
    have hcounted := h.insert hk (caret_not_mem_readField _ not_mem_nil)
      (caret_not_mem_readField (readField (readField msg []).2 []).2 not_mem_nil) 1 port
    exact { hcounted with }

theorem counted_timeoutHandler (h : st.Counted) (hok : st.timeoutHandler = .ok (st', out)) :
    st'.Counted := by
  unfold timeoutHandler at hok
  split at hok
  · obtain ⟨sent, -, hok⟩ := bind_eq_ok.1 hok
    cases hok
    exact { h with }
  · split at hok
    · obtain ⟨⟨st₁, sent⟩, hsend, hok⟩ := bind_eq_ok.1 hok
      obtain ⟨sent', -, hsend⟩ := bind_eq_ok.1 hsend
      cases hsend
      cases hok
      have hseq : 0 ≤ (st.lsaSeq + 1) % maxSeqnum ∧ (st.lsaSeq + 1) % maxSeqnum < maxSeqnum :=
        ⟨Int.emod_nonneg _ (by decide), Int.emod_lt_of_pos _ (by decide)⟩
      exact { h with lsaSeq := hseq }
    · cases hok
      exact h

def IsHello (e : Event) : Prop :=
  e = .timeout ∨ ∃ msg port type rest, e = .message msg port ∧
    nextField msg = some (type, rest) ∧ atoi type = 0

theorem counted_step {e : Event} (he : IsHello e) (h : st.Counted)
    (hok : step st e = .ok (st', out)) : st'.Counted := by
  rcases he with rfl | ⟨msg, port, type, rest, rfl, hfield, htype⟩
  · exact counted_timeoutHandler h hok
  · simp only [step, hfield, if_pos htype] at hok
    cases hok
    exact counted_processHello h msg port

theorem counted_run {s : RouteState} {es : List Event} (hes : ∀ e ∈ es, IsHello e) (h : s.Counted)
    (hrun : Machine.run step s es = .ok (st, out)) : st.Counted ∧ st.myAd = s.myAd := by
  induction es generalizing s out with
  | nil =>
    cases hrun
    exact ⟨h, rfl⟩
  | cons e es ih =>
    obtain ⟨he, hes⟩ := forall_mem_cons.1 hes
    obtain ⟨s₁, o₁, o₂, hstep, hrun, -⟩ := Machine.run_cons_eq_ok.1 hrun
    obtain ⟨hcounted, hmy⟩ := ih hes (counted_step he h hstep) hrun
    exact ⟨hcounted, hmy.trans (step_myAd hstep)⟩

/-! ### The text -/

theorem readNeighbors_flatMap {α : Type} {ad hid : α → CString} {l : List α}
    (had : ∀ a ∈ l, caret ∉ ad a) (hhid : ∀ a ∈ l, caret ∉ hid a) (value : CString) :
    readNeighbors l.length ((l.flatMap fun a => [ad a, hid a]).flatMap (· ++ [caret])) value =
      l.map ad := by
  induction l generalizing value with
  | nil => rfl
  | cons a l ih =>
    obtain ⟨hada, had⟩ := forall_mem_cons.1 had
    obtain ⟨hhida, hhid⟩ := forall_mem_cons.1 hhid
    have htext : ((a :: l).flatMap fun a => [ad a, hid a]).flatMap (· ++ [caret]) =
        ad a ++ caret :: (hid a ++ caret ::
          (l.flatMap fun a => [ad a, hid a]).flatMap (· ++ [caret])) := by
      simp
    rw [length_cons, readNeighbors, htext, readField_append hada]
    dsimp only
    rw [readField_append hhida]
    dsimp only
    rw [ih had hhid, map_cons]

theorem length_order (t : StdMap CString NeighborEntry) : t.order.length = t.keys.length :=
  length_insertionSort _ _

theorem two_mul_le_lsaSize (st : RouteState) : 2 * st.neighborTable.keys.length ≤ st.lsaSize := by
  have hsum (l : List CString) : 2 * l.length ≤ (l.map fun k =>
      (st.neighborTable.get k).ad.length + (st.neighborTable.get k).hid.length + 2).sum := by
    induction l with
    | nil => exact le_rfl
    | cons k l ih =>
      rw [length_cons, map_cons, sum_cons]
      omega
  have horder := hsum st.neighborTable.order
  rw [length_order] at horder
  exact horder.trans (Nat.le_add_left _ _)

def neighborsText (st : RouteState) : CString :=
  (st.neighborTable.order.flatMap fun k =>
    [(st.neighborTable.get k).ad, (st.neighborTable.get k).hid]).flatMap (· ++ [caret])

/-- **The scanner reads what the text was made of.** -/
theorem parseLsa_lsaText (h : st.Counted) (hfits : st.lsaText.length < bufferSize) :
    parseLsa st.lsaText = ⟨st.dualRouter, st.myAd, st.myHid, st.lsaSeq, st.numNeighbors,
      st.neighborsText⟩ := by
  have hneighbors := two_mul_le_lsaSize st
  rw [length_lsaText] at hfits
  have hnum := h.numNeighbors
  obtain ⟨hlow, hhigh⟩ := h.lsaSeq
  have hdual : 0 ≤ st.dualRouter ∧ st.dualRouter < 2 ^ 31 := by
    rcases h.dualRouter with heq | heq <;> omega
  have htext : st.lsaText = ofText ['1'] ++ caret :: (formatInt st.dualRouter ++ caret ::
      (st.myAd ++ caret :: (st.myHid ++ caret :: (formatInt st.lsaSeq ++ caret ::
        (formatInt st.numNeighbors ++ caret :: st.neighborsText))))) := by
    simp [lsaText, neighborsText]
  unfold bufferSize at hfits
  unfold maxSeqnum at hhigh
  rw [parseLsa, htext, readField_append (by decide)]
  dsimp only
  rw [readField_append (caret_not_mem_formatInt hdual.1)]
  dsimp only
  rw [readField_append h.myAd]
  dsimp only
  rw [readField_append h.myHid]
  dsimp only
  rw [readField_append (caret_not_mem_formatInt hlow)]
  dsimp only
  rw [readField_append (caret_not_mem_formatInt (by omega))]
  dsimp only
  rw [atoi_formatInt hdual.1 hdual.2, atoi_formatInt hlow (by omega),
    atoi_formatInt (by omega) (by omega)]

/-! ### The entry -/

/-- The entry says what the router `st` knows about its neighbours. -/
structure Describes (st : RouteState) (e : NodeStateEntry) : Prop where
  dest : e.dest = st.myAd
  seq : e.seq = st.lsaSeq
  neighborList : e.neighborList = st.neighborTable.order.map fun k => (st.neighborTable.get k).ad
  numNeighbors : e.numNeighbors = e.neighborList.length

theorem describes_entry (h : st.Counted) (hfits : st.lsaText.length < bufferSize) :
    st.Describes (parseLsa st.lsaText).entry := by
  have hnum : st.numNeighbors.toNat = st.neighborTable.order.length := by
    rw [h.numNeighbors, length_order, Int.toNat_natCast]
  have hlist : readNeighbors st.numNeighbors.toNat st.neighborsText [] =
      st.neighborTable.order.map fun k => (st.neighborTable.get k).ad := by
    rw [hnum]
    refine readNeighbors_flatMap (fun k hk => ?_) (fun k hk => h.hid k (mem_order.1 hk)) []
    obtain ⟨had, hcaret⟩ := h.ad k (mem_order.1 hk)
    rwa [had]
  rw [parseLsa_lsaText h hfits]
  refine ⟨rfl, rfl, hlist, ?_⟩
  change st.numNeighbors = ((readNeighbors st.numNeighbors.toNat st.neighborsText []).length : Int)
  rw [hlist, length_map, length_order, h.numNeighbors]

theorem Describes.of_static {t t' : NetworkTable} {k : CString} (h : st.Describes (t.get k))
    (hstatic : Static t t') : st.Describes (t'.get k) := by
  obtain ⟨_, _, _, hk⟩ := hstatic.get k
  rw [hk]
  exact { h with }

/-- The text of a router as another one receives it. -/
def lsaInput (st : RouteState) (hfits : st.lsaText.length < bufferSize) (beyond : CString)
    (port : Int) : Input :=
  .received ⟨st.lsaText.map Subtype.val, by rw [length_map]; exact hfits.le⟩ beyond port

theorem event_lsaInput (hfits : st.lsaText.length < bufferSize) (beyond : CString) (port : Int) :
    (st.lsaInput hfits beyond port).event = .message st.lsaText port := by
  have hzero (c : Char) (hc : c ∈ st.lsaText.map Subtype.val) : decide (c ≠ '\x00') = true := by
    obtain ⟨d, -, rfl⟩ := List.mem_map.1 hc
    exact decide_eq_true d.2
  have htext (s : CString) : ofText (s.map Subtype.val) = s := by
    induction s with
    | nil => rfl
    | cons d s ih => rw [map_cons, ofText_cons d.2, ih]
  rw [lsaInput, Input.event, recvMessage, if_pos (.inl (by rw [length_map]; exact hfits)),
    takeWhile_eq_self_iff.2 hzero, htext]

theorem isLsa_lsaText (st : RouteState) : IsLsa (parseLsa st.lsaText).destAd st.lsaText := by
  have hfield : ∃ rest, nextField st.lsaText = some (ofText ['1'], rest) := by
    rw [lsaText, cons_append, flatMap_cons, append_assoc]
    exact ⟨_, nextField_append (by decide)⟩
  obtain ⟨rest, hrest⟩ := hfield
  exact ⟨⟨_, rest, hrest, by decide⟩, rfl⟩

theorem keeps_stored {msg : CString} (hmy : st.myAd ≠ (parseLsa msg).destAd)
    (hseen : st.seen (parseLsa msg) = .ok false) (hok : st.processLsa msg = .ok (st', out)) :
    Keeps (st.stored (parseLsa msg)) st' := by
  rw [processLsa_of_not_seen hmy hseen] at hok
  obtain ⟨⟨st₁, out₁⟩, htick, hok⟩ := bind_eq_ok.1 hok
  obtain ⟨sent, -, hok⟩ := bind_eq_ok.1 hok
  cases hok
  exact keeps_tick htick

theorem exists_processLsa {msg : CString} (hmy : st.myAd ≠ (parseLsa msg).destAd)
    (hseen : st.seen (parseLsa msg) = .ok false) (hfits : msg.length < bufferSize)
    (hticks : st.calcDijkstraTicks + 1 ≠ calcDijkstraInterval) :
    ∃ r, st.processLsa msg = .ok r := by
  have htick : (st.stored (parseLsa msg)).tick = .ok ({ st.stored (parseLsa msg) with
        calcDijkstraTicks := st.calcDijkstraTicks + 1 }, []) := by
    unfold tick
    dsimp only
    rw [stored_ticks, if_neg hticks]
    rfl
  rw [processLsa_of_not_seen hmy hseen, htick, broadcast, if_pos hfits]
  exact ⟨_, rfl⟩

/-- **An LSA tells another router the neighbours of the one that has sent it.**  The router `A` has
heard Hellos, and `B`, in whatever state, accepts the LSA.  Then the entry that `B` stores, and has
when it is finished, describes `A`; it is finished at once if it does not have to compute its
routes. -/
theorem lsa_arrives {adA hidA : CString} (had : caret ∉ adA) (hhid : caret ∉ hidA)
    {dualRouter : Bool} {es : List Event} (hes : ∀ e ∈ es, IsHello e) {A : RouteState}
    {sent : List Output} (hrun : Machine.run step (init adA hidA dualRouter) es = .ok (A, sent))
    (hfits : A.lsaText.length < bufferSize) {B : RouteState} (hne : B.myAd ≠ adA)
    (haccepts : B.seen (parseLsa A.lsaText) = .ok false) (beyond : CString) (port : Int) :
    A.Describes ((B.stored (parseLsa A.lsaText)).networkTable.get adA) ∧
    (∀ B' out, inputStep B (A.lsaInput hfits beyond port) = .ok (B', out) →
      adA ∈ B'.networkTable ∧ A.Describes (B'.networkTable.get adA)) ∧
    (B.calcDijkstraTicks + 1 ≠ calcDijkstraInterval →
      ∃ r, inputStep B (A.lsaInput hfits beyond port) = .ok r) := by
  obtain ⟨hcounted, hmy⟩ := counted_run hes (counted_init had hhid dualRouter) hrun
  have hdest : (parseLsa A.lsaText).destAd = adA := by
    rw [parseLsa_lsaText hcounted hfits]
    exact hmy
  have hother : B.myAd ≠ (parseLsa A.lsaText).destAd := by rwa [hdest]
  have hstored : A.Describes ((B.stored (parseLsa A.lsaText)).networkTable.get adA) := by
    rw [stored, lsaTable, hdest, get_insert, if_pos rfl]
    exact describes_entry hcounted hfits
  have hstep : inputStep B (A.lsaInput hfits beyond port) = B.processLsa A.lsaText := by
    rw [inputStep, event_lsaInput, step_lsa (isLsa_lsaText A)]
  rw [hstep]
  refine ⟨hstored, fun B' out hok => ?_, exists_processLsa hother haccepts hfits⟩
  have hkeeps := keeps_stored hother haccepts hok
  refine ⟨hkeeps.static.mem adA ?_, hstored.of_static hkeeps.static⟩
  rw [stored, lsaTable, hdest]
  exact (mem_insert _).2 (.inl rfl)

/-- The router `A` has heard of `N`, and tells `B`. -/
theorem lsa_arrives_hello : ∃ A sent,
    Machine.run step (init (ofText ['A']) (ofText ['H']) false) [helloFromN] = .ok (A, sent) ∧
    A.neighborTable.order = [ofText ['N']] ∧
    A.Describes (((init (ofText ['B']) (ofText ['H']) false).stored
      (parseLsa A.lsaText)).networkTable.get (ofText ['A'])) := by
  obtain ⟨⟨A, sent⟩, hrun, hneighbors, hfits, ⟨b, haccepts, rfl⟩⟩ : ∃ r,
      Machine.run step (init (ofText ['A']) (ofText ['H']) false) [helloFromN] = .ok r ∧
      r.1.neighborTable.order = [ofText ['N']] ∧ r.1.lsaText.length < bufferSize ∧
      ∃ b, (init (ofText ['B']) (ofText ['H']) false).seen (parseLsa r.1.lsaText) = .ok b ∧
        b = false := by decide +kernel
  have hhello : ∀ e ∈ [helloFromN], IsHello e := by
    intro e he
    rw [mem_singleton.1 he]
    exact .inr ⟨_, _, ofText ['0'], _, rfl, rfl, by decide⟩
  have hne : (init (ofText ['B']) (ofText ['H']) false).myAd ≠ ofText ['A'] := by decide
  exact ⟨A, sent, hrun, hneighbors,
    (lsa_arrives (by decide) (by decide) hhello hrun hfits hne haccepts [] 1).1⟩

end RouteState

end Xrouted

end Xia
