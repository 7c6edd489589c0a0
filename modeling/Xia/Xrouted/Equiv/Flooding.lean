import Xia.Xrouted.Equiv.ShortestPath
import Xia.Xrouted.Messages

/-!
# Flooding

A router sends an LSA on unless the sequence number that it has for the AD is not smaller and less
than 10000 away.  If the sequence numbers of all LSAs of an AD that are under way are less than
10000 apart, only a higher one is sent on, and so each LSA is sent on at most once by every router,
whatever else happens.  Otherwise two of them can be sent on in turn (`floodsFinitely_iff`).
-/

namespace Xia

open List Option AList Function

namespace Xrouted

open NetworkTable StdMap

/-! ### What the computation of the routes leaves alone -/

namespace NetworkTable

theorem static_follow (my : CString) (n : Nat) (t : NetworkTable) (ad : CString) :
    Static t (follow my n t ad).1 := by
  induction n generalizing t ad with
  | zero => exact Static.touch t ad
  | succ n ih =>
    rw [follow]
    split
    · exact Static.touch t ad
    · exact (Static.touch t ad).trans (ih _ _)

end NetworkTable

namespace RouteState

variable {st st' : RouteState} {msg m o : CString} {e : Event} {es : List Event} {out : List Output}

/-- The AD of the router, and the fields of the entries that are not used for the search, stay as
they are. -/
structure Keeps (st st' : RouteState) : Prop where
  myAd : st'.myAd = st.myAd
  static : Static st.networkTable st'.networkTable

theorem Keeps.refl (st : RouteState) : Keeps st st := ⟨rfl, Static.refl _⟩

theorem Keeps.trans {st'' : RouteState} (h : Keeps st st') (h' : Keeps st' st'') : Keeps st st'' :=
  ⟨h'.myAd.trans h.myAd, h.static.trans h'.static⟩

theorem keeps_setNextHop (st : RouteState) (k : CString) : Keeps st (st.setNextHop k) := by
  have hstatic := static_follow st.myAd maxHopCount st.networkTable (st.networkTable.get k).dest
  unfold setNextHop
  dsimp only
  split
  · exact Keeps.refl st
  · split
    · rename_i t hfollow
      rw [hfollow] at hstatic
      exact ⟨rfl, hstatic⟩
    · rename_i t ad hfollow
      rw [hfollow] at hstatic
      exact ⟨rfl, hstatic⟩

theorem keeps_calcShortestPath (h : st.calcShortestPath = .ok st') : Keeps st st' := by
  have hfold (l : List CString) (st : RouteState) : Keeps st (l.foldl setNextHop st) := by
    induction l generalizing st with
    | nil => exact Keeps.refl st
    | cons k l ih => exact (keeps_setNextHop st k).trans (ih _)
  obtain ⟨_, -, h⟩ := bind_eq_ok.1 h
  obtain ⟨⟨complete, t⟩, hloop, h⟩ := bind_eq_ok.1 h
  have hkeeps : Keeps st { st with adRouteTable := ∅, networkTable := t } :=
    ⟨rfl, ((static_resetCosts _).trans (static_initCosts _ _)).trans (static_mainLoop hloop)⟩
  cases complete with
  | true =>
    cases h
    exact hkeeps.trans (hfold _ _)
  | false =>
    cases h
    exact hkeeps

theorem keeps_tick (h : st.tick = .ok (st', out)) : Keeps st st' := by
  unfold tick at h
  dsimp only at h
  split at h
  · obtain ⟨st₁, hcalc, h⟩ := bind_eq_ok.1 h
    cases h
    have hkeeps := keeps_calcShortestPath hcalc
    exact ⟨hkeeps.myAd, hkeeps.static⟩
  · cases h
    exact ⟨rfl, Static.refl _⟩

/-! ### One message -/

def seqOf (st : RouteState) (o : CString) : Option Int :=
  (st.networkTable.lookup o).map NodeStateEntry.seq

theorem Keeps.seqOf (h : Keeps st st') {q : Int} (hq : st.seqOf o = some q) :
    st'.seqOf o = some q := by
  obtain ⟨e, he, rfl⟩ := map_eq_some_iff.1 hq
  have hmem : o ∈ st'.networkTable := h.static.mem o (exists_lookup.2 ⟨e, he⟩)
  rw [RouteState.seqOf, lookup_of_mem hmem, map_some, h.static.seq, get_of_lookup he]

/-- The sequence number `seq` is not one that the router has seen. -/
def Fresh (st : RouteState) (o : CString) (seq : Int) : Prop :=
  ∀ q, st.seqOf o = some q → ¬ (seq ≤ q ∧ q - seq < 10000)

theorem seen_cases {lsa : Lsa} {b : Bool} (h : st.seen lsa = .ok b) :
    (b = false ∧ st.Fresh lsa.destAd lsa.seq) ∨ b = true := by
  unfold seen at h
  cases hlookup : st.networkTable.lookup lsa.destAd with
  | none =>
    rw [hlookup] at h
    cases h
    refine .inl ⟨rfl, fun q hq => ?_⟩
    rw [seqOf, hlookup] at hq
    cases hq
  | some e =>
    rw [hlookup] at h
    have hseq (q : Int) (hq : st.seqOf lsa.destAd = some q) : e.seq = q := by
      rwa [seqOf, hlookup, map_some, some_inj] at hq
    dsimp only at h
    split at h
    · obtain ⟨d, hd, h⟩ := bind_eq_ok.1 h
      obtain rfl : e.seq - lsa.seq = d := by
        unfold subInt at hd
        split at hd <;> cases hd
        rfl
      cases h
      by_cases hlt : e.seq - lsa.seq < 10000
      · exact .inr (by simpa using hlt)
      · refine .inl ⟨by simpa using hlt, fun q hq hseen => ?_⟩
        rw [← hseq q hq] at hseen
        exact hlt hseen.2
    · rename_i hle
      cases h
      refine .inl ⟨rfl, fun q hq hseen => ?_⟩
      rw [← hseq q hq] at hseen
      exact hle hseen.1

theorem broadcast_eq_ok {sent : List Output} :
    Xrouted.broadcast msg = .ok sent ↔ msg.length < bufferSize ∧ sent = [.broadcast msg] := by
  unfold Xrouted.broadcast
  split
  · rename_i hlt
    simp [hlt, eq_comm]
  · rename_i hge
    simp [hge]

theorem acceptLsa_cases {lsa : Lsa} (h : st.acceptLsa msg lsa = .ok (st', out)) :
    st'.myAd = st.myAd ∧ .broadcast msg ∈ out ∧ st'.seqOf lsa.destAd = some lsa.seq ∧
      ∀ o q, o ≠ lsa.destAd → st.seqOf o = some q → st'.seqOf o = some q := by
  obtain ⟨⟨st₁, out₁⟩, htick, h⟩ := bind_eq_ok.1 h
  obtain ⟨sent, hsent, h⟩ := bind_eq_ok.1 h
  cases h
  have hkeeps := keeps_tick htick
  refine ⟨hkeeps.myAd, ?_, hkeeps.seqOf ?_, fun o q ho hq => hkeeps.seqOf ?_⟩
  · rw [(broadcast_eq_ok.1 hsent).2]
    simp
  · rw [seqOf, lookup_insert]
    rfl
  · rwa [seqOf, lookup_insert_ne ho, lookup_erase_ne ho]

theorem markDualRouter_myAd (lsa : Lsa) : (st.markDualRouter lsa).myAd = st.myAd := by
  unfold markDualRouter
  split <;> rfl

theorem markDualRouter_seqOf (lsa : Lsa) : (st.markDualRouter lsa).seqOf o = st.seqOf o := by
  unfold markDualRouter
  split <;> rfl

/-- **What `processLSA` does**: the LSA comes from this router or has been seen, or it is sent on
and its sequence number is stored. -/
theorem processLsa_cases (h : st.processLsa msg = .ok (st', out)) : st'.myAd = st.myAd ∧
    ((out = [] ∧ ∀ o, st'.seqOf o = st.seqOf o) ∨
      (st.myAd ≠ (parseLsa msg).destAd ∧ st.Fresh (parseLsa msg).destAd (parseLsa msg).seq ∧
        .broadcast msg ∈ out ∧ st'.seqOf (parseLsa msg).destAd = some (parseLsa msg).seq ∧
        ∀ o q, o ≠ (parseLsa msg).destAd → st.seqOf o = some q → st'.seqOf o = some q)) := by
  unfold processLsa at h
  dsimp only at h
  rw [markDualRouter_myAd] at h
  have hseq (o : CString) : (st.markDualRouter (parseLsa msg)).seqOf o = st.seqOf o :=
    markDualRouter_seqOf _
  split at h
  · cases h
    exact ⟨markDualRouter_myAd _, .inl ⟨rfl, hseq⟩⟩
  · rename_i hne
    obtain ⟨b, hseen, h⟩ := bind_eq_ok.1 h
    rcases seen_cases hseen with ⟨rfl, hfresh⟩ | rfl
    · obtain ⟨hmy, hout, hstored, hother⟩ := acceptLsa_cases h
      refine ⟨hmy.trans (markDualRouter_myAd _), .inr ⟨hne, ?_, hout, hstored, ?_⟩⟩
      · exact fun q hq => hfresh q ((hseq _).trans hq)
      · exact fun o q ho hq => hother o q ho ((hseq o).trans hq)
    · cases h
      exact ⟨markDualRouter_myAd _, .inl ⟨rfl, hseq⟩⟩

/-! ### One step -/

/-- The message is an LSA from the AD `o`. -/
def IsLsa (o msg : CString) : Prop :=
  (∃ type rest, nextField msg = some (type, rest) ∧ atoi type = 1) ∧ (parseLsa msg).destAd = o

theorem step_lsa (h : IsLsa o msg) (port : Int) :
    step st (.message msg port) = st.processLsa msg := by
  obtain ⟨⟨type, rest, hfield, htype⟩, -⟩ := h
  simp only [step, hfield]
  rw [if_neg (by rw [htype]; decide), if_pos htype]

def Event.carries (msg : CString) : Event → Bool
  | .message m _ => m = msg
  | .timeout => false

theorem Event.carries_iff : e.carries msg = true ↔ ∃ port, e = .message msg port := by
  cases e with
  | message m port => simp [Event.carries]
  | timeout => simp [Event.carries]

theorem Event.carries_inj (h : e.carries msg = true) (h' : e.carries m = true) : msg = m := by
  obtain ⟨_, rfl⟩ := Event.carries_iff.1 h
  obtain ⟨_, heq⟩ := Event.carries_iff.1 h'
  cases heq
  rfl

theorem timeoutHandler_keeps (h : st.timeoutHandler = .ok (st', out)) : Keeps st st' := by
  unfold timeoutHandler at h
  split at h
  · obtain ⟨sent, -, h⟩ := bind_eq_ok.1 h
    cases h
    exact ⟨rfl, Static.refl _⟩
  · split at h
    · obtain ⟨⟨st₁, sent⟩, hsend, h⟩ := bind_eq_ok.1 h
      obtain ⟨sent', -, hsend⟩ := bind_eq_ok.1 hsend
      cases hsend
      cases h
      exact ⟨rfl, Static.refl _⟩
    · cases h
      exact Keeps.refl st

theorem processHello_keeps (st : RouteState) (o msg : CString) (port : Int) :
    (st.processHello msg port).myAd = st.myAd ∧
    (o ≠ st.myAd → (st.processHello msg port).seqOf o = st.seqOf o) := by
  unfold processHello
  dsimp only
  split
  · refine ⟨rfl, fun ho => ?_⟩
    rw [seqOf, lookup_insert_ne ho, lookup_erase_ne ho, seqOf]
  · refine ⟨rfl, fun ho => ?_⟩
    rw [seqOf, lookup_insert_ne ho, lookup_erase_ne ho, seqOf]

/-- **What a step does to the LSAs of another AD**: one that is fresh is sent on and its sequence
number is stored, or none is sent on and the sequence number stays. -/
theorem step_cases (h : step st e = .ok (st', out)) (ho : o ≠ st.myAd) : st'.myAd = st.myAd ∧
    ((∃ msg, e.carries msg = true ∧ IsLsa o msg ∧ st.Fresh o (parseLsa msg).seq ∧
        .broadcast msg ∈ out ∧ st'.seqOf o = some (parseLsa msg).seq) ∨
      ((∀ msg, e.carries msg = true → IsLsa o msg → .broadcast msg ∉ out) ∧
        ∀ q, st.seqOf o = some q → st'.seqOf o = some q)) := by
  cases e with
  | timeout =>
    have hkeeps := timeoutHandler_keeps h
    exact ⟨hkeeps.myAd, .inr ⟨by simp [Event.carries], fun q => hkeeps.seqOf⟩⟩
  | message m port =>
    have hsilent {out : List Output} (hout : out = [])
        (msg : CString) : Output.broadcast msg ∉ out := by simp [hout]
    cases hfield : nextField m with
    | none =>
      simp only [step, hfield] at h
      cases h
      exact ⟨rfl, .inr ⟨fun msg _ _ => hsilent rfl msg, fun q => id⟩⟩
    | some r =>
      obtain ⟨type, rest⟩ := r
      simp only [step, hfield] at h
      split at h
      · cases h
        obtain ⟨hmy, hseq⟩ := processHello_keeps st o m port
        exact ⟨hmy, .inr ⟨fun msg _ _ => hsilent rfl msg, fun q hq => (hseq ho).trans hq⟩⟩
      · split at h
        · rename_i htype
          obtain ⟨hmy, ⟨hout, hseq⟩ | ⟨-, hfresh, hout, hstored, hother⟩⟩ := processLsa_cases h
          · exact ⟨hmy, .inr ⟨fun msg _ _ => hsilent hout msg, fun q hq => (hseq o).trans hq⟩⟩
          · by_cases hdest : (parseLsa m).destAd = o
            · subst hdest
              have hlsa : IsLsa (parseLsa m).destAd m := ⟨⟨type, rest, hfield, htype⟩, rfl⟩
              exact ⟨hmy, .inl ⟨m, by simp [Event.carries], hlsa, hfresh, hout, hstored⟩⟩
            · refine ⟨hmy, .inr ⟨fun msg hcarries hlsa => ?_, fun q hq => ?_⟩⟩
              · rw [Event.carries_inj hcarries (m := m) (by simp [Event.carries])] at hlsa
                exact absurd hlsa.2 hdest
              · exact hother o q (Ne.symm hdest) hq
        · split at h
          · cases h
            refine ⟨rfl, .inr ⟨fun msg _ _ => ?_, fun q => id⟩⟩
            simp [processHostRegister]
          · cases h
            exact ⟨rfl, .inr ⟨fun msg _ _ => hsilent rfl msg, fun q => id⟩⟩

theorem step_of_own (h : step st e = .ok (st', out)) (ho : o = st.myAd) (hcarries : e.carries msg)
    (hlsa : IsLsa o msg) : .broadcast msg ∉ out := by
  obtain ⟨port, rfl⟩ := Event.carries_iff.1 hcarries
  rw [step_lsa hlsa] at h
  obtain ⟨-, ⟨rfl, -⟩ | ⟨hne, -⟩⟩ := processLsa_cases h
  · simp
  · exact absurd (ho.symm.trans hlsa.2.symm) hne

theorem step_myAd (h : step st e = .ok (st', out)) : st'.myAd = st.myAd :=
  -- an AD that is not this one, to which the statement about steps applies
  (step_cases h (o := caret :: st.myAd) (by simp)).1

/-! ### Runs -/

/-- How often the message is sent on when it arrives.  A run ends at a fault. -/
def rebroadcasts (msg : CString) : RouteState → List Event → Nat
  | _, [] => 0
  | st, e :: es =>
    match step st e with
    | .error _ => 0
    | .ok (st', out) =>
      (if e.carries msg ∧ .broadcast msg ∈ out then 1 else 0) + rebroadcasts msg st' es

theorem rebroadcasts_cons (h : step st e = .ok (st', out)) : rebroadcasts msg st (e :: es) =
    (if e.carries msg ∧ .broadcast msg ∈ out then 1 else 0) + rebroadcasts msg st' es := by
  rw [rebroadcasts, h]

theorem rebroadcasts_error {f : Fault} (h : step st e = .error f) :
    rebroadcasts msg st (e :: es) = 0 := by
  rw [rebroadcasts, h]

/-- All LSAs from `o` that arrive are among these. -/
def OnlyFrom (o : CString) (lsas : Finset CString) (es : List Event) : Prop :=
  ∀ e ∈ es, ∀ msg, e.carries msg = true → IsLsa o msg → msg ∈ lsas

/-- The sequence numbers are less than 10000 apart. -/
def Close (lsas : Finset CString) : Prop :=
  ∀ a ∈ lsas, ∀ b ∈ lsas, (parseLsa b).seq - (parseLsa a).seq < 10000

variable {lsas : Finset CString}

theorem rebroadcasts_of_own (ho : o = st.myAd) (hm : IsLsa o m) : rebroadcasts m st es = 0 := by
  induction es generalizing st with
  | nil => rfl
  | cons e es ih =>
    cases hstep : step st e with
    | error f => exact rebroadcasts_error hstep
    | ok r =>
      obtain ⟨st', out⟩ := r
      rw [rebroadcasts_cons hstep, if_neg fun h => step_of_own hstep ho h.1 hm h.2,
        ih (ho.trans (step_myAd hstep).symm)]

section

variable (hclose : Close lsas)
include hclose

/-- `k` is the LSA whose sequence number is stored, if that is one of them. -/
theorem rebroadcasts_of_known {k : Option CString} (ho : o ≠ st.myAd)
    (hk : ∀ a ∈ k, a ∈ lsas ∧ st.seqOf o = some (parseLsa a).seq) (hes : OnlyFrom o lsas es)
    (hm : IsLsa o m) :
    rebroadcasts m st es ≤ if ∃ a ∈ k, (parseLsa m).seq ≤ (parseLsa a).seq then 0 else 1 := by
  induction es generalizing st k with
  | nil => exact Nat.zero_le _
  | cons e es ih =>
    obtain ⟨he, hes⟩ := forall_mem_cons.1 hes
    cases hstep : step st e with
    | error f =>
      rw [rebroadcasts_error hstep]
      exact Nat.zero_le _
    | ok r =>
      obtain ⟨st', out⟩ := r
      rw [rebroadcasts_cons hstep]
      obtain ⟨hmy, ⟨b, hb, hlsa, hfresh, -, hstored⟩ | ⟨hsilent, hkept⟩⟩ := step_cases hstep ho
      · have hb' := he b hb hlsa
        have hrest := ih (k := some b) (hmy ▸ ho) (by simp [hb', hstored]) hes
        have hlt (a : CString) (ha : a ∈ k) : (parseLsa a).seq < (parseLsa b).seq := by
          obtain ⟨ha', hknown⟩ := hk a ha
          by_contra hle
          exact hfresh _ hknown ⟨not_lt.1 hle, hclose b hb' a ha'⟩
        by_cases hmb : m = b
        · subst hmb
          rw [if_pos ⟨m, rfl, le_rfl⟩] at hrest
          have hnew : ¬ ∃ a ∈ k, (parseLsa m).seq ≤ (parseLsa a).seq :=
            fun ⟨a, ha, hle⟩ => absurd (hlt a ha) (not_lt.2 hle)
          rw [if_neg hnew]
          split <;> omega
        · rw [if_neg fun h => hmb (Event.carries_inj h.1 hb), Nat.zero_add]
          refine hrest.trans ?_
          split
          · exact Nat.zero_le _
          · rename_i hno
            rw [if_neg fun ⟨a, ha, hle⟩ => hno ⟨b, rfl, hle.trans (hlt a ha).le⟩]
      · rw [if_neg fun h => hsilent m h.1 hm h.2, Nat.zero_add]
        exact ih (hmy ▸ ho) (fun a ha => (hk a ha).imp_right (hkept _)) hes

/-- **Every LSA is sent on at most once.** -/
theorem rebroadcasts_le_one (hes : OnlyFrom o lsas es) (hm : IsLsa o m) :
    rebroadcasts m st es ≤ 1 := by
  by_cases ho : o = st.myAd
  · rw [rebroadcasts_of_own ho hm]
    exact Nat.zero_le 1
  · refine (rebroadcasts_of_known hclose (k := none) ho (by simp) hes hm).trans ?_
    split <;> omega

end

/-! ### Networks -/

/-- How often the message is sent on in a network of routers, some of which may have ended. -/
def netRebroadcasts {n : Nat} (msg : CString) :
    (Fin n → Option RouteState) → List (Fin n × Event) → Nat
  | _, [] => 0
  | net, (i, e) :: es =>
    match net i with
    | none => netRebroadcasts msg net es
    | some st =>
      match step st e with
      | .error _ => netRebroadcasts msg (Function.update net i none) es
      | .ok (st', out) =>
        (if e.carries msg ∧ .broadcast msg ∈ out then 1 else 0) +
          netRebroadcasts msg (Function.update net i (some st')) es

def eventsAt {n : Nat} (i : Fin n) (es : List (Fin n × Event)) : List Event :=
  (es.filter (·.1 = i)).map Prod.snd

def routerRebroadcasts (msg : CString) (st : Option RouteState) (es : List Event) : Nat :=
  st.elim 0 fun st => rebroadcasts msg st es

theorem eventsAt_cons {n : Nat} (i j : Fin n) (e : Event) (es : List (Fin n × Event)) :
    eventsAt i ((j, e) :: es) = if j = i then e :: eventsAt i es else eventsAt i es := by
  unfold eventsAt
  by_cases h : j = i
  · rw [if_pos h, filter_cons_of_pos (by simpa using h), map_cons]
  · rw [if_neg h, filter_cons_of_neg (by simpa using h)]

/-- **The routers send the message on independently of each other.** -/
theorem netRebroadcasts_eq_sum {n : Nat} (net : Fin n → Option RouteState)
    (es : List (Fin n × Event)) : netRebroadcasts msg net es =
      ∑ i, routerRebroadcasts msg (net i) (eventsAt i es) := by
  induction es generalizing net with
  | nil =>
    refine (Finset.sum_eq_zero fun i _ => ?_).symm
    cases hi : net i <;> rfl
  | cons x es ih =>
    obtain ⟨j, e⟩ := x
    -- an event concerns one router only
    have hsum (net' : Fin n → Option RouteState) (c : Nat) (hne : ∀ i, i ≠ j → net' i = net i)
        (hj : routerRebroadcasts msg (net j) (e :: eventsAt j es) =
          c + routerRebroadcasts msg (net' j) (eventsAt j es)) :
        c + ∑ i, routerRebroadcasts msg (net' i) (eventsAt i es) =
          ∑ i, routerRebroadcasts msg (net i) (eventsAt i ((j, e) :: es)) := by
      have hpoint (i : Fin n) : routerRebroadcasts msg (net i) (eventsAt i ((j, e) :: es)) =
          (if i = j then c else 0) + routerRebroadcasts msg (net' i) (eventsAt i es) := by
        rw [eventsAt_cons]
        by_cases hij : i = j
        · subst hij
          rw [if_pos rfl, if_pos rfl, hj]
        · rw [if_neg (Ne.symm hij), if_neg hij, hne i hij, Nat.zero_add]
      simp only [hpoint, Finset.sum_add_distrib, Finset.sum_ite_eq', Finset.mem_univ, if_true]
    rw [netRebroadcasts]
    cases hj : net j with
    | none =>
      dsimp only
      rw [ih, ← hsum net 0 (fun _ _ => rfl) (by rw [hj]; rfl), Nat.zero_add]
    | some st =>
      cases hstep : step st e with
      | error f =>
        simp only [hstep]
        rw [ih, ← hsum (Function.update net j none) 0
          (fun i hi => update_of_ne hi _ _) ?_, Nat.zero_add]
        rw [hj, update_self]
        exact rebroadcasts_error hstep
      | ok r =>
        obtain ⟨st', out⟩ := r
        simp only [hstep]
        rw [ih]
        refine hsum (Function.update net j (some st')) _ (fun i hi => update_of_ne hi _ _) ?_
        rw [hj, update_self]
        exact rebroadcasts_cons hstep

/-- **Flooding stops**: a router sends every LSA on at most once, and so in a network there are not
more rebroadcasts than there are LSAs for every router. -/
structure FloodsFinitely (o : CString) (lsas : Finset CString) : Prop where
  once : ∀ st es, OnlyFrom o lsas es → ∀ m ∈ lsas, rebroadcasts m st es ≤ 1
  finite : ∀ n (net : Fin n → Option RouteState) es, OnlyFrom o lsas (es.map Prod.snd) →
    ∑ m ∈ lsas, netRebroadcasts m net es ≤ n * lsas.card

/-- LSAs from `o` as they may be under way. -/
structure Circulates (o : CString) (lsas : Finset CString) : Prop where
  isLsa : ∀ m ∈ lsas, IsLsa o m
  seq : ∀ m ∈ lsas, 0 ≤ (parseLsa m).seq ∧ (parseLsa m).seq < maxSeqnum
  fits : ∀ m ∈ lsas, m.length < bufferSize

theorem floodsFinitely_of_close (h : Circulates o lsas) (hclose : Close lsas) :
    FloodsFinitely o lsas := by
  have honce (st : RouteState) (es : List Event) (hes : OnlyFrom o lsas es) (m : CString)
      (hm : m ∈ lsas) : rebroadcasts m st es ≤ 1 := rebroadcasts_le_one hclose hes (h.isLsa m hm)
  refine ⟨honce, fun n net es hes => ?_⟩
  have hrouter (m : CString) (hm : m ∈ lsas) (i : Fin n) :
      routerRebroadcasts m (net i) (eventsAt i es) ≤ 1 := by
    cases net i with
    | none => exact Nat.zero_le 1
    | some st =>
      refine honce st _ (fun e he => ?_) m hm
      obtain ⟨x, hx, rfl⟩ := List.mem_map.1 he
      exact hes x.2 (List.mem_map_of_mem (mem_filter.1 hx).1)
  calc ∑ m ∈ lsas, netRebroadcasts m net es
      ≤ ∑ m ∈ lsas, n := Finset.sum_le_sum fun m hm => by
        rw [netRebroadcasts_eq_sum]
        exact (Finset.sum_le_card_nsmul _ _ 1 fun i _ => hrouter m hm i).trans (by simp)
    _ = n * lsas.card := by rw [Finset.sum_const, smul_eq_mul, mul_comm]

/-! ### LSAs that are sent on in turn -/

theorem processLsa_of_fresh (hne : st.myAd ≠ (parseLsa msg).destAd)
    (hfresh : st.Fresh (parseLsa msg).destAd (parseLsa msg).seq)
    (hseq : 0 ≤ (parseLsa msg).seq ∧ (parseLsa msg).seq < maxSeqnum)
    (hstored : ∀ q, st.seqOf (parseLsa msg).destAd = some q → 0 ≤ q ∧ q < maxSeqnum)
    (hticks : st.calcDijkstraTicks + 1 ≠ calcDijkstraInterval) (hfits : msg.length < bufferSize) :
    ∃ st', st.processLsa msg = .ok (st', [.broadcast msg]) ∧
      st'.calcDijkstraTicks = st.calcDijkstraTicks + 1 := by
  have hseen : (st.markDualRouter (parseLsa msg)).seen (parseLsa msg) = .ok false := by
    have heq : (st.markDualRouter (parseLsa msg)).networkTable = st.networkTable := by
      unfold markDualRouter
      split <;> rfl
    rw [seen, heq]
    cases hlookup : st.networkTable.lookup (parseLsa msg).destAd with
    | none => rfl
    | some e =>
      have hq : st.seqOf (parseLsa msg).destAd = some e.seq := by
        rw [seqOf, hlookup, map_some]
      have hnot := hfresh _ hq
      have hrange := hstored _ hq
      dsimp only
      split
      · rename_i hle
        unfold maxSeqnum at hseq hrange
        rw [subInt, if_pos (by omega)]
        have hfar : ¬ e.seq - (parseLsa msg).seq < 10000 := fun hlt => hnot ⟨hle, hlt⟩
        simp [bind, Except.bind, pure, Except.pure, hfar]
      · rfl
  have hticks' : (st.markDualRouter (parseLsa msg)).calcDijkstraTicks = st.calcDijkstraTicks := by
    unfold markDualRouter
    split <;> rfl
  unfold processLsa
  dsimp only
  rw [if_neg (by rwa [markDualRouter_myAd]), hseen]
  simp only [bind, Except.bind, Bool.false_eq_true, if_false]
  unfold acceptLsa tick
  dsimp only
  rw [hticks', if_neg hticks, broadcast_eq_ok.2 ⟨hfits, rfl⟩]
  exact ⟨_, rfl, rfl⟩

/-- If two sequence numbers are 10000 or more apart, the LSA with the higher one is sent on again
after the other one. -/
theorem close_of_floodsFinitely (h : Circulates o lsas) (hfloods : FloodsFinitely o lsas) :
    Close lsas := by
  intro a ha b hb
  by_contra hfar
  rw [not_lt] at hfar
  have hcarries (m : CString) : Event.carries m (.message m 0) = true := by simp [Event.carries]
  -- a router that has not seen an LSA yet
  let st := init (caret :: o) [] false
  have hstep (m : CString) (hm : m ∈ lsas) (st : RouteState) (hmy : st.myAd ≠ o)
      (hticks : st.calcDijkstraTicks < 3) (hfresh : st.Fresh o (parseLsa m).seq)
      (hstored : ∀ q, st.seqOf o = some q → 0 ≤ q ∧ q < maxSeqnum) :
      ∃ st', step st (.message m 0) = .ok (st', [.broadcast m]) ∧
        st'.calcDijkstraTicks = st.calcDijkstraTicks + 1 ∧ st'.myAd ≠ o ∧
        st'.seqOf o = some (parseLsa m).seq := by
    have hdest := (h.isLsa m hm).2
    obtain ⟨st', hok, hticks'⟩ := processLsa_of_fresh (hdest.symm ▸ hmy) (hdest.symm ▸ hfresh)
      (h.seq m hm) (hdest.symm ▸ hstored) (by unfold calcDijkstraInterval; omega) (h.fits m hm)
    obtain ⟨hmy', ⟨hout, -⟩ | ⟨-, -, -, hseq, -⟩⟩ := processLsa_cases hok
    · cases hout
    · exact ⟨st', (step_lsa (h.isLsa m hm) 0).trans hok, hticks', hmy' ▸ hmy, hdest ▸ hseq⟩
  have hticks : st.calcDijkstraTicks = 0 := rfl
  have hseqb := h.seq b hb
  have hseqa := h.seq a ha
  obtain ⟨st₁, hstep₁, hticks₁, hmy₁, hseq₁⟩ := hstep b hb st (by simp [st, init]) (by omega)
    (fun q hq => by cases hq) (fun q hq => by cases hq)
  obtain ⟨st₂, hstep₂, hticks₂, hmy₂, hseq₂⟩ := hstep a ha st₁ hmy₁ (by omega) (fun q hq => by
      rw [hseq₁, some_inj] at hq
      omega)
    (fun q hq => by
      rw [hseq₁, some_inj] at hq
      exact hq ▸ hseqb)
  obtain ⟨st₃, hstep₃, -⟩ := hstep b hb st₂ hmy₂ (by omega) (fun q hq => by
      rw [hseq₂, some_inj] at hq
      omega)
    (fun q hq => by
      rw [hseq₂, some_inj] at hq
      exact hq ▸ hseqa)
  have honly : OnlyFrom o lsas [.message b 0, .message a 0, .message b 0] := by
    intro e he msg hmsg _
    simp only [mem_cons, not_mem_nil, or_false] at he
    rcases he with rfl | rfl | rfl
    · rwa [Event.carries_inj hmsg (hcarries b)]
    · rwa [Event.carries_inj hmsg (hcarries a)]
    · rwa [Event.carries_inj hmsg (hcarries b)]
  have hle := hfloods.once st _ honly b hb
  rw [rebroadcasts_cons hstep₁, rebroadcasts_cons hstep₂, rebroadcasts_cons hstep₃,
    if_pos ⟨hcarries b, by simp⟩] at hle
  omega

/-- **Flooding stops exactly if the sequence numbers of the LSAs that are under way are less than
10000 apart.** -/
theorem floodsFinitely_iff (h : Circulates o lsas) : FloodsFinitely o lsas ↔ Close lsas :=
  ⟨close_of_floodsFinitely h, floodsFinitely_of_close h⟩

/-- An LSA from the AD `A` with this sequence number. -/
def lsaFromA (seq : Text) : CString :=
  ofText (['1', '^', '0', '^', 'A', '^', 'H', '^'] ++ seq ++ ['^', '1', '^', 'B', '^', 'H', '^'])

/-- An LSA from the AD `A` with the sequence number 5000, and one with this sequence number. -/
def twoLsas (seq : Text) : Finset CString := {lsaFromA ['5', '0', '0', '0'], lsaFromA seq}

theorem circulates_twoLsas {seq : Text}
    (hseq : seq = ['5', '0', '0', '1'] ∨ seq = ['2', '0', '0', '0', '0']) :
    Circulates (ofText ['A']) (twoLsas seq) where
  isLsa := by
    intro m hm
    rcases Finset.mem_insert.1 hm with rfl | hm
    · exact ⟨⟨_, _, rfl, by decide⟩, by decide⟩
    · rw [Finset.mem_singleton.1 hm]
      rcases hseq with rfl | rfl <;> exact ⟨⟨_, _, rfl, by decide⟩, by decide⟩
  seq := by rcases hseq with rfl | rfl <;> decide
  fits := by rcases hseq with rfl | rfl <;> decide

/-- An LSA and the one after it. -/
theorem floodsFinitely_twoLsas : Circulates (ofText ['A']) (twoLsas ['5', '0', '0', '1']) ∧
      FloodsFinitely (ofText ['A']) (twoLsas ['5', '0', '0', '1']) := by
  have hcirculates := circulates_twoLsas (.inl rfl)
  have hclose : Close (twoLsas ['5', '0', '0', '1']) := by
    unfold Close
    decide
  exact ⟨hcirculates, (floodsFinitely_iff hcirculates).2 hclose⟩

/-- The two LSAs are sent on in turn. -/
theorem not_floodsFinitely_twoLsas : Circulates (ofText ['A']) (twoLsas ['2', '0', '0', '0', '0']) ∧
      ¬ FloodsFinitely (ofText ['A']) (twoLsas ['2', '0', '0', '0', '0']) := by
  have hcirculates := circulates_twoLsas (.inr rfl)
  have hclose : ¬ Close (twoLsas ['2', '0', '0', '0', '0']) := by
    unfold Close
    decide
  exact ⟨hcirculates, fun hfloods => hclose (close_of_floodsFinitely hcirculates hfloods)⟩

end RouteState

end Xrouted

end Xia
