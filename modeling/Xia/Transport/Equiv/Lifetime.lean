import Xia.Transport.Equiv.Resend

/-!
# The lifetime of a socket in `run_timer`

`run_timer` holds an iterator and a pointer into the table of sockets while it removes entries of
that table.  `tracedTimer` is `runTimer` with a record of the accesses to the entries
(`map_tracedTimer`).  Removing a key invalidates the pointers and iterators to that entry and no
others, so the call is safe if no access to an entry follows its removal (`SafeTrace`).
-/

namespace Xia

open AList List Result

/-- What `run_timer` does with an entry of the table of sockets. -/
inductive Access where
  /-- the loop body starts, with `iter->first` -/
  | visit (port : UInt16)
  /-- a field of `*daginfo` other than the ring -/
  | socket (port : UInt16)
  /-- `daginfo->sent_pkt[slot]` -/
  | ring (port : UInt16) (slot : Fin maxWinSize)
  /-- `portToDAGinfo.erase` -/
  | erase (port : UInt16)
  /-- `++iter` -/
  | advance (port : UInt16)
deriving DecidableEq

namespace Access

def port : Access → UInt16
  | visit q | socket q | ring q _ | erase q | advance q => q

def visits (trace : List Access) : List UInt16 :=
  trace.filterMap fun a => match a with
    | visit q => some q
    | _ => none

end Access

namespace XTransport

/-- The accesses of one loop body.  After the removal the pointer is used once more, to clear the
ring, and the iterator to go on. -/
def bodyAccesses (sport : UInt16) (tear : Bool) : List Access :=
  [.visit sport, .socket sport] ++
    (if tear then .erase sport :: (List.finRange maxWinSize).map (.ring sport)
      else [.socket sport]) ++ [.advance sport]

/-- `timerSocket` with its accesses. -/
def tracedSocket (env : Env) (s : XTransport) (sport : UInt16) (earliest : Nat) :
    Result ((XTransport × Nat × List Output) × List Access) := do
  let d ← deref (s.portToDagInfo.lookup sport)
  let (d, out, tear) ← d.timeout env s.localAddr sport
  if tear then return ((← s.tearDown sport d, earliest, out), bodyAccesses sport true)
  else
    let earliest := d.nextExpiry env.now earliest
    let (d, earliest, copies) ← d.cidTimeouts env s.localAddr d.xidToTimerOn.keys earliest
    return ((s.setDagInfo sport d, earliest, out ++ copies.map .network), bodyAccesses sport false)

/-- `timerSockets` with its accesses. -/
def tracedSockets (env : Env) : List UInt16 → XTransport → Nat →
    Result ((XTransport × Nat × List Output) × List Access)
  | [], s, earliest => .ok ((s, earliest, []), [])
  | sport :: sports, s, earliest => do
    let ((s, earliest, out), trace) ← s.tracedSocket env sport earliest
    let ((s, earliest, out'), trace') ← tracedSockets env sports s earliest
    return ((s, earliest, out ++ out'), trace ++ trace')

/-- `runTimer` with its accesses. -/
def tracedTimer (env : Env) (s : XTransport) :
    Result ((XTransport × List Output) × List Access) := do
  let ((s, earliest, out), trace) ←
    tracedSockets env s.portToDagInfo.keys { s with timer := none } env.now
  return ((if env.now < earliest then { s with timer := some earliest } else s, out), trace)

variable {env : Env} {s s' : XTransport} {sport q : UInt16} {out : List Output}
variable {sports : List UInt16}

/-! ### The record changes nothing -/

theorem map_tracedSocket (earliest : Nat) :
    Prod.fst <$> s.tracedSocket env sport earliest = s.timerSocket env sport earliest := by
  unfold tracedSocket timerSocket
  simp only [map_bind]
  congr 1
  funext d
  congr 1
  funext ⟨d', o, tear⟩
  cases tear with
  | true => simp
  | false => simp

theorem map_tracedSockets (sports : List UInt16) (earliest : Nat) :
    Prod.fst <$> tracedSockets env sports s earliest = timerSockets env sports s earliest := by
  induction sports generalizing s earliest with
  | nil => rfl
  | cons sport sports ih =>
    unfold tracedSockets timerSockets
    rw [← map_tracedSocket]
    simp only [map_bind, bind_map_left, map_pure]
    congr 1
    funext r
    rw [← ih, bind_map_left]

theorem map_tracedTimer (env : Env) (s : XTransport) :
    Prod.fst <$> s.tracedTimer env = s.runTimer env := by
  unfold tracedTimer runTimer
  rw [← map_tracedSockets]
  simp only [map_bind, bind_map_left, map_pure]

/-! ### The shape of the record -/

theorem tracedSocket_eq_ok {e e' : Nat} {trace : List Access}
    (h : s.tracedSocket env sport e = .ok ((s', e', out), trace)) :
    trace = bodyAccesses sport (s'.portToDagInfo.lookup sport).isNone := by
  simp only [tracedSocket, bind_eq_ok] at h
  obtain ⟨d, hd, ⟨d₁, o, tear⟩, htimeout, h⟩ := h
  cases tear with
  | true =>
    simp only [if_true, bind_eq_ok, pure_eq_ok, Prod.mk.injEq] at h
    obtain ⟨s₁, htear, ⟨rfl, -, -⟩, rfl⟩ := h
    simp only [tearDown, bind_eq_ok, pure_eq_ok] at htear
    obtain ⟨s₂, -, rfl⟩ := htear
    rw [HashTable.lookup_erase_eq, if_pos rfl]
    rfl
  | false =>
    simp only [Bool.false_eq_true, if_false, bind_eq_ok, pure_eq_ok, Prod.mk.injEq] at h
    obtain ⟨⟨d₂, e₂, copies⟩, -, ⟨rfl, -, -⟩, rfl⟩ := h
    rw [lookup_setDagInfo, if_pos rfl]
    rfl

theorem timerSockets_of_traced {e e' : Nat} {trace : List Access}
    (h : tracedSockets env sports s e = .ok ((s', e', out), trace)) :
    timerSockets env sports s e = .ok (s', e', out) := by
  rw [← map_tracedSockets, h]
  rfl

theorem tracedSockets_eq_ok {e e' : Nat} {trace : List Access} (hnodup : sports.Nodup)
    (h : tracedSockets env sports s e = .ok ((s', e', out), trace)) :
    trace = sports.flatMap fun q => bodyAccesses q (s'.portToDagInfo.lookup q).isNone := by
  induction sports generalizing s e out trace with
  | nil =>
    cases h
    rfl
  | cons sport sports ih =>
    obtain ⟨hnot, hnodup'⟩ := nodup_cons.1 hnodup
    simp only [tracedSockets, bind_eq_ok] at h
    obtain ⟨⟨⟨s₁, e₁, o₁⟩, t₁⟩, h₁, ⟨⟨s₂, e₂, o₂⟩, t₂⟩, h₂, h⟩ := h
    simp only [pure_eq_ok, Prod.mk.injEq] at h
    obtain ⟨⟨rfl, rfl, -⟩, rfl⟩ := h
    -- the later bodies leave the first socket, or its absence, alone
    have hsame : s₂.portToDagInfo.lookup sport = s₁.portToDagInfo.lookup sport :=
      (timerSockets_eq_ok hnodup' (timerSockets_of_traced h₂)).other sport hnot
    rw [tracedSocket_eq_ok h₁, ih hnodup' h₂, flatMap_cons, hsame]

theorem tracedTimer_eq_ok {trace : List Access} (h : s.tracedTimer env = .ok ((s', out), trace)) :
    trace = s.portToDagInfo.keys.flatMap fun q =>
      bodyAccesses q (s'.portToDagInfo.lookup q).isNone := by
  simp only [tracedTimer, bind_eq_ok] at h
  obtain ⟨⟨⟨s₁, e, o⟩, t⟩, h₁, h⟩ := h
  simp only [pure_eq_ok, Prod.mk.injEq] at h
  obtain ⟨⟨hs', -⟩, rfl⟩ := h
  have hsame : s'.portToDagInfo = s₁.portToDagInfo := by
    rw [← hs']
    split <;> rfl
  rw [hsame]
  exact tracedSockets_eq_ok s.portToDagInfo.keys_nodup h₁

theorem runTimer_of_traced {trace : List Access} (h : s.tracedTimer env = .ok ((s', out), trace)) :
    s.runTimer env = .ok (s', out) := by
  rw [← map_tracedTimer, h]
  rfl

theorem exists_traced (h : s.runTimer env = .ok (s', out)) :
    ∃ trace, s.tracedTimer env = .ok ((s', out), trace) := by
  rw [← map_tracedTimer] at h
  cases htraced : s.tracedTimer env with
  | error f =>
    rw [htraced] at h
    cases h
  | ok r =>
    rw [htraced] at h
    obtain ⟨r, trace⟩ := r
    cases h
    exact ⟨trace, rfl⟩

/-! ### Safety -/

/-- Every live socket is visited once and nothing else, and no access to an entry follows its
removal. -/
structure SafeTrace (s : XTransport) (trace : List Access) : Prop where
  once : ∀ q, (Access.visits trace).count q =
    if (s.portToDagInfo.lookup q).isSome then 1 else 0
  live : ∀ before q after, trace = before ++ .erase q :: after → ∀ a ∈ after, a.port ≠ q

theorem visits_bodyAccesses (q : UInt16) (tear : Bool) :
    Access.visits (bodyAccesses q tear) = [q] := by
  have hring : ((List.finRange maxWinSize).map (Access.ring q)).filterMap (fun a => match a with
        | .visit q => some q
        | _ => none) = [] := by
    rw [filterMap_map, filterMap_eq_nil_iff]
    intro i _
    rfl
  cases tear with
  | true => simp [Access.visits, bodyAccesses, hring]
  | false => rfl

theorem visits_flatMap (sports : List UInt16) (tear : UInt16 → Bool) :
    Access.visits (sports.flatMap fun q => bodyAccesses q (tear q)) = sports := by
  induction sports with
  | nil => rfl
  | cons sport sports ih =>
    rw [flatMap_cons, Access.visits, filterMap_append]
    change Access.visits _ ++ Access.visits _ = _
    rw [visits_bodyAccesses, ih]
    rfl

theorem count_keys (s : XTransport) (q : UInt16) :
    s.portToDagInfo.keys.count q = if (s.portToDagInfo.lookup q).isSome then 1 else 0 := by
  rw [s.portToDagInfo.keys_nodup.count]
  exact if_congr (HashTable.mem_keys_iff.trans Option.isSome_iff_exists.symm) rfl rfl

/-- A body that removes its socket is not safe: the ring is cleared through the erased entry. -/
theorem not_live_of_erased (tear : UInt16 → Bool) (hq : q ∈ sports) (htear : tear q = true) :
    ∃ before after, (sports.flatMap fun q => bodyAccesses q (tear q)) =
      before ++ .erase q :: after ∧ ∃ a ∈ after, a.port = q := by
  obtain ⟨l₁, l₂, rfl⟩ := append_of_mem hq
  refine ⟨(l₁.flatMap fun q => bodyAccesses q (tear q)) ++ [.visit q, .socket q],
    (List.finRange maxWinSize).map (.ring q) ++ [.advance q] ++
      l₂.flatMap fun q => bodyAccesses q (tear q), ?_, .advance q, ?_, rfl⟩
  · rw [flatMap_append, flatMap_cons, bodyAccesses, htear]
    simp
  · simp

theorem erase_not_mem {tear : UInt16 → Bool} (htear : ∀ q ∈ sports, tear q = false) :
    .erase q ∉ sports.flatMap fun q => bodyAccesses q (tear q) := by
  rw [mem_flatMap]
  rintro ⟨p, hp, hmem⟩
  rw [htear p hp] at hmem
  simp [bodyAccesses] at hmem

/-- `run_timer` runs through, and its accesses are safe. -/
def TimerSafe (env : Env) (s : XTransport) : Prop :=
  ∃ s' out trace, s.tracedTimer env = .ok ((s', out), trace) ∧ SafeTrace s trace

theorem TimerSafe.not_removable {d : DagInfo} (h : TimerSafe env s)
    (hd : s.portToDagInfo.lookup q = some d) : d.removable env.now = false := by
  obtain ⟨s', out, trace, htraced, hsafe⟩ := h
  have hrun := runTimer_of_traced htraced
  by_contra hrem
  rw [Bool.not_eq_false] at hrem
  have hnone : s'.portToDagInfo.lookup q = none :=
    (removed_iff hrun hd).2 (mem_removedPorts.2 ⟨d, hd, hrem⟩)
  have hmem : q ∈ s.portToDagInfo.keys := HashTable.mem_keys_iff.2 ⟨d, hd⟩
  obtain ⟨before, after, heq, a, ha, hport⟩ := not_live_of_erased
    (fun q => (s'.portToDagInfo.lookup q).isNone) hmem (by simp [hnone])
  rw [tracedTimer_eq_ok htraced] at hsafe
  exact hsafe.live before q after heq a ha hport

/-- **The lifetime of sockets in `run_timer`**: the call visits every live socket once and touches
none after its removal, exactly if no socket is due to be torn down and what is due can be done for
each. -/
theorem timerSafe_iff (env : Env) (s : XTransport) :
    TimerSafe env s ↔ ∀ q d, s.portToDagInfo.lookup q = some d →
      d.removable env.now = false ∧ d.Serviceable env.now s.localAddr := by
  constructor
  · intro h q d hd
    refine ⟨h.not_removable hd, ?_⟩
    obtain ⟨s', out, trace, htraced, -⟩ := id h
    exact (exists_runTimer_iff fun q d hd => h.not_removable hd).1
      ⟨s', out, runTimer_of_traced htraced⟩ q d hd
  · intro h
    have hkept q d (hd : s.portToDagInfo.lookup q = some d) := (h q d hd).1
    obtain ⟨s', out, hrun⟩ := (exists_runTimer_iff hkept).2 fun q d hd => (h q d hd).2
    obtain ⟨trace, htraced⟩ := exists_traced hrun
    have htrace := tracedTimer_eq_ok htraced
    refine ⟨s', out, trace, htraced, fun q => ?_, fun before q after heq => ?_⟩
    · rw [htrace, visits_flatMap _ fun q => (s'.portToDagInfo.lookup q).isNone, count_keys]
    · have hnot : ∀ p ∈ s.portToDagInfo.keys, (s'.portToDagInfo.lookup p).isNone = false := by
        intro p hp
        obtain ⟨d, hd⟩ := HashTable.mem_keys_iff.1 hp
        rw [Option.isNone_eq_false_iff, Option.isSome_iff_ne_none]
        intro hnone
        obtain ⟨d', hd', hrem⟩ := mem_removedPorts.1 ((removed_iff hrun hd).1 hnone)
        rw [hkept p d' hd'] at hrem
        cases hrem
      have habsent := erase_not_mem (q := q) hnot
      rw [← htrace, heq] at habsent
      exact absurd (mem_append_right _ mem_cons_self) habsent

/-- A closed socket, at the end of its delay: after the removal its ring is read. -/
theorem not_timerSafe_after_close : ∃ s out s' out' trace,
    Machine.run (step Sha1.zero) host [⟨.zero 0, .xsocket 1 1⟩, ⟨.zero 0, .xclose 1⟩] =
      .ok (s, out) ∧
    s.tracedTimer (.zero teardownDelay) = .ok ((s', out'), trace) ∧
    trace.take 4 = [.visit 1, .socket 1, .erase 1, .ring 1 0] ∧
    ¬ TimerSafe (.zero teardownDelay) s := by
  obtain ⟨s, out, hrun, s', out', trace, htraced, htake, d, hd, hrem⟩ : ∃ s out,
      Machine.run (step Sha1.zero) host [⟨.zero 0, .xsocket 1 1⟩, ⟨.zero 0, .xclose 1⟩] =
        .ok (s, out) ∧ ∃ s' out' trace,
        s.tracedTimer (.zero teardownDelay) = .ok ((s', out'), trace) ∧
        trace.take 4 = [.visit 1, .socket 1, .erase 1, .ring 1 0] ∧
        ∃ d, s.portToDagInfo.lookup 1 = some d ∧ d.removable teardownDelay = true := by
    decide +kernel
  refine ⟨s, out, s', out', trace, hrun, htraced, htake, fun hsafe => ?_⟩
  have hkept := hsafe.not_removable hd
  rw [show (Env.zero teardownDelay).now = teardownDelay from rfl, hrem] at hkept
  cases hkept

end XTransport

end Xia
