import Xia.Transport.Accept
import Xia.Transport.Equiv.Stream

/-!
# Which connections `Xaccept` hands out

The pending connections form one queue for the whole element: every SYN appends an entry, resent
ones included, and every `Xaccept` takes the oldest.  So the connections accepted so far and the
pending ones are together the requests so far, in their order (`accepted_append_pending`).  What
`Xaccept` hands out is thus a matter of the order of SYNs and calls alone.
-/

namespace Xia

open List
open Machine (run run_cons_eq_ok withGhost withGhost_eq_ok)

namespace XTransport

variable {sha1 : Sha1} {env : Env} {s s' : XTransport} {e : Event} {out : List Output}

/-! ### One step -/

theorem map_newPending (env : Env) (e : Event) :
    (newPending env e).map socketPair = requested e := by
  cases e with
  | network p =>
    rw [newPending, requested]
    split <;> rfl
  | _ => rfl

theorem length_newPending (env : Env) (e : Event) :
    (newPending env e).length = (requested e).length := by
  rw [← map_newPending env e, length_map]

/-- The accepted socket is the oldest pending connection, as far as `Xaccept` keeps it. -/
theorem map_acceptedSocket {β : Type} {f : DagInfo → β} (hf : ∀ d : DagInfo, f d.xaccept = f d)
    (h : s.handle sha1 env e = .ok (s', out)) :
    (s.acceptedSocket e s').map f = (s.pendingConnectionBuf.take (taken e)).map f := by
  cases e with
  | xaccept q =>
    cases hp : s.pendingConnectionBuf with
    | nil => simp [acceptedSocket, hp]
    | cons pending rest =>
      obtain ⟨_, _, _, -, -, ht, -⟩ := xaccept_cons h hp
      simp [acceptedSocket, hp, taken, ht.self, hf]
  | _ => simp [acceptedSocket, taken]

theorem accepted_step {β : Type} {f : DagInfo → β} (hf : ∀ d : DagInfo, f d.xaccept = f d)
    (h : s.handle sha1 env e = .ok (s', out)) :
    (s.acceptedSocket e s').map f ++ s'.pendingConnectionBuf.map f =
      s.pendingConnectionBuf.map f ++ (newPending env e).map f := by
  rw [map_acceptedSocket hf h, pending_step h, map_append, ← append_assoc,
    ← map_append, take_append_drop]

/-! ### Runs -/

variable {is : List Input} {conns conns' : List (Option XidPair)}

/-- **First come, first served**: the accepted connections, followed by the pending ones, are the
requests in the order of their arrival. -/
theorem accepted_append_pending (h : run (withGhost (step sha1) recordAccepted) (s, conns) is =
      .ok ((s', conns'), out)) :
    conns' ++ s'.pendingConnectionBuf.map socketPair =
      conns ++ s.pendingConnectionBuf.map socketPair ++ requests is := by
  induction is generalizing s conns out with
  | nil =>
    cases h
    simp [requests]
  | cons i is ih =>
    obtain ⟨⟨s₁, conns₁⟩, o₁, o₂, h₁, h₂, -⟩ := run_cons_eq_ok.1 h
    obtain ⟨hs, rfl⟩ := withGhost_eq_ok.1 h₁
    have hstep := accepted_step (f := socketPair) (fun d => rfl) hs
    rw [map_newPending] at hstep
    rw [ih h₂, recordAccepted, append_assoc conns, hstep]
    simp [requests]

theorem length_accepted (h : run (withGhost (step sha1) recordAccepted) (s, conns) is =
      .ok ((s', conns'), out)) :
    conns'.length = conns.length + acceptCount s.pendingConnectionBuf.length is := by
  induction is generalizing s conns out with
  | nil =>
    cases h
    simp [acceptCount]
  | cons i is ih =>
    obtain ⟨⟨s₁, conns₁⟩, o₁, o₂, h₁, h₂, -⟩ := run_cons_eq_ok.1 h
    obtain ⟨hs, rfl⟩ := withGhost_eq_ok.1 h₁
    have hlen := congrArg List.length (map_acceptedSocket (f := socketPair) (fun d => rfl) hs)
    rw [length_map, length_map, length_take] at hlen
    rw [ih h₂, recordAccepted, acceptCount, length_append, length_map, hlen,
      pending_step hs, length_append, length_drop, length_newPending, Nat.min_comm]
    omega

/-- The accepted connections are the first requests, as many as there were calls that found one
pending. -/
theorem accepted_eq {localAddr : XiaPath} {junk : DagInfo}
    (h : run (withGhost (step sha1) recordAccepted)
      (init localAddr junk, []) is = .ok ((s', conns), out)) :
    conns = (requests is).take (acceptCount 0 is) := by
  have hlen : conns.length = acceptCount 0 is := by
    simpa [init] using length_accepted h
  have hfifo : conns ++ s'.pendingConnectionBuf.map socketPair = requests is := by
    simpa [init] using accepted_append_pending h
  rw [← hlen, ← hfifo, take_left]

/-- **At most one connection is accepted for a pair** exactly if at most one of the SYNs that
`Xaccept` calls answer asks for it.  Nothing removes a resent or duplicated SYN from the queue. -/
theorem accepted_once_iff {localAddr : XiaPath} {junk : DagInfo}
    (h : run (withGhost (step sha1) recordAccepted)
      (init localAddr junk, []) is = .ok ((s', conns), out)) (pair : XidPair) :
    conns.count (some pair) ≤ 1 ↔
      ((requests is).take (acceptCount 0 is)).count (some pair) ≤ 1 := by
  rw [accepted_eq h]

/-- What the server of the concrete runs receives and is called with: it listens on `SID:0a`. -/
def listening (ps : List Packet) (ports : List UInt16) : List Input :=
  [⟨.zero 0, .xsocket 1 1⟩, ⟨.zero 0, .xbind 1 "RE AD:03 HID:04 SID:0a".toList⟩] ++
    (ps.map fun p => ⟨.zero 0, .network p⟩) ++ ports.map fun q => ⟨.zero 0, .xaccept q⟩

/-- One `Xconnect` from `SID:0b` to `SID:0a`, with the SYN resent once. -/
def resentSyn : List Packet :=
  host.arrivals [⟨.zero 0, .xsocket 1 1⟩, ⟨.zero 0, .xbind 1 "RE AD:01 HID:02 SID:0b".toList⟩,
    connectCall, ⟨.zero ackDelay, .timer⟩]

theorem accepted_once_one_syn :
    ∃ s' conns out, run (withGhost (step Sha1.zero) recordAccepted) (peer, [])
        (listening (resentSyn.take 1) [2, 3]) = .ok ((s', conns), out) ∧
      conns = [some ⟨Xid.sid 'a', Xid.sid 'b'⟩] ∧
      conns.count (some ⟨Xid.sid 'a', Xid.sid 'b'⟩) ≤ 1 := by
  obtain ⟨s', _, out, h, rfl⟩ : ∃ s' conns out,
      run (withGhost (step Sha1.zero) recordAccepted) (peer, [])
        (listening (resentSyn.take 1) [2, 3]) = .ok ((s', conns), out) ∧
      conns = [some ⟨Xid.sid 'a', Xid.sid 'b'⟩] := by decide +kernel
  exact ⟨s', _, out, h, rfl, (accepted_once_iff h _).2 (by decide +kernel)⟩

/-- A SYN that was resent once gives two accepted sockets for one `Xconnect`. -/
theorem not_accepted_once_resent_syn :
    ∃ s' conns out, run (withGhost (step Sha1.zero) recordAccepted) (peer, [])
        (listening resentSyn [2, 3]) = .ok ((s', conns), out) ∧
      ¬ conns.count (some ⟨Xid.sid 'a', Xid.sid 'b'⟩) ≤ 1 := by
  decide +kernel

end XTransport

/-! ### Listeners -/

namespace Server

open XTransport (newPending acceptedSocket accepted_step nameOf isSyn taken)

variable {sha1 : Sha1} {sv sv' : Server} {e : ServerEvent} {es : List ServerEvent}
variable {calls calls' : List Accepted} {out : List Output}

theorem step_input_eq_ok {i : Input} (h : step sha1 sv (.input i) = .ok (sv', out)) :
    XTransport.step sha1 sv.element i = .ok (sv'.element, out) := by
  rw [step] at h
  split at h
  · cases h
  · rename_i hs
    cases h
    exact hs

theorem step_accept_eq_ok {env : Env} {listener newPort : UInt16}
    (h : step sha1 sv (.accept env listener newPort) = .ok (sv', out)) :
    (listener ∉ sv.notified ∧ sv' = sv) ∨ (listener ∈ sv.notified ∧
      XTransport.step sha1 sv.element ⟨env, .xaccept newPort⟩ = .ok (sv'.element, out)) := by
  rw [step] at h
  split at h
  · rename_i hmem
    split at h
    · cases h
    · rename_i hs
      cases h
      exact .inr ⟨hmem, hs⟩
  · rename_i hmem
    cases h
    exact .inl ⟨hmem, rfl⟩

theorem map_newPending_srcPath (i : Input) :
    (newPending i.env i.event).map (fun d => nameOf d.srcPath) = requestedNames [.input i] := by
  obtain ⟨env, e⟩ := i
  cases e with
  | network p =>
    rw [newPending]
    split
    · rename_i hsyn
      simp [requestedNames, hsyn, DagInfo.pending]
    · rename_i hsyn
      simp [requestedNames, hsyn]
  | _ => rfl

theorem requestedNames_cons (e : ServerEvent) (es : List ServerEvent) :
    requestedNames (e :: es) = requestedNames [e] ++ requestedNames es := by
  simp [requestedNames]

theorem recordAccepted_step (he : e.isProper) (h : step sha1 sv e = .ok (sv', out)) :
    (recordAccepted sv e sv' calls).map Accepted.connection ++
        sv'.element.pendingConnectionBuf.map (fun d => nameOf d.srcPath) =
      calls.map Accepted.connection ++
        sv.element.pendingConnectionBuf.map (fun d => nameOf d.srcPath) ++ requestedNames [e] := by
  cases e with
  | input i =>
    have hs := step_input_eq_ok h
    -- the input is not an `XACCEPT`, so nothing leaves the queue
    have htaken : taken i.event = 0 := by simpa [ServerEvent.isProper] using he
    rw [recordAccepted, XTransport.pending_step hs, htaken, drop_zero, map_append,
      map_newPending_srcPath, append_assoc]
  | accept env listener newPort =>
    have hnone : requestedNames [.accept env listener newPort] = [] := rfl
    rw [hnone, append_nil]
    rcases step_accept_eq_ok h with ⟨hmem, rfl⟩ | ⟨hmem, hs⟩
    · rw [recordAccepted, if_neg hmem]
    · have hstep := accepted_step (f := fun d => nameOf d.srcPath) (fun d => rfl) hs
      simp only [newPending, map_nil, append_nil] at hstep
      rw [recordAccepted, if_pos hmem, map_append, append_assoc, map_map, ← hstep]
      rfl

/-- The local names of the connections given to the calls, followed by those of the pending ones,
are the names of the SYNs in the order of their arrival. -/
theorem connections_append_pending (hes : ∀ e ∈ es, e.isProper)
    (h : run (withGhost (step sha1) recordAccepted) (sv, calls) es = .ok ((sv', calls'), out)) :
    calls'.map Accepted.connection ++
        sv'.element.pendingConnectionBuf.map (fun d => nameOf d.srcPath) =
      calls.map Accepted.connection ++
        sv.element.pendingConnectionBuf.map (fun d => nameOf d.srcPath) ++ requestedNames es := by
  induction es generalizing sv calls out with
  | nil =>
    cases h
    simp [requestedNames]
  | cons e es ih =>
    obtain ⟨⟨sv₁, calls₁⟩, o₁, o₂, h₁, h₂, -⟩ := run_cons_eq_ok.1 h
    obtain ⟨hs, rfl⟩ := withGhost_eq_ok.1 h₁
    rw [ih (fun e he => hes e (mem_cons_of_mem _ he)) h₂,
      recordAccepted_step (hes e mem_cons_self) hs, requestedNames_cons e es,
      append_assoc]

/-- **Every call of `Xaccept` gets a connection to its listener** exactly if the calls return in the
order in which the SYNs arrived: the `n`-th call that returns is on the listener to which the
`n`-th SYN was addressed. -/
theorem accept_per_listener_iff {localAddr : XiaPath} {junk : DagInfo} (hes : ∀ e ∈ es, e.isProper)
    (h : run (withGhost (step sha1) recordAccepted)
      (⟨XTransport.init localAddr junk, []⟩, []) es = .ok ((sv, calls), out)) :
    (∀ c ∈ calls, c.connection = c.listener) ↔
      calls.map Accepted.listener <+: requestedNames es := by
  have hfifo : calls.map Accepted.connection ++
      sv.element.pendingConnectionBuf.map (fun d => nameOf d.srcPath) = requestedNames es := by
    simpa [XTransport.init] using connections_append_pending hes h
  have hconns : calls.map Accepted.connection <+: requestedNames es := ⟨_, hfifo⟩
  constructor
  · intro hall
    have heq : calls.map Accepted.listener = calls.map Accepted.connection :=
      map_congr_left fun c hc => (hall c hc).symm
    rwa [heq]
  · intro hlisteners c hc
    -- two initial parts of the same length are equal
    have hlen : (calls.map Accepted.connection).length = (calls.map Accepted.listener).length := by
      rw [length_map, length_map]
    have heq :=
      (prefix_of_prefix_length_le hconns hlisteners (Nat.le_of_eq hlen)).eq_of_length hlen
    exact map_inj_left.1 heq c hc

/-- Two listeners, on `SID:0a` and on `SID:0b`, and a SYN to each of them, in this order. -/
def twoListeners : List ServerEvent :=
  ([⟨.zero 0, .xsocket 1 1⟩, ⟨.zero 0, .xbind 1 "RE AD:03 HID:04 SID:0a".toList⟩,
    ⟨.zero 0, .xsocket 2 1⟩, ⟨.zero 0, .xbind 2 "RE AD:03 HID:04 SID:0b".toList⟩].map
      ServerEvent.input) ++
    (XTransport.host.arrivals [⟨.zero 0, .xsocket 1 1⟩, XTransport.connectCall,
      ⟨.zero 0, .xsocket 2 1⟩, ⟨.zero 0, .xconnect 2 "RE AD:03 HID:04 SID:0b".toList⟩]).map
      fun p => .input ⟨.zero 0, .network p⟩

theorem accept_per_listener_in_order :
    ∃ sv calls out, run (withGhost (step Sha1.zero) recordAccepted) (⟨XTransport.peer, []⟩, [])
        (twoListeners ++ [.accept (.zero 0) 1 3, .accept (.zero 0) 2 4]) = .ok ((sv, calls), out) ∧
      calls.length = 2 ∧ ∀ c ∈ calls, c.connection = c.listener := by
  obtain ⟨sv, calls, out, h, hlen, hnames⟩ : ∃ sv calls out,
      run (withGhost (step Sha1.zero) recordAccepted) (⟨XTransport.peer, []⟩, [])
        (twoListeners ++ [.accept (.zero 0) 1 3, .accept (.zero 0) 2 4]) =
          .ok ((sv, calls), out) ∧ calls.length = 2 ∧ calls.map Accepted.listener <+:
        requestedNames (twoListeners ++ [.accept (.zero 0) 1 3, .accept (.zero 0) 2 4]) := by
    decide +kernel
  exact ⟨sv, calls, out, h, hlen, (accept_per_listener_iff (by decide +kernel) h).2 hnames⟩

/-- If the second listener calls first, it gets the connection of the first one. -/
theorem not_accept_per_listener_swapped :
    ∃ sv calls out, run (withGhost (step Sha1.zero) recordAccepted)
        (⟨XTransport.peer, []⟩, []) (twoListeners ++ [.accept (.zero 0) 2 3]) =
          .ok ((sv, calls), out) ∧
      calls = [⟨some (Xid.sid 'b'), some (Xid.sid 'a')⟩] ∧
      ¬ ∀ c ∈ calls, c.connection = c.listener := by
  decide +kernel

end Server

end Xia
