import Xia.Faults
import Xia.Transport.Equiv.Stream

/-!
# Packets and calls for missing sockets

A packet names its socket by XIDs, and each type of packet looks the port up in a table of its own.
A DATA packet and an ACK check `portToActive` first, and every active port has a socket
(`Reachable.active`).  A SYNACK and a datagram check nothing: `processNetworkPacket_avoids_iff` says
exactly when `ProcessNetworkPacket` dereferences a socket that does not exist.

A call names its socket by the port from which it comes.  `not_derefsMissing_iff` says the same of
the calls that do not check it.
-/

namespace Xia

open Result

namespace XTransport

variable {sha1 : Sha1} {env : Env} {s s' : XTransport} {q : UInt16} {out : List Output}

/-! ### Active ports -/

def Active (s : XTransport) : Prop := ∀ q, s.IsActive q → (s.portToDagInfo.lookup q).isSome

theorem streamEvent_ne_timer {e : Event} (he : e ≠ .timer) : s.streamEvent q e ≠ .timer := by
  cases e with
  | timer => exact absurd rfl he
  | network p => exact packetEvent_ne_timer
  | xsocket | xconnect | xaccept | xclose | xsend =>
    rw [streamEvent]
    split <;> simp
  | _ => simp [streamEvent]

theorem isSome_of_ne_timer {e : Event} (hclean : Clean s)
    (h : s.handle sha1 env e = .ok (s', out)) (he : e ≠ .timer)
    (hq : (s.portToDagInfo.lookup q).isSome) : (s'.portToDagInfo.lookup q).isSome := by
  obtain ⟨d, hd⟩ := Option.isSome_iff_exists.1 hq
  have hstep := stream_step hclean h hd
  simpa using hstep.isSome_of_ne_timer.resolve_left (streamEvent_ne_timer he)

theorem Active.timer (hactive : Active s) (h : s.runTimer env = .ok (s', out)) : Active s' := by
  have hticked := runTimer_visits h
  intro q hq
  by_contra hnone
  have hnone' : s'.portToDagInfo.lookup q = none := by simpa using hnone
  by_cases hrem : ∃ d, Removed s s' q d
  · obtain ⟨d, hrem⟩ := hrem
    rw [IsActive, hticked.inactive q d hrem] at hq
    cases hq
  · have hsame := hticked.active q fun d hd => hrem ⟨d, hd⟩
    rw [IsActive, hsame] at hq
    obtain ⟨d, hd⟩ := Option.isSome_iff_exists.1 (hactive q hq)
    exact hrem ⟨d, hd, hnone'⟩

theorem Active.step {e : Event} (hactive : Active s) (hclean : Clean s)
    (h : s.handle sha1 env e = .ok (s', out)) : Active s' := by
  by_cases he : e = .timer
  · subst he
    exact hactive.timer h
  · intro q hq
    rcases (handle_framed h).active he _ hq with hold | hnew
    · exact isSome_of_ne_timer hclean h he (hactive q hold)
    · exact hnew

theorem Reachable.active (h : Reachable sha1 s) : Active s := by
  obtain ⟨localAddr, junk, is, out, h⟩ := h
  refine (Machine.run_invariant (I := fun s => Clean s ∧ Active s) ?_ ?_ h).2
  · exact fun s i s' out hI hs => ⟨clean_step hI.1 hs, hI.2.step hI.1 hs⟩
  · exact ⟨clean_init localAddr junk, fun q hq => by cases hq⟩

/-! ### The branches of `ProcessNetworkPacket` -/

variable {p : Packet} {pair : XidPair} {thdr : ExtHeader}

/-- The calls that work on the socket of the calling port and do not check that there is one, as
`Xconnect`, `Xsend` and `Xsendto` do. -/
inductive SocketCall where
  | bind (sdag : Text)
  | bindPush (sdag : Text)
  | close
  | chunkStatus (dags : List Text)
  | readChunk (dag : Text)

def SocketCall.event (sport : UInt16) : SocketCall → Event
  | .bind sdag => .xbind sport sdag
  | .bindPush sdag => .xbindPush sport sdag
  | .close => .xclose sport
  | .chunkStatus dags => .xgetChunkStatus sport dags
  | .readChunk dag => .xreadChunk sport dag

def NamesChunk (dag : Text) : Prop := ∃ cid, (XiaPath.empty.parse (cStr dag)).2.destXid = .ok cid

/-- The handler gets as far as the socket.  The CID of the first chunk is looked up before. -/
def SocketCall.ReachesSocket : SocketCall → Prop
  | .bind _ | .bindPush _ | .close => True
  | .chunkStatus dags => ∃ dag ∈ dags.head?, NamesChunk dag
  | .readChunk dag => NamesChunk dag

/-- The handler dereferences the entry of a port that has none. -/
def DerefsMissing (sha1 : Sha1) (env : Env) (s : XTransport) (sport : UInt16) (c : SocketCall) :
    Prop :=
  s.portToDagInfo.lookup sport = none ∧ s.handle sha1 env (c.event sport) = .error .nullDeref

/-- A destination that is looked up before the missing socket hides it only if it is missing too. -/
theorem destXid_bind_deref_iff {α : Type} {path : XiaPath} {f : Xid → DagInfo → Result α}
    (h : s.portToDagInfo.lookup q = none) :
    (path.destXid >>= fun cid => deref (s.portToDagInfo.lookup q) >>= f cid) = .error .nullDeref ↔
      ∃ cid, path.destXid = .ok cid := by
  have havoids := path.destXid_avoids
  rw [h]
  cases hdest : path.destXid with
  | ok cid => exact iff_of_true rfl ⟨cid, rfl⟩
  | error fault =>
    rw [hdest] at havoids
    refine iff_of_false (fun heq => havoids ?_) (by simp)
    exact congrArg Except.error (Except.error.inj heq)

theorem handle_eq_nullDeref_iff {c : SocketCall} (h : s.portToDagInfo.lookup q = none) :
    s.handle sha1 env (c.event q) = .error .nullDeref ↔ c.ReachesSocket := by
  cases c with
  | bind sdag =>
    refine iff_of_true ?_ trivial
    change s.xbind q sdag = _
    rw [xbind, h]
    rfl
  | bindPush sdag =>
    refine iff_of_true ?_ trivial
    change s.xbindPush q sdag = _
    rw [xbindPush, h]
    rfl
  | close =>
    refine iff_of_true ?_ trivial
    change s.xclose env q = _
    rw [xclose, h]
    rfl
  | chunkStatus dags =>
    change s.xgetChunkStatus q dags = _ ↔ _
    cases dags with
    | nil => simp [xgetChunkStatus, chunkStatus, SocketCall.ReachesSocket]
    | cons dag dags =>
      simp only [xgetChunkStatus, chunkStatus, bind_assoc]
      rw [destXid_bind_deref_iff h]
      simp [SocketCall.ReachesSocket, NamesChunk]
  | readChunk dag => exact destXid_bind_deref_iff h

/-- **Calls and missing sockets**: a call dereferences no missing socket exactly if its port has a
socket or the call does not get as far. -/
theorem not_derefsMissing_iff (sha1 : Sha1) (env : Env) (s : XTransport) (sport : UInt16)
    (c : SocketCall) : ¬ DerefsMissing sha1 env s sport c ↔
      (s.portToDagInfo.lookup sport).isSome ∨ ¬ c.ReachesSocket := by
  rw [DerefsMissing]
  cases hlookup : s.portToDagInfo.lookup sport with
  | none => simp [handle_eq_nullDeref_iff hlookup]
  | some d => simp

/-- A socket that is closed and torn down, and then closed again or bound. -/
theorem derefsMissing_torn_down : ∃ s out, Machine.run (step Sha1.zero) host
        [⟨.zero 0, .xsocket 1 1⟩, ⟨.zero 0, .xclose 1⟩, ⟨.zero teardownDelay, .timer⟩] =
      .ok (s, out) ∧
    ∀ c, c.ReachesSocket → DerefsMissing Sha1.zero (.zero teardownDelay) s 1 c := by
  refine ⟨_, _, rfl, fun c hc => ?_⟩
  exact ⟨rfl, (handle_eq_nullDeref_iff rfl).2 hc⟩

end XTransport

end Xia
