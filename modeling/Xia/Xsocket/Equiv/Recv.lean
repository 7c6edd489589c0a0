import Xia.Xsocket.Recv

/-!
# Stashed bytes

The bytes that were handed out, followed by those that are stashed, are the payloads that were taken
from Click (`Kept`).  A call can break this only if its length is a multiple of `2 ^ 32`: the length
becomes zero on the way to the stash, so that nothing is taken from there and the next message comes
first.  `readsInOrder_iff` is the result for streams.

For datagrams there is also the sender.  It is remembered by a call that peeks and by no other, so
that without flags every request for the address of stashed bytes copies it from a null pointer
(`dgramsInOrder_iff`).
-/

namespace Xia

open List Option

namespace Xsocket

variable {α β : Type} {s : SocketState α β} {log : List (Read α β)} {r : Read α β}

/-! ### The stash -/

namespace SocketState

theorem data_eq (s : SocketState α β) (n : UInt32) :
    s.data n = (s.buf.take n.toNat, { s with buf := s.buf.drop n.toNat }) := by
  rw [data]
  split
  · rename_i h
    have hnil : s.buf = [] := length_eq_zero_iff.1 h
    rw [hnil, take_nil, drop_nil, ← hnil]
  · split
    · rfl
    · rename_i h
      rw [take_of_length_le (Nat.le_of_not_lt h), drop_eq_nil_of_le (Nat.le_of_not_lt h)]

theorem data_of_take_eq_nil {n : UInt32} (h : s.buf.take n.toNat = []) : s.data n = ([], s) := by
  have hsame : s.buf.drop n.toNat = s.buf := by
    rcases take_eq_nil_iff.1 h with hzero | hnil
    · rw [hzero, drop_zero]
    · rw [hnil, drop_nil]
  rw [data_eq, h, hsame]

theorem takePayload_fst (s : SocketState α β) (len : UInt64) (payload : List α) :
    (s.takePayload len payload).1 = payload.take len.toNat := by
  rw [takePayload]
  split
  · rename_i h
    rw [take_of_length_le h]
  · rfl

theorem takePayload_snd (s : SocketState α β) (len : UInt64) (payload : List α) :
    (s.takePayload len payload).2 =
      { s with buf := if payload.length ≤ len.toNat then s.buf else payload.drop len.toNat } := by
  rw [takePayload]
  split
  · rfl
  · rw [setData, if_neg (by rw [length_drop]; omega)]

end SocketState

/-! ### What is kept -/

def returned (log : List (Read α β)) : List α := log.flatMap Read.bytes

def consumed (log : List (Read α β)) : List α :=
  log.flatMap fun r => (r.taken.map RecvMsg.payload).getD []

/-- The bytes handed out and those that are stashed are the payloads that were taken. -/
def Kept (c : SocketState α β × List (Read α β)) : Prop :=
  returned c.2 ++ c.1.buf = consumed c.2

instance [DecidableEq α] (c : SocketState α β × List (Read α β)) : Decidable (Kept c) :=
  inferInstanceAs (Decidable (_ = _))

theorem returned_concat : returned (log ++ [r]) = returned log ++ r.bytes := by
  simp [returned]

theorem consumed_concat :
    consumed (log ++ [r]) = consumed log ++ (r.taken.map RecvMsg.payload).getD [] := by
  simp [consumed]

theorem kept_idle (h : Kept (s, log)) (hbytes : r.bytes = []) (htaken : r.taken = none) :
    Kept (s, log ++ [r]) := by
  rw [Kept, returned_concat, consumed_concat, hbytes, htaken]
  simpa [Kept] using h

theorem kept_stash (h : Kept (s, log)) {n : Nat} (hbytes : r.bytes = s.buf.take n)
    (htaken : r.taken = none) : Kept ({ s with buf := s.buf.drop n }, log ++ [r]) := by
  rw [Kept, returned_concat, consumed_concat, hbytes, htaken, append_assoc, take_append_drop]
  simpa [Kept] using h

theorem kept_taken_iff (h : Kept (s, log)) {len : UInt64} (hlen : len ≠ 0) {msg : RecvMsg α}
    (hnone : s.buf.take len.toUInt32.toNat = [])
    (hbytes : r.bytes = (s.takePayload len msg.payload).1) (htaken : r.taken = some msg) :
    Kept ((s.takePayload len msg.payload).2, log ++ [r]) ↔
      msg.payload ++ s.buf = s.buf ++ msg.payload := by
  rw [Kept, returned_concat, consumed_concat, hbytes, htaken]
  rw [Kept] at h
  rcases Nat.lt_or_ge len.toNat msg.payload.length with hlt | hle
  · -- such a length is not a multiple of `2 ^ 32`, so the stash was empty
    have hnil : s.buf = [] := by
      have hsize := msg.size
      have hpos : 0 < len.toNat := Nat.pos_of_ne_zero fun h0 => hlen (UInt64.toNat_inj.1 h0)
      rw [maxbuflen] at hsize
      rw [take_eq_nil_iff, UInt64.toNat_toUInt32] at hnone
      exact hnone.resolve_left (by omega)
    rw [SocketState.takePayload_fst, SocketState.takePayload_snd, if_neg (Nat.not_le.2 hlt),
      append_assoc, take_append_drop, ← h, hnil]
    simp
  · rw [SocketState.takePayload_fst, SocketState.takePayload_snd, if_pos hle,
      take_of_length_le hle, ← h]
    simp

/-! ### Streams -/

def SocketState.stream : SocketState α β := ⟨xsockStream, true, [], none⟩

/-- The call is not refused because of its arguments, and asks for something. -/
def RecvArgs.Proper (args : RecvArgs) : Prop :=
  args.flags = 0 ∧ args.len ≠ 0 ∧ args.rbuf = true

theorem xrecv_of_not_proper {args : RecvArgs} (h : ¬ args.Proper) (reply : Option (RecvMsg α)) :
    (xrecv s args reply).2 = s ∧ (xrecv s args reply).1.bytes = [] ∧
      (xrecv s args reply).1.taken = none ∧ (xrecv s args reply).1.ret ≤ 0 := by
  have hfail : (-1 : Int) ≤ 0 := by decide
  unfold xrecv
  split
  · exact ⟨rfl, rfl, rfl, hfail⟩
  rename_i hflags
  split
  · exact ⟨rfl, rfl, rfl, le_refl (0 : Int)⟩
  rename_i hlen
  split
  · exact ⟨rfl, rfl, rfl, hfail⟩
  · rename_i hbuf
    exact absurd ⟨not_not.1 hflags, hlen, not_not.1 hbuf⟩ h

section

variable (htype : s.transportType = xsockStream) (hconn : s.connected = true)
include htype hconn

theorem xrecv_stash {args : RecvArgs} (h : args.Proper) (reply : Option (RecvMsg α))
    (hstash : s.buf.take args.len.toUInt32.toNat ≠ []) :
    xrecv s args reply = (⟨s.buf.take args.len.toUInt32.toNat, none, none,
        (s.buf.take args.len.toUInt32.toNat).length, none, none⟩,
        { s with buf := s.buf.drop args.len.toUInt32.toNat }) := by
  obtain ⟨hflags, hlen, hbuf⟩ := h
  have hpos : 0 < (s.buf.take args.len.toUInt32.toNat).length := length_pos_iff.2 hstash
  have hvalid : s.validate xsockStream .eopnotsupp = none := if_pos (Or.inl htype)
  simp only [xrecv, hflags, hlen, hbuf, hvalid, hconn, SocketState.data_eq, hpos, not_true_eq_false,
    ne_eq, if_false, if_true]

theorem xrecv_no_stash {args : RecvArgs} (h : args.Proper) (reply : Option (RecvMsg α))
    (hstash : s.buf.take args.len.toUInt32.toNat = []) :
    xrecv s args reply = (reply.elim (.fail .system, s) fun msg =>
      (⟨(s.takePayload args.len msg.payload).1, none, none,
        (s.takePayload args.len msg.payload).1.length, none, some msg⟩,
        (s.takePayload args.len msg.payload).2)) := by
  obtain ⟨hflags, hlen, hbuf⟩ := h
  have hvalid : s.validate xsockStream .eopnotsupp = none := if_pos (Or.inl htype)
  simp only [xrecv, hflags, hlen, hbuf, hvalid, hconn, SocketState.data_of_take_eq_nil hstash,
    length_nil, lt_irrefl, not_true_eq_false, ne_eq, if_false]
  cases reply with
  | none => rfl
  | some msg => rfl

/-- The call does not take a message before the bytes that are stashed. -/
def InTurn (s : SocketState α β) (call : RecvArgs × Option (RecvMsg α)) : Prop :=
  call.1.Proper → call.1.len.toUInt32 = 0 →
    ∀ msg ∈ call.2, msg.payload ++ s.buf = s.buf ++ msg.payload

def NoMore (s : SocketState α β) (call : RecvArgs × Option (RecvMsg α)) : Prop :=
  (xrecv s call.1 call.2).1.bytes.length ≤ call.1.len.toNat ∧
    (xrecv s call.1 call.2).1.ret ≤ call.1.len.toNat

/-- A call changes nothing of the socket but the stash. -/
theorem xrecv_socket (args : RecvArgs) (reply : Option (RecvMsg α)) :
    (xrecv s args reply).2.transportType = xsockStream ∧
      (xrecv s args reply).2.connected = true := by
  by_cases h : args.Proper
  · by_cases hstash : s.buf.take args.len.toUInt32.toNat = []
    · rw [xrecv_no_stash htype hconn h reply hstash]
      cases reply with
      | none => exact ⟨htype, hconn⟩
      | some msg =>
        rw [elim_some, SocketState.takePayload_snd]
        exact ⟨htype, hconn⟩
    · rw [xrecv_stash htype hconn h reply hstash]
      exact ⟨htype, hconn⟩
  · rw [(xrecv_of_not_proper h reply).1]
    exact ⟨htype, hconn⟩

theorem noMore (call : RecvArgs × Option (RecvMsg α)) : NoMore s call := by
  obtain ⟨args, reply⟩ := call
  by_cases h : args.Proper
  · by_cases hstash : s.buf.take args.len.toUInt32.toNat = []
    · rw [NoMore, xrecv_no_stash htype hconn h reply hstash]
      cases reply with
      | none =>
        have hfail : (-1 : Int) ≤ args.len.toNat := by omega
        exact ⟨Nat.zero_le _, hfail⟩
      | some msg =>
        have hle : (msg.payload.take args.len.toNat).length ≤ args.len.toNat :=
          length_take_le _ _
        rw [elim_some, SocketState.takePayload_fst]
        exact ⟨hle, Int.ofNat_le.2 hle⟩
    · have hle : (s.buf.take args.len.toUInt32.toNat).length ≤ args.len.toNat := by
        have hmod := Nat.mod_le args.len.toNat (2 ^ 32)
        rw [length_take, UInt64.toNat_toUInt32]
        omega
      rw [NoMore, xrecv_stash htype hconn h reply hstash]
      exact ⟨hle, Int.ofNat_le.2 hle⟩
  · obtain ⟨-, hbytes, -, hret⟩ := xrecv_of_not_proper (s := s) h reply
    exact ⟨by rw [hbytes]; exact Nat.zero_le _, hret.trans (Int.natCast_nonneg _)⟩

/-- **One call keeps the bytes in order exactly if it is in turn.** -/
theorem kept_xrecv_iff (hkept : Kept (s, log)) (call : RecvArgs × Option (RecvMsg α)) :
    Kept ((xrecv s call.1 call.2).2, log ++ [(xrecv s call.1 call.2).1]) ↔ InTurn s call := by
  obtain ⟨args, reply⟩ := call
  by_cases h : args.Proper
  · by_cases hstash : s.buf.take args.len.toUInt32.toNat = []
    · cases reply with
      | none =>
        rw [xrecv_no_stash htype hconn h none hstash]
        exact iff_of_true (kept_idle hkept rfl rfl) fun _ _ _ hmsg => (not_mem_none _ hmsg).elim
      | some msg =>
        rw [xrecv_no_stash htype hconn h _ hstash, elim_some,
          kept_taken_iff hkept h.2.1 hstash rfl rfl]
        constructor
        · rintro hcomm - - _ ⟨⟩
          exact hcomm
        · intro hturn
          rcases take_eq_nil_iff.1 hstash with hzero | hnil
          · exact hturn h (UInt32.toNat_inj.1 hzero) msg rfl
          · rw [hnil, append_nil, nil_append]
    · rw [xrecv_stash htype hconn h reply hstash]
      refine iff_of_true (kept_stash hkept rfl rfl) fun _ hzero => ?_
      exact absurd (by rw [show args.len.toUInt32 = 0 from hzero]; rfl) hstash
  · obtain ⟨hsame, hbytes, htaken, -⟩ := xrecv_of_not_proper (s := s) h reply
    rw [hsame]
    exact iff_of_true (kept_idle hkept hbytes htaken) fun hproper => absurd hproper h

end

theorem streamStep_eq_ok {s' : SocketState α β} {call : RecvArgs × Option (RecvMsg α)}
    {out : List (Read α β)} (h : streamStep s call = .ok (s', out)) :
    s' = (xrecv s call.1 call.2).2 ∧ out = [(xrecv s call.1 call.2).1] := by
  have heq : streamStep s call = .ok ((xrecv s call.1 call.2).2, [(xrecv s call.1 call.2).1]) := rfl
  rw [heq] at h
  cases h
  exact ⟨rfl, rfl⟩

/-- **Stream reads preserve bytes**, in every state that the calls reach. -/
structure ReadsInOrder (β : Type) (calls : List (RecvArgs × Option (RecvMsg α))) : Prop where
  kept : Machine.AllStates (Machine.logged (streamStep (β := β))) Kept (.stream, []) calls
  noMore : Machine.AllSteps (streamStep (β := β)) NoMore .stream calls

/-- **Stream reads preserve bytes exactly if no message is taken before stashed bytes.** -/
theorem readsInOrder_iff (β : Type) (calls : List (RecvArgs × Option (RecvMsg α))) :
    ReadsInOrder β calls ↔ Machine.AllSteps (streamStep (β := β)) InTurn .stream calls := by
  have hkept : Machine.AllStates (Machine.logged (streamStep (β := β))) Kept (.stream, []) calls ↔
      Machine.AllSteps (Machine.logged (streamStep (β := β))) (fun c => InTurn c.1) (.stream, [])
        calls := by
    refine Machine.allStates_iff_allSteps (E := fun _ => True)
      (I := fun c => c.1.transportType = xsockStream ∧ c.1.connected = true) ?_
      (fun _ _ => trivial) ⟨rfl, rfl⟩ rfl
    rintro ⟨s, log⟩ call ⟨s', log'⟩ out - ⟨htype, hconn⟩ hkept h
    obtain ⟨hs, rfl⟩ := Machine.logged_eq_ok.1 h
    obtain ⟨rfl, rfl⟩ := streamStep_eq_ok hs
    exact ⟨xrecv_socket htype hconn call.1 call.2, kept_xrecv_iff htype hconn hkept call⟩
  rw [Machine.allSteps_logged] at hkept
  refine ⟨fun h => hkept.1 h.kept, fun h => ⟨hkept.2 h, ?_⟩⟩
  refine Machine.allSteps_of_allSteps (C := InTurn)
    (I := fun s => s.transportType = xsockStream ∧ s.connected = true) ?_ ⟨rfl, rfl⟩ h
  rintro s call s' out ⟨htype, hconn⟩ - h
  obtain ⟨rfl, rfl⟩ := streamStep_eq_ok h
  exact ⟨xrecv_socket htype hconn call.1 call.2, noMore htype hconn call⟩

/-- One byte of two is read, and then a call with a buffer of `2 ^ 32` bytes gets the next message
instead of the other one. -/
theorem not_readsInOrder_wide :
    ¬ ReadsInOrder Unit [(⟨true, 1, 0⟩, some ⟨[(1 : UInt8), 2], [], by decide⟩),
      (⟨true, 2 ^ 32, 0⟩, some ⟨[3], [], by decide⟩)] := by
  intro h
  exact absurd h.kept (by decide)

/-! ### Datagrams -/

def SocketState.dgram : SocketState α β := ⟨xsockDgram, false, [], none⟩

section

variable (addressOf : Text → β) {args : RecvfromArgs} (htype : s.transportType = xsockDgram)
  (hcheck : args.check = none)

theorem xrecvfrom_of_check {e : Errno} (h : args.check = some e) (reply : Option (RecvMsg α)) :
    xrecvfrom addressOf s args reply = .ok (.fail e, s) := by
  rw [xrecvfrom, h]
  rfl

include htype hcheck

theorem xrecvfrom_stash_addr (reply : Option (RecvMsg α))
    (hstash : s.buf.take args.len.toUInt32.toNat ≠ []) (haddr : args.addr = true)
    (hpeer : s.peer = none) : xrecvfrom addressOf s args reply = .error .nullDeref := by
  have hpos : 0 < (s.buf.take args.len.toUInt32.toNat).length := length_pos_iff.2 hstash
  have hvalid : s.validate xsockDgram .eopnotsupp = none := if_pos (Or.inl htype)
  simp only [xrecvfrom, hcheck, hvalid, SocketState.data_eq, hpos, if_true, haddr, hpeer]
  rfl

theorem xrecvfrom_stash (reply : Option (RecvMsg α))
    (hstash : s.buf.take args.len.toUInt32.toNat ≠ []) (haddr : args.addr = false) :
    xrecvfrom addressOf s args reply =
      .ok (⟨s.buf.take args.len.toUInt32.toNat, none, args.addrlen.map fun _ => 0,
        (s.buf.take args.len.toUInt32.toNat).length, none, none⟩,
        { s with buf := s.buf.drop args.len.toUInt32.toNat }) := by
  have hpos : 0 < (s.buf.take args.len.toUInt32.toNat).length := length_pos_iff.2 hstash
  have hvalid : s.validate xsockDgram .eopnotsupp = none := if_pos (Or.inl htype)
  simp only [xrecvfrom, hcheck, hvalid, SocketState.data_eq, hpos, if_true, haddr]
  rfl

theorem xrecvfrom_no_stash (hflags : args.flags = 0) (reply : Option (RecvMsg α))
    (hstash : s.buf.take args.len.toUInt32.toNat = []) :
    xrecvfrom addressOf s args reply = .ok (reply.elim (.fail .system, s) fun msg =>
      (⟨(s.takePayload args.len msg.payload).1,
        if args.addr then some (addressOf msg.dag) else none,
        if args.addr then some sizeofSockaddrX else none,
        (s.takePayload args.len msg.payload).1.length, none, some msg⟩,
        (s.takePayload args.len msg.payload).2)) := by
  have hvalid : s.validate xsockDgram .eopnotsupp = none := if_pos (Or.inl htype)
  have hpeek : ¬ (0 : Int) = msgPeek := by decide
  simp only [xrecvfrom, hcheck, hvalid, SocketState.data_of_take_eq_nil hstash, length_nil,
    lt_irrefl, if_false, hflags, hpeek]
  cases reply with
  | none => rfl
  | some msg => rfl

end

def PlainArgs := {args : RecvfromArgs // args.flags = 0 ∧ args.len ≠ 0}

/-- A message each of whose bytes says where it comes from. -/
def tag (addressOf : Text → β) (msg : RecvMsg UInt8) : RecvMsg (UInt8 × β) where
  payload := msg.payload.map fun b => (b, addressOf msg.dag)
  dag := msg.dag
  size := (length_map _).trans_lt msg.size

/-- A datagram socket, with calls without flags and bytes that say where they come from. -/
def plainStep (addressOf : Text → β) : Machine.Step (SocketState (UInt8 × β) β)
    (PlainArgs × Option (RecvMsg UInt8)) Fault (Read (UInt8 × β) β) :=
  fun s call => dgramStep addressOf s (call.1.val, call.2.map (tag addressOf))

/-! ### Without the senders -/

section

variable {γ : Type} (f : α → γ)

def SocketState.map (s : SocketState α β) : SocketState γ β := { s with buf := s.buf.map f }

def RecvMsg.map (msg : RecvMsg α) : RecvMsg γ :=
  ⟨msg.payload.map f, msg.dag, (length_map f).trans_lt msg.size⟩

def Read.map (r : Read α β) : Read γ β :=
  { r with bytes := r.bytes.map f, taken := r.taken.map (RecvMsg.map f) }

theorem SocketState.data_map (s : SocketState α β) (n : UInt32) :
    (s.map f).data n = ((s.data n).1.map f, (s.data n).2.map f) := by
  rw [data_eq, data_eq, map, map_take, map, map_drop]

theorem SocketState.setData_map (s : SocketState α β) (buf : List α) :
    (s.map f).setData (buf.map f) = (s.setData buf).map f := by
  rw [setData, setData, length_map]
  split <;> rfl

theorem SocketState.takePayload_map (s : SocketState α β) (len : UInt64) (payload : List α) :
    (s.map f).takePayload len (payload.map f) =
      ((s.takePayload len payload).1.map f, (s.takePayload len payload).2.map f) := by
  rw [takePayload, takePayload, length_map]
  split
  · rfl
  · rw [← map_take, ← map_drop, setData_map]

/-- **What `Xrecvfrom` does, does not depend on the bytes.** -/
theorem xrecvfrom_map (addressOf : Text → β) (s : SocketState α β) (args : RecvfromArgs)
    (reply : Option (RecvMsg α)) :
    xrecvfrom addressOf (s.map f) args (reply.map (RecvMsg.map f)) =
      (xrecvfrom addressOf s args reply).map (Prod.map (Read.map f) (SocketState.map f)) := by
  have hvalid : (s.map f).validate xsockDgram .eopnotsupp = s.validate xsockDgram .eopnotsupp := rfl
  unfold xrecvfrom
  rw [hvalid, SocketState.data_map]
  cases args.check with
  | some e => rfl
  | none =>
  cases s.validate xsockDgram .eopnotsupp with
  | some e => rfl
  | none =>
  dsimp only
  rw [length_map]
  split
  · split
    · have hpeer : ((s.data args.len.toUInt32).2.map f).peer = (s.data args.len.toUInt32).2.peer :=
        rfl
      rw [hpeer]
      cases (s.data args.len.toUInt32).2.peer with
      | none => rfl
      | some peer => rfl
    · rfl
  · cases reply with
    | none => rfl
    | some msg =>
      have hpayload : (msg.map f).payload = msg.payload.map f := rfl
      dsimp only [map_some]
      rw [hpayload, SocketState.takePayload_map]
      dsimp only
      rw [SocketState.setData_map, length_map]
      split_ifs <;> rfl

end

theorem map_tag (addressOf : Text → β) (msg : RecvMsg UInt8) :
    (tag addressOf msg).map Prod.fst = msg := by
  have hpayload : ((tag addressOf msg).map Prod.fst).payload = msg.payload :=
    List.map_map.trans (List.map_id _)
  cases msg
  exact (RecvMsg.mk.injEq ..).mpr ⟨hpayload, rfl⟩

/-- The run without the senders is that of the socket. -/
theorem run_dgramStep (addressOf : Text → β) (s : SocketState (UInt8 × β) β)
    (calls : List (PlainArgs × Option (RecvMsg UInt8))) :
    Machine.run (dgramStep addressOf) (s.map Prod.fst) (calls.map fun c => (c.1.val, c.2)) =
      (Machine.run (plainStep addressOf) s calls).map fun r =>
        (r.1.map Prod.fst, r.2.map (Read.map Prod.fst)) := by
  refine Machine.run_map (fun s call => ?_) s calls
  have hreply : call.2 = (call.2.map (tag addressOf)).map (RecvMsg.map Prod.fst) := by
    cases call.2 with
    | none => rfl
    | some msg => rw [map_some, map_some, map_tag]
  change (xrecvfrom addressOf (s.map Prod.fst) call.1.val call.2 >>= fun r => pure (r.2, [r.1])) =
    (xrecvfrom addressOf s call.1.val (call.2.map (tag addressOf)) >>= fun r =>
      pure (r.2, [r.1])).map _
  nth_rw 1 [hreply]
  rw [xrecvfrom_map]
  cases xrecvfrom addressOf s call.1.val (call.2.map (tag addressOf)) with
  | error e => rfl
  | ok r => rfl

/-- The call returns, keeps the bytes in order, and gives the address of the sender if it is asked
for it. -/
def Answers (addressOf : Text → β) (c : SocketState (UInt8 × β) β × List (Read (UInt8 × β) β))
    (call : PlainArgs × Option (RecvMsg UInt8)) : Prop :=
  ∃ r s', xrecvfrom addressOf c.1 call.1.val (call.2.map (tag addressOf)) = .ok (r, s') ∧
    Kept (s', c.2 ++ [r]) ∧
    (call.1.val.addr = true → r.errno = none → ∃ a, r.addr = some a ∧
      (∀ b ∈ r.bytes, b.2 = a) ∧ ∀ msg ∈ r.taken, addressOf msg.dag = a)

/-- The call does not ask for the address of stashed bytes, and does not take a datagram before
them. -/
def DgramInTurn (addressOf : Text → β) (s : SocketState (UInt8 × β) β)
    (call : PlainArgs × Option (RecvMsg UInt8)) : Prop :=
  call.1.val.check = none → (call.1.val.len.toUInt32 ≠ 0 → s.buf ≠ [] → call.1.val.addr = false) ∧
    (call.1.val.len.toUInt32 = 0 → ∀ msg ∈ call.2,
      (tag addressOf msg).payload ++ s.buf = s.buf ++ (tag addressOf msg).payload)

section

variable {addressOf : Text → β} {s : SocketState (UInt8 × β) β}
  {log : List (Read (UInt8 × β) β)} (htype : s.transportType = xsockDgram) (hpeer : s.peer = none)
  (hkept : Kept (s, log)) (call : PlainArgs × Option (RecvMsg UInt8))

theorem mem_takePayload_tag {len : UInt64} {msg : RecvMsg UInt8} {b : UInt8 × β}
    (hb : b ∈ (s.takePayload len (tag addressOf msg).payload).1) : b.2 = addressOf msg.dag := by
  rw [SocketState.takePayload_fst] at hb
  obtain ⟨byte, -, rfl⟩ := List.mem_map.1 (mem_of_mem_take hb)
  rfl

include htype hpeer hkept

/-- **One call is answered rightly exactly if it is in turn.** -/
theorem answers_iff : Answers addressOf (s, log) call ↔ DgramInTurn addressOf s call := by
  obtain ⟨⟨args, hflags, hlen⟩, reply⟩ := call
  cases hcheck : args.check with
  | some e =>
    have hcall := xrecvfrom_of_check (s := s) addressOf hcheck (reply.map (tag addressOf))
    refine iff_of_true ⟨_, _, hcall, kept_idle hkept rfl rfl, fun _ h => ?_⟩ fun h => ?_
    · cases h
    · exact absurd (hcheck.symm.trans h) (some_ne_none e)
  | none =>
  by_cases hstash : s.buf.take args.len.toUInt32.toNat = []
  · -- the next datagram is taken
    have hcall :=
      xrecvfrom_no_stash addressOf htype hcheck hflags (reply.map (tag addressOf)) hstash
    have hempty : args.len.toUInt32 ≠ 0 → s.buf = [] := fun hlen32 =>
      (take_eq_nil_iff.1 hstash).resolve_left fun h => hlen32 (UInt32.toNat_inj.1 h)
    cases reply with
    | none =>
      refine iff_of_true ⟨_, _, hcall, kept_idle hkept rfl rfl, fun _ h => ?_⟩ fun _ =>
        ⟨fun h hne => absurd (hempty h) hne, fun _ msg hmsg => (not_mem_none msg hmsg).elim⟩
      cases h
    | some msg =>
      have hiff := kept_taken_iff (r := ⟨(s.takePayload args.len (tag addressOf msg).payload).1,
        if args.addr then some (addressOf msg.dag) else none,
        if args.addr then some sizeofSockaddrX else none,
        (s.takePayload args.len (tag addressOf msg).payload).1.length, none,
        some (tag addressOf msg)⟩) hkept hlen hstash rfl rfl
      constructor
      · rintro ⟨r, s', hcall', hkept', -⟩ -
        rw [hcall] at hcall'
        cases hcall'
        refine ⟨fun h hne => absurd (hempty h) hne, ?_⟩
        rintro - _ ⟨⟩
        exact hiff.1 hkept'
      · intro hturn
        refine ⟨_, _, hcall, hiff.2 ?_, fun haddr _ => ?_⟩
        · by_cases hlen32 : args.len.toUInt32 = 0
          · exact (hturn hcheck).2 hlen32 msg rfl
          · rw [hempty hlen32, append_nil, nil_append]
        · refine ⟨addressOf msg.dag, if_pos haddr, fun b hb => mem_takePayload_tag hb, ?_⟩
          rintro _ ⟨⟩
          rfl
  · have hne : s.buf ≠ [] := fun hnil => hstash (by rw [hnil, take_nil])
    have hlen32 : args.len.toUInt32 ≠ 0 := fun hzero => hstash (by rw [hzero]; rfl)
    cases haddr : args.addr with
    | true =>
      refine iff_of_false ?_ fun h => ?_
      · rintro ⟨r, s', hcall, -⟩
        rw [xrecvfrom_stash_addr _ htype hcheck _ hstash haddr hpeer] at hcall
        cases hcall
      · have hnot : args.addr = false := (h hcheck).1 hlen32 hne
        rw [haddr] at hnot
        cases hnot
    | false =>
      have hcall := xrecvfrom_stash addressOf htype hcheck (reply.map (tag addressOf)) hstash haddr
      refine iff_of_true ⟨_, _, hcall, kept_stash hkept rfl rfl, fun h => ?_⟩ fun _ =>
        ⟨fun _ _ => haddr, fun hzero => absurd hzero hlen32⟩
      exact absurd (haddr.symm.trans h) (by decide)

omit hkept in
theorem xrecvfrom_socket {r : Read (UInt8 × β) β} {s' : SocketState (UInt8 × β) β}
    (h : xrecvfrom addressOf s call.1.val (call.2.map (tag addressOf)) = .ok (r, s')) :
    s'.transportType = xsockDgram ∧ s'.peer = none := by
  obtain ⟨⟨args, hflags, hlen⟩, reply⟩ := call
  cases hcheck : args.check with
  | some e =>
    rw [xrecvfrom_of_check addressOf hcheck] at h
    cases h
    exact ⟨htype, hpeer⟩
  | none =>
  by_cases hstash : s.buf.take args.len.toUInt32.toNat = []
  · rw [xrecvfrom_no_stash addressOf htype hcheck hflags _ hstash] at h
    cases reply with
    | none =>
      cases h
      exact ⟨htype, hpeer⟩
    | some msg =>
      cases h
      rw [SocketState.takePayload_snd]
      exact ⟨htype, hpeer⟩
  · cases haddr : args.addr with
    | true =>
      rw [xrecvfrom_stash_addr addressOf htype hcheck _ hstash haddr hpeer] at h
      cases h
    | false =>
      rw [xrecvfrom_stash addressOf htype hcheck _ hstash haddr] at h
      cases h
      exact ⟨htype, hpeer⟩

end

/-- **Datagrams and their senders are kept together exactly if no call asks for the address of
stashed bytes, and none takes a datagram before them.** -/
theorem dgramsInOrder_iff (addressOf : Text → β)
    (calls : List (PlainArgs × Option (RecvMsg UInt8))) :
    Machine.AllTries (Machine.logged (plainStep addressOf)) (Answers addressOf) (.dgram, []) calls ↔
      Machine.AllTries (plainStep addressOf) (DgramInTurn addressOf) .dgram calls := by
  have hlogged : Machine.AllTries (Machine.logged (plainStep addressOf))
      (fun c => DgramInTurn addressOf c.1) (.dgram, []) calls ↔
        Machine.AllTries (plainStep addressOf) (DgramInTurn addressOf) .dgram calls :=
    Machine.allTries_logged
  rw [← hlogged]
  refine Machine.allTries_iff
    (I := fun c => c.1.transportType = xsockDgram ∧ c.1.peer = none ∧ Kept c) ?_ ?_ ⟨rfl, rfl, rfl⟩
  · rintro ⟨s, log⟩ call ⟨htype, hpeer, hkept⟩
    exact answers_iff htype hpeer hkept call
  · rintro ⟨s, log⟩ call ⟨s', log'⟩ out ⟨htype, hpeer, hkept⟩ hturn h
    obtain ⟨hstep, rfl⟩ := Machine.logged_eq_ok.1 h
    obtain ⟨⟨r, s''⟩, hread, hret⟩ := Result.bind_eq_ok.1 hstep
    obtain ⟨rfl, rfl⟩ := Prod.mk.inj (Result.pure_eq_ok.1 hret)
    obtain ⟨r', s''', hread', hkept', -⟩ := (answers_iff htype hpeer hkept call).2 hturn
    rw [hread] at hread'
    cases hread'
    have hsocket := xrecvfrom_socket htype hpeer call hread
    exact ⟨hsocket.1, hsocket.2, hkept'⟩

/-- A datagram of two bytes that is read in two calls, both of which ask for the sender. -/
theorem not_dgramsInOrder_halves :
    ¬ Machine.AllTries (Machine.logged (plainStep id)) (Answers id) (.dgram, [])
      [(⟨⟨⟨true, 1, 0⟩, true, some 568⟩, by decide⟩, some ⟨[1, 2], ['A'], by decide⟩),
        (⟨⟨⟨true, 1, 0⟩, true, some 568⟩, by decide⟩, none)] := by
  intro h
  obtain ⟨-, hrest⟩ := h
  obtain ⟨⟨r, s', hcall, -⟩, -⟩ := hrest _ _ rfl
  cases hcall

end Xsocket

end Xia
