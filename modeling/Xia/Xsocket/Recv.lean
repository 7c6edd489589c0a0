import Xia.Click.Basic
import Xia.Click.ConfParse
import Xia.Machine

/-!
# Reading from a socket

`Xrecv` and `Xrecvfrom` take a message from Click and hand as much of it to the caller as there is
space for.  What is left over is kept in the state of the socket, and later calls take it from
there.

The functions copy bytes and do not look at them, so that a byte can be of any type: one that also
says where it comes from, for example.  An address is what `fill_sockaddr` makes of the text of a
DAG.
-/

namespace Xia

namespace Xsocket

/-! ### The state of a socket -/

def xsockInvalid : Int := -1

def xsockStream : Int := 1

def xsockDgram : Int := 2

def xsockRaw : Int := 3

def msgPeek : Int := 2

def sizeofSockaddrX : Nat := 568

def maxbuflen : Nat := 15600

/-- The values of `errno`.  The last one is that of the system. -/
inductive Errno where
  | ebadf
  | efault
  | einval
  | enotconn
  | eopnotsupp
  | system
deriving DecidableEq

variable {α β : Type}

/-- `SocketState`, as far as the functions read it: `buf` is what `m_buf` and `m_bufLen` say. -/
structure SocketState (α β : Type) where
  transportType : Int
  connected : Bool
  buf : List α
  peer : Option β

/-- `X_Recv_Msg`, as `click_reply` and the parser give it: it was in fewer than `MAXBUFLEN` bytes.
-/
structure RecvMsg (α : Type) where
  payload : List α
  dag : Text
  size : payload.length < maxbuflen

namespace SocketState

/-- `SocketState::data`: the bytes that are copied to the caller. -/
def data (s : SocketState α β) (bufLen : UInt32) : List α × SocketState α β :=
  if s.buf.length = 0 then ([], s)
  else if bufLen.toNat < s.buf.length then
    (s.buf.take bufLen.toNat, { s with buf := s.buf.drop bufLen.toNat })
  else (s.buf, { s with buf := [] })

def setData (s : SocketState α β) (buf : List α) : SocketState α β :=
  if buf.length = 0 then s else { s with buf := buf }

def setPeer (s : SocketState α β) (peer : β) : SocketState α β := { s with peer := some peer }

/-- `validateSocket`. -/
def validate (s : SocketState α β) (stype : Int) (err : Errno) : Option Errno :=
  if s.transportType = stype ∨ s.transportType = xsockRaw then none
  else if s.transportType = xsockInvalid then some .ebadf
  else some err

/-- What both functions do with a payload: the bytes that are copied to the caller. -/
def takePayload (s : SocketState α β) (len : UInt64) (payload : List α) :
    List α × SocketState α β :=
  if payload.length ≤ len.toNat then (payload, s)
  else (payload.take len.toNat, s.setData (payload.drop len.toNat))

end SocketState

/-! ### The calls -/

/-- What a call does: the bytes and the address that it stores, the new value of `*addrlen`, what it
returns, and the message that it has taken from Click. -/
structure Read (α β : Type) where
  bytes : List α
  addr : Option β
  addrlen : Option Nat
  ret : Int
  errno : Option Errno
  taken : Option (RecvMsg α)

def Read.fail (errno : Errno) : Read α β := ⟨[], none, none, -1, some errno, none⟩

/-- The arguments of `Xrecv`; `rbuf` says whether the pointer is not `NULL`. -/
structure RecvArgs where
  rbuf : Bool
  len : UInt64
  flags : Int

/-- `Xrecv`.  `reply` is what Click has for the socket, or `none` if `recvfrom` fails. -/
def xrecv (s : SocketState α β) (args : RecvArgs) (reply : Option (RecvMsg α)) :
    Read α β × SocketState α β :=
  if args.flags ≠ 0 then (.fail .eopnotsupp, s)
  else if args.len = 0 then (⟨[], none, none, 0, none, none⟩, s)
  else if ¬ args.rbuf then (.fail .efault, s)
  else match s.validate xsockStream .eopnotsupp with
  | some e => (.fail e, s)
  | none =>
    if ¬ s.connected then (.fail .enotconn, s)
    else
      -- `len` is passed on as an `unsigned`
      let (bytes, s) := s.data args.len.toUInt32
      if 0 < bytes.length then (⟨bytes, none, none, bytes.length, none, none⟩, s)
      else match reply with
      | none => (.fail .system, s)
      | some msg =>
        let (bytes, s) := s.takePayload args.len msg.payload
        (⟨bytes, none, none, bytes.length, none, some msg⟩, s)

/-- The arguments of `Xrecvfrom`: whether `addr` is not `NULL`, and the value of `*addrlen` if that
is not `NULL`. -/
structure RecvfromArgs extends RecvArgs where
  addr : Bool
  addrlen : Option Nat

/-- The checks at the beginning of `Xrecvfrom`. -/
def RecvfromArgs.check (args : RecvfromArgs) : Option Errno :=
  if args.flags ≠ 0 ∧ args.flags ≠ msgPeek then some .einval
  else if ¬ args.rbuf ∨ args.addr ∧ args.addrlen = none then some .efault
  else if args.addr ∧ args.addrlen.getD 0 < sizeofSockaddrX then some .einval
  else none

/-- `Xrecvfrom`.  `addressOf` is `Graph(dag)` and `fill_sockaddr`. -/
def xrecvfrom (addressOf : Text → β) (s : SocketState α β) (args : RecvfromArgs)
    (reply : Option (RecvMsg α)) : Result (Read α β × SocketState α β) :=
  match args.check with
  | some e => return (.fail e, s)
  | none =>
  match s.validate xsockDgram .eopnotsupp with
  | some e => return (.fail e, s)
  | none => do
    let (bytes, s) := s.data args.len.toUInt32
    if 0 < bytes.length then
      if args.addr then
        -- `memcpy` from `dgramPeer`
        let peer ← deref s.peer
        return (⟨bytes, some peer, some sizeofSockaddrX, bytes.length, none, none⟩, s)
      else return (⟨bytes, none, args.addrlen.map fun _ => 0, bytes.length, none, none⟩, s)
    else match reply with
    | none => return (.fail .system, s)
    | some msg =>
      let (bytes, s) := s.takePayload args.len msg.payload
      let addr := if args.addr then some (addressOf msg.dag) else none
      let addrlen := if args.addr then some sizeofSockaddrX else none
      let s := if args.flags = msgPeek then (s.setData msg.payload).setPeer (addressOf msg.dag)
        else s
      return (⟨bytes, addr, addrlen, bytes.length, none, some msg⟩, s)

/-! ### Several calls -/

/-- A stream socket: the calls, each with what Click has for it. -/
def streamStep : Machine.Step (SocketState α β) (RecvArgs × Option (RecvMsg α)) Fault (Read α β) :=
  fun s call =>
    let (read, s) := xrecv s call.1 call.2
    .ok (s, [read])

def dgramStep (addressOf : Text → β) :
    Machine.Step (SocketState α β) (RecvfromArgs × Option (RecvMsg α)) Fault (Read α β) :=
  fun s call => do
    let (read, s) ← xrecvfrom addressOf s call.1 call.2
    return (s, [read])

end Xsocket

end Xia
