import Mathlib

/-!
# Commands on the socket of xcache

The controller and its clients exchange commands over a `SOCK_SEQPACKET` socket: one `write` is one
record, and one `read` returns one record, cut off at the size of the buffer.  Both ends read with
the same loop.  It takes a full buffer as a sign that the command goes on in the next record, and
it appends the buffer as a C string.

A socket is modelled by what the coming calls of `read` return.
-/

namespace Xia

namespace Xcache

def bufSize : Nat := 512

/-- What a call of `read` returns. -/
inductive ReadResult where
  | record (bytes : List UInt8)
  /-- the peer has closed the connection -/
  | eof
  | error
deriving DecidableEq

/-- The C string that starts at `buf`.  It ends at the first zero byte, which may lie behind the
buffer: `beyond` is what the memory holds there, up to a zero byte. -/
def cString (buf beyond : List UInt8) : List UInt8 := (buf ++ beyond).takeWhile (· ≠ 0)

/-- How the loop ends.  In each case `rest` is what later calls of `read` return. -/
inductive Outcome where
  /-- `read` waits for a record -/
  | blocked
  /-- `read` returned 0 -/
  | closed (rest : List ReadResult)
  /-- the text goes to `ParseFromString` -/
  | passed (buffer : List UInt8) (rest : List ReadResult)
deriving DecidableEq

/-- The loop `do … while (ret == 512)`.  The memory behind the buffer may be another one in every
iteration `i`. -/
def readLoop (beyond : Nat → List UInt8) : Nat → List ReadResult → List UInt8 → List UInt8 → Outcome
  | _, [], _, _ => .blocked
  | _, .eof :: rest, _, _ => .closed rest
  -- the return value -1 is neither 0 nor 512
  | i, .error :: rest, buf, buffer => .passed (buffer ++ cString buf (beyond i)) rest
  | i, .record bytes :: rest, buf, buffer =>
    let ret := min bytes.length bufSize
    if ret = 0 then .closed rest
    else
      -- behind the bytes read, the buffer keeps what it held
      let buf := bytes.take bufSize ++ buf.drop ret
      let buffer := buffer ++ cString buf (beyond i)
      if ret = bufSize then readLoop beyond (i + 1) rest buf buffer else .passed buffer rest

/-- `char buf[512] = ""`. -/
def emptyBuf : List UInt8 := List.replicate bufSize 0

/-- The loop of `XcacheController::run` for a connection that is ready. -/
def controllerRead (beyond : Nat → List UInt8) (socket : List ReadResult) : Outcome :=
  readLoop beyond 0 socket emptyBuf []

/-- `get_response_blocking`: the return value, the text that is parsed and what is left on the
socket. -/
def getResponseBlocking (beyond : Nat → List UInt8) (socket : List ReadResult) :
    Option (Int × Option (List UInt8) × List ReadResult) :=
  match readLoop beyond 0 socket emptyBuf [] with
  | .blocked => none
  | .closed rest => some (-1, none, rest)
  | .passed buffer rest => some (0, some buffer, rest)

end Xcache

end Xia
