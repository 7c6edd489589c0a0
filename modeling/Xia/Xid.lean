import Xia.Click.ConfParse

/-!
# XIA identifiers

An XID is a 32-bit principal type and a 20-byte identifier (`struct click_xia_xid`).  The type
is kept in network byte order, as in the struct: `cp_xid_type` applies `htonl` to the named
types and stores a numeric type as read, and `XID::unparse` prints an unnamed type as stored.

`XidPair` is the key of the transport's demultiplexing tables.
-/

namespace Xia

/-- `htonl` (and `ntohl`) on a little-endian host. -/
def htonl (x : UInt32) : UInt32 :=
  let mask : UInt32 := 0xff00
  x <<< 24 ||| (x &&& mask) <<< 8 ||| (x >>> 8 &&& mask) ||| x >>> 24

/-- The length of the identifier part (`CLICK_XIA_XID_ID_LEN`). -/
abbrev xidIdLen : Nat := 20

structure Xid where
  type : UInt32
  id : Vector UInt8 xidIdLen
deriving DecidableEq

namespace Xid

def typeUndef : UInt32 := 0
def typeAd : UInt32 := 0x10
def typeHid : UInt32 := 0x11
def typeCid : UInt32 := 0x12
def typeSid : UInt32 := 0x13
def typeIp : UInt32 := 0x14

/-- `XID::XID()`: all bytes zero. -/
def zero : Xid := ⟨0, Vector.replicate xidIdLen 0⟩

instance : Inhabited Xid := ⟨zero⟩

/-! ### Text -/

/-- A hexadecimal digit as `%x` prints it. -/
def hexDigit (n : Nat) : Char :=
  if n % 16 < 10 then Char.ofNat (48 + n % 16) else Char.ofNat (87 + n % 16)

/-- `%02x`. -/
def hexByte (b : UInt8) : Text := [hexDigit (b.toNat / 16), hexDigit (b.toNat % 16)]

/-- `%x` on a number of at most eight digits. -/
def hexNumber (n : Nat) : Text :=
  let digits := (List.range 8).map fun i => hexDigit (n / 16 ^ (7 - i))
  match digits.dropWhile (· = '0') with
  | [] => ['0']
  | s => s

/-- The part of `XID::unparse` before the colon. -/
def unparseType (type : UInt32) : Text :=
  let t := htonl type
  if t = typeUndef then ['U', 'N', 'D', 'E', 'F']
  else if t = typeAd then ['A', 'D']
  else if t = typeHid then ['H', 'I', 'D']
  else if t = typeCid then ['C', 'I', 'D']
  else if t = typeSid then ['S', 'I', 'D']
  else if t = typeIp then ['I', 'P']
  else hexNumber type.toNat

def unparse (x : Xid) : Text :=
  unparseType x.type ++ [':'] ++ x.id.toList.flatMap hexByte

/-- The texts that `XID::unparse` prints into its buffer, one `sprintf` for each. -/
def unparsePieces (x : Xid) : List Text :=
  unparseType x.type :: [':'] :: x.id.toList.map hexByte

/-- How far the calls of `sprintf` write from the offset `c` on: each of them writes its text and a
zero, on which the next one starts. -/
def sprintfExtent (c : Nat) : List Text → Nat
  | [] => c
  | s :: ss => max (c + s.length + 1) (sprintfExtent (c + s.length) ss)

/-- The size of the buffer of `XID::unparse`. -/
def unparseBufSize : Nat := 48

/-- The number of bytes that `XID::unparse` writes from the start of its buffer on. -/
def unparseExtent (x : Xid) : Nat := sprintfExtent 0 x.unparsePieces

/-- `cp_xid_type`. -/
def parseType (s : Text) : Option UInt32 :=
  if s = ['U', 'N', 'D', 'E', 'F'] then some (htonl typeUndef)
  else if s = ['A', 'D'] then some (htonl typeAd)
  else if s = ['C', 'I', 'D'] then some (htonl typeCid)
  else if s = ['H', 'I', 'D'] then some (htonl typeHid)
  else if s = ['S', 'I', 'D'] then some (htonl typeSid)
  else if s = ['I', 'P'] then some (htonl typeIp)
  else (cpInteger false s).map fun n => UInt32.ofNat n.toNat

/-- `xvalue`, on a character with `isxdigit`. -/
def hexValue (c : Char) : Option Nat := digitValue 16 c

/-- The identifier bytes of `cp_xid`: pairs of hexadecimal digits, and zeros from the first pair
that is not one on. -/
def parseIdBytes : Nat → Text → List UInt8
  | 0, _ => []
  | n + 1, a :: b :: s =>
    match hexValue a, hexValue b with
    | some x, some y => UInt8.ofNat (x * 16 + y) :: parseIdBytes n s
    | _, _ => List.replicate (n + 1) 0
  | n + 1, _ => List.replicate (n + 1) 0

theorem length_parseIdBytes (n : Nat) (s : Text) : (parseIdBytes n s).length = n := by
  induction n, s using parseIdBytes.induct with
  | case1 => rfl
  | case2 n a b s x y hx hy ih => simp [parseIdBytes, hx, hy, ih]
  | case3 n a b s h =>
    rw [parseIdBytes]
    split
    · rename_i x y hx hy
      exact (h x y hx hy).elim
    · simp
  | case4 n s h => cases s with
    | nil => simp [parseIdBytes]
    | cons a s => cases s with
      | nil => simp [parseIdBytes]
      | cons b s => exact absurd rfl (h a b s)

/-- The identifier part of `cp_xid`.  An `IP` XID written as a dotted quad becomes an IPv4 header
template with the address at bytes 16 to 19; otherwise the text is hexadecimal. -/
def parseId (ip : Bool) (s : Text) : Vector UInt8 xidIdLen :=
  match ip, ipAddressParse s with
  | true, some (a, b, c, d) =>
    #v[0x45, 0, 0, 0, 0, 0x01, 0, 0, 0xfa, 0xfa, 0, 0, 0, 0, 0, 0, a, b, c, d]
  | _, _ => ⟨(parseIdBytes xidIdLen s).toArray, by simp [length_parseIdBytes]⟩

/-- `cp_xid` without a naming context. -/
def parse (s : Text) : Option Xid :=
  if ':' ∈ s then
    let typeStr := s.takeWhile (· ≠ ':')
    let xidStr := (s.dropWhile (· ≠ ':')).tail
    (parseType typeStr).map fun type => ⟨type, parseId (type = htonl typeIp) xidStr⟩
  else none

end Xid

/-- `XIDpair`: the local and the remote XID of a connection or of a chunk request. -/
structure XidPair where
  src : Xid
  dst : Xid
deriving DecidableEq

end Xia
