import Xia.Blit
import Xia.Dagaddr.Construct
import Xia.ExtHeader
import Xia.Xssl.Connect

/-!
# Public keys as bytes

`XSSL_accept` sends the public key of the service, and `XSSL_connect` reads it: for each of the two
numbers a length and the hexadecimal digits.

A buffer that has not been filled is a list of bytes that may be missing.  To read a missing byte is
an error.
-/

namespace Xia

namespace Xssl

/-- An RSA public key of the library, whose numbers have less than `2 ^ 31` bits. -/
structure RsaKey extends PublicKey where
  n_size : bnNumBytes n < 2 ^ 28
  e_size : bnNumBytes e < 2 ^ 28

/-- `BN_hex2bn`, on a text without a sign. -/
def bnHex2bn (s : List UInt8) : Nat :=
  (Dagaddr.scanDigits 16 (s.map fun b => Char.ofNat b.toNat) (some 0)).getD 0

variable (key : RsaKey)

def hexformod : List UInt8 := textBytes (bnBn2hex key.n)

def hexforexp : List UInt8 := textBytes (bnBn2hex key.e)

/-- What `serialize_rsa_pub_key` writes, one after the other. -/
def keyParts : List (List UInt8) :=
  [leBytes 4 (hexformod key).length, hexformod key, leBytes 4 (hexforexp key).length, hexforexp key]

/-- `serialize_rsa_pub_key`: what it copies to a buffer of `len` bytes, and the size that it
returns. -/
def serializeRsaPubKey (len : Nat) : List (Blit.Copy UInt8) × UInt32 :=
  (Blit.pack (keyParts key) 0 len,
    UInt32.ofNat ((hexformod key).length + (hexforexp key).length + 8))

def readWritten (buf : List (Option UInt8)) (off n : Nat) : Option (List UInt8) :=
  if off + n ≤ buf.length then ((buf.drop off).take n).mapM id else none

/-- `deserialize_rsa_pub_key`: the modulus and the exponent. -/
def deserializeRsaPubKey (buf : List (Option UInt8)) : Option (Nat × Nat) := do
  let hexformodsize ← readWritten buf 0 4
  let hexformod ← readWritten buf 4 (leNat hexformodsize)
  let hexforexpsize ← readWritten buf (4 + leNat hexformodsize) 4
  let hexforexp ← readWritten buf (8 + leNat hexformodsize) (leNat hexforexpsize)
  return (bnHex2bn hexformod, bnHex2bn hexforexp)

/-- A new buffer of `len` bytes after `serialize_rsa_pub_key`. -/
def serialized (len : Nat) : List (Option UInt8) :=
  Blit.fill ((serializeRsaPubKey key len).1.map fun c => (c.1, c.2.map some))
    (List.replicate len none)

end Xssl

end Xia
