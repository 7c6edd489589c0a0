import Xia.Dagaddr.Graph

/-!
# Service identifiers made of keys

A service that speaks XSSL has the hash of its public key for its SID, and a client that connects to
it compares the SID of the peer's address with the hash of the key that it is sent
(`keyMatches`, in `XSSL_connect`).

SHA-1 is a parameter.  The library calls do not fail.
-/

namespace Xia

namespace Dagaddr.Graph

/-- `final_intent_index`: the first sink. -/
def finalIntentIndex (g : Graph) : Option Nat := (List.range g.nodes.length).find? g.isSink

/-- `get_final_intent`.  Without a sink the index is -1. -/
def getFinalIntent (g : Graph) : Result Node :=
  inBounds (g.finalIntentIndex.bind fun i => g.nodes[i]?)

end Dagaddr.Graph

namespace Xssl

/-- An RSA public key: the modulus and the exponent. -/
structure PublicKey where
  n : Nat
  e : Nat
  n_pos : 0 < n
  e_pos : 0 < e
deriving DecidableEq

/-- The bytes of a number, the most significant one first and not zero. -/
def bnBytes (n : Nat) : List Nat := (Nat.digits 256 n).reverse

def bnNumBytes (n : Nat) : Nat := (bnBytes n).length

def hexUpper (n : Nat) : Char :=
  if n % 16 < 10 then Char.ofNat (48 + n % 16) else Char.ofNat (55 + n % 16)

/-- `BN_bn2hex`, on a positive number. -/
def bnBn2hex (n : Nat) : Text := (bnBytes n).flatMap fun b => [hexUpper (b / 16), hexUpper b]

def textBytes (s : Text) : List UInt8 := s.map fun c => UInt8.ofNat c.toNat

/-- What `SID_from_keypair` hashes, in two calls of `SHA1_Update`. -/
def hashed (key : PublicKey) : List UInt8 :=
  textBytes (bnBn2hex key.n) ++ textBytes (bnBn2hex key.e)

variable (sha1 : List UInt8 → Vector UInt8 xidIdLen)

def sidFromKeypair (key : PublicKey) : Text :=
  ['S', 'I', 'D', ':'] ++ (sha1 (hashed key)).toList.flatMap Xid.hexByte

/-- "hash(key) == SID so we trust the signature": the check that `XSSL_connect` makes on the address
of the peer and the key that it has received. -/
def keyMatches (peer : Dagaddr.Graph) (key : PublicKey) : Result Bool := do
  let sidNode ← peer.getFinalIntent
  return decide (sidNode.toText = sidFromKeypair sha1 key)

end Xssl

end Xia
