import Xia.Transport.Connection

/-!
# Encrypted messages

`XSSL_write` encrypts one message and sends the ciphertext, and `XSSL_read` receives bytes until
their number is a multiple of the block size and decrypts them.  The stream in between can cut the
ciphertext at any place.

The cipher of the library, with the keys of a session, is a parameter.
-/

namespace Xia

namespace Xssl

def aesBlockSize : Nat := 16

/-- A cipher for blocks of 16 bytes, with padding: an initialisation, the updates and the final call
of the library on one message.  The last call fails if there is a part of a block. -/
structure Cipher where
  encrypt : List UInt8 → List UInt8
  decrypt : List UInt8 → Option (List UInt8)
  decrypt_encrypt : ∀ p, decrypt (encrypt p) = some p
  length_encrypt : ∀ p, (encrypt p).length = (p.length / aesBlockSize + 1) * aesBlockSize
  decrypt_partial : ∀ c, c.length % aesBlockSize ≠ 0 → decrypt c = none

/-- What a call of `Xrecv` gives: some bytes, no more than were asked for, or a number that is not
positive. -/
inductive Recv where
  | data (bytes : List UInt8)
  | failed (n : Int)

namespace Cipher

variable (cipher : Cipher)

def aesEncrypt (plaintext : List UInt8) (ciphertextBufLen : Nat) : Option (List UInt8) :=
  if ciphertextBufLen < plaintext.length + aesBlockSize then none
  else some (cipher.encrypt plaintext)

/-- `aes_decrypt`, on the first `ciphertextLen` bytes. -/
def aesDecrypt (plaintextBufLen : Nat) (ciphertext : List UInt8) (ciphertextLen : Nat) :
    Option (List UInt8) :=
  if plaintextBufLen < ciphertextLen + aesBlockSize then none
  else cipher.decrypt (ciphertext.take ciphertextLen)

/-- The loop of `XSSL_write`, for the bytes that are left and the results of the calls of `Xsend`:
whether all calls succeed, and the bytes that are sent. -/
def sendLoop : List UInt8 → List Int → Option (Bool × List UInt8)
  | [], _ => some (true, [])
  | _, [] => none
  | rest, n :: ns =>
    if n < 0 then some (false, [])
    else (sendLoop (rest.drop n.toNat) ns).map fun r => (r.1, rest.take n.toNat ++ r.2)

/-- `XSSL_write`: its result, and the bytes that it sends.  There is no result while a call of
`Xsend` does not return. -/
def xsslWrite (buf : List UInt8) (sends : List Int) : Option (Int × List UInt8) :=
  match cipher.aesEncrypt buf xiaMaxbuf with
  | none => some (-1, [])
  | some ciphertext =>
    (sendLoop ciphertext sends).map fun r => (if r.1 then buf.length else -1, r.2)

/-- The loop of `XSSL_read`: the bytes that have been received and the result of the last call, or
the result of a call that fails. -/
def recvLoop : List UInt8 → Nat → List Recv → Option (Except Int (List UInt8 × Nat))
  | ciphertext, n, recvs =>
    if ciphertext.length = 0 ∨ ciphertext.length % aesBlockSize ≠ 0 then
      match recvs with
      | [] => none
      | .failed n :: _ => some (.error n)
      | .data bytes :: recvs =>
        if bytes = [] then some (.error 0)
        else recvLoop (ciphertext ++ bytes) bytes.length recvs
    else some (.ok (ciphertext, n))

/-- What `XSSL_read` returns and stores for a result of `aes_decrypt`. -/
def readResult : Option (List UInt8) → Int × List UInt8
  | none => (-1, [])
  | some plaintext => (plaintext.length, plaintext)

/-- `XSSL_read`: its result, and the plaintext that it stores.  The length that is decrypted is the
one of the last piece. -/
def xsslRead (num : Nat) (recvs : List Recv) : Option (Int × List UInt8) :=
  (recvLoop [] 0 recvs).map fun
    | .error n => (n, [])
    | .ok (ciphertext, n) => readResult (cipher.aesDecrypt num ciphertext n)

end Cipher

end Xssl

end Xia
