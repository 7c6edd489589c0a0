import Xia.Equiv.Xid
import Xia.Xssl.Connect

/-!
# Does a service identifier name one key?

`SID_from_keypair` hashes the modulus and the exponent in hexadecimal, one behind the other and
without anything between them.  The bytes of a number do not begin with zero, so the text is that of
one number, `packed`, and two keys have the same text exactly when they have the same number
(`hashed_inj_iff`).  Where the modulus ends in it is not recorded.

`binds_iff` says for which pairs of keys the identifier tells them apart.
-/

namespace Xia

open List hiding Vector

namespace Xssl

variable {sha1 : List UInt8 → Vector UInt8 xidIdLen} {k k' : PublicKey}

/-! ### The hashed text -/

/-- The number that the bytes of the modulus and of the exponent make up together. -/
def packed (key : PublicKey) : Nat := key.n * 256 ^ bnNumBytes key.e + key.e

theorem bnBytes_append (key : PublicKey) :
    bnBytes key.n ++ bnBytes key.e = bnBytes (packed key) := by
  have h := Nat.digits_append_digits (b := 256) (n := key.e) (m := key.n) (by decide)
  rw [bnBytes, bnBytes, ← reverse_append, h, bnBytes, packed, bnNumBytes, bnBytes,
    length_reverse, Nat.add_comm, Nat.mul_comm]

theorem bnBytes_inj {m n : Nat} (h : bnBytes m = bnBytes n) : m = n :=
  Nat.digits_inj_iff.1 (reverse_injective h)

/-- The two digits of a byte, as they are hashed. -/
def hexPair (b : Nat) : List UInt8 := textBytes [hexUpper (b / 16), hexUpper b]

theorem textBytes_bnBn2hex (n : Nat) : textBytes (bnBn2hex n) = (bnBytes n).flatMap hexPair := by
  rw [textBytes, bnBn2hex, map_flatMap]
  rfl

theorem hashed_eq (key : PublicKey) : hashed key = (bnBytes (packed key)).flatMap hexPair := by
  rw [hashed, textBytes_bnBn2hex, textBytes_bnBn2hex, ← flatMap_append, bnBytes_append]

theorem hexUpper_mod (n : Nat) : hexUpper (n % 16) = hexUpper n := by
  simp [hexUpper]

theorem textBytes_hexUpper_inj :
    ∀ a < 16, ∀ b < 16, textBytes [hexUpper a] = textBytes [hexUpper b] → a = b := by
  decide +kernel

theorem hexPair_inj {a b : Nat} (ha : a < 256) (hb : b < 256) (h : hexPair a = hexPair b) :
    a = b := by
  have hpair (n : Nat) :
      hexPair n = textBytes [hexUpper (n / 16)] ++ textBytes [hexUpper (n % 16)] := by
    rw [hexUpper_mod]
    rfl
  rw [hpair, hpair] at h
  obtain ⟨hhigh, hlow⟩ := append_inj h rfl
  have hdiv := textBytes_hexUpper_inj _ (by omega) _ (by omega) hhigh
  have hmod := textBytes_hexUpper_inj _ (by omega) _ (by omega) hlow
  omega

theorem flatMap_hexPair_inj {l l' : List Nat} (hl : ∀ b ∈ l, b < 256) (hl' : ∀ b ∈ l', b < 256)
    (h : l.flatMap hexPair = l'.flatMap hexPair) : l = l' := by
  induction l generalizing l' with
  | nil =>
    cases l' with
    | nil => rfl
    | cons b l' => cases h
  | cons a l ih =>
    cases l' with
    | nil => cases h
    | cons b l' =>
      rw [flatMap_cons, flatMap_cons] at h
      obtain ⟨hhead, htail⟩ := append_inj h rfl
      have hab := hexPair_inj (hl a mem_cons_self) (hl' b mem_cons_self) hhead
      rw [hab, ih (fun c hc => hl c (mem_cons_of_mem _ hc))
        (fun c hc => hl' c (mem_cons_of_mem _ hc)) htail]

theorem lt_of_mem_bnBytes {n b : Nat} (h : b ∈ bnBytes n) : b < 256 :=
  Nat.digits_lt_base (by decide) (mem_reverse.1 h)

/-- **The hashed text is that of one number.** -/
theorem hashed_inj_iff : hashed k = hashed k' ↔ packed k = packed k' := by
  rw [hashed_eq, hashed_eq]
  constructor
  · intro h
    exact bnBytes_inj
      (flatMap_hexPair_inj (fun _ => lt_of_mem_bnBytes) (fun _ => lt_of_mem_bnBytes) h)
  · intro h
    rw [h]

theorem eq_of_packed_eq (hlength : bnNumBytes k.n = bnNumBytes k'.n) (h : packed k = packed k') :
    k = k' := by
  have happend : bnBytes k.n ++ bnBytes k.e = bnBytes k'.n ++ bnBytes k'.e := by
    rw [bnBytes_append, bnBytes_append, h]
  obtain ⟨hn, he⟩ := append_inj happend hlength
  have hn' := bnBytes_inj hn
  have he' := bnBytes_inj he
  cases k
  cases k'
  simp_all

/-! ### The identifier -/

/-- SHA-1 has no collision on the texts of the two keys. -/
def NoCollision (sha1 : List UInt8 → Vector UInt8 xidIdLen) (k k' : PublicKey) : Prop :=
  sha1 (hashed k) = sha1 (hashed k') → hashed k = hashed k'

theorem sha1_eq_of_sid_eq (h : sidFromKeypair sha1 k = sidFromKeypair sha1 k') :
    sha1 (hashed k) = sha1 (hashed k') := by
  have hread (v : Vector UInt8 xidIdLen) :
      Xid.parseIdBytes xidIdLen (v.toList.flatMap Xid.hexByte) = v.toList := by
    simpa using Xid.parseIdBytes_hexByte v.toList
  have hid := congrArg (Xid.parseIdBytes xidIdLen) (append_cancel_left h)
  rw [hread, hread] at hid
  exact Vector.toList_inj.1 hid

/-- The identifier tells the two keys apart: they do not have the same one, and no peer's address
matches both. -/
structure Identifies (sha1 : List UInt8 → Vector UInt8 xidIdLen) (k k' : PublicKey) : Prop where
  sid : sidFromKeypair sha1 k = sidFromKeypair sha1 k' → k = k'
  connect : ∀ peer, keyMatches sha1 peer k = .ok true → keyMatches sha1 peer k' = .ok true → k = k'

theorem sid_eq_of_keyMatches {peer : Dagaddr.Graph} (h : keyMatches sha1 peer k = .ok true)
    (h' : keyMatches sha1 peer k' = .ok true) :
    sidFromKeypair sha1 k = sidFromKeypair sha1 k' := by
  simp only [keyMatches, Result.bind_eq_ok, Result.pure_eq_ok, decide_eq_true_eq] at h h'
  obtain ⟨node, hnode, hk⟩ := h
  obtain ⟨node', hnode', hk'⟩ := h'
  rw [hnode] at hnode'
  cases hnode'
  rw [← hk, hk']

/-- **Which keys an identifier tells apart**: if SHA-1 has no collision on their texts, two keys are
told apart exactly if their moduli have the same number of bytes or the bytes of modulus and
exponent make up different numbers. -/
theorem binds_iff (sha1 : List UInt8 → Vector UInt8 xidIdLen) (k k' : PublicKey) :
    (NoCollision sha1 k k' → Identifies sha1 k k') ↔
      bnNumBytes k.n = bnNumBytes k'.n ∨ packed k ≠ packed k' := by
  constructor
  · intro h
    by_contra hcon
    push Not at hcon
    obtain ⟨hlength, hpacked⟩ := hcon
    -- the same text: nothing collides, and the identifiers are the same
    have htext := hashed_inj_iff.2 hpacked
    have hsid : sidFromKeypair sha1 k = sidFromKeypair sha1 k' := by
      rw [sidFromKeypair, sidFromKeypair, htext]
    rw [(h fun _ => htext).sid hsid] at hlength
    exact hlength rfl
  · intro hcond hnocoll
    have hsid : sidFromKeypair sha1 k = sidFromKeypair sha1 k' → k = k' := by
      intro h
      have hpacked := hashed_inj_iff.1 (hnocoll (sha1_eq_of_sid_eq h))
      exact eq_of_packed_eq (hcond.resolve_right fun hne => hne hpacked) hpacked
    exact ⟨hsid, fun peer h h' => hsid (sid_eq_of_keyMatches h h')⟩

/-- The address of a service, which is its SID alone. -/
def serviceAt (id : Vector UInt8 xidIdLen) : Dagaddr.Graph := .ofNode ⟨1, Xid.typeSid, id⟩

theorem keyMatches_serviceAt (sha1 : List UInt8 → Vector UInt8 xidIdLen) (key : PublicKey) :
    keyMatches sha1 (serviceAt (sha1 (hashed key))) key = .ok true := by
  have hnode : (serviceAt (sha1 (hashed key))).getFinalIntent =
      .ok ⟨1, Xid.typeSid, sha1 (hashed key)⟩ := rfl
  have htext : (⟨1, Xid.typeSid, sha1 (hashed key)⟩ : Dagaddr.Node).toText =
      sidFromKeypair sha1 key := rfl
  rw [keyMatches, hnode, Result.ok_bind, htext, decide_eq_true rfl]
  rfl

/-- The keys (0x0102, 0x03) and (0x01, 0x0203) have the text `010203`, whatever SHA-1 makes of it.
-/
theorem not_identifies_shifted : ∃ k k' : PublicKey, k ≠ k' ∧ ∀ sha1, NoCollision sha1 k k' ∧
    sidFromKeypair sha1 k = sidFromKeypair sha1 k' ∧
    ∃ peer, keyMatches sha1 peer k = .ok true ∧ keyMatches sha1 peer k' = .ok true := by
  have htext : hashed ⟨0x0102, 0x03, by decide, by decide⟩ =
      hashed ⟨0x01, 0x0203, by decide, by decide⟩ := by decide
  refine ⟨⟨0x0102, 0x03, by decide, by decide⟩, ⟨0x01, 0x0203, by decide, by decide⟩, by decide,
    fun sha1 => ⟨fun _ => htext, ?_, serviceAt (sha1 (hashed _)), keyMatches_serviceAt sha1 _, ?_⟩⟩
  · rw [sidFromKeypair, sidFromKeypair, htext]
  · rw [htext]
    exact keyMatches_serviceAt sha1 _

end Xssl

end Xia
