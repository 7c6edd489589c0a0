import Xia.Xssl.Equiv.Connect
import Xia.Xssl.Serialize

/-!
# Public keys in buffers

A part of the key is left out if it is not smaller than the space that is left, and the next one is
put where it would be without that.  So `serialize_rsa_pub_key` writes behind a buffer that is too
small, unless all the parts that follow have no space either (`writesBeginning_iff`).

A buffer of exactly the size that is returned has no space for the exponent: `keyArrives_iff` says
that a key can be read back from all other buffers that are large enough.
-/

namespace Xia

open List Option

namespace Xssl

variable {key : RsaKey} {len : Nat}

/-! ### The parts -/

theorem length_hexformod (key : RsaKey) : (hexformod key).length = 2 * bnNumBytes key.n := by
  simp [hexformod, textBytes, bnBn2hex, bnNumBytes, length_flatMap, Nat.mul_comm]

theorem length_hexforexp (key : RsaKey) : (hexforexp key).length = 2 * bnNumBytes key.e := by
  simp [hexforexp, textBytes, bnBn2hex, bnNumBytes, length_flatMap, Nat.mul_comm]

theorem bnNumBytes_pos {n : Nat} (hn : 0 < n) : 0 < bnNumBytes n := by
  rw [bnNumBytes, bnBytes, length_reverse]
  exact length_pos_iff.2 (Nat.digits_ne_nil_iff_ne_zero.2 hn.ne')

theorem hexformod_pos (key : RsaKey) : 0 < (hexformod key).length := by
  have hpos := bnNumBytes_pos key.n_pos
  rw [length_hexformod]
  omega

theorem hexforexp_pos (key : RsaKey) : 0 < (hexforexp key).length := by
  have hpos := bnNumBytes_pos key.e_pos
  rw [length_hexforexp]
  omega

theorem keyParts_ne_nil (key : RsaKey) : ∀ p ∈ keyParts key, p ≠ [] := by
  simp only [keyParts, forall_mem_cons]
  exact ⟨cons_ne_nil _ _, length_pos_iff.1 (hexformod_pos key), cons_ne_nil _ _,
    length_pos_iff.1 (hexforexp_pos key), nofun⟩

theorem toNat_serializeRsaPubKey (key : RsaKey) (len : Nat) : (serializeRsaPubKey key len).2.toNat =
      (hexformod key).length + (hexforexp key).length + 8 := by
  have hn := key.n_size
  have he := key.e_size
  rw [serializeRsaPubKey, UInt32.toNat_ofNat', length_hexformod, length_hexforexp]
  omega

/-! ### What is written -/

/-- All copies are inside the buffer, and if the key does not fit they write a beginning of it. -/
structure WritesBeginning (key : RsaKey) (len : Nat) : Prop where
  fits : Blit.Fits (serializeRsaPubKey key len).1 len
  beginning : len < (serializeRsaPubKey key len).2.toNat →
    ∃ k ≤ len, ∀ buf : List UInt8, buf.length = len →
      Blit.fill (serializeRsaPubKey key len).1 buf = (keyParts key).flatten.take k ++ buf.drop k

theorem stops_keyParts_iff : Blit.Stops (keyParts key) len ↔
    (len ≤ 4 ∧ len ≤ (hexformod key).length ∧ len ≤ (hexforexp key).length) ∨
    (4 < len ∧ len ≤ 8 ∧ len ≤ (hexformod key).length + 4 ∧ len ≤ (hexforexp key).length + 4) ∨
    ((hexformod key).length + 4 < len ∧ len ≤ (hexformod key).length + 8 ∧
      len ≤ (hexformod key).length + (hexforexp key).length + 4) ∨
    (hexformod key).length + 8 < len := by
  have hmod := hexformod_pos key
  have hexp := hexforexp_pos key
  simp only [keyParts, Blit.Stops, length_leBytes, forall_mem_cons, not_mem_nil,
    false_implies, implies_true, and_true]
  split
  · split
    · split
      · split <;> simp <;> omega
      · omega
    · omega
  · omega

/-- **The buffer is respected exactly if no part follows one that has no space.** -/
theorem writesBeginning_iff (key : RsaKey) (len : Nat) : WritesBeginning key len ↔
    (len ≤ 4 ∧ len ≤ (hexformod key).length ∧ len ≤ (hexforexp key).length) ∨
    (4 < len ∧ len ≤ 8 ∧ len ≤ (hexformod key).length + 4 ∧ len ≤ (hexforexp key).length + 4) ∨
    ((hexformod key).length + 4 < len ∧ len ≤ (hexformod key).length + 8 ∧
      len ≤ (hexformod key).length + (hexforexp key).length + 4) ∨
    (hexformod key).length + 8 < len := by
  have hfits := Blit.fits_pack_iff (keyParts_ne_nil key) 0 len
  rw [Nat.zero_add] at hfits
  rw [← stops_keyParts_iff, ← hfits]
  refine ⟨fun h => h.fits, fun h => ⟨h, fun _ => ⟨_, Blit.packedSize_le (keyParts key) len, ?_⟩⟩⟩
  intro buf _
  exact Blit.fill_pack_of_stops (hfits.1 h) [] buf

def sampleKey : RsaKey where
  n := 2 ^ 1023 + 1
  e := 65537
  n_pos := Nat.succ_pos _
  e_pos := by decide
  n_size := by decide +kernel
  e_size := by decide +kernel

/-- In a buffer of 100 bytes the length of the exponent is put at offset 260. -/
theorem not_writesBeginning_sampleKey : ¬ WritesBeginning sampleKey 100 := by
  intro h
  have hfits := h.fits
  revert hfits
  unfold Blit.Fits
  decide +kernel

/-! ### Hexadecimal digits -/

theorem digitValue_hexUpper : ∀ k < 16,
    digitValue 16 (Char.ofNat (UInt8.ofNat (hexUpper k).toNat).toNat) = some k := by
  decide +kernel

theorem scanDigits_hexPair {l : List Nat} (hl : ∀ b ∈ l, b < 256) (v : Nat) :
    Dagaddr.scanDigits 16 ((l.flatMap hexPair).map fun b => Char.ofNat b.toNat) (some v) =
      some (l.foldl (fun v b => v * 256 + b) v) := by
  induction l generalizing v with
  | nil => rfl
  | cons b l ih =>
    obtain ⟨hb, hl⟩ := forall_mem_cons.1 hl
    have hhigh := digitValue_hexUpper (b / 16) (by omega)
    have hlow := digitValue_hexUpper (b % 16) (Nat.mod_lt _ (by decide))
    rw [hexUpper_mod] at hlow
    rw [flatMap_cons, map_append]
    change Dagaddr.scanDigits 16 (_ :: _ :: (l.flatMap hexPair).map _) (some v) = _
    rw [Dagaddr.scanDigits, hhigh]
    dsimp only
    rw [Dagaddr.scanDigits, hlow]
    dsimp only
    rw [ih hl, foldl_cons, getD_some, getD_some]
    congr 2
    omega

/-- **`BN_hex2bn` reads what `BN_bn2hex` has printed.** -/
theorem bnHex2bn_bnBn2hex (n : Nat) : bnHex2bn (textBytes (bnBn2hex n)) = n := by
  have hvalue : (bnBytes n).foldl (fun v b => v * 256 + b) 0 = n := by
    rw [bnBytes, foldl_reverse]
    conv_rhs => rw [← Nat.ofDigits_digits 256 n, Nat.ofDigits_eq_foldr]
    congr 1
    funext b v
    rw [Nat.mul_comm, Nat.add_comm]
    rfl
  rw [bnHex2bn, textBytes_bnBn2hex, scanDigits_hexPair fun b hb => lt_of_mem_bnBytes hb,
    getD_some, hvalue]

/-! ### Reading the key back -/

theorem readWritten_append (a : List (Option UInt8)) (l : List UInt8) (b : List (Option UInt8)) :
    readWritten (a ++ (l.map some ++ b)) a.length l.length = some l := by
  have hmap : (l.map some).mapM id = some l := by
    induction l with
    | nil => rfl
    | cons x l ih => simp [ih]
  have hlength : (l.map some).length = l.length := length_map some
  rw [readWritten, if_pos (by simp), drop_left, ← hlength, take_left, hmap]

theorem readWritten_replicate (a : List (Option UInt8)) {n : Nat} (hn : 0 < n) :
    readWritten (a ++ List.replicate n none) a.length n = none := by
  cases n with
  | zero => cases hn
  | succ n => simp [readWritten, replicate_succ]

def keyHead (key : RsaKey) : List UInt8 :=
  leBytes 4 (hexformod key).length ++ hexformod key ++ leBytes 4 (hexforexp key).length

theorem length_keyHead (key : RsaKey) : (keyHead key).length = 8 + (hexformod key).length := by
  simp [keyHead]
  omega

/-- If all but the exponent is there, the key is read if the exponent is. -/
theorem deserializeRsaPubKey_append (key : RsaKey) (b : List (Option UInt8)) :
    deserializeRsaPubKey ((keyHead key).map some ++ b) =
      (readWritten ((keyHead key).map some ++ b) (8 + (hexformod key).length)
        (hexforexp key).length).map fun hexforexp => (key.n, bnHex2bn hexforexp) := by
  have hn := key.n_size
  have he := key.e_size
  have hmod : leNat (leBytes 4 (hexformod key).length) = (hexformod key).length := by
    rw [leNat_leBytes, length_hexformod]
    omega
  have hexp : leNat (leBytes 4 (hexforexp key).length) = (hexforexp key).length := by
    rw [leNat_leBytes, length_hexforexp]
    omega
  generalize hbuf : (keyHead key).map some ++ b = buf
  have hsize : readWritten buf 0 4 = some (leBytes 4 (hexformod key).length) := by
    have hread := readWritten_append [] (leBytes 4 (hexformod key).length)
      ((hexformod key ++ leBytes 4 (hexforexp key).length).map some ++ b)
    rw [length_leBytes] at hread
    rw [← hbuf, ← hread]
    simp [keyHead]
  have hdigits : readWritten buf 4 (hexformod key).length = some (hexformod key) := by
    have hread := readWritten_append ((leBytes 4 (hexformod key).length).map some)
      (hexformod key) ((leBytes 4 (hexforexp key).length).map some ++ b)
    rw [length_map, length_leBytes] at hread
    rw [← hbuf, ← hread]
    simp [keyHead]
  have hexpsize : readWritten buf (4 + (hexformod key).length) 4 =
      some (leBytes 4 (hexforexp key).length) := by
    have hread := readWritten_append ((leBytes 4 (hexformod key).length ++ hexformod key).map some)
      (leBytes 4 (hexforexp key).length) b
    rw [length_map, length_append, length_leBytes, length_leBytes] at hread
    rw [← hbuf, ← hread]
    simp [keyHead]
  have hvalue : bnHex2bn (hexformod key) = key.n := bnHex2bn_bnBn2hex key.n
  rw [deserializeRsaPubKey, hsize, bind_eq_bind, bind_some, hmod, hdigits,
    bind_some, hexpsize, bind_some, hexp, hvalue]
  cases readWritten buf (8 + (hexformod key).length) (hexforexp key).length <;> rfl

/-- The buffer after a call: as much of the key as was written, and nothing behind it. -/
theorem serialized_eq (h : Blit.Stops (keyParts key) len) : serialized key len =
    ((keyParts key).flatten.take (Blit.packedSize (keyParts key) len)).map some ++
      List.replicate (len - Blit.packedSize (keyParts key) len) none := by
  have hfill := Blit.fill_pack_of_stops ((Blit.stops_map some).2 h) [] (List.replicate len none)
  rw [Blit.packedSize_map, nil_append, nil_append, drop_replicate,
    ← map_flatten, ← map_take] at hfill
  rw [serialized, serializeRsaPubKey]
  dsimp only
  rw [Blit.map_pack]
  exact hfill

/-- The key is there as a whole if the buffer is larger, and without its exponent if it is as large
as the key. -/
theorem packedSize_keyParts (h : (hexformod key).length + (hexforexp key).length + 8 ≤ len) :
    Blit.packedSize (keyParts key) len = (keyHead key).length +
      if (hexformod key).length + (hexforexp key).length + 8 < len then (hexforexp key).length
      else 0 := by
  have hexp := hexforexp_pos key
  simp only [keyParts, Blit.packedSize, length_leBytes, length_keyHead]
  rw [if_pos (by omega), if_pos (by omega), if_pos (by omega)]
  split
  · rw [if_pos (by omega)]
    omega
  · rw [if_neg (by omega)]
    omega

/-- If the returned size says that the key fits in the buffer, it can be read back from there. -/
def KeyArrives (key : RsaKey) (len : Nat) : Prop :=
  (serializeRsaPubKey key len).2.toNat ≤ len →
    deserializeRsaPubKey (serialized key len) = some (key.n, key.e)

/-- **A key arrives exactly if the buffer is not just as large as the key.** -/
theorem keyArrives_iff (key : RsaKey) (len : Nat) :
    KeyArrives key len ↔ len ≠ (hexformod key).length + (hexforexp key).length + 8 := by
  have hexp := hexforexp_pos key
  have hflatten : (keyParts key).flatten = keyHead key ++ hexforexp key := by
    simp [keyParts, keyHead]
  rw [KeyArrives, toNat_serializeRsaPubKey]
  constructor
  · rintro h rfl
    have hread := h le_rfl
    rw [serialized_eq (stops_keyParts_iff.2 (by omega)), packedSize_keyParts le_rfl,
      if_neg (lt_irrefl _), Nat.add_zero, hflatten, take_left, deserializeRsaPubKey_append,
      show (hexformod key).length + (hexforexp key).length + 8 - (keyHead key).length =
        (hexforexp key).length by rw [length_keyHead]; omega,
      show 8 + (hexformod key).length = ((keyHead key).map some).length by
        rw [length_map, length_keyHead], readWritten_replicate _ hexp] at hread
    cases hread
  · intro hne hle
    have hlt : (hexformod key).length + (hexforexp key).length + 8 < len := by omega
    rw [serialized_eq (stops_keyParts_iff.2 (by omega)), packedSize_keyParts hle, if_pos hlt,
      ← length_append, ← hflatten, take_length, hflatten, map_append,
      append_assoc, deserializeRsaPubKey_append,
      show 8 + (hexformod key).length = ((keyHead key).map some).length by
        rw [length_map, length_keyHead], readWritten_append, map_some, hexforexp,
      bnHex2bn_bnBn2hex]

/-- A key in a buffer of its size: the returned size is that of the buffer, but the exponent is
missing. -/
theorem not_keyArrives_sampleKey : ¬ KeyArrives sampleKey 270 := by
  unfold KeyArrives
  decide +kernel

end Xssl

end Xia
