import Xia.Xssl.Read

/-!
# Encrypted messages in pieces

`XSSL_read` collects the pieces of a ciphertext, but it decrypts as many bytes as there are in the
last piece.  If there is more than one piece, this is not a multiple of the block size, and the
message is lost: `xsslRead_eq_iff` says that a message is read if and only if its ciphertext arrives
in one piece.
-/

namespace Xia

open List Option

namespace Xssl

namespace Cipher

variable {cipher : Cipher} {plaintext ciphertext : List UInt8} {pieces : List (List UInt8)}

/-! ### What is sent -/

theorem sendLoop_eq_true {rest sent : List UInt8} {sends : List Int}
    (h : sendLoop rest sends = some (true, sent)) : sent = rest := by
  induction sends generalizing rest sent with
  | nil =>
    cases rest with
    | nil => exact (Prod.mk.inj (Option.some.inj h)).2.symm
    | cons b rest => exact absurd h (some_ne_none _).symm
  | cons n ns ih =>
    cases rest with
    | nil => exact (Prod.mk.inj (Option.some.inj h)).2.symm
    | cons b rest =>
      rw [sendLoop] at h
      split_ifs at h with hn
      · exact absurd h (by simp)
      · obtain ⟨r, hr, heq⟩ := map_eq_some_iff.1 h
        obtain ⟨hok, hsent⟩ := Prod.mk.inj heq
        have hrest : r.2 = _ := ih (hr.trans (congrArg some (Prod.ext hok rfl)))
        rw [← hsent, hrest, take_append_drop]
      · exact cons_ne_nil b rest

theorem eq_encrypt_of_xsslWrite {sends : List Int}
    (h : cipher.xsslWrite plaintext sends = some ((plaintext.length : Int), ciphertext)) :
    ciphertext = cipher.encrypt plaintext := by
  rw [xsslWrite, aesEncrypt] at h
  split_ifs at h with hlen
  · exact absurd (Prod.mk.inj (Option.some.inj h)).1 (by omega)
  · obtain ⟨⟨ok, sent⟩, hr, heq⟩ := map_eq_some_iff.1 h
    obtain ⟨hret, rfl⟩ := Prod.mk.inj heq
    cases ok with
    | true => exact sendLoop_eq_true hr
    | false =>
      have hneg : (-1 : Int) = plaintext.length := hret
      omega

/-! ### What is received -/

/-- The ciphertext in pieces, of which only the last one ends with a block. -/
structure Cuts (pieces : List (List UInt8)) (ciphertext : List UInt8) : Prop where
  flatten_eq : pieces.flatten = ciphertext
  ne_nil : ∀ p ∈ pieces, p ≠ []
  not_boundary : ∀ k < pieces.length, 0 < k → (pieces.take k).flatten.length % aesBlockSize ≠ 0

theorem recvLoop_whole {received : List UInt8} {n : Nat} {recvs : List Recv}
    (hpos : 0 < received.length) (hwhole : received.length % aesBlockSize = 0) :
    recvLoop received n recvs = some (.ok (received, n)) := by
  rw [recvLoop.eq_def]
  exact if_neg (not_or.2 ⟨hpos.ne', not_not.2 hwhole⟩)

theorem recvLoop_open {received p : List UInt8} {n : Nat} {recvs : List Recv}
    (hopen : received.length = 0 ∨ received.length % aesBlockSize ≠ 0) (hp : p ≠ []) :
    recvLoop received n (.data p :: recvs) = recvLoop (received ++ p) p.length recvs := by
  rw [recvLoop.eq_def]
  simp only [if_pos hopen, if_neg hp]

theorem recvLoop_data {received : List UInt8} {n : Nat} {p : List UInt8}
    (hopen : received.length = 0 ∨ received.length % aesBlockSize ≠ 0)
    (hne : ∀ q ∈ p :: pieces, q ≠ [])
    (hcut : ∀ k < pieces.length,
      (received ++ p ++ (pieces.take k).flatten).length % aesBlockSize ≠ 0)
    (hend : (received ++ p ++ pieces.flatten).length % aesBlockSize = 0) (rest : List Recv) :
    recvLoop received n ((p :: pieces).map .data ++ rest) =
      some (.ok (received ++ p ++ pieces.flatten,
        ((p :: pieces).getLast (cons_ne_nil _ _)).length)) := by
  have hp : p ≠ [] := hne p mem_cons_self
  rw [map_cons, cons_append, recvLoop_open hopen hp]
  induction pieces generalizing received n p with
  | nil =>
    have hpos : 0 < p.length := length_pos_iff.2 hp
    rw [flatten_nil, append_nil] at hend ⊢
    apply recvLoop_whole _ hend
    rw [length_append]
    omega
  | cons q pieces ih =>
    -- The first piece does not end with a block, so the loop goes on with the second one.
    have hopen' : (received ++ p).length % aesBlockSize ≠ 0 := by
      have h0 := hcut 0 (Nat.succ_pos _)
      rwa [take_zero, flatten_nil, append_nil] at h0
    have hq : q ≠ [] := hne q (mem_cons_of_mem _ mem_cons_self)
    rw [map_cons, cons_append, recvLoop_open (Or.inr hopen') hq, flatten_cons,
      ← append_assoc, getLast_cons (cons_ne_nil _ _)]
    apply ih (n := p.length) (Or.inr hopen') (fun r hr => hne r (mem_cons_of_mem _ hr))
    · intro k hk
      have hk' := hcut (k + 1) (Nat.succ_lt_succ hk)
      rwa [take_succ_cons, flatten_cons, ← append_assoc] at hk'
    · rwa [flatten_cons, ← append_assoc] at hend
    · exact hq

/-! ### What is decrypted -/

theorem encrypt_whole (cipher : Cipher) (plaintext : List UInt8) :
    0 < (cipher.encrypt plaintext).length ∧
      (cipher.encrypt plaintext).length % aesBlockSize = 0 := by
  rw [cipher.length_encrypt]
  exact ⟨Nat.mul_pos (Nat.succ_pos _) (by decide), Nat.mul_mod_left _ _⟩

/-- `XSSL_read` decrypts as many bytes of the ciphertext as there are in the last piece. -/
theorem xsslRead_data (hcut : Cuts pieces (cipher.encrypt plaintext)) (num : Nat)
    (rest : List Recv) : ∃ h : pieces ≠ [],
      cipher.xsslRead num (pieces.map .data ++ rest) = some (readResult
        (cipher.aesDecrypt num (cipher.encrypt plaintext) (pieces.getLast h).length)) := by
  obtain ⟨hflat, hne, hopen⟩ := hcut
  obtain ⟨hpos, hwhole⟩ := encrypt_whole cipher plaintext
  cases pieces with
  | nil => exact absurd hpos (by rw [← hflat]; decide)
  | cons p pieces =>
    use cons_ne_nil _ _
    rw [xsslRead, recvLoop_data (Or.inl rfl) hne]
    · rw [nil_append, ← flatten_cons, hflat]
      rfl
    · intro k hk
      have hk' := hopen (k + 1) (Nat.succ_lt_succ hk) (Nat.succ_pos k)
      rwa [take_succ_cons, flatten_cons] at hk'
    · rwa [nil_append, ← flatten_cons, hflat]

theorem Cuts.length_getLast (hcut : Cuts pieces (cipher.encrypt plaintext)) (h : pieces ≠ [])
    (hlen : pieces.length ≠ 1) :
    (pieces.getLast h).length < (cipher.encrypt plaintext).length ∧
      (pieces.getLast h).length % aesBlockSize ≠ 0 := by
  have hpos : 0 < pieces.length := length_pos_iff.2 h
  have hopen := hcut.not_boundary (pieces.length - 1) (by omega) (by omega)
  have hwhole := (encrypt_whole cipher plaintext).2
  have hsplit : cipher.encrypt plaintext =
      (pieces.take (pieces.length - 1)).flatten ++ pieces.getLast h := by
    rw [← hcut.flatten_eq, ← dropLast_eq_take]
    nth_rw 1 [← dropLast_append_getLast h]
    rw [flatten_append, flatten_singleton]
  rw [hsplit, length_append] at hwhole ⊢
  rw [aesBlockSize] at hopen hwhole ⊢
  omega

/-- A message is read if and only if its ciphertext arrives in one piece. -/
theorem xsslRead_eq_iff {sends : List Int}
    (hsent : cipher.xsslWrite plaintext sends = some ((plaintext.length : Int), ciphertext))
    (hcut : Cuts pieces ciphertext) {num : Nat} (hnum : ciphertext.length + aesBlockSize ≤ num)
    (rest : List Recv) :
    cipher.xsslRead num (pieces.map .data ++ rest) =
      some ((plaintext.length : Int), plaintext) ↔ pieces.length = 1 := by
  obtain rfl := eq_encrypt_of_xsslWrite hsent
  obtain ⟨h, hread⟩ := xsslRead_data hcut num rest
  rw [hread]
  constructor
  · intro hok
    by_contra hlen
    -- the bytes that are decrypted end in the middle of a block
    obtain ⟨hlt, hpart⟩ := hcut.length_getLast h hlen
    rw [aesDecrypt, if_neg (by omega), cipher.decrypt_partial] at hok
    · have hret : (-1 : Int) = plaintext.length := (Prod.mk.inj (Option.some.inj hok)).1
      omega
    · rwa [length_take_of_le hlt.le]
  · intro hlen
    obtain ⟨p, rfl⟩ := length_eq_one_iff.1 hlen
    have hp : p = cipher.encrypt plaintext := by
      rw [← hcut.flatten_eq, flatten_singleton]
    rw [getLast_singleton, hp, aesDecrypt, if_neg (by omega), take_length, cipher.decrypt_encrypt]
    rfl

/-! ### A cipher -/

/-- The padding alone: each byte of it is its length. -/
def padding (p : List UInt8) : List UInt8 :=
  List.replicate (aesBlockSize - p.length % aesBlockSize)
    (UInt8.ofNat (aesBlockSize - p.length % aesBlockSize))

theorem length_append_padding (p : List UInt8) :
    (p ++ padding p).length = (p.length / aesBlockSize + 1) * aesBlockSize := by
  rw [length_append, padding, length_replicate, aesBlockSize]
  omega

/-- A cipher that adds the padding and changes nothing. -/
def padded : Cipher where
  encrypt p := p ++ padding p
  decrypt c :=
    if c.length % aesBlockSize ≠ 0 then none
    else c.getLast?.map fun b => c.take (c.length - b.toNat)
  decrypt_encrypt := by
    intro p
    have hwhole : (p ++ padding p).length % aesBlockSize = 0 := by
      rw [length_append_padding, Nat.mul_mod_left]
    have hpos : 0 < aesBlockSize - p.length % aesBlockSize :=
      Nat.sub_pos_of_lt (Nat.mod_lt _ (by decide))
    have hle : aesBlockSize - p.length % aesBlockSize < 256 := by
      rw [aesBlockSize]
      omega
    rw [if_neg (not_not.2 hwhole), length_append, padding, getLast?_append,
      getLast?_replicate, if_neg hpos.ne', length_replicate]
    simp [Nat.mod_eq_of_lt hle]
  length_encrypt := length_append_padding
  decrypt_partial := by
    intro c hc
    rw [if_pos hc]

/-- One byte, whose ciphertext arrives in two pieces. -/
theorem not_xsslRead_twoPieces : ∃ pieces : List (List UInt8),
      padded.xsslWrite [65] [16] = some (1, padded.encrypt [65]) ∧
      Cuts pieces (padded.encrypt [65]) ∧ (padded.encrypt [65]).length + aesBlockSize = 32 ∧
      padded.xsslRead 32 (pieces.map .data) = some (-1, []) := by
  exact ⟨[(padded.encrypt [65]).take 10, (padded.encrypt [65]).drop 10], by decide,
    ⟨by decide, by decide, by decide⟩, by decide, by decide⟩

theorem xsslRead_onePiece :
    padded.xsslRead 32 ([padded.encrypt [65]].map .data ++ []) = some (1, [65]) := by
  have hsent : padded.xsslWrite [65] [16] =
      some ((([65] : List UInt8).length : Int), padded.encrypt [65]) := by decide
  have hcut : Cuts [padded.encrypt [65]] (padded.encrypt [65]) :=
    ⟨by decide, by decide, by decide⟩
  exact (xsslRead_eq_iff hsent hcut (by decide) []).2 rfl

end Cipher

end Xssl

end Xia
