import Xia.Xid

/-!
# XIDs as text

The text of an XID of a named type determines the XID (`unparse_eq_iff`), and `cp_xid` reads it back
(`parse_unparse`).  An unnamed type is printed in hexadecimal and read in decimal, so its text is
not read back.
-/

namespace Xia

open List hiding Vector

theorem getLsbD_htonl (x : UInt32) {i : Nat} (hi : i < 32) :
    (htonl x).toBitVec.getLsbD i = x.toBitVec.getLsbD (24 - 8 * (i / 8) + i % 8) := by
  unfold htonl
  simp only [UInt32.toBitVec_or, UInt32.toBitVec_shiftLeft, UInt32.toBitVec_shiftRight,
    UInt32.toBitVec_and]
  generalize x.toBitVec = b
  interval_cases i <;> simp

theorem htonl_htonl (x : UInt32) : htonl (htonl x) = x := by
  apply UInt32.toBitVec_inj.1
  apply BitVec.eq_of_getLsbD_eq
  intro i hi
  rw [getLsbD_htonl _ hi, getLsbD_htonl _ (by omega)]
  congr 1
  omega

theorem htonl_eq_iff {x y : UInt32} : htonl x = y ↔ x = htonl y := by
  constructor
  · rintro rfl
    exact (htonl_htonl x).symm
  · rintro rfl
    exact htonl_htonl y

namespace Xid

/-! ### Hexadecimal digits -/

theorem hexValue_hexDigit (n : Nat) : hexValue (hexDigit n) = some (n % 16) := by
  have hlt : n % 16 < 16 := Nat.mod_lt _ (by decide)
  unfold hexDigit
  interval_cases n % 16 <;> decide

theorem hexDigit_congr {m n : Nat} (h : m % 16 = n % 16) : hexDigit m = hexDigit n := by
  unfold hexDigit
  rw [h]

theorem hexByte_ofNat (n : Nat) : hexByte (UInt8.ofNat n) = [hexDigit (n / 16), hexDigit n] := by
  unfold hexByte
  rw [UInt8.toNat_ofNat']
  rw [hexDigit_congr (m := n % 2 ^ 8 / 16) (n := n / 16) (by omega),
    hexDigit_congr (m := n % 2 ^ 8 % 16) (n := n) (by omega)]

theorem parseIdBytes_hexByte (l : List UInt8) : parseIdBytes l.length (l.flatMap hexByte) = l := by
  induction l with
  | nil => rfl
  | cons b l ih =>
    have hb : b.toNat < 256 := b.toNat_lt
    have hsum : b.toNat / 16 % 16 * 16 + b.toNat % 16 % 16 = b.toNat := by omega
    simp only [flatMap_cons, hexByte, cons_append, nil_append, length_cons,
      parseIdBytes, hexValue_hexDigit, ih, hsum, UInt8.ofNat_toNat]

def IsHex (c : Char) : Prop := ∃ n, c = hexDigit n

theorem IsHex.val_mem {c : Char} (h : IsHex c) : c ∈ "0123456789abcdef".toList := by
  obtain ⟨n, rfl⟩ := h
  have hlt : n % 16 < 16 := Nat.mod_lt _ (by decide)
  unfold hexDigit
  interval_cases n % 16 <;> decide

theorem isHex_of_mem_hexByte {l : List UInt8} {c : Char} (h : c ∈ l.flatMap hexByte) : IsHex c := by
  obtain ⟨b, -, hb⟩ := mem_flatMap.1 h
  simp only [hexByte, mem_cons, not_mem_nil, or_false] at hb
  rcases hb with rfl | rfl
  · exact ⟨_, rfl⟩
  · exact ⟨_, rfl⟩

theorem isHex_of_mem_hexNumber {n : Nat} {c : Char} (h : c ∈ hexNumber n) : IsHex c := by
  unfold hexNumber at h
  dsimp only at h
  split at h
  · rw [mem_singleton.1 h]
    exact ⟨0, rfl⟩
  · obtain ⟨i, -, rfl⟩ := List.mem_map.1 ((dropWhile_sublist _).subset h)
    exact ⟨_, rfl⟩

/-! ### Types -/

def Named (type : UInt32) : Prop :=
  htonl type ∈ [typeUndef, typeAd, typeHid, typeCid, typeSid, typeIp]

instance (type : UInt32) : Decidable (Named type) := inferInstanceAs (Decidable (_ ∈ _))

theorem named_cases {type : UInt32} (h : Named type) :
    type = htonl typeUndef ∨ type = htonl typeAd ∨ type = htonl typeHid ∨ type = htonl typeCid ∨
      type = htonl typeSid ∨ type = htonl typeIp := by
  simpa only [Named, mem_cons, not_mem_nil, or_false, htonl_eq_iff] using h

theorem unparseType_of_not_named {type : UInt32} (h : ¬ Named type) :
    unparseType type = hexNumber type.toNat := by
  simp only [Named, mem_cons, not_mem_nil, or_false, not_or] at h
  obtain ⟨h₁, h₂, h₃, h₄, h₅, h₆⟩ := h
  simp only [unparseType, h₁, h₂, h₃, h₄, h₅, h₆, if_false]

theorem parseType_unparseType {type : UInt32} (h : Named type) :
    parseType (unparseType type) = some type := by
  rcases named_cases h with rfl | rfl | rfl | rfl | rfl | rfl <;> decide

theorem not_isHex_head_unparseType {type : UInt32} (h : Named type) :
    ∃ c ∈ unparseType type, ¬ IsHex c := by
  have hcap : ∀ c, c ∉ "0123456789abcdef".toList → ¬ IsHex c := fun c hc hx => hc hx.val_mem
  rcases named_cases h with rfl | rfl | rfl | rfl | rfl | rfl
  · exact ⟨'U', by decide, hcap _ (by decide)⟩
  · exact ⟨'A', by decide, hcap _ (by decide)⟩
  · exact ⟨'H', by decide, hcap _ (by decide)⟩
  · exact ⟨'C', by decide, hcap _ (by decide)⟩
  · exact ⟨'S', by decide, hcap _ (by decide)⟩
  · exact ⟨'I', by decide, hcap _ (by decide)⟩

theorem unparseType_eq_iff {type type' : UInt32} (h' : Named type') :
    unparseType type = unparseType type' ↔ type = type' := by
  refine ⟨fun heq => ?_, fun heq => heq ▸ rfl⟩
  by_cases h : Named type
  · have hread := parseType_unparseType h
    rw [heq, parseType_unparseType h', Option.some_inj] at hread
    exact hread.symm
  · obtain ⟨c, hc, hno⟩ := not_isHex_head_unparseType h'
    rw [← heq, unparseType_of_not_named h] at hc
    exact absurd (isHex_of_mem_hexNumber hc) hno

theorem colon_not_mem_unparseType (type : UInt32) : ':' ∉ unparseType type := by
  by_cases h : Named type
  · rcases named_cases h with rfl | rfl | rfl | rfl | rfl | rfl <;> decide
  · rw [unparseType_of_not_named h]
    intro hmem
    exact absurd (isHex_of_mem_hexNumber hmem).val_mem (by decide)

/-! ### The buffer of `unparse` -/

theorem hexDigit_eq_zero_iff {n : Nat} : hexDigit n = '0' ↔ n % 16 = 0 := by
  have hlt : n % 16 < 16 := Nat.mod_lt _ (by decide)
  unfold hexDigit
  interval_cases n % 16 <;> decide

theorem length_hexNumber_le_iff {n : Nat} (hn : n < 2 ^ 32) :
    (hexNumber n).length ≤ 6 ↔ n < 2 ^ 24 := by
  have hdigits : (List.range 8).map (fun i => hexDigit (n / 16 ^ (7 - i))) =
      hexDigit (n / 16 ^ 7) :: hexDigit (n / 16 ^ 6) ::
        (List.range 6).map fun i => hexDigit (n / 16 ^ (5 - i)) := rfl
  unfold hexNumber
  rw [hdigits]
  dsimp only
  generalize hrest : (List.range 6).map (fun i => hexDigit (n / 16 ^ (5 - i))) = rest
  have hlen : rest.length = 6 := by rw [← hrest]; simp
  -- the first two of the eight digits decide
  by_cases h₇ : hexDigit (n / 16 ^ 7) = '0'
  · by_cases h₆ : hexDigit (n / 16 ^ 6) = '0'
    · have hshort := (dropWhile_sublist (l := rest) (· = '0')).length_le
      rw [hexDigit_eq_zero_iff] at h₇ h₆
      refine iff_of_true ?_ (by omega)
      rw [dropWhile_cons_of_pos (by simpa [hexDigit_eq_zero_iff] using h₇),
        dropWhile_cons_of_pos (by simpa [hexDigit_eq_zero_iff] using h₆)]
      split
      · simp
      · omega
    · rw [dropWhile_cons_of_pos (by simpa using h₇), dropWhile_cons_of_neg (by simpa using h₆)]
      rw [hexDigit_eq_zero_iff] at h₆
      exact iff_of_false (by simp [hlen]) (by omega)
  · rw [dropWhile_cons_of_neg (by simpa using h₇)]
    rw [hexDigit_eq_zero_iff] at h₇
    exact iff_of_false (by simp [hlen]) (by omega)

theorem sprintfExtent_eq {c : Nat} {ss : List Text} (h : ss ≠ []) :
    sprintfExtent c ss = c + ss.flatten.length + 1 := by
  induction ss generalizing c with
  | nil => exact absurd rfl h
  | cons s ss ih =>
    rw [sprintfExtent, flatten_cons, length_append]
    cases ss with
    | nil => simp [sprintfExtent]
    | cons s' ss =>
      rw [ih (by simp)]
      omega

theorem flatten_unparsePieces (x : Xid) : x.unparsePieces.flatten = x.unparse := by
  simp [unparsePieces, unparse, flatMap_def]

theorem length_unparse (x : Xid) : x.unparse.length = (unparseType x.type).length + 41 := by
  have hbytes : (x.id.toList.flatMap hexByte).length = 40 := by
    rw [length_flatMap]
    simp [hexByte, xidIdLen]
  unfold unparse
  rw [length_append, length_append, hbytes, length_singleton]

theorem unparseExtent_eq (x : Xid) : x.unparseExtent = (unparseType x.type).length + 42 := by
  rw [unparseExtent, sprintfExtent_eq (by simp [unparsePieces]), flatten_unparsePieces,
    length_unparse]
  omega

/-- **`XID::unparse` stays inside its buffer exactly if the type has a name, or at most six
hexadecimal digits.** -/
theorem unparse_fits_iff (x : Xid) :
    x.unparseExtent ≤ unparseBufSize ↔ Named x.type ∨ x.type.toNat < 2 ^ 24 := by
  rw [unparseExtent_eq, unparseBufSize]
  by_cases h : Named x.type
  · refine iff_of_true ?_ (.inl h)
    rcases named_cases h with h | h | h | h | h | h <;> rw [h] <;> decide
  · rw [unparseType_of_not_named h]
    have hlen := length_hexNumber_le_iff x.type.toNat_lt
    constructor
    · intro hle
      exact .inr (hlen.1 (by omega))
    · rintro (hnamed | hlt)
      · exact absurd hnamed h
      · have hle := hlen.2 hlt
        omega

/-- The largest type needs fifty bytes. -/
theorem not_unparse_fits_unknown :
    ¬ (⟨0xffffffff, Vector.replicate xidIdLen 0⟩ : Xid).unparseExtent ≤ unparseBufSize := by
  decide

/-! ### Whole XIDs -/

theorem takeWhile_colon {t u : Text} (h : ':' ∉ t) : (t ++ [':'] ++ u).takeWhile (· ≠ ':') = t ∧
      (t ++ [':'] ++ u).dropWhile (· ≠ ':') = ':' :: u := by
  have hall : ∀ c ∈ t, decide (c ≠ ':') = true := by
    intro c hc
    rw [decide_eq_true_eq]
    rintro rfl
    exact h hc
  rw [append_assoc, takeWhile_append_of_pos hall, dropWhile_append_of_pos hall]
  simp

theorem hexByte_toList_inj {v w : Vector UInt8 xidIdLen} :
    v.toList.flatMap hexByte = w.toList.flatMap hexByte ↔ v = w := by
  refine ⟨fun h => ?_, fun h => h ▸ rfl⟩
  have hv := parseIdBytes_hexByte v.toList
  have hw := parseIdBytes_hexByte w.toList
  rw [Vector.length_toList] at hv hw
  rw [h, hw] at hv
  exact Vector.toList_inj.1 hv.symm

/-- **The text of an XID of a named type belongs to no other XID.** -/
theorem unparse_eq_iff {x y : Xid} (hy : Named y.type) : x.unparse = y.unparse ↔ x = y := by
  refine ⟨fun h => ?_, fun h => h ▸ rfl⟩
  obtain ⟨htx, hdx⟩ := takeWhile_colon (u := x.id.toList.flatMap hexByte)
    (colon_not_mem_unparseType x.type)
  obtain ⟨hty, hdy⟩ := takeWhile_colon (u := y.id.toList.flatMap hexByte)
    (colon_not_mem_unparseType y.type)
  unfold unparse at h
  rw [h] at htx hdx
  have htype : x.type = y.type := (unparseType_eq_iff hy).1 (htx.symm.trans hty)
  have hid : x.id = y.id := hexByte_toList_inj.1 (cons_injective (hdx.symm.trans hdy))
  cases x
  cases y
  rw [Xid.mk.injEq]
  exact ⟨htype, hid⟩

theorem ipAddressParse_eq_none {s : Text} (h : '.' ∉ s) : ipAddressParse s = none := by
  unfold ipAddressParse
  cases hf : ipField s with
  | none => rfl
  | some r =>
    obtain ⟨a, rest⟩ := r
    have hrest : rest.head? ≠ some '.' := by
      intro hhead
      simp only [ipField] at hf
      split at hf
      · cases hf
      · obtain ⟨-, rfl⟩ := Prod.mk.inj (Option.some.inj hf)
        exact h ((dropWhile_sublist _).subset (mem_of_mem_head? hhead))
    simp [hrest, guard]

/-- **`cp_xid` reads the text of an XID of a named type back.** -/
theorem parse_unparse {x : Xid} (hx : Named x.type) : parse x.unparse = some x := by
  obtain ⟨ht, hd⟩ := takeWhile_colon (u := x.id.toList.flatMap hexByte)
    (colon_not_mem_unparseType x.type)
  have hdot : '.' ∉ x.id.toList.flatMap hexByte := fun hmem =>
    absurd (isHex_of_mem_hexByte hmem).val_mem (by decide)
  have hid : ∀ ip, parseId ip (x.id.toList.flatMap hexByte) = x.id := by
    intro ip
    have hbytes := parseIdBytes_hexByte x.id.toList
    rw [Vector.length_toList] at hbytes
    unfold parseId
    rw [ipAddressParse_eq_none hdot]
    apply Vector.toList_inj.1
    simp [hbytes]
  unfold parse unparse
  rw [if_pos (by simp)]
  dsimp only
  rw [ht, hd, tail_cons, parseType_unparseType hx, Option.map_some, hid]

end Xid

end Xia
