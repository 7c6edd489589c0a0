import Xia.Dagaddr.Equiv.Numbering
import Xia.Equiv.Words

/-!
# The text of an address in the API

`split`, `trim` and `stoi` take the words of a text apart again: a text of words with a space
between them (`split_unwords`), a line with blanks around it (`lineElems_unwords`), a number
(`stoi_decimal`) and an XID (`Node.ofString_toText`).
-/

namespace Xia

open List Option
open XiaPath (decimal isWord_decimal)

namespace Dagaddr

/-! ### Pieces -/

section Split

variable {delim : Char}

theorem split_of_not_mem {s : Text} (hs : delim ∉ s) (hne : s ≠ []) : split delim s = [s] := by
  induction s with
  | nil => exact absurd rfl hne
  | cons c s ih =>
    obtain ⟨hc, hs⟩ := not_or.1 (mem_cons.not.1 hs)
    rw [split, if_neg (Ne.symm hc)]
    by_cases hnil : s = []
    · rw [hnil, split]
    · rw [ih hs hnil]

theorem split_append {s : Text} (hs : delim ∉ s) (t : Text) :
    split delim (s ++ delim :: t) = s :: split delim t := by
  induction s with
  | nil => rw [nil_append, split, if_pos rfl]
  | cons c s ih =>
    obtain ⟨hc, hs⟩ := not_or.1 (mem_cons.not.1 hs)
    rw [cons_append, split, if_neg (Ne.symm hc), ih hs]

end Split

/-! ### Words -/

theorem isSpace_of_isBlank {c : Char} (hc : isBlank c = true) : isSpace c = true := by
  simp only [isBlank, Bool.or_eq_true, decide_eq_true_eq] at hc
  rcases hc with rfl | rfl <;> decide

theorem isBlank_of_isWord {w : Text} (hw : IsWord w) {c : Char} (hc : c ∈ w) :
    isBlank c = false := by
  rw [Bool.eq_false_iff]
  exact fun hblank => hw.not_mem (isSpace_of_isBlank hblank) hc

theorem split_unwords {ws : List Text} (hws : ∀ w ∈ ws, IsWord w) :
    split ' ' (unwords ws) = ws := by
  induction ws with
  | nil => rfl
  | cons w ws ih =>
    obtain ⟨hw, hws⟩ := forall_mem_cons.1 hws
    have hspace : ' ' ∉ w := hw.not_mem (by decide)
    rcases ws with _ | ⟨v, ws⟩
    · rw [unwords_cons, map_nil, spaced, flatMap_nil, append_nil]
      exact split_of_not_mem hspace hw.ne
    · have happend := unwords_append (cons_ne_nil w []) (cons_ne_nil v ws)
      rw [singleton_append, unwords_singleton] at happend
      rw [happend, split_append hspace, ih hws]

theorem filter_unwords {ws : List Text} (hws : ∀ w ∈ ws, IsWord w) :
    (unwords ws).filter (· ≠ '\n') = unwords ws := by
  refine filter_eq_self.2 fun c hc => decide_eq_true ?_
  rintro rfl
  rcases mem_unwords hc with heq | ⟨w, hw, hc⟩
  · cases heq
  · exact (hws w hw).not_mem (by decide) hc

theorem trim_append {a s b : Text} (ha : ∀ c ∈ a, isBlank c = true) (hs : s ≠ [])
    (hhead : ∀ c ∈ s.head?, isBlank c = false) (hlast : ∀ c ∈ s.getLast?, isBlank c = false)
    (hb : ∀ c ∈ b, isBlank c = true) : trim (a ++ (s ++ b)) = s := by
  obtain ⟨c, t, hct⟩ := exists_cons_of_ne_nil hs
  have hfront : (a ++ (s ++ b)).dropWhile isBlank = s ++ b := by
    have hc : isBlank c = false := hhead c (by simp [hct])
    rw [dropWhile_append_of_pos ha, hct, cons_append, dropWhile_cons_of_neg]
    simp [hc]
  have hrev : ∃ d t, s.reverse = d :: t := exists_cons_of_ne_nil (by simpa using hs)
  obtain ⟨d, u, hdu⟩ := hrev
  have hd : isBlank d = false := by
    refine hlast d ?_
    rw [← head?_reverse, hdu]
    rfl
  rw [trim, hfront, List.rdropWhile, reverse_append,
    dropWhile_append_of_pos fun c hc => hb c (mem_reverse.1 hc), hdu,
    dropWhile_cons_of_neg (by simp [hd]), ← hdu, reverse_reverse]

theorem head?_unwords {w : Text} (hw : w ≠ []) (ws : List Text) :
    (unwords (w :: ws)).head? = w.head? := by
  rw [unwords_cons, head?_append_of_ne_nil _ hw]

theorem getLast?_unwords {w : Text} (hw : w ≠ []) (ws : List Text) :
    (unwords (ws ++ [w])).getLast? = w.getLast? := by
  cases ws with
  | nil => rw [nil_append, unwords_singleton]
  | cons v ws =>
    rw [unwords_append (cons_ne_nil v ws) (cons_ne_nil w []), unwords_singleton,
      getLast?_append_of_ne_nil _ (cons_ne_nil _ _), getLast?_cons_of_ne_nil hw]

/-- **The words of a line**, with blanks around it. -/
theorem Graph.lineElems_unwords {a b : Text} {ws : List Text} (ha : ∀ c ∈ a, isBlank c = true)
    (hne : ws ≠ []) (hws : ∀ w ∈ ws, IsWord w) (hb : ∀ c ∈ b, isBlank c = true) :
    lineElems (a ++ (unwords ws ++ b)) = ws := by
  have htrim : trim (a ++ (unwords ws ++ b)) = unwords ws := by
    refine trim_append ha ?_ (fun c hc => ?_) (fun c hc => ?_) hb
    · obtain ⟨w, vs, rfl⟩ := exists_cons_of_ne_nil hne
      rw [unwords_cons]
      exact append_ne_nil_of_left_ne_nil (hws w mem_cons_self).ne _
    · obtain ⟨w, vs, rfl⟩ := exists_cons_of_ne_nil hne
      have hw := hws w mem_cons_self
      rw [head?_unwords hw.ne] at hc
      exact isBlank_of_isWord hw (mem_of_mem_head? hc)
    · obtain ⟨vs, w, rfl⟩ := (eq_nil_or_concat' ws).resolve_left hne
      have hw := hws w (by simp)
      rw [getLast?_unwords hw.ne] at hc
      exact isBlank_of_isWord hw (mem_of_mem_getLast? hc)
  rw [lineElems, htrim, split_unwords hws]

/-! ### Numbers -/

theorem scanDigits_of_isDigit {s : Text} (hs : ∀ c ∈ s, c.isDigit = true) (v : Nat) :
    scanDigits 10 s (some v) = some (Nat.ofDigitChars 10 s v) := by
  induction s generalizing v with
  | nil => rfl
  | cons c s ih =>
    obtain ⟨hc, hs⟩ := forall_mem_cons.1 hs
    rw [scanDigits, XiaPath.digitValue_of_isDigit hc]
    dsimp only
    rw [ih hs, Nat.ofDigitChars_cons, getD_some, Nat.mul_comm]
    rfl

theorem scanDigits_decimal (n : Nat) : scanDigits 10 (decimal n) none = some n := by
  have hdigits : ∀ c ∈ decimal n, c.isDigit = true := fun c =>
    XiaPath.isDigit_of_mem_decimal
  obtain ⟨c, s, hcs⟩ := exists_cons_of_ne_nil (isWord_decimal n).ne
  have hvalue : Nat.ofDigitChars 10 (decimal n) 0 = n :=
    Nat.ofDigitChars_toDigits (by decide) (by decide)
  rw [hcs] at hvalue hdigits ⊢
  obtain ⟨hc, hs⟩ := forall_mem_cons.1 hdigits
  rw [scanDigits, XiaPath.digitValue_of_isDigit hc]
  dsimp only
  rw [scanDigits_of_isDigit hs, ← hvalue, Nat.ofDigitChars_cons]
  simp

/-- **A number is read as it was printed.** -/
theorem sscanfInt_decimal {n : Nat} (hn : n < 2 ^ 31) : sscanfInt (decimal n) = some (n : Int) := by
  obtain ⟨c, s, hcs⟩ := exists_cons_of_ne_nil (isWord_decimal n).ne
  -- there is no white space and no sign
  have hskip : (decimal n).dropWhile isSpace = decimal n := by
    have hspace := (isPlain_iff.1 (List.all_eq_true.1 (isWord_decimal n).plain c (by simp [hcs]))).1
    rw [hcs, dropWhile_cons_of_neg (by simp [hspace])]
  have hsign : scanSign (decimal n) = (false, decimal n) := by
    have hc : c.isDigit = true := XiaPath.isDigit_of_mem_decimal (n := n) (by simp [hcs])
    rw [hcs]
    unfold scanSign
    split
    · simp_all
    · simp_all
    · rfl
  rw [sscanfInt, hskip, hsign]
  dsimp only
  rw [scanDigits_decimal, map_some, if_neg (by decide), Nat.min_eq_left (by omega),
    Int.bmod_eq_of_le (by omega) (by omega)]

theorem stoi_decimal {n : Nat} (hn : n < 2 ^ 31) : stoi (decimal n) 10 = n := by
  rw [stoi, if_neg (by decide), sscanfInt_decimal hn, getD_some]

theorem Graph.dagPosition_decimal {n : Nat} (hn : n + 1 < 2 ^ 31) :
    dagPosition (decimal n) = n + 1 := by
  rw [dagPosition, stoi_decimal (by omega), Int.bmod_eq_of_le (by omega) (by omega)]

/-! ### XIDs -/

theorem take_drop_hexByte {l : List UInt8} {i : Nat} (hi : i < l.length) :
    ((l.flatMap Xid.hexByte).drop (2 * i)).take 2 = Xid.hexByte l[i] := by
  induction l generalizing i with
  | nil => cases hi
  | cons b l ih =>
    cases i with
    | zero => simp [Xid.hexByte]
    | succ i =>
      have hdrop : ((b :: l).flatMap Xid.hexByte).drop (2 * (i + 1)) =
          (l.flatMap Xid.hexByte).drop (2 * i) := by
        rw [show 2 * (i + 1) = 2 * i + 2 by omega]
        simp [Xid.hexByte]
      rw [hdrop, ih (Nat.lt_of_succ_lt_succ hi)]
      rfl

namespace Node

theorem idByte_hexByte (b : UInt8) : idByte (Xid.hexByte b) = b := by
  have hall : ∀ n < 256, idByte (Xid.hexByte (UInt8.ofNat n)) = UInt8.ofNat n := by decide +kernel
  have hb := hall b.toNat b.toNat_lt
  rwa [UInt8.ofNat_toNat] at hb

/-- **An identifier is read as it was printed.** -/
theorem idOfString_idString (libc : Libc) {type : UInt32} (htype : type ≠ Xid.typeIp) (n : Node) :
    idOfString libc type n.idString = n.id := by
  have hlength : n.idString.length = 40 := by
    rw [idString, length_flatMap]
    simp [Xid.hexByte, xidIdLen]
  unfold idOfString
  rw [if_neg htype]
  dsimp only
  rw [if_neg (not_not_intro hlength)]
  ext i hi
  rw [Vector.getElem_ofFn, idString, take_drop_hexByte (by simpa using hi), idByte_hexByte,
    Vector.getElem_toList]

theorem typeString_cases {n : Node} (h : n.type ∈ Graph.addressTypes) :
    typeOfString n.typeString = n.type ∧ n.type ≠ Xid.typeIp ∧
      ∀ c ∈ n.typeString, isPlain c = true ∧ c ≠ ':' ∧ c ≠ '-' ∧ c ≠ 'G' := by
  have hall : typeOfString n.typeString = n.type ∧ n.type ≠ Xid.typeIp ∧
      n.typeString.all (fun c => isPlain c && c ≠ ':' && c ≠ '-' && c ≠ 'G') = true := by
    simp only [Graph.addressTypes, mem_cons, not_mem_nil, or_false] at h
    unfold typeString
    rcases h with h | h | h | h <;> rw [h] <;> decide
  refine ⟨hall.1, hall.2.1, fun c hc => ?_⟩
  simpa [and_assoc] using List.all_eq_true.1 hall.2.2 c hc

theorem isWord_toText {n : Node} (h : n.type ∈ Graph.addressTypes) :
    IsWord n.toText ∧ '-' ∉ n.toText := by
  obtain ⟨-, -, hname⟩ := typeString_cases h
  have hall : ∀ c ∈ n.toText, isPlain c = true ∧ c ≠ '-' := by
    intro c hc
    simp only [toText, mem_append, mem_singleton] at hc
    rcases hc with (hc | rfl) | hc
    · exact ⟨(hname c hc).1, (hname c hc).2.2.1⟩
    · decide
    · have hhex : "0123456789abcdef".toList.all (fun c => isPlain c && c ≠ '-') = true := by decide
      simpa using List.all_eq_true.1 hhex c (Xid.isHex_of_mem_hexByte hc).val_mem
  refine ⟨⟨?_, List.all_eq_true.2 fun c hc => (hall c hc).1⟩, fun hmem => (hall _ hmem).2 rfl⟩
  simp [toText]

/-- The node that is read from the first two parts of a text. -/
def read (libc : Libc) (ptr : Nat) (s : Text) : Node :=
  constructFromStrings libc ptr ((split ':' s).getD 0 []) ((split ':' s).getD 1 [])

/-- **A node can be read from a text with two parts.** -/
theorem ofString_eq_ok {libc : Libc} {ptr : Nat} {s : Text} {n : Node} :
    ofString libc ptr s = .ok n ↔ 2 ≤ (split ':' s).length ∧ n = read libc ptr s := by
  simp only [ofString, read, Result.bind_eq_ok, inBounds_eq_ok, Result.pure_eq_ok]
  rcases split ':' s with _ | ⟨a, _ | ⟨b, l⟩⟩
  · simp
  · simp
  · simp [eq_comm]

/-- **A node is read as it was printed.** -/
theorem ofString_toText (libc : Libc) (ptr : Nat) {n : Node} (h : n.type ∈ Graph.addressTypes) :
    ofString libc ptr n.toText = .ok ⟨ptr, n.type, n.id⟩ := by
  obtain ⟨htype, hip, hname⟩ := typeString_cases h
  have hcolon : ':' ∉ n.idString := fun hmem =>
    absurd (Xid.isHex_of_mem_hexByte hmem).val_mem (by decide)
  have hne : n.idString ≠ [] := by
    intro hnil
    have hlength := congrArg List.length hnil
    rw [idString, length_flatMap] at hlength
    simp [Xid.hexByte, xidIdLen] at hlength
  have hsplit : split ':' n.toText = [n.typeString, n.idString] := by
    rw [toText, append_assoc, singleton_append,
      split_append fun hmem => (hname _ hmem).2.1 rfl, split_of_not_mem hcolon hne]
  rw [ofString, hsplit]
  simp only [getElem?_cons_zero, getElem?_cons_succ, inBounds, Result.ok_bind]
  rw [constructFromStrings, htype, idOfString_idString libc hip]
  rfl

end Node

end Dagaddr

end Xia
