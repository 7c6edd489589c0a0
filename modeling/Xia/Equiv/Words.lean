import Xia.XiaPath
import Xia.Equiv.Xid

/-!
# The words of a text

A text that is made of words with white space between them is split into these words
(`cpSpacevec_spaced`), whatever the white space is: the texts that Click prints have a single space
between the words, those of the address library of the API also ends of lines.

Arguments with commas between them are found again, too (`cpArgvec_withCommas`).

The words of an address are XIDs, numbers and punctuation.  A number is read as it was printed
(`cpInteger_decimal`).
-/

namespace Xia

open List

variable {c : Char} {w : Text} {l : List (Text × Text)} {ws : List Text}

/-! ### Words -/

/-- The characters that mean nothing to the scanners. -/
def isPlain (c : Char) : Bool :=
  !isSpace c && c ≠ '/' && c ≠ '\"' && c ≠ '\'' && c ≠ '\\'

theorem isPlain_iff : isPlain c = true ↔
    isSpace c = false ∧ c ≠ '/' ∧ c ≠ '\"' ∧ c ≠ '\'' ∧ c ≠ '\\' := by
  simp [isPlain, and_assoc]

/-- A word of such characters. -/
structure IsWord (w : Text) : Prop where
  ne : w ≠ []
  plain : w.all isPlain = true

theorem IsWord.not_mem (hw : IsWord w) (hc : isSpace c = true) : c ∉ w := by
  intro hmem
  have hplain := (isPlain_iff.1 (all_eq_true.1 hw.plain c hmem)).1
  rw [hc] at hplain
  cases hplain

/-- White space between two words. -/
structure IsGap (g : Text) : Prop where
  ne : g ≠ []
  space : g.all isSpace = true

theorem isGap_space : IsGap [' '] := ⟨by decide, by decide⟩

def spaced (l : List (Text × Text)) : Text := l.flatMap fun gw => gw.1 ++ gw.2

theorem spaced_cons (g w : Text) (l : List (Text × Text)) :
    spaced ((g, w) :: l) = g ++ (w ++ spaced l) := by
  simp [spaced]

theorem spaced_append (l m : List (Text × Text)) : spaced (l ++ m) = spaced l ++ spaced m := by
  simp [spaced]

theorem startsComment_of_isPlain (hc : isPlain c = true) (s : Text) :
    startsComment (c :: s) = false := by
  cases s with
  | nil => rfl
  | cons d s => simp [startsComment, (isPlain_iff.1 hc).2.1]

theorem isSpace_cases (hc : isSpace c = true) : c ≠ '/' ∧ c ≠ '\"' ∧ c ≠ '\'' ∧ c ≠ '\\' := by
  simp only [isSpace, Bool.or_eq_true, decide_eq_true_eq] at hc
  rcases hc with ((((rfl | rfl) | rfl) | rfl) | rfl) | rfl <;> decide

/-- What follows a word: nothing, or white space. -/
def Stops (s : Text) : Prop := ∀ c ∈ s.head?, isSpace c = true

theorem stops_spaced (hl : ∀ gw ∈ l, IsGap gw.1) : Stops (spaced l) := by
  cases l with
  | nil => exact nofun
  | cons gw l =>
    have hg := hl gw mem_cons_self
    obtain ⟨c, g, hcg⟩ := exists_cons_of_ne_nil hg.ne
    have hc : isSpace c = true := all_eq_true.1 hg.space c (by simp [hcg])
    simpa [Stops, spaced, hcg] using hc

theorem skipSpacevecItemAux_append {s : Text} {fuel : Nat} (hw : w.all isPlain = true)
    (hs : Stops s) (hfuel : w.length ≤ fuel) : skipSpacevecItemAux fuel (w ++ s) = s := by
  induction w generalizing fuel with
  | nil =>
    match fuel, s with
    | 0, _ => rfl
    | _ + 1, [] => rfl
    | fuel + 1, c :: s =>
      have hc : isSpace c = true := hs c rfl
      obtain ⟨hslash, hdouble, hsingle, hback⟩ := isSpace_cases hc
      have hcomment : startsComment (c :: s) = false := by
        cases s <;> simp [startsComment, hslash]
      rw [nil_append, skipSpacevecItemAux, if_neg (by simp [hcomment]), if_neg hdouble,
        if_neg hsingle, if_neg (fun h => hback h.1), if_pos hc]
  | cons c w ih =>
    obtain ⟨fuel, rfl⟩ : ∃ k, fuel = k + 1 := ⟨fuel - 1, by simp at hfuel; omega⟩
    rw [all_cons, Bool.and_eq_true] at hw
    obtain ⟨hspace, -, hdouble, hsingle, hback⟩ := isPlain_iff.1 hw.1
    rw [cons_append, skipSpacevecItemAux, if_neg (by simp [startsComment_of_isPlain hw.1]),
      if_neg hdouble, if_neg hsingle, if_neg (fun h => hback h.1), if_neg (by simp [hspace])]
    exact ih hw.2 (by simpa using hfuel)

theorem cpSkipCommentSpaceAux_append {g : Text} (hg : g.all isSpace = true) (hw : IsWord w)
    (s : Text) {fuel : Nat} (hfuel : g.length < fuel) :
    cpSkipCommentSpaceAux fuel (g ++ (w ++ s)) = w ++ s := by
  induction g generalizing fuel with
  | nil =>
    obtain ⟨c, w, rfl⟩ := exists_cons_of_ne_nil hw.ne
    have hc : isPlain c = true := all_eq_true.1 hw.plain c mem_cons_self
    obtain ⟨fuel, rfl⟩ : ∃ k, fuel = k + 1 := ⟨fuel - 1, by simp at hfuel; omega⟩
    rw [nil_append, cons_append, cpSkipCommentSpaceAux,
      if_neg (by simp [(isPlain_iff.1 hc).1]), if_neg (by simp [startsComment_of_isPlain hc])]
  | cons c g ih =>
    obtain ⟨fuel, rfl⟩ : ∃ k, fuel = k + 1 := ⟨fuel - 1, by simp at hfuel; omega⟩
    rw [all_cons, Bool.and_eq_true] at hg
    rw [cons_append, cpSkipCommentSpaceAux, if_pos hg.1]
    exact ih hg.2 (by simpa using hfuel)

theorem cpSkipCommentSpace_append {g : Text} (hg : g.all isSpace = true) (hw : IsWord w)
    (s : Text) : cpSkipCommentSpace (g ++ (w ++ s)) = w ++ s := by
  have hpos := length_pos_iff.2 hw.ne
  exact cpSkipCommentSpaceAux_append hg hw s (by simp only [length_append]; omega)

theorem cpShiftSpacevec_append {s : Text} (hw : IsWord w) (hs : Stops s) :
    cpShiftSpacevec (w ++ s) = (w, cpSkipCommentSpace s) := by
  have hskip : skipSpacevecItem (w ++ s) = s :=
    skipSpacevecItemAux_append hw.plain hs (by simp)
  have hitem : cpSkipCommentSpace (w ++ s) = w ++ s := cpSkipCommentSpace_append (g := []) rfl hw s
  rw [cpShiftSpacevec, hitem, hskip, length_append, Nat.add_sub_cancel, take_left]

theorem cpSpacevecAux_spaced (hw : IsWord w) (hl : ∀ gw ∈ l, IsGap gw.1 ∧ IsWord gw.2) {fuel : Nat}
    (hfuel : l.length < fuel) : cpSpacevecAux fuel (w ++ spaced l) = w :: l.map Prod.snd := by
  induction l generalizing w fuel with
  | nil =>
    obtain ⟨fuel, rfl⟩ : ∃ k, fuel = k + 1 := ⟨fuel - 1, by simp at hfuel; omega⟩
    have hstops : Stops (spaced []) := stops_spaced fun _ h => absurd h not_mem_nil
    rw [cpSpacevecAux, cpShiftSpacevec_append hw hstops]
    dsimp only
    rw [if_neg hw.ne]
    cases fuel <;> rfl
  | cons gw l ih =>
    obtain ⟨fuel, rfl⟩ : ∃ k, fuel = k + 1 := ⟨fuel - 1, by simp at hfuel; omega⟩
    obtain ⟨hg, hv⟩ := hl gw mem_cons_self
    have hrest : ∀ gw ∈ l, IsGap gw.1 ∧ IsWord gw.2 := fun v hv => hl v (mem_cons_of_mem _ hv)
    have hstops : Stops (spaced (gw :: l)) := stops_spaced fun v hv => (hl v hv).1
    rw [cpSpacevecAux, cpShiftSpacevec_append hw hstops, spaced_cons,
      cpSkipCommentSpace_append hg.space hv]
    dsimp only
    rw [if_neg hw.ne, ih hv hrest (by simpa using hfuel), map_cons]

/-- **The words of a text are read back**, whatever the white space between them is. -/
theorem cpSpacevec_spaced (hw : IsWord w) (hl : ∀ gw ∈ l, IsGap gw.1 ∧ IsWord gw.2) :
    cpSpacevec (w ++ spaced l) = w :: l.map Prod.snd := by
  refine cpSpacevecAux_spaced hw hl ?_
  have hpos := length_pos_iff.2 hw.ne
  have hlen : l.length ≤ (spaced l).length := by
    clear hw hpos
    induction l with
    | nil => simp
    | cons gw l ih =>
      have hg := length_pos_iff.2 (hl gw mem_cons_self).1.ne
      have hrest := ih fun v hv => hl v (mem_cons_of_mem _ hv)
      rw [spaced_cons]
      simp only [length_append, length_cons]
      omega
  rw [length_append]
  omega

/-! ### A single space -/

def unwords (ws : List Text) : Text := (ws.flatMap (· ++ [' '])).dropLast

theorem unwords_cons (w : Text) (ws : List Text) :
    unwords (w :: ws) = w ++ spaced (ws.map fun v => ([' '], v)) := by
  induction ws generalizing w with
  | nil => simp [unwords, spaced]
  | cons v ws ih =>
    have hne : (v :: ws).flatMap (· ++ [' ']) ≠ [] := by simp
    rw [unwords, flatMap_cons, dropLast_append_of_ne_nil hne, ← unwords, ih,
      map_cons, spaced_cons, append_assoc]

theorem unwords_singleton (w : Text) : unwords [w] = w := by
  simp [unwords]

theorem unwords_append {vs : List Text} (hws : ws ≠ []) (hvs : vs ≠ []) :
    unwords (ws ++ vs) = unwords ws ++ ' ' :: unwords vs := by
  obtain ⟨w, ws, rfl⟩ := exists_cons_of_ne_nil hws
  obtain ⟨v, vs, rfl⟩ := exists_cons_of_ne_nil hvs
  rw [cons_append, unwords_cons, unwords_cons, unwords_cons, map_append, spaced_append,
    map_cons, spaced_cons]
  simp

theorem mem_unwords (h : c ∈ unwords ws) : c = ' ' ∨ ∃ w ∈ ws, c ∈ w := by
  obtain ⟨w, hw, hc⟩ := mem_flatMap.1 (mem_of_mem_dropLast h)
  rcases mem_append.1 hc with hc | hc
  · exact .inr ⟨w, hw, hc⟩
  · exact .inl (mem_singleton.1 hc)

theorem unwords_concat (hws : ws ≠ []) (w : Text) :
    unwords (ws ++ [w]) = unwords ws ++ [' '] ++ w := by
  obtain ⟨v, ws, rfl⟩ := exists_cons_of_ne_nil hws
  rw [cons_append, unwords_cons, unwords_cons, map_append, spaced_append]
  simp [spaced]

theorem cpSpacevec_unwords (hws : ∀ w ∈ ws, IsWord w) : cpSpacevec (unwords ws) = ws := by
  cases ws with
  | nil => rfl
  | cons w ws =>
    rw [unwords_cons, cpSpacevec_spaced (hws w mem_cons_self), map_map]
    · exact congrArg (w :: ·) (map_id ws)
    · intro gw hgw
      obtain ⟨v, hv, rfl⟩ := mem_map.1 hgw
      exact ⟨isGap_space, hws v (mem_cons_of_mem _ hv)⟩

/-! ### Arguments -/

/-- Characters that mean nothing to the scanners, and no comma. -/
def IsArg (w : Text) : Prop := ∀ c ∈ w, isPlain c = true ∧ c ≠ ','

def withCommas (w : Text) (ws : List Text) : Text := w ++ ws.flatMap fun v => ',' :: v

theorem withCommas_cons (w v : Text) (ws : List Text) :
    withCommas w (v :: ws) = w ++ ',' :: withCommas v ws := by
  simp [withCommas]

theorem partialUncommentAux_append {s seg : Text} {fuel : Nat} (hw : IsArg w)
    (hs : ∀ c ∈ s.head?, c = ',') (hfuel : (w ++ s).length ≤ fuel) :
    partialUncommentAux fuel (w ++ s) [] seg [] false = (seg ++ w, s) := by
  induction w generalizing fuel seg with
  | nil =>
    rw [nil_append] at hfuel ⊢
    cases s with
    | nil => cases fuel <;> simp [partialUncommentAux]
    | cons c s =>
      obtain rfl := hs c rfl
      obtain ⟨fuel, rfl⟩ : ∃ k, fuel = k + 1 := ⟨fuel - 1, by simp at hfuel; omega⟩
      have hplain : startsComment (',' :: s) = false := startsComment_of_isPlain (by decide) s
      simp [partialUncommentAux, hplain, isSpace]
  | cons c w ih =>
    obtain ⟨⟨hplain, hcomma⟩, hw⟩ := forall_mem_cons.1 hw
    obtain ⟨hspace, -, hdouble, hsingle, hback⟩ := isPlain_iff.1 hplain
    obtain ⟨fuel, rfl⟩ : ∃ k, fuel = k + 1 := ⟨fuel - 1, by simp at hfuel; omega⟩
    have htake : (c :: (w ++ s)).take ((c :: (w ++ s)).length - (w ++ s).length) = [c] := by
      rw [length_cons, Nat.add_sub_cancel_left]
      rfl
    rw [cons_append] at hfuel ⊢
    simp only [partialUncommentAux, hspace, startsComment_of_isPlain hplain, hcomma, hsingle,
      hdouble, hback, false_and, Bool.false_eq_true, if_false, htake, append_nil]
    rw [ih hw (Nat.le_of_succ_le_succ hfuel), append_assoc, singleton_append]

theorem partialUncomment_append {s : Text} (hw : IsArg w) (hs : ∀ c ∈ s.head?, c = ',') :
    partialUncomment (w ++ s) = (w, s) := by
  have hhead : ∀ c ∈ (w ++ s).head?, isPlain c = true := by
    intro c hc
    cases w with
    | nil =>
      rw [hs c hc]
      decide
    | cons d w =>
      obtain rfl := Option.some.inj hc
      exact (hw d mem_cons_self).1
  have hskip : cpSkipCommentSpace (w ++ s) = w ++ s := by
    cases hws : w ++ s with
    | nil => rfl
    | cons c t =>
      have hplain := hhead c (by rw [hws]; rfl)
      simp [cpSkipCommentSpace, cpSkipCommentSpaceAux, (isPlain_iff.1 hplain).1,
        startsComment_of_isPlain hplain]
  rw [partialUncomment, hskip, partialUncommentAux_append hw hs le_rfl, nil_append]

theorem cpArgvecAux_withCommas {ws : List Text} (hw : IsArg w) (hws : ∀ v ∈ ws, IsArg v)
    (hlast : (w :: ws).getLast? ≠ some []) {fuel : Nat} (hfuel : ws.length < fuel) :
    cpArgvecAux fuel (withCommas w ws) = w :: ws := by
  induction ws generalizing w fuel with
  | nil =>
    obtain ⟨fuel, rfl⟩ : ∃ k, fuel = k + 1 := ⟨fuel - 1, by simp at hfuel; omega⟩
    have hfirst := partialUncomment_append (s := []) hw (by simp)
    have hne : w ≠ [] := by simpa using hlast
    obtain ⟨c, t, rfl⟩ := exists_cons_of_ne_nil hne
    rw [append_nil] at hfirst
    simp [withCommas, cpArgvecAux, hfirst]
  | cons v ws ih =>
    obtain ⟨fuel, rfl⟩ : ∃ k, fuel = k + 1 := ⟨fuel - 1, by simp at hfuel; omega⟩
    obtain ⟨hv, hws⟩ := forall_mem_cons.1 hws
    have hfirst := partialUncomment_append (s := ',' :: withCommas v ws) hw (by simp)
    have hrest := ih hv hws (by simpa using hlast) (Nat.lt_of_succ_lt_succ hfuel)
    rw [withCommas_cons]
    cases hcons : w ++ ',' :: withCommas v ws with
    | nil => simp at hcons
    | cons c t =>
      rw [hcons] at hfirst
      simp [cpArgvecAux, hfirst, hrest]

/-- **Arguments are found again between the commas**, if the last one is not empty. -/
theorem cpArgvec_withCommas {ws : List Text} (hw : IsArg w) (hws : ∀ v ∈ ws, IsArg v)
    (hlast : (w :: ws).getLast? ≠ some []) : cpArgvec (withCommas w ws) = w :: ws := by
  have hlen : ∀ (w : Text) (ws : List Text), (w :: ws).getLast? ≠ some [] →
      ws.length < (withCommas w ws).length := by
    intro w ws hlast
    induction ws generalizing w with
    | nil =>
      have hne : w ≠ [] := by simpa using hlast
      simpa [withCommas] using length_pos_iff.2 hne
    | cons v ws ih =>
      have := ih v (by simpa using hlast)
      rw [withCommas_cons, length_append, length_cons, length_cons]
      omega
  exact cpArgvecAux_withCommas hw hws hlast (hlen w ws hlast)

/-! ### XIDs -/

theorem Xid.colon_mem_unparse (x : Xid) : ':' ∈ x.unparse := by simp [Xid.unparse]

theorem Xid.mem_unparse {x : Xid} (hc : c ∈ x.unparse) :
    c ∈ "0123456789abcdef:ACDEFHINPSU".toList := by
  have hhex : ∀ c, Xid.IsHex c → c ∈ "0123456789abcdef:ACDEFHINPSU".toList := fun c hc =>
    (show "0123456789abcdef".toList ⊆ "0123456789abcdef:ACDEFHINPSU".toList by decide) hc.val_mem
  simp only [Xid.unparse, mem_append, mem_singleton] at hc
  rcases hc with (hc | rfl) | hc
  · by_cases hname : Xid.Named x.type
    · have hall : ∀ type, Xid.Named type →
          Xid.unparseType type ⊆ "0123456789abcdef:ACDEFHINPSU".toList := by
        intro type htype
        rcases Xid.named_cases htype with rfl | rfl | rfl | rfl | rfl | rfl <;> decide
      exact hall x.type hname hc
    · rw [Xid.unparseType_of_not_named hname] at hc
      exact hhex c (Xid.isHex_of_mem_hexNumber hc)
  · decide
  · exact hhex c (Xid.isHex_of_mem_hexByte hc)

theorem Xid.isWord_unparse (x : Xid) : IsWord x.unparse := by
  refine ⟨ne_nil_of_mem x.colon_mem_unparse, all_eq_true.2 fun c hc => ?_⟩
  have hall : "0123456789abcdef:ACDEFHINPSU".toList.all isPlain = true := by decide
  exact all_eq_true.1 hall c (Xid.mem_unparse hc)

theorem Xid.unparse_ne_singleton (x : Xid) (hc : c ≠ ':') : x.unparse ≠ [c] := by
  intro heq
  have hmem := x.colon_mem_unparse
  rw [heq, mem_singleton] at hmem
  exact hc hmem.symm

/-! ### Numbers -/

namespace XiaPath

theorem isDigit_of_mem_decimal {n : Nat} {c : Char} (hc : c ∈ decimal n) : c.isDigit = true :=
  Nat.isDigit_of_mem_toDigits (by decide) (by decide) hc

theorem exists_ofNat_of_isDigit {c : Char} (hc : c.isDigit = true) :
    ∃ k, 48 ≤ k ∧ k ≤ 57 ∧ c = Char.ofNat k := by
  simp only [Char.isDigit, Bool.and_eq_true, decide_eq_true_eq, ge_iff_le,
    UInt32.le_iff_toNat_le] at hc
  exact ⟨c.toNat, hc.1, hc.2, (Char.ofNat_toNat c).symm⟩

theorem isWord_decimal (n : Nat) : IsWord (decimal n) := by
  refine ⟨Nat.toDigits_ne_nil, all_eq_true.2 fun c hc => ?_⟩
  obtain ⟨k, hlow, hhigh, rfl⟩ := exists_ofNat_of_isDigit (isDigit_of_mem_decimal hc)
  interval_cases k <;> decide

theorem head?_decimal {n : Nat} (hn : 0 < n) : (decimal n).head? ≠ some '0' := by
  induction n using Nat.strongRecOn with
  | ind n ih =>
    rw [decimal, Nat.toDigits_eq_if (by decide)]
    split
    · rename_i hlt
      interval_cases n <;> decide
    · have hdiv := ih (n / 10) (by omega) (by omega)
      rwa [head?_append_of_ne_nil _ Nat.toDigits_ne_nil]

theorem digitValue_of_isDigit {c : Char} (hc : c.isDigit = true) :
    digitValue 10 c = some (c.toNat - 48) := by
  obtain ⟨d, hlow, hhigh, rfl⟩ := exists_ofNat_of_isDigit hc
  interval_cases d <;> decide

theorem digitSpan_of_isDigit {s : Text} (hs : ∀ c ∈ s, c.isDigit = true) (k v : Nat) :
    digitSpan 10 s k k v = (k + s.length, Nat.ofDigitChars 10 s v) := by
  induction s generalizing k v with
  | nil => rfl
  | cons c s ih =>
    have hc : c.isDigit = true := hs c mem_cons_self
    have hne : c ≠ '_' := by
      rintro rfl
      cases hc
    rw [digitSpan, if_neg (fun h => hne h.1), digitValue_of_isDigit hc]
    dsimp only
    rw [ih fun c hc => hs c (mem_cons_of_mem _ hc), length_cons, Nat.ofDigitChars_cons,
      Nat.mul_comm]
    congr 1
    omega

theorem exists_digitSpan_decimal (n : Nat) : ∃ b, basePrefix (decimal n) = (b, decimal n) ∧
    digitSpan b (decimal n) 0 0 0 = ((decimal n).length, n) := by
  rcases Nat.eq_zero_or_pos n with rfl | hpos
  · exact ⟨8, by decide, by decide⟩
  · refine ⟨10, ?_, ?_⟩
    · have hhead := head?_decimal hpos
      unfold basePrefix
      split <;> simp_all
    · rw [digitSpan_of_isDigit (fun c => isDigit_of_mem_decimal) 0 0, Nat.zero_add]
      exact congrArg _ (Nat.ofDigitChars_toDigits (by decide) (by decide))

theorem not_mem_decimal {c : Char} (hc : c.isDigit = false) (n : Nat) : c ∉ decimal n := by
  intro hmem
  rw [isDigit_of_mem_decimal hmem] at hc
  cases hc

theorem head?_decimal_ne (n : Nat) {c : Char} (hc : c.isDigit = false) :
    (decimal n).head? ≠ some c :=
  fun h => not_mem_decimal hc n (mem_of_mem_head? h)

/-- **A number is read as it was printed.** -/
theorem cpInteger_decimal {n : Nat} (hn : n < 2 ^ 31) :
    cpInteger true (decimal n) = some (n : Int) := by
  obtain ⟨b, hbase, hspan⟩ := exists_digitSpan_decimal n
  have hlength := length_pos_iff.2 (isWord_decimal n).ne
  simp only [cpInteger, head?_decimal_ne n (show '-'.isDigit = false from rfl),
    head?_decimal_ne n (show '+'.isDigit = false from rfl), decide_false, Bool.and_false,
    Bool.or_false, Bool.false_eq_true, if_false, hbase, hspan, if_true]
  rw [if_neg (by omega), Nat.min_eq_left (by omega)]

end XiaPath

end Xia
