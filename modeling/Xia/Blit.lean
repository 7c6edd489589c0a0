import Mathlib

/-!
# Buffers that are filled by copies

A buffer is a list.  `blit off src buf` copies `src` into `buf` from position `off` on, and `fill`
makes a list of copies, one after the other.  A copy writes inside the buffer if it ends before the
buffer does (`Fits`).

A position holds in the end what the last copy that reaches it wrote there
(`getElem?_fill_concat_of_reaches`); one that no copy reaches holds what it held before
(`getElem?_fill_of_not_covers`).  Copies that cover the buffer hide its former contents
(`fill_eq_of_covers`).
-/

namespace Blit

open List

variable {α : Type}

/-- Copy `src` into the buffer, from position `off` on. -/
def blit (off : Nat) (src buf : List α) : List α :=
  buf.take off ++ src ++ buf.drop (off + src.length)

/-- A copy: where it goes, and what is copied. -/
abbrev Copy (α : Type) := Nat × List α

def Copy.Reaches (c : Copy α) (i : Nat) : Prop := c.1 ≤ i ∧ i < c.1 + c.2.length

def fill (cs : List (Copy α)) (buf : List α) : List α := cs.foldl (fun b c => blit c.1 c.2 b) buf

/-- Every copy is inside a buffer of length `n`. -/
def Fits (cs : List (Copy α)) (n : Nat) : Prop := ∀ c ∈ cs, c.1 + c.2.length ≤ n

def Covers (cs : List (Copy α)) (i : Nat) : Prop := ∃ c ∈ cs, c.Reaches i

variable {off i n : Nat} {src buf buf' : List α} {c : Copy α} {cs : List (Copy α)}

/-! ### One copy -/

theorem length_blit (h : off + src.length ≤ buf.length) :
    (blit off src buf).length = buf.length := by
  simp only [blit, length_append, length_take, length_drop]
  omega

theorem getElem?_blit_of_reaches (h : off + src.length ≤ buf.length)
    (hi : Copy.Reaches (off, src) i) : (blit off src buf)[i]? = src[i - off]? := by
  obtain ⟨hlo, hhi⟩ := hi
  dsimp only at hlo hhi
  have htake : (buf.take off).length = off := length_take_of_le (by omega)
  rw [blit, append_assoc, getElem?_append_right (by omega), htake, getElem?_append_left (by omega)]

theorem getElem?_blit_of_not_reaches (h : off + src.length ≤ buf.length)
    (hi : ¬ Copy.Reaches (off, src) i) : (blit off src buf)[i]? = buf[i]? := by
  have htake : (buf.take off).length = off := length_take_of_le (by omega)
  rcases Nat.lt_or_ge i off with hlo | hlo
  · rw [blit, append_assoc, getElem?_append_left (by omega), getElem?_take_of_lt hlo]
  · have hhi : off + src.length ≤ i := by
      by_contra hlt
      exact hi ⟨hlo, Nat.lt_of_not_le hlt⟩
    have hboth : (buf.take off ++ src).length = off + src.length := by
      rw [length_append, htake]
    rw [blit, getElem?_append_right (by omega), hboth, getElem?_drop]
    congr 1
    omega

theorem blit_append (a b : List α) :
    blit a.length src (a ++ b) = a ++ src ++ b.drop src.length := by
  rw [blit, take_left, drop_append]
  simp

theorem blit_all (h : src.length = buf.length) : blit 0 src buf = src := by
  rw [blit, take_zero, nil_append, drop_eq_nil_of_le (by omega), append_nil]

theorem blit_singleton (x : α) (h : i < buf.length) : blit i [x] buf = buf.set i x := by
  rw [blit, set_eq_take_append_cons_drop, if_pos h, append_assoc]
  rfl

/-! ### Several copies -/

theorem fill_append (cs ds : List (Copy α)) (buf : List α) :
    fill (cs ++ ds) buf = fill ds (fill cs buf) :=
  foldl_append

theorem fill_concat (cs : List (Copy α)) (c : Copy α) (buf : List α) :
    fill (cs ++ [c]) buf = blit c.1 c.2 (fill cs buf) :=
  fill_append cs [c] buf

theorem Fits.of_concat (h : Fits (cs ++ [c]) n) : Fits cs n ∧ c.1 + c.2.length ≤ n :=
  ⟨fun d hd => h d (mem_append_left _ hd), h c (by simp)⟩

theorem length_fill (h : Fits cs buf.length) : (fill cs buf).length = buf.length := by
  induction cs using List.reverseRecOn with
  | nil => rfl
  | append_singleton cs c ih =>
    obtain ⟨hcs, hc⟩ := h.of_concat
    rw [fill_concat, length_blit (by rw [ih hcs]; exact hc), ih hcs]

theorem getElem?_fill_concat_of_reaches (h : Fits (cs ++ [c]) buf.length) (hi : c.Reaches i) :
    (fill (cs ++ [c]) buf)[i]? = c.2[i - c.1]? := by
  obtain ⟨hcs, hc⟩ := h.of_concat
  rw [fill_concat, getElem?_blit_of_reaches (by rw [length_fill hcs]; exact hc) hi]

theorem getElem?_fill_concat_of_not_reaches (h : Fits (cs ++ [c]) buf.length)
    (hi : ¬ c.Reaches i) : (fill (cs ++ [c]) buf)[i]? = (fill cs buf)[i]? := by
  obtain ⟨hcs, hc⟩ := h.of_concat
  rw [fill_concat, getElem?_blit_of_not_reaches (by rw [length_fill hcs]; exact hc) hi]

theorem covers_append {ds : List (Copy α)} : Covers (cs ++ ds) i ↔ Covers cs i ∨ Covers ds i := by
  simp [Covers, or_and_right, exists_or]

theorem covers_concat : Covers (cs ++ [c]) i ↔ Covers cs i ∨ c.Reaches i := by
  rw [covers_append]
  simp [Covers]

theorem getElem?_fill_of_not_covers (h : Fits cs buf.length) (hi : ¬ Covers cs i) :
    (fill cs buf)[i]? = buf[i]? := by
  induction cs using List.reverseRecOn with
  | nil => rfl
  | append_singleton cs c ih =>
    rw [covers_concat, not_or] at hi
    rw [getElem?_fill_concat_of_not_reaches h hi.2, ih h.of_concat.1 hi.1]

theorem getElem?_fill_congr (h : Fits cs n) (hbuf : buf.length = n) (hbuf' : buf'.length = n)
    (hi : Covers cs i) : (fill cs buf)[i]? = (fill cs buf')[i]? := by
  induction cs using List.reverseRecOn with
  | nil => simp [Covers] at hi
  | append_singleton cs c ih =>
    by_cases hc : c.Reaches i
    · rw [getElem?_fill_concat_of_reaches (hbuf ▸ h) hc,
        getElem?_fill_concat_of_reaches (hbuf' ▸ h) hc]
    · rw [getElem?_fill_concat_of_not_reaches (hbuf ▸ h) hc,
        getElem?_fill_concat_of_not_reaches (hbuf' ▸ h) hc]
      exact ih h.of_concat.1 ((covers_concat.1 hi).resolve_right hc)

/-- **Copies that cover a buffer hide what it held.** -/
theorem fill_eq_of_covers (h : Fits cs n) (hbuf : buf.length = n) (hbuf' : buf'.length = n)
    (hall : ∀ i < n, Covers cs i) : fill cs buf = fill cs buf' := by
  have hlen : (fill cs buf).length = n := (length_fill (hbuf ▸ h)).trans hbuf
  have hlen' : (fill cs buf').length = n := (length_fill (hbuf' ▸ h)).trans hbuf'
  apply ext_getElem?
  intro i
  rcases Nat.lt_or_ge i n with hi | hi
  · exact getElem?_fill_congr h hbuf hbuf' (hall i hi)
  · rw [getElem?_eq_none (by omega), getElem?_eq_none (by omega)]

/-! ### Parts for which there is space

A part is copied only if it is smaller than the space that is left.  One that is not keeps its
place: the next one goes behind it, and has the same space.
-/

/-- The copies of the parts, from `off` on. -/
def pack : List (List α) → Nat → Nat → List (Copy α)
  | [], _, _ => []
  | p :: ps, off, space =>
    if p.length < space then (off, p) :: pack ps (off + p.length) (space - p.length)
    else pack ps (off + p.length) space

/-- Once a part has no space, none of those that follow has. -/
def Stops : List (List α) → Nat → Prop
  | [], _ => True
  | p :: ps, space =>
    if p.length < space then Stops ps (space - p.length) else ∀ q ∈ ps, space ≤ q.length

variable {p : List α} {ps : List (List α)} {space : Nat}

theorem pack_eq_nil (h : ∀ q ∈ ps, space ≤ q.length) : pack ps off space = [] := by
  induction ps generalizing off with
  | nil => rfl
  | cons p ps ih =>
    obtain ⟨hp, hps⟩ := forall_mem_cons.1 h
    rw [pack, if_neg (not_lt.2 hp), ih hps]

theorem exists_mem_pack (off : Nat) {q : List α} (hq : q ∈ ps) (hspace : q.length < space) :
    ∃ c ∈ pack ps off space, off ≤ c.1 ∧ c.2 ∈ ps := by
  induction ps generalizing off with
  | nil => cases hq
  | cons p ps ih =>
    rw [pack]
    split
    · exact ⟨(off, p), mem_cons_self, le_rfl, mem_cons_self⟩
    · rename_i hp
      have hmem : q ∈ ps := by
        rcases mem_cons.1 hq with rfl | hmem
        · exact absurd hspace hp
        · exact hmem
      obtain ⟨c, hc, hoff, hcmem⟩ := ih (off + p.length) hmem
      exact ⟨c, hc, (Nat.le_add_right _ _).trans hoff, mem_cons_of_mem _ hcmem⟩

/-- **The copies stay in the buffer exactly if no part follows one that has no space.** -/
theorem fits_pack_iff (hps : ∀ p ∈ ps, p ≠ []) (off space : Nat) :
    Fits (pack ps off space) (off + space) ↔ Stops ps space := by
  induction ps generalizing off space with
  | nil => simp [pack, Fits, Stops]
  | cons p ps ih =>
    obtain ⟨hp, hps⟩ := forall_mem_cons.1 hps
    rw [pack, Stops]
    split
    · rename_i hlt
      have hrest := ih hps (off + p.length) (space - p.length)
      rw [show off + p.length + (space - p.length) = off + space by omega] at hrest
      rw [← hrest, Fits, forall_mem_cons]
      exact and_iff_right (Nat.add_le_add_left hlt.le off)
    · rename_i hge
      constructor
      · intro hfits q hq
        by_contra hlt
        -- it would be copied behind the place of `p`, which reaches the end of the buffer
        obtain ⟨c, hc, hoff, hcmem⟩ := exists_mem_pack (off + p.length) hq (not_le.1 hlt)
        have hend := hfits c hc
        have hpos := length_pos_iff.2 (hps c.2 hcmem)
        omega
      · intro hall
        rw [pack_eq_nil hall]
        exact nofun

/-- The size of the parts that are copied before the first one that has no space. -/
def packedSize : List (List α) → Nat → Nat
  | [], _ => 0
  | p :: ps, space =>
    if p.length < space then p.length + packedSize ps (space - p.length) else 0

theorem packedSize_le (ps : List (List α)) (space : Nat) : packedSize ps space ≤ space := by
  induction ps generalizing space with
  | nil => exact Nat.zero_le _
  | cons p ps ih =>
    rw [packedSize]
    split
    · have hrest := ih (space - p.length)
      omega
    · exact Nat.zero_le _

/-- **Then they write the beginning of the parts.** -/
theorem fill_pack_of_stops (h : Stops ps space) (a b : List α) :
    fill (pack ps a.length space) (a ++ b) =
      a ++ ps.flatten.take (packedSize ps space) ++ b.drop (packedSize ps space) := by
  induction ps generalizing a b space with
  | nil => simp [pack, packedSize, fill]
  | cons p ps ih =>
    rw [Stops] at h
    rw [pack, packedSize]
    split
    · rename_i hlt
      rw [if_pos hlt] at h
      change fill _ (blit a.length p (a ++ b)) = _
      rw [blit_append, ← length_append, ih h, flatten_cons, take_length_add_append, drop_drop]
      simp
    · rename_i hge
      rw [if_neg hge] at h
      simp [pack_eq_nil h, fill]

theorem map_pack {β : Type} (f : α → β) (ps : List (List α)) (off space : Nat) :
    (pack ps off space).map (fun c => (c.1, c.2.map f)) = pack (ps.map (List.map f)) off space := by
  induction ps generalizing off space with
  | nil => rfl
  | cons p ps ih =>
    rw [map_cons, pack, pack, length_map]
    split
    · rw [map_cons, ih]
    · exact ih _ _

theorem stops_map {β : Type} (f : α → β) : Stops (ps.map (List.map f)) space ↔ Stops ps space := by
  induction ps generalizing space with
  | nil => exact Iff.rfl
  | cons p ps ih =>
    rw [map_cons, Stops, Stops, length_map]
    split
    · exact ih
    · simp

theorem packedSize_map {β : Type} (f : α → β) (ps : List (List α)) (space : Nat) :
    packedSize (ps.map (List.map f)) space = packedSize ps space := by
  induction ps generalizing space with
  | nil => rfl
  | cons p ps ih => rw [map_cons, packedSize, packedSize, length_map, ih]

/-! ### Parts one after the other -/

/-- The copies of all parts, from `off` on. -/
def chain : List (List α) → Nat → List (Copy α)
  | [], _ => []
  | p :: ps, off => (off, p) :: chain ps (off + p.length)

theorem fits_chain_iff (ps : List (List α)) (h : off ≤ n) :
    Fits (chain ps off) n ↔ off + ps.flatten.length ≤ n := by
  induction ps generalizing off with
  | nil => simpa [chain, Fits] using h
  | cons p ps ih =>
    rw [chain, Fits, forall_mem_cons, flatten_cons, length_append]
    constructor
    · rintro ⟨hp, hps⟩
      change off + p.length ≤ n at hp
      have hrest := (ih hp).1 hps
      omega
    · intro hlen
      exact ⟨show off + p.length ≤ n by omega, (ih (by omega)).2 (by omega)⟩

theorem fill_chain (ps : List (List α)) (a b : List α) :
    fill (chain ps a.length) (a ++ b) = a ++ ps.flatten ++ b.drop ps.flatten.length := by
  induction ps generalizing a b with
  | nil => simp [chain, fill]
  | cons p ps ih =>
    change fill (chain ps (a.length + p.length)) (blit a.length p (a ++ b)) = _
    rw [blit_append, ← length_append, ih, drop_drop, flatten_cons, length_append, append_assoc a]

end Blit
