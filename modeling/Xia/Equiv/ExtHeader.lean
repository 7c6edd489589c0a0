import Xia.ExtHeader

/-!
# The round trip of extension headers

`update` passes through the table twice: one loop measures the header and counts the entries that
fit, and one writes so many.  The first does not count a value that is too long, the second does.
So the two choose the same entries exactly if no such value comes before an entry that fits
(`written_eq_iff`); otherwise the last entries are missing, and the end of the header is whatever
the memory held.  The size is stored in one byte, which the padding can make overflow.

`roundTrips_iff` says for which tables the header is read back as it should be.
-/

namespace Xia

open List

namespace ExtHeader

variable {fresh fresh' : Nat → UInt8} {nxt : UInt8} {m l : List (UInt8 × List UInt8)}
  {size count : Nat}

def Short (e : UInt8 × List UInt8) : Prop := e.2.length < 254

instance : DecidablePred Short := fun e => inferInstanceAs (Decidable (e.2.length < 254))

/-- The entries that are met before the first one that no longer fits, without the values that are
too long; `size` is the size of the header so far. -/
def accepted : Nat → List (UInt8 × List UInt8) → List (UInt8 × List UInt8)
  | _, [] => []
  | size, e :: m =>
    if Short e then
      if size + 2 + e.2.length < 255 then e :: accepted (size + 2 + e.2.length) m else []
    else accepted size m

def entryBytes (e : UInt8 × List UInt8) : List UInt8 := UInt8.ofNat (1 + e.2.length) :: e.1 :: e.2

def entriesSize (l : List (UInt8 × List UInt8)) : Nat := (l.map fun e => 2 + e.2.length).sum

theorem length_flatMap_entryBytes (l : List (UInt8 × List UInt8)) :
    (l.flatMap entryBytes).length = entriesSize l := by
  induction l with
  | nil => rfl
  | cons e l ih =>
    simp only [flatMap_cons, length_append, ih, entriesSize, map_cons, sum_cons]
    simp only [entryBytes, length_cons]
    omega

/-! ### The two loops -/

theorem measure_eq (m : List (UInt8 × List UInt8)) (size count : Nat) : measure m size count =
      (size + entriesSize (accepted size m), count + (accepted size m).length) := by
  induction m generalizing size count with
  | nil => simp [measure, accepted, entriesSize]
  | cons e m ih =>
    obtain ⟨key, v⟩ := e
    rw [measure, accepted]
    by_cases hshort : Short (key, v)
    · have hlen : ¬ 254 ≤ v.length := Nat.not_le.2 hshort
      rw [if_neg hlen, if_pos hshort]
      by_cases hfits : size + 2 + v.length < 255
      · rw [if_neg (Nat.not_le.2 hfits), if_pos hfits, ih]
        simp only [entriesSize, map_cons, sum_cons, length_cons, Prod.mk.injEq]
        omega
      · rw [if_pos (Nat.not_lt.1 hfits), if_neg hfits]
        simp [entriesSize]
    · have hlen : 254 ≤ v.length := Nat.not_lt.1 hshort
      rw [if_pos hlen, if_neg hshort, ih]

theorem writeEntries_eq (m : List (UInt8 × List UInt8)) (count : Nat) :
    writeEntries m count = ((m.take count).filter fun e => Short e).flatMap entryBytes := by
  induction m generalizing count with
  | nil => simp [writeEntries]
  | cons e m ih =>
    obtain ⟨key, v⟩ := e
    cases count with
    | zero => simp [writeEntries]
    | succ count =>
      rw [writeEntries, take_succ_cons]
      by_cases hshort : Short (key, v)
      · rw [if_neg (Nat.not_le.2 hshort), filter_cons_of_pos (by simpa using hshort), ih]
        rfl
      · rw [if_pos (Nat.not_lt.1 hshort), filter_cons_of_neg (by simpa using hshort), ih]

theorem accepted_isPrefix_filter (size : Nat) (m : List (UInt8 × List UInt8)) :
    accepted size m <+: m.filter fun e => Short e := by
  induction m generalizing size with
  | nil => exact prefix_refl _
  | cons e m ih =>
    rw [accepted]
    by_cases hshort : Short e
    · rw [if_pos hshort, filter_cons_of_pos (by simpa using hshort)]
      split
      · exact (prefix_cons_inj e).2 (ih _)
      · exact nil_prefix
    · rw [if_neg hshort, filter_cons_of_neg (by simpa using hshort)]
      exact ih size

/-- The header never grows over 254 bytes. -/
theorem add_entriesSize_accepted_le (h : size ≤ 254) (m : List (UInt8 × List UInt8)) :
    size + entriesSize (accepted size m) ≤ 254 := by
  induction m generalizing size with
  | nil => simpa [accepted, entriesSize] using h
  | cons e m ih =>
    rw [accepted]
    split
    · split
      · rename_i hfits
        have hle := ih (show size + 2 + e.2.length ≤ 254 by omega)
        simp only [entriesSize, map_cons, sum_cons] at hle ⊢
        omega
      · simpa [entriesSize] using h
    · exact ih h

/-! ### What is written -/

/-- The entries that `update` writes. -/
def written (m : List (UInt8 × List UInt8)) : List (UInt8 × List UInt8) :=
  (m.take (accepted 2 m).length).filter fun e => Short e

def acceptedSize (m : List (UInt8 × List UInt8)) : Nat := 2 + entriesSize (accepted 2 m)

theorem written_isPrefix (m : List (UInt8 × List UInt8)) : written m <+: accepted 2 m := by
  -- both are beginnings of the list of all short entries
  have hlen : (written m).length ≤ (accepted 2 m).length :=
    (length_filter_le _ _).trans (length_take_le _ _)
  refine prefix_of_prefix_length_le ?_ (accepted_isPrefix_filter 2 m) hlen
  exact ( take_prefix _ m).filter _

/-- The two loops choose the same entries exactly if those that fit are the first ones. -/
theorem written_eq_iff : written m = accepted 2 m ↔ accepted 2 m <+: m := by
  constructor
  · intro h
    have hfilter : ((m.take (accepted 2 m).length).filter fun e => Short e).length =
        (accepted 2 m).length := congrArg List.length h
    have htake : (m.take (accepted 2 m).length).length = (accepted 2 m).length :=
      Nat.le_antisymm (length_take_le _ _) (hfilter.ge.trans (length_filter_le _ _))
    have hall : written m = m.take (accepted 2 m).length :=
      filter_eq_self.2 (length_filter_eq_length_iff.1 (hfilter.trans htake.symm))
    rw [← h, hall]
    exact take_prefix _ m
  · intro h
    rw [written, ← prefix_iff_eq_take.1 h]
    exact filter_eq_self.2 fun e he =>
      (mem_filter.1 ((accepted_isPrefix_filter 2 m).subset he)).2

theorem allocated_eq (m : List (UInt8 × List UInt8)) :
    allocated m = acceptedSize m + (4 - acceptedSize m % 4) % 4 := by
  rw [allocated, measure_eq]
  rfl

/-- The header: what is written, the padding, and what is left of the memory. -/
theorem update_eq (fresh : Nat → UInt8) (nxt : UInt8) (m : List (UInt8 × List UInt8)) :
    ∃ rest off, update fresh nxt m =
        nxt :: UInt8.ofNat (allocated m) :: ((written m).flatMap entryBytes ++
          List.replicate ((4 - acceptedSize m % 4) % 4) 0 ++ (List.range rest).map fun i =>
            fresh (off + i)) ∧
      rest + entriesSize (written m) = entriesSize (accepted 2 m) := by
  have hbegin := (written_isPrefix m).sublist
  have hle : entriesSize (written m) ≤ entriesSize (accepted 2 m) :=
    (hbegin.map _).sum_le_sum fun _ _ => Nat.zero_le _
  have hcount : (0 + (accepted 2 m).length) = (accepted 2 m).length := Nat.zero_add _
  simp only [update, measure_eq, writeEntries_eq, hcount]
  refine ⟨_, _, rfl, ?_⟩
  simp only [length_append, length_cons, length_replicate]
  rw [length_flatMap_entryBytes, allocated_eq]
  have hsize : acceptedSize m = 2 + entriesSize (accepted 2 m) := rfl
  change _ - (entriesSize (written m) + 1 + 1 + (4 - acceptedSize m % 4) % 4) + _ = _
  omega

theorem length_update (fresh : Nat → UInt8) (nxt : UInt8) (m : List (UInt8 × List UInt8)) :
    (update fresh nxt m).length = allocated m := by
  obtain ⟨rest, off, heq, hrest⟩ := update_eq fresh nxt m
  rw [heq, allocated_eq]
  simp only [length_cons, length_append, length_replicate, length_map,
    length_range, length_flatMap_entryBytes]
  unfold acceptedSize
  omega

/-! ### Reading the header -/

theorem populateMapAux_entryBytes (e : UInt8 × List UInt8) (he : e.2.length < 255) (fuel : Nat)
    (d : List UInt8) (t : HashTable UInt8 (List UInt8)) :
    populateMapAux (fuel + 1) (entryBytes e ++ d) t = populateMapAux fuel d (t.insert e.1 e.2) := by
  obtain ⟨key, v⟩ := e
  have hlen : (UInt8.ofNat (1 + v.length)).toNat = v.length + 1 := by
    have hlt : v.length < 255 := he
    rw [UInt8.toNat_ofNat']
    omega
  have hzero : UInt8.ofNat (1 + v.length) ≠ 0 := by
    intro h
    rw [h] at hlen
    cases hlen
  simp only [entryBytes, cons_append, populateMapAux]
  rw [if_neg hzero, hlen, if_neg (by simp), drop_succ_cons, Nat.add_sub_cancel,
    drop_left, take_left]

/-- What does not begin with a whole entry. -/
def Stops : List UInt8 → Prop
  | [] => True
  | kvLen :: d => kvLen = 0 ∨ d.length < kvLen.toNat

theorem populateMapAux_stops {d : List UInt8} (h : Stops d) (fuel : Nat)
    (t : HashTable UInt8 (List UInt8)) : populateMapAux fuel d t = t := by
  cases fuel with
  | zero => rfl
  | succ fuel =>
    rcases d with _ | ⟨kvLen, _ | ⟨key, d⟩⟩
    · rfl
    · rfl
    · rw [populateMapAux]
      obtain hzero | hshort := h
      · rw [if_pos hzero]
      · rw [if_pos hshort, ite_self]

/-- **The entries of a header are read back**, up to where no entry begins. -/
theorem populateMapAux_flatMap (l : List (UInt8 × List UInt8)) (hl : ∀ e ∈ l, e.2.length < 255)
    {rest : List UInt8} (hrest : Stops rest) (fuel : Nat) (hfuel : l.length ≤ fuel)
    (t : HashTable UInt8 (List UInt8)) :
    populateMapAux fuel (l.flatMap entryBytes ++ rest) t =
      l.foldl (fun t e => t.insert e.1 e.2) t := by
  induction l generalizing fuel t with
  | nil => exact populateMapAux_stops hrest fuel t
  | cons e l ih =>
    obtain ⟨fuel, rfl⟩ : ∃ k, fuel = k + 1 := ⟨fuel - 1, by rw [length_cons] at hfuel; omega⟩
    rw [flatMap_cons, append_assoc, populateMapAux_entryBytes e (hl e mem_cons_self)]
    refine ih (fun e he => hl e (mem_cons_of_mem _ he)) fuel ?_ _
    exact Nat.le_of_succ_le_succ hfuel

theorem stops_replicate (n : Nat) : Stops (List.replicate n 0) := by
  cases n with
  | zero => trivial
  | succ n => exact .inl rfl

theorem lookup_foldl_insert (hl : (l.map Prod.fst).Nodup) (t : HashTable UInt8 (List UInt8))
    (key : UInt8) : (l.foldl (fun t e => t.insert e.1 e.2) t).lookup key =
      (l.lookup key).or (t.lookup key) := by
  induction l generalizing t with
  | nil => simp
  | cons e l ih =>
    obtain ⟨k, v⟩ := e
    rw [map_cons, nodup_cons] at hl
    rw [foldl_cons, ih hl.2, HashTable.lookup_insert_eq, lookup_cons]
    by_cases hkey : key = k
    · have hnone : l.lookup k = none := by
        rw [lookup_eq_none_iff]
        intro e' he'
        rw [bne_iff_ne]
        intro heq
        have hmem : e'.1 ∈ l.map Prod.fst := mem_map_of_mem he'
        exact hl.1 (heq ▸ hmem)
      simp [hkey, hnone]
    · have hbeq : (key == k) = false := beq_false_of_ne hkey
      rw [if_neg hkey, hbeq]

theorem length_le_entriesSize (l : List (UInt8 × List UInt8)) : l.length ≤ entriesSize l := by
  induction l with
  | nil => exact Nat.le_refl _
  | cons e l ih =>
    simp only [entriesSize, map_cons, sum_cons, length_cons] at ih ⊢
    omega

/-! ### The round trip -/

/-- After `update` the length of the header is the size of its allocation, every byte of it is
initialised, and the entries that fit are read from it. -/
structure RoundTrips (m : List (UInt8 × List UInt8)) : Prop where
  hlen : ∀ fresh nxt, ((update fresh nxt m).getD 1 0).toNat = (update fresh nxt m).length
  initialised : ∀ fresh fresh' nxt, update fresh nxt m = update fresh' nxt m
  read : ∀ fresh nxt, ∃ hdr, parse (update fresh nxt m) = .ok hdr ∧ hdr.nxt = nxt ∧
    ∀ key, hdr.map.lookup key = (accepted 2 m).lookup key

theorem written_eq_of_initialised (h : update (fun _ => 0) nxtNo m = update (fun _ => 1) nxtNo m) :
    written m = accepted 2 m := by
  obtain ⟨rest, off, heq, hrest⟩ := update_eq (fun _ => 0) nxtNo m
  obtain ⟨rest', off', heq', hrest'⟩ := update_eq (fun _ => 1) nxtNo m
  obtain rfl : rest' = rest := by omega
  rw [heq, heq'] at h
  simp only [List.cons.injEq, true_and] at h
  have htail := append_cancel_left h
  -- nothing is left of the memory, so nothing is missing
  obtain rfl : rest' = 0 := by
    by_contra hne
    obtain ⟨k, rfl⟩ := Nat.exists_eq_succ_of_ne_zero hne
    rw [range_succ_eq_map] at htail
    simp at htail
  obtain ⟨missing, hmissing⟩ := written_isPrefix m
  rw [← hmissing] at hrest ⊢
  have hlen := length_le_entriesSize missing
  simp only [entriesSize, map_append, sum_append] at hrest hlen
  have hnil : missing = [] := eq_nil_of_length_eq_zero (by omega)
  rw [hnil, append_nil]

/-- The size of a header fits into its byte exactly if the padding does not make it 256. -/
theorem toNat_allocated : (UInt8.ofNat (allocated m)).toNat = allocated m ↔
    acceptedSize m ≤ 252 := by
  have hle : acceptedSize m ≤ 254 := add_entriesSize_accepted_le (by decide) m
  rw [UInt8.toNat_ofNat', allocated_eq]
  omega

theorem update_of_isPrefix (h : accepted 2 m <+: m) (fresh : Nat → UInt8) (nxt : UInt8) :
    update fresh nxt m = nxt :: UInt8.ofNat (allocated m) :: ((accepted 2 m).flatMap entryBytes ++
        List.replicate ((4 - acceptedSize m % 4) % 4) 0) := by
  obtain ⟨rest, off, heq, hrest⟩ := update_eq fresh nxt m
  rw [written_eq_iff.2 h] at heq hrest
  obtain rfl : rest = 0 := by omega
  rw [heq, range_zero, map_nil, append_nil]

theorem parse_update (h : accepted 2 m <+: m) (hsize : acceptedSize m ≤ 252)
    (fresh : Nat → UInt8) (nxt : UInt8) :
    parse (update fresh nxt m) = .ok ⟨nxt, UInt8.ofNat (allocated m),
      (accepted 2 m).foldl (fun t e => t.insert e.1 e.2) ∅⟩ := by
  have hlen := length_update fresh nxt m
  have hshort : ∀ e ∈ accepted 2 m, e.2.length < 255 := fun e he => by
    have hshort : Short e := by
      simpa using (mem_filter.1 ((accepted_isPrefix_filter 2 m).subset he)).2
    exact hshort.trans (by decide)
  have hfuel := length_le_entriesSize (accepted 2 m)
  rw [← length_flatMap_entryBytes] at hfuel
  rw [update_of_isPrefix h] at hlen ⊢
  simp only [length_cons] at hlen
  rw [parse, toNat_allocated.2 hsize, if_pos (by omega), take_of_length_le (by omega),
    populateMap, populateMapAux_flatMap _ hshort (stops_replicate _)]
  rw [length_append]
  omega

theorem nodup_fst_iterate (m : HashTable UInt8 (List UInt8)) :
    ((iterate m).map Prod.fst).Nodup := by
  have hkeys : (iterate m).map Prod.fst = m.keys := by
    simp [iterate, AList.keys, List.keys]
  rw [hkeys]
  exact m.keys_nodup

/-- **Which headers make the round trip**: no value that is too long comes before an entry that
fits, and the entries that fit take no more than 252 bytes with the two before them. -/
theorem roundTrips_iff (m : HashTable UInt8 (List UInt8)) : RoundTrips (iterate m) ↔
      accepted 2 (iterate m) <+: iterate m ∧ acceptedSize (iterate m) ≤ 252 := by
  constructor
  · intro h
    refine ⟨written_eq_iff.1 (written_eq_of_initialised (h.initialised _ _ _)), ?_⟩
    obtain ⟨rest, off, heq, -⟩ := update_eq (fun _ => 0) nxtNo (iterate m)
    have hlen := h.hlen (fun _ => 0) nxtNo
    rw [length_update, heq] at hlen
    exact toNat_allocated.1 hlen
  · rintro ⟨hbegin, hsize⟩
    have hall := toNat_allocated.2 hsize
    have hupdate := update_of_isPrefix hbegin
    refine ⟨fun fresh nxt => ?_, fun fresh fresh' nxt => ?_, fun fresh nxt => ?_⟩
    · rw [length_update, hupdate]
      exact hall
    · rw [hupdate, hupdate]
    · refine ⟨_, parse_update hbegin hsize fresh nxt, rfl, fun key => ?_⟩
      have hkeys := (nodup_fst_iterate m).sublist (hbegin.sublist.map Prod.fst)
      rw [lookup_foldl_insert hkeys, AList.lookup_empty, Option.or_none]

/-- A single value of 249 bytes makes a header of 256 bytes, and its length is stored as zero. -/
theorem not_roundTrips_long : ¬ RoundTrips
      (iterate ((∅ : HashTable UInt8 (List UInt8)).insert 1 (List.replicate 249 7))) := by
  intro h
  exact absurd (h.hlen (fun _ => 0) nxtNo) (by decide +kernel)

/-- A value that is too long takes the place of the one behind it, which is not written. -/
example : update (fun _ => 9) nxtNo [(1, List.replicate 254 7), (2, [7])] =
    [nxtNo, 8, 0, 0, 0, 9, 9, 9] := by
  decide +kernel

end ExtHeader

end Xia
