import Mathlib.Data.List.AList
import Mathlib.Data.List.Sort

/-!
# Tables

`std::map` is an association list without duplicate keys (`AList`), which is passed through in the
order of the keys.  `operator[]` creates an entry for a key that is missing (`touch`, `modify`),
with the default value.
-/

namespace Xia

open List Option AList

abbrev StdMap (K V : Type) := AList fun _ : K => V

namespace StdMap

variable {K V : Type}

section

variable [DecidableEq K] [Inhabited V]

/-- The value at a key, if `operator[]` is used to read it. -/
def get (t : StdMap K V) (k : K) : V := (t.lookup k).getD default

/-- `operator[]`. -/
def touch (t : StdMap K V) (k : K) : StdMap K V := if k ∈ t then t else t.insert k default

/-- `operator[]` for a value that is changed. -/
def modify (t : StdMap K V) (k : K) (f : V → V) : StdMap K V := t.insert k (f (t.get k))

end

/-- The keys in the order in which they are passed through. -/
def order [LinearOrder K] (t : StdMap K V) : List K := t.keys.insertionSort (· ≤ ·)

/-! ### What is found -/

variable {t : StdMap K V} {k a : K} {v : V}

theorem mem_order [LinearOrder K] : k ∈ t.order ↔ k ∈ t := by
  rw [order, mem_insertionSort]
  rfl

theorem exists_lookup [DecidableEq K] : k ∈ t ↔ ∃ v, t.lookup k = some v := by
  rw [← lookup_isSome, isSome_iff_exists]

theorem length_keys_erase [DecidableEq K] (h : k ∈ t) :
    (t.erase k).keys.length + 1 = t.keys.length := by
  have hpos := length_pos_of_mem (AList.mem_keys.1 h)
  rw [keys_erase, length_erase_of_mem (AList.mem_keys.1 h)]
  omega

theorem length_keys_insert [DecidableEq K] (h : k ∉ t) (v : V) :
    (t.insert k v).keys.length = t.keys.length + 1 := by
  rw [AList.keys, entries_insert_of_notMem h]
  rfl

section

variable [DecidableEq K] [Inhabited V]
variable {f : V → V}

theorem get_of_lookup (h : t.lookup k = some v) : t.get k = v := by
  rw [get, h, getD_some]

theorem lookup_of_mem (h : k ∈ t) : t.lookup k = some (t.get k) := by
  obtain ⟨v, hv⟩ := exists_lookup.1 h
  rw [get_of_lookup hv, hv]

theorem get_of_not_mem (h : k ∉ t) : t.get k = default := by
  rw [get, lookup_eq_none.2 h, getD_none]

@[simp] theorem mem_touch : a ∈ t.touch k ↔ a = k ∨ a ∈ t := by
  unfold touch
  split
  · rename_i hk
    exact ⟨.inr, fun h => h.elim (fun heq => heq ▸ hk) id⟩
  · exact mem_insert t

@[simp] theorem get_touch : (t.touch k).get a = t.get a := by
  unfold touch
  split
  · rfl
  · rename_i hk
    by_cases ha : a = k
    · subst ha
      rw [get, lookup_insert, get_of_not_mem hk, getD_some]
    · rw [get, lookup_insert_ne ha, get]

@[simp] theorem mem_modify : a ∈ t.modify k f ↔ a = k ∨ a ∈ t := mem_insert t

theorem get_insert : get (t.insert k v) a = if a = k then v else t.get a := by
  by_cases ha : a = k
  · subst ha
    rw [if_pos rfl, get, lookup_insert, getD_some]
  · rw [if_neg ha, get, lookup_insert_ne ha, get]

theorem get_insert_erase : get ((t.erase k).insert k v) a = if a = k then v else t.get a := by
  rw [get_insert]
  split
  · rfl
  · rename_i hne
    rw [get, lookup_erase_ne hne, get]

theorem get_modify : (t.modify k f).get a = if a = k then f (t.get k) else t.get a := by
  rw [modify, get_insert]

@[simp] theorem get_modify_self : (t.modify k f).get k = f (t.get k) := by
  rw [get_modify, if_pos rfl]

theorem get_modify_of_ne (h : a ≠ k) : (t.modify k f).get a = t.get a := by
  rw [get_modify, if_neg h]

theorem get_foldl_modify (hf : ∀ v, f (f v) = f v) (l : List K) :
    (l.foldl (fun t k => t.modify k f) t).get a = if a ∈ l then f (t.get a) else t.get a := by
  induction l generalizing t with
  | nil => simp
  | cons k l ih =>
    rw [foldl_cons, ih]
    by_cases ha : a = k
    · subst ha
      simp [hf]
    · simp [get_modify_of_ne ha, ha]

end

end StdMap

end Xia
