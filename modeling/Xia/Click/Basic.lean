import Mathlib

/-!
# Results of C++ code, and Click's `HashTable`

A modelled function whose C++ body can go wrong returns a `Result`: the value, or the `Fault`
that the execution runs into.  A fault ends the run of the element.

`HashTable K V` is an association list without duplicate keys (`AList`).  `get` is Click's
`get`, which returns the table's default value for a missing key; `lookup` is `get_pointer`,
with `none` for the null pointer.
-/

namespace Xia

open List AList

/-- Undefined or aborting behaviour of the C++ code. -/
inductive Fault where
  /-- a null pointer is dereferenced -/
  | nullDeref
  /-- an array or vector is accessed outside its bounds -/
  | outOfBounds
  /-- an `assert` fails -/
  | assertFailed
deriving DecidableEq

/-- The result of a function that may run into a fault. -/
abbrev Result := Except Fault

/-- A pointer that is dereferenced: `none` is the null pointer. -/
def deref {α : Type} : Option α → Result α
  | some a => .ok a
  | none => .error .nullDeref

/-- An element of a container, at an index that the code does not check. -/
def inBounds {α : Type} : Option α → Result α
  | some a => .ok a
  | none => .error .outOfBounds

@[simp] theorem deref_some {α : Type} (a : α) : deref (some a) = .ok a := rfl

theorem deref_eq_ok {α : Type} {o : Option α} {a : α} : deref o = .ok a ↔ o = some a := by
  cases o <;> simp [deref]

theorem inBounds_eq_ok {α : Type} {o : Option α} {a : α} : inBounds o = .ok a ↔ o = some a := by
  cases o <;> simp [inBounds]

/-- A sequence of two computations succeeds exactly when both do. -/
theorem Result.bind_eq_ok {α β : Type} {x : Result α} {f : α → Result β} {b : β} :
    (x >>= f) = .ok b ↔ ∃ a, x = .ok a ∧ f a = .ok b := by
  cases x with
  | error e => simp [bind, Except.bind]
  | ok a => simp [bind, Except.bind]

theorem Result.ok_bind {α β : Type} (a : α) (f : α → Result β) :
    ((.ok a : Result α) >>= f) = f a := rfl

theorem Result.foldlM_range_succ {α : Type} (step : α → Nat → Result α) (a : α) (m : Nat) :
    (List.range (m + 1)).foldlM step a = (List.range m).foldlM step a >>= fun b => step b m := by
  simp [range_succ]

instance {α : Type} (x : Result α) (P : α → Prop) [DecidablePred P] :
    Decidable (∃ a, x = .ok a ∧ P a) :=
  match x with
  | .error _ => isFalse (by simp)
  | .ok a => decidable_of_iff (P a) (by simp)

instance {α β : Type} (x : Result (α × β)) (P : α → β → Prop) [∀ a b, Decidable (P a b)] :
    Decidable (∃ a b, x = .ok (a, b) ∧ P a b) :=
  decidable_of_iff (∃ r, x = .ok r ∧ P r.1 r.2) (by simp)

instance {α β γ : Type} (x : Result ((α × β) × γ)) (P : α → β → γ → Prop)
    [∀ a b c, Decidable (P a b c)] : Decidable (∃ a b c, x = .ok ((a, b), c) ∧ P a b c) :=
  decidable_of_iff (∃ r, x = .ok r ∧ P r.1.1 r.1.2 r.2) (by simp)

instance decidableExistsSome {α : Type} (o : Option α) (P : α → Prop) [DecidablePred P] :
    Decidable (∃ a, o = some a ∧ P a) :=
  match o with
  | none => isFalse (by simp)
  | some a => decidable_of_iff (P a) (by simp)

instance {α : Type} (x : Result α) (f : Fault) : Decidable (x = .error f) :=
  match x with
  | .error g => decidable_of_iff (g = f) (by simp)
  | .ok _ => isFalse (by simp)

instance {α : Type} (x : Result α) (P : α → Prop) [DecidablePred P] :
    Decidable (∀ a, x = .ok a → P a) :=
  match x with
  | .error _ => isTrue (by simp)
  | .ok a => decidable_of_iff (P a) (by simp)

@[simp] theorem Result.pure_eq_ok {α : Type} {a b : α} : (pure a : Result α) = .ok b ↔ a = b := by
  simp [pure, Except.pure]

theorem Result.bind_map_eq_ok {α β : Type} {x : Result (Option α)} {g : α → β} {b : β} :
    (x >>= fun o => pure (o.map g)) = .ok (some b) ↔ ∃ a, x = .ok (some a) ∧ g a = b := by
  simp only [Result.bind_eq_ok, Result.pure_eq_ok, Option.map_eq_some_iff]
  constructor
  · rintro ⟨o, hx, a, rfl, rfl⟩
    exact ⟨a, hx, rfl⟩
  · rintro ⟨a, hx, rfl⟩
    exact ⟨_, hx, a, rfl, rfl⟩

theorem Result.pure_pair_eq_ok {α β : Type} {a a' : α} {b b' : β} :
    (pure (a, b) : Result (α × β)) = .ok (a', b') ↔ a = a' ∧ b = b' := by
  rw [Result.pure_eq_ok, Prod.mk.injEq]

/-! ### Faults that cannot happen -/

/-- The computation does not run into the fault. -/
def Result.Avoids {α : Type} (x : Result α) (f : Fault) : Prop := x ≠ .error f

namespace Result

variable {α β : Type} {f : Fault}

@[simp] theorem avoids_ok (a : α) : Avoids (.ok a) f := nofun

@[simp] theorem avoids_pure (a : α) : Avoids (pure a) f := nofun

@[simp] theorem avoids_error {g : Fault} : Avoids (.error g : Result α) f ↔ g ≠ f := by
  simp [Avoids]

@[simp] theorem avoids_throw {g : Fault} : Avoids (throw g : Result α) f ↔ g ≠ f := by
  simp [Avoids, throw, throwThe, MonadExceptOf.throw]

theorem Avoids.bind {x : Result α} {g : α → Result β} (hx : x.Avoids f)
    (hg : ∀ a, x = .ok a → (g a).Avoids f) : (x >>= g).Avoids f := by
  cases x with
  | error e => exact fun h => hx (congrArg _ (Except.error.inj h))
  | ok a => exact hg a rfl

theorem avoids_ite {c : Prop} [Decidable c] {x y : Result α} (hx : x.Avoids f)
    (hy : y.Avoids f) : (if c then x else y).Avoids f := by
  split
  · exact hx
  · exact hy

theorem avoids_mapM {l : List α} {g : α → Result β} (hg : ∀ a, (g a).Avoids f) :
    (l.mapM g).Avoids f := by
  induction l with
  | nil => simp
  | cons a l ih =>
    rw [mapM_cons]
    exact (hg a).bind fun b _ => ih.bind fun bs _ => avoids_pure _

theorem avoids_mapIdxM {l : List α} {g : Nat → α → Result β} (hg : ∀ i a, (g i a).Avoids f) :
    (l.mapIdxM g).Avoids f := by
  have hgo : ∀ (l : List α) (acc : Array β), (List.mapIdxM.go g l acc).Avoids f := by
    intro l
    induction l with
    | nil => intro acc; simp [List.mapIdxM.go]
    | cons a l ih =>
      intro acc
      rw [List.mapIdxM.go]
      exact (hg _ a).bind fun b _ => ih _
  exact hgo l #[]

theorem mapM_eq_ok {l : List α} {g : α → Result β} {h : α → β} (hg : ∀ a ∈ l, g a = .ok (h a)) :
    l.mapM g = .ok (l.map h) := by
  induction l with
  | nil => rfl
  | cons a l ih =>
    rw [mapM_cons, hg a mem_cons_self, ok_bind, ih fun a' ha' => hg a' (mem_cons_of_mem _ ha')]
    rfl

theorem mapIdxM_eq_ok {l : List α} {g : Nat → α → Result β} {h : α → β}
    (hg : ∀ i a, l[i]? = some a → g i a = .ok (h a)) : l.mapIdxM g = .ok (l.map h) := by
  have hgo : ∀ (l : List α) (acc : Array β),
      (∀ i a, l[i]? = some a → g (acc.size + i) a = .ok (h a)) →
        List.mapIdxM.go g l acc = .ok (acc.toList ++ l.map h) := by
    intro l
    induction l with
    | nil =>
      intro acc _
      simp [List.mapIdxM.go, pure, Except.pure]
    | cons a l ih =>
      intro acc hacc
      have hhead := hacc 0 a rfl
      rw [Nat.add_zero] at hhead
      rw [List.mapIdxM.go, hhead, ok_bind, ih]
      · simp
      · intro i b hb
        have htail := hacc (i + 1) b (by simpa using hb)
        rwa [Array.size_push, show acc.size + 1 + i = acc.size + (i + 1) by omega]
  exact hgo l #[] (by simpa using hg)

theorem length_of_mapIdxM {l : List α} {g : Nat → α → Result β} {bs : List β}
    (h : l.mapIdxM g = .ok bs) : bs.length = l.length := by
  have hgo : ∀ (l : List α) (acc : Array β) (bs : List β),
      List.mapIdxM.go g l acc = .ok bs → bs.length = acc.size + l.length := by
    intro l
    induction l with
    | nil =>
      intro acc bs h
      rw [← pure_eq_ok.1 h, Array.length_toList, length_nil, Nat.add_zero]
    | cons a l ih =>
      intro acc bs h
      obtain ⟨b, -, h⟩ := bind_eq_ok.1 h
      rw [ih _ bs h, Array.size_push, length_cons]
      omega
  simpa using hgo l #[] bs h

end Result

theorem deref_avoids {α : Type} {o : Option α} : (deref o).Avoids .nullDeref ↔ o.isSome := by
  cases o <;> simp [deref]

theorem inBounds_avoids {α : Type} (o : Option α) : (inBounds o).Avoids .nullDeref := by
  cases o <;> simp [inBounds]

/-! ### Hash tables -/

/-- Click's `HashTable<K, V>`. -/
abbrev HashTable (K V : Type) := AList fun _ : K => V

namespace HashTable

variable {K V : Type} [DecidableEq K]

/-- `HashTable::get`: the value of a key, or the default value of the table. -/
def get (t : HashTable K V) (default : V) (k : K) : V := (t.lookup k).getD default

theorem get_of_lookup {t : HashTable K V} {default v : V} {k : K} (h : t.lookup k = some v) :
    t.get default k = v := by
  simp [get, h]

theorem mem_keys_iff {t : HashTable K V} {k : K} : k ∈ t.keys ↔ ∃ v, t.lookup k = some v := by
  rw [← AList.mem_keys, ← lookup_isSome, Option.isSome_iff_exists]

theorem lookup_insert_eq (t : HashTable K V) (a k : K) (v : V) :
    (t.insert a v).lookup k = if k = a then some v else t.lookup k := by
  by_cases h : k = a
  · subst h
    simp [lookup_insert]
  · simp [h, lookup_insert_ne h]

theorem lookup_insert_self {t : HashTable K V} {a : K} {v : V} (h : t.lookup a = some v) (k : K) :
    (t.insert a v).lookup k = t.lookup k := by
  rw [lookup_insert_eq]
  split
  · rename_i heq
    rw [heq, h]
  · rfl

theorem eq_or_lookup_of_insert {t : HashTable K V} {a k : K} {v w : V}
    (h : (t.insert a v).lookup k = some w) : w = v ∨ t.lookup k = some w := by
  rw [lookup_insert_eq] at h
  split at h
  · exact .inl (Option.some.inj h).symm
  · exact .inr h

/-- What holds of all values of a table can be decided. -/
instance (t : HashTable K V) (P : K → V → Prop) [∀ k v, Decidable (P k v)] :
    Decidable (∀ k v, t.lookup k = some v → P k v) :=
  decidable_of_iff (∀ e ∈ t.entries, P e.1 e.2) <| by
    refine ⟨fun h k v hv => h ⟨k, v⟩ (mem_lookup_iff.1 hv), fun h e he => ?_⟩
    exact h e.1 e.2 (mem_lookup_iff.2 he)

theorem lookup_erase_eq (t : HashTable K V) (a k : K) :
    (t.erase a).lookup k = if k = a then none else t.lookup k := by
  by_cases h : k = a
  · subst h
    simp [lookup_erase]
  · simp [h, lookup_erase_ne h]

end HashTable

end Xia
