import Xia.Xcache.Equiv.Controller

/-!
# What a STORE changes in other contexts

The contexts share one meta for each CID, and the content store keeps the data under the meta.  A
STORE that puts an object into one slice replaces the data of the CID in every slice that holds it
(`store_isolates_iff`).  In its own context it changes only what it stores (`search_store`).
-/

namespace Xia

open Option AList

namespace Xcache

namespace XcacheController

variable {junkLen : UInt64} {c c' : XcacheController} {cmd : XcacheCommand} {ret : Int}

/-- The data that `XcacheSlice::search` returns for a CID in a context. -/
def search (c : XcacheController) (contextId : Int32) (cid : Bytes) : Option (Result Bytes) :=
  (c.sliceMap.lookup contextId).map fun slice => (c.sliceSearch slice cid).map Prod.fst

/-- The data of a slice, with the empty text for a CID that it does not hold. -/
def sliceData (c : XcacheController) (slice : XcacheSlice) (cid : Bytes) : Bytes :=
  ((slice.metaMap.lookup cid).map c.dataAt).getD []

theorem search_eq (h : WellFormed c) (contextId : Int32) (cid : Bytes) : c.search contextId cid =
      (c.sliceMap.lookup contextId).map fun slice => .ok (c.sliceData slice cid) := by
  unfold search
  cases hslice : c.sliceMap.lookup contextId with
  | none => rfl
  | some slice =>
    rw [map_some, map_some, sliceSearch, sliceData]
    cases hp : slice.metaMap.lookup cid with
    | none => rfl
    | some p =>
      obtain ⟨m, data, hm, hstore, hdata⟩ := h.stored contextId slice cid p hslice hp
      dsimp only
      rw [metaGet_eq hm hstore hdata, map_some, getD_some, dataAt, hdata]
      rfl

/-- The STORE puts its object into a slice while another slice holds other data for the CID. -/
def Overwrites (c : XcacheController) (cmd : XcacheCommand) : Prop :=
  (∃ slice, c.sliceMap.lookup cmd.contextId = some slice ∧ slice.metaMap.lookup cmd.cid = none) ∧
  ∃ contextId slice p, contextId ≠ cmd.contextId ∧ c.sliceMap.lookup contextId = some slice ∧
    slice.metaMap.lookup cmd.cid = some p ∧ c.memht.lookup p ≠ some cmd.data

theorem search_congr (h : WellFormed c) (h' : WellFormed c') (hmemht : c'.memht = c.memht)
    (hslices : ∀ contextId, c'.sliceMap.lookup contextId = c.sliceMap.lookup contextId)
    (contextId : Int32) (cid : Bytes) : c'.search contextId cid = c.search contextId cid := by
  have hdata : c'.dataAt = c.dataAt := by
    funext p
    rw [dataAt, dataAt, hmemht]
  rw [search_eq h, search_eq h', hslices]
  simp only [sliceData, hdata]

/-- The slices of other contexts stay as they are, so what they return depends on the data. -/
theorem search_stored_iff {p : MetaPtr} {c₁ : XcacheController} {m : XcacheMeta}
    {slice : XcacheSlice} (h : WellFormed c) (hf : Found junkLen c cmd p c₁ m)
    (h' : WellFormed (c₁.stored cmd slice p m)) :
    (∀ contextId, contextId ≠ cmd.contextId → ∀ cid,
      (c₁.stored cmd slice p m).search contextId cid = c.search contextId cid) ↔
    ∀ contextId other q, contextId ≠ cmd.contextId → c.sliceMap.lookup contextId = some other →
      other.metaMap.lookup cmd.cid = some q → c.memht.lookup q = some cmd.data := by
  have hother : ∀ contextId, contextId ≠ cmd.contextId →
      (c₁.stored cmd slice p m).sliceMap.lookup contextId = c.sliceMap.lookup contextId := by
    intro contextId hne
    rw [lookup_stored_slice, if_neg hne, hf.sliceMap]
  have hdata : ∀ q, c₁.dataAt q = c.dataAt q := by
    intro q
    rw [dataAt, dataAt, hf.memht]
  constructor
  · intro hsame contextId other q hne hlook hq
    obtain rfl : q = p := hf.known q (h.held contextId other cmd.cid q hlook hq)
    obtain ⟨-, old, -, -, hold⟩ := h.stored contextId other cmd.cid q hlook hq
    have hsearch := hsame contextId hne cmd.cid
    rw [search_eq h, search_eq h', hother contextId hne, hlook] at hsearch
    simp only [map_some, sliceData, hq, getD_some, dataAt_stored, if_true,
      some_inj, Except.ok.injEq] at hsearch
    rw [dataAt, hold, getD_some] at hsearch
    rw [hold, hsearch]
  · intro hkept contextId hne cid
    rw [search_eq h, search_eq h', hother contextId hne]
    cases hlook : c.sliceMap.lookup contextId with
    | none => rfl
    | some other =>
      rw [map_some, map_some, sliceData, sliceData]
      cases hq : other.metaMap.lookup cid with
      | none => rfl
      | some q =>
        rw [map_some, map_some, dataAt_stored, hdata]
        split
        -- only the CID of the command is filed for the meta
        · rename_i heq
          subst heq
          obtain rfl : cid = cmd.cid := hf.unique cid (h.held contextId other cid q hlook hq)
          rw [dataAt, hkept contextId other q hne hlook hq]
          rfl
        · rfl

/-- **A STORE leaves the other contexts alone exactly if it does not overwrite their data.** -/
theorem store_isolates_iff (hc : Reachable c) (hs : c.store junkLen cmd = .ok (ret, c')) :
    (∀ contextId, contextId ≠ cmd.contextId → ∀ cid,
      c'.search contextId cid = c.search contextId cid) ↔ ¬ c.Overwrites cmd := by
  have h := hc.wellFormed
  have h' := wellFormed_store h hs
  obtain ⟨p, c₁, m, hf, heq⟩ := store_eq h junkLen cmd
  rw [heq] at hs
  cases hslice : c.sliceMap.lookup cmd.contextId with
  | none =>
    rw [hslice] at hs
    cases hs
    refine iff_of_true (fun contextId _ => ?_) ?_
    · exact search_congr h h' hf.memht (by simp [hf.sliceMap]) contextId
    · rintro ⟨⟨slice, hslice', -⟩, -⟩
      rw [hslice] at hslice'
      cases hslice'
  | some slice =>
    rw [hslice] at hs
    dsimp only at hs
    split_ifs at hs with hheld hroom
    · cases hs
      refine iff_of_true (fun contextId _ => ?_) ?_
      · refine search_congr h h' hf.memht (fun contextId => ?_) contextId
        rw [hf.sliceMap]
        exact HashTable.lookup_insert_self hslice contextId
      · rintro ⟨⟨slice', hslice', hnone⟩, -⟩
        rw [hslice, some_inj] at hslice'
        rw [hslice', hnone] at hheld
        cases hheld
    · cases hs
      have hnew : slice.metaMap.lookup cmd.cid = none := by simpa using hheld
      rw [search_stored_iff h hf h']
      constructor
      · rintro hkept ⟨-, contextId, other, q, hne, hlook, hq, hdiff⟩
        exact hdiff (hkept contextId other q hne hlook hq)
      · intro hno contextId other q hne hlook hq
        by_contra hdiff
        exact hno ⟨⟨slice, hslice, hnew⟩, contextId, other, q, hne, hlook, hq, hdiff⟩

def newSliceCmd (cacheSize : Int32) : XcacheCommand := ⟨.newslice, 0, [], [], cacheSize⟩

/-- A command that stores the object `A`. -/
def storeCmd (contextId : Int32) (data : Bytes) : XcacheCommand :=
  ⟨.store, contextId, [65], data, 0⟩

theorem reachable_last {rs : List Request} (h : (Machine.run step init rs).toOption.isSome) :
    Reachable (Machine.last step init rs) := by
  obtain ⟨o, hrun⟩ := Machine.run_last step init rs h
  exact ⟨rs, o, hrun⟩

def twoSlices : XcacheController :=
  Machine.last step init [⟨0, newSliceCmd 10⟩, ⟨0, newSliceCmd 10⟩]

/-- The same with an object in the first slice. -/
def oneStored : XcacheController :=
  Machine.last step init [⟨0, newSliceCmd 10⟩, ⟨0, newSliceCmd 10⟩, ⟨0, storeCmd 1 [1]⟩]

/-- The first STORE of an object concerns no other context. -/
theorem store_isolates_first : ∃ c', twoSlices.store 0 (storeCmd 1 [1]) = .ok (0, c') ∧
    ∀ contextId, contextId ≠ 1 → ∀ cid,
      c'.search contextId cid = twoSlices.search contextId cid := by
  obtain ⟨_, c', hs, rfl⟩ : ∃ ret c', twoSlices.store 0 (storeCmd 1 [1]) = .ok (ret, c') ∧
      ret = 0 := by decide
  refine ⟨c', hs, (store_isolates_iff (reachable_last (by decide)) hs).2 ?_⟩
  -- no slice holds anything yet
  have hempty : (twoSlices.sliceMap.entries.all fun e => e.2.metaMap.entries.isEmpty) = true := by
    decide
  rintro ⟨-, contextId, slice, p, -, hslice, hp, -⟩
  have hnil := List.all_eq_true.1 hempty _ (mem_lookup_iff.1 hslice)
  have hmem := mem_lookup_iff.1 hp
  rw [List.isEmpty_iff.1 hnil] at hmem
  cases hmem

/-- The second STORE of an object, in the other context, replaces the data of the first. -/
theorem not_isolated_second : ∃ c c', Reachable c ∧ c.store 0 (storeCmd 2 [2]) = .ok (0, c') ∧
      c.search 1 [65] = some (.ok [1]) ∧ c'.search 1 [65] = some (.ok [2]) := by
  obtain ⟨_, c', hs, rfl, hbefore, hafter⟩ : ∃ ret c',
      oneStored.store 0 (storeCmd 2 [2]) = .ok (ret, c') ∧ ret = 0 ∧
      oneStored.search 1 [65] = some (.ok [1]) ∧ c'.search 1 [65] = some (.ok [2]) := by decide
  exact ⟨oneStored, c', reachable_last (by decide), hs, hbefore, hafter⟩

/-- **What a STORE has accepted is found in its context**, where nothing else changes. -/
theorem search_store (hc : Reachable c) (hs : c.store junkLen cmd = .ok (ret, c')) (hret : 0 ≤ ret)
    (cid : Bytes) : c'.search cmd.contextId cid =
      if cid = cmd.cid then some (.ok cmd.data) else c.search cmd.contextId cid := by
  have h := hc.wellFormed
  have h' := wellFormed_store h hs
  obtain ⟨p, c₁, m, hf, heq⟩ := store_eq h junkLen cmd
  rw [heq] at hs
  split at hs
  · cases hs
    cases hret
  rename_i slice hslice
  split_ifs at hs
  · cases hs
    cases hret
  cases hs
  rw [search_eq h', search_eq h, lookup_stored_slice, if_pos rfl, hslice, map_some, map_some,
    sliceData, sliceData, HashTable.lookup_insert_eq]
  split_ifs with hcid
  · rw [map_some, getD_some, dataAt_stored, if_pos rfl]
  · congr 3
    refine map_congr fun q hq => ?_
    -- the meta of another CID is another one
    have hne : q ≠ p := fun hqp => hcid (hf.unique cid (hqp ▸ h.held _ slice cid q hslice hq))
    rw [dataAt_stored, if_neg hne, dataAt, dataAt, hf.memht]

theorem search_store_first : ∃ c', twoSlices.store 0 (storeCmd 1 [1]) = .ok (0, c') ∧
    c'.search 1 [65] = some (.ok [1]) := by
  obtain ⟨_, c', hs, rfl⟩ : ∃ ret c', twoSlices.store 0 (storeCmd 1 [1]) = .ok (ret, c') ∧
      ret = 0 := by decide
  exact ⟨c', hs, search_store (reachable_last (by decide)) hs le_rfl [65]⟩

end XcacheController

end Xcache

end Xia
