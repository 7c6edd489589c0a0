import Xia.Xcache.Equiv.Isolation

/-!
# What a STORE leaves behind that fails

`store` files a meta for a new CID before it looks for the slice of the context.  A STORE fails if
the context has no slice or if the slice holds the CID already; in the second case the CID is known,
so only the first one leaves something behind (`store_atomic_iff`).
-/

namespace Xia

namespace Xcache

namespace XcacheController

variable {junkLen : UInt64} {c c' : XcacheController} {cmd : XcacheCommand}

/-- The two states have the same metas filed under the same CIDs, the same slices and the same
data. -/
structure SameContent (c c' : XcacheController) : Prop where
  metaMap : ∀ cid, c'.metaMap.lookup cid = c.metaMap.lookup cid
  metas : ∀ cid p, c.metaMap.lookup cid = some p → c'.metas[p]? = c.metas[p]?
  slices : ∀ contextId, c'.sliceMap.lookup contextId = c.sliceMap.lookup contextId
  memht : ∀ p, c'.memht.lookup p = c.memht.lookup p

/-- Whatever fails in this call leaves the state as it was. -/
def FailsClean (junkLen : UInt64) (c : XcacheController) (cmd : XcacheCommand) : Prop :=
  ∀ ret c', c.store junkLen cmd = .ok (ret, c') → ret < 0 → SameContent c c'

theorem findMeta_of_known {p : MetaPtr} (hp : c.metaMap.lookup cmd.cid = some p) :
    c.findMeta junkLen cmd = (p, c) := by
  simp [findMeta, hp]

theorem store_of_unknown_context (hslice : c.lookupSlice cmd = none) :
    c.store junkLen cmd = .ok (bad, (c.findMeta junkLen cmd).2) := by
  have hsame : (c.findMeta junkLen cmd).2.lookupSlice cmd = c.lookupSlice cmd := by
    unfold findMeta
    split <;> rfl
  unfold store
  dsimp only
  rw [hsame, hslice]
  rfl

theorem failsClean_of_slice {slice : XcacheSlice} (h : WellFormed c)
    (hslice : c.sliceMap.lookup cmd.contextId = some slice) : c.FailsClean junkLen cmd := by
  intro ret c' hs hret
  obtain ⟨p, c₁, m, hf, heq⟩ := store_eq h junkLen cmd
  rw [heq, hslice] at hs
  dsimp only at hs
  split_ifs at hs with hheld hroom
  -- the slice holds the CID, so the meta was filed before
  · cases hs
    obtain ⟨q, hq⟩ := Option.isSome_iff_exists.1 hheld
    have hknown := h.held cmd.contextId slice cmd.cid q hslice hq
    obtain rfl := hf.known q hknown
    refine ⟨fun cid => ?_, fun cid p' hp' => ?_, fun contextId => ?_, fun p' => ?_⟩
    · show c₁.metaMap.lookup cid = _
      rw [hf.lookup]
      split
      · rename_i hcid
        rw [hcid, hknown]
      · rfl
    · obtain ⟨m', hm', -⟩ := h.filed cid p' hp'
      rw [hm']
      exact hf.old p' m' hm'
    · show (c₁.sliceMap.insert cmd.contextId slice).lookup contextId = _
      rw [hf.sliceMap]
      exact HashTable.lookup_insert_self hslice contextId
    · show c₁.memht.lookup p' = _
      rw [hf.memht]
  -- a STORE that succeeds returns zero
  · cases hs
    cases hret

/-- **A STORE that fails changes nothing, unless it is the first one of its CID and its context has
no slice.** -/
theorem store_atomic_iff (hc : Reachable c) : c.FailsClean junkLen cmd ↔
      ¬ (c.sliceMap.lookup cmd.contextId = none ∧ c.metaMap.lookup cmd.cid = none) := by
  cases hslice : c.sliceMap.lookup cmd.contextId with
  | some slice => exact iff_of_true (failsClean_of_slice hc.wellFormed hslice) (by simp)
  | none =>
    have hstore : c.store junkLen cmd = .ok (bad, (c.findMeta junkLen cmd).2) :=
      store_of_unknown_context hslice
    cases hcid : c.metaMap.lookup cmd.cid with
    | some p =>
      refine iff_of_true (fun ret c' hs _ => ?_) (by simp)
      rw [hstore, findMeta_of_known hcid] at hs
      cases hs
      exact ⟨fun _ => rfl, fun _ _ _ => rfl, fun _ => rfl, fun _ => rfl⟩
    | none =>
      refine iff_of_false (fun hclean => ?_) (by simp)
      have hfiled := (hclean bad _ hstore (by decide)).metaMap cmd.cid
      rw [hcid] at hfiled
      simp [findMeta, hcid] at hfiled

/-- The second STORE of an object in the same context fails and changes nothing. -/
theorem store_atomic_second : ∃ c', oneStored.store 0 (storeCmd 1 [2]) = .ok (bad, c') ∧
    SameContent oneStored c' := by
  obtain ⟨_, c', hs, rfl⟩ : ∃ ret c', oneStored.store 0 (storeCmd 1 [2]) = .ok (ret, c') ∧
      ret = bad := by decide
  refine ⟨c', hs, (store_atomic_iff (reachable_last (by decide))).2 ?_ bad c' hs (by decide)⟩
  have hsome : (oneStored.sliceMap.lookup 1).isSome = true := by decide
  rintro ⟨hnone, -⟩
  rw [show oneStored.sliceMap.lookup 1 = none from hnone] at hsome
  cases hsome

/-- A STORE for a context that was never asked for files a meta. -/
theorem not_failsClean_unknown_context : Reachable init ∧ ¬ init.FailsClean 0 (storeCmd 1 [1]) := by
  refine ⟨⟨[], [], rfl⟩, fun hclean => ?_⟩
  have hfiled := (hclean bad _ (store_of_unknown_context rfl) (by decide)).metaMap [65]
  revert hfiled
  decide

end XcacheController

end Xcache

end Xia
