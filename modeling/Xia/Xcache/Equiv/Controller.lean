import Xia.Xcache.Controller

/-!
# What the commands do to the controller

`store_eq` says what a STORE does in every case.  The loop that makes room finds nothing to evict,
so a STORE that enters it ends at the null pointer.

`WellFormed` is the bookkeeping that the commands keep: the metas are filed under their CIDs, and
those that a slice holds have their data in the content store.
-/

namespace Xia

open AList HashTable List Option Result

namespace Xcache

namespace XcacheController

variable {junkLen : UInt64} {c c₁ c' : XcacheController} {cmd : XcacheCommand} {p : MetaPtr}
  {m : XcacheMeta} {slice : XcacheSlice}

structure WellFormed (c : XcacheController) : Prop where
  filed : ∀ cid p, c.metaMap.lookup cid = some p → ∃ m, c.metas[p]? = some m ∧ m.cid = cid
  held : ∀ contextId slice cid p, c.sliceMap.lookup contextId = some slice →
    slice.metaMap.lookup cid = some p → c.metaMap.lookup cid = some p
  stored : ∀ contextId slice cid p, c.sliceMap.lookup contextId = some slice →
    slice.metaMap.lookup cid = some p →
      ∃ m data, c.metas[p]? = some m ∧ m.store = some .memHt ∧ c.memht.lookup p = some data
  currentSize : ∀ contextId slice, c.sliceMap.lookup contextId = some slice → slice.currentSize = 0

theorem WellFormed.cid_unique (h : WellFormed c) {cid cid' : Bytes}
    (hcid : c.metaMap.lookup cid = some p) (hcid' : c.metaMap.lookup cid' = some p) :
    cid = cid' := by
  obtain ⟨m, hm, rfl⟩ := h.filed cid p hcid
  obtain ⟨m', hm', rfl⟩ := h.filed cid' p hcid'
  rw [hm, some_inj] at hm'
  rw [hm']

/-! ### The meta of a STORE -/

/-- The length that `hasRoom` finds in the meta of a CID. -/
def lenOf (junkLen : UInt64) (c : XcacheController) (cid : Bytes) : UInt64 :=
  match c.metaMap.lookup cid with
  | some p => (c.metas[p]?.map XcacheMeta.len).getD junkLen
  | none => junkLen

/-- The meta `m` at `p` is the one of the command's CID, and `c₁` has it filed. -/
structure Found (junkLen : UInt64) (c : XcacheController) (cmd : XcacheCommand) (p : MetaPtr)
    (c₁ : XcacheController) (m : XcacheMeta) : Prop where
  metas : c₁.metas[p]? = some m
  cid : m.cid = cmd.cid
  len : m.len = c.lenOf junkLen cmd.cid
  lookup : ∀ cid, c₁.metaMap.lookup cid = if cid = cmd.cid then some p else c.metaMap.lookup cid
  known : ∀ q, c.metaMap.lookup cmd.cid = some q → q = p
  unique : ∀ cid, c.metaMap.lookup cid = some p → cid = cmd.cid
  old : ∀ (q : Nat) (m' : XcacheMeta), c.metas[q]? = some m' → c₁.metas[q]? = some m'
  sliceMap : c₁.sliceMap = c.sliceMap
  memht : c₁.memht = c.memht

theorem findMeta_eq (h : WellFormed c) (junkLen : UInt64) (cmd : XcacheCommand) :
    ∃ p c₁ m, c.findMeta junkLen cmd = (p, c₁) ∧ Found junkLen c cmd p c₁ m := by
  unfold findMeta
  cases hcid : c.metaMap.lookup cmd.cid with
  | some p =>
    obtain ⟨m, hm, hmcid⟩ := h.filed cmd.cid p hcid
    refine ⟨p, c, m, rfl, hm, hmcid, by simp [lenOf, hcid, hm], fun cid => ?_,
      fun q hq => some_inj.1 (hq.symm.trans hcid), fun cid hp => h.cid_unique hp hcid,
      fun _ _ hq => hq, rfl, rfl⟩
    split
    · rename_i heq
      rw [heq, hcid]
    · rfl
  | none =>
    refine ⟨c.metas.length, _, XcacheMeta.new junkLen cmd, rfl, by simp, rfl,
      by simp [lenOf, hcid, XcacheMeta.new], fun cid => lookup_insert_eq _ _ _ _,
      fun q hq => (by rw [hcid] at hq; cases hq), fun cid hp => ?_, fun q m' hq => ?_, rfl, rfl⟩
    -- no CID is filed for the new pointer
    · obtain ⟨m, hm, -⟩ := h.filed cid _ hp
      simp at hm
    · rwa [getElem?_append_left (List.getElem?_eq_some_iff.1 hq).1]

theorem Found.of_lookup (hf : Found junkLen c cmd p c₁ m) {cid : Bytes} {q : MetaPtr}
    (h : c.metaMap.lookup cid = some q) : c₁.metaMap.lookup cid = some q := by
  rw [hf.lookup]
  split
  · rename_i heq
    subst heq
    rw [hf.known q h]
  · exact h

/-! ### The cases of a STORE -/

/-- The loop of `makeRoom` ends before its first iteration or in it. -/
theorem makeRoom_eq (m : XcacheMeta) (fuel : Nat) (c : XcacheController) (slice : XcacheSlice) :
    c.makeRoom m (fuel + 1) slice =
      if slice.hasRoom m then .ok (c, slice) else .error .nullDeref := by
  unfold makeRoom
  split
  · rfl
  · cases slice.policy <;> rfl

theorem metaAt_eq (hp : c.metas[p]? = some m) : c.metaAt p = .ok m := by
  rw [metaAt, hp, deref_some]

theorem metas_setMeta (hp : c.metas[p]? = some m) (m' : XcacheMeta) :
    (c.setMeta p m').metas[p]? = some m' := by
  have hlt : p < c.metas.length := (List.getElem?_eq_some_iff.1 hp).1
  simp [setMeta, hlt]

theorem sliceStore_eq (hp : c.metas[p]? = some m) (slice : XcacheSlice) : c.sliceStore slice p =
      if (slice.metaMap.lookup m.cid).isSome then .ok (bad, c, slice)
      else if slice.hasRoom m then
        .ok (slice.policy.store p, c.setMeta p (m.addedToSlice slice),
          { slice with metaMap := slice.metaMap.insert m.cid p })
      else .error .nullDeref := by
  unfold sliceStore addMeta
  rw [metaAt_eq hp, ok_bind]
  split
  · rfl
  · rw [makeRoom_eq]
    split
    · simp only [ok_bind, metaAt_eq hp]
      rfl
    · rfl

theorem managerStore_eq (hp : c.metas[p]? = some m) (data : Bytes) :
    c.managerStore p data = .ok (0, { c with
      metas := c.metas.set p { m with store := some .memHt }
      memht := c.memht.insert p data }) := by
  rw [managerStore, metaAt_eq hp]
  rfl

def stored (c : XcacheController) (cmd : XcacheCommand) (slice : XcacheSlice) (p : MetaPtr)
    (m : XcacheMeta) : XcacheController :=
  { c with
    metas := c.metas.set p { m.addedToSlice slice with store := some .memHt }
    sliceMap := c.sliceMap.insert cmd.contextId
      { slice with metaMap := slice.metaMap.insert cmd.cid p }
    memht := c.memht.insert p cmd.data }

/-- **A STORE in every case**: the context is not known, the slice holds the CID, the object is
stored, or the loop that makes room is entered. -/
theorem store_eq_of_found (hfind : c.findMeta junkLen cmd = (p, c₁))
    (hf : Found junkLen c cmd p c₁ m) : c.store junkLen cmd =
      match c.sliceMap.lookup cmd.contextId with
      | none => .ok (bad, c₁)
      | some slice =>
        if (slice.metaMap.lookup cmd.cid).isSome then
          .ok (bad, { c₁ with sliceMap := c₁.sliceMap.insert cmd.contextId slice })
        else if slice.hasRoom m then .ok (0, c₁.stored cmd slice p m)
        else .error .nullDeref := by
  have hslice : c₁.lookupSlice cmd = c.sliceMap.lookup cmd.contextId := by
    rw [lookupSlice, hf.sliceMap]
  unfold store
  rw [hfind]
  dsimp only
  rw [hslice]
  cases c.sliceMap.lookup cmd.contextId with
  | none => rfl
  | some slice =>
    dsimp only
    rw [sliceStore_eq hf.metas, hf.cid]
    split
    · rfl
    · split
      · have hret : ¬ slice.policy.store p < 0 := by
          cases slice.policy <;> simp [XcachePolicy.store]
        simp only [ok_bind, hret, if_false]
        refine (managerStore_eq (m := m.addedToSlice slice) ?_ cmd.data).trans ?_
        · exact metas_setMeta hf.metas _
        · simp only [setMeta, stored, set_set]
      · rfl

theorem store_eq (h : WellFormed c) (junkLen : UInt64) (cmd : XcacheCommand) :
    ∃ p c₁ m, Found junkLen c cmd p c₁ m ∧ c.store junkLen cmd =
      match c.sliceMap.lookup cmd.contextId with
      | none => .ok (bad, c₁)
      | some slice =>
        if (slice.metaMap.lookup cmd.cid).isSome then
          .ok (bad, { c₁ with sliceMap := c₁.sliceMap.insert cmd.contextId slice })
        else if slice.hasRoom m then .ok (0, c₁.stored cmd slice p m)
        else .error .nullDeref := by
  obtain ⟨p, c₁, m, hfind, hf⟩ := findMeta_eq h junkLen cmd
  exact ⟨p, c₁, m, hf, store_eq_of_found hfind hf⟩

/-! ### The bookkeeping is kept -/

theorem wellFormed_init : WellFormed init := by
  constructor
  · intro cid p h
    cases h
  · intro contextId slice cid p h
    cases h
  · intro contextId slice cid p h
    cases h
  · intro contextId slice h
    cases h

theorem Found.wellFormed (hf : Found junkLen c cmd p c₁ m) (h : WellFormed c) : WellFormed c₁ where
  filed := by
    intro cid q hq
    rw [hf.lookup] at hq
    split at hq
    · rename_i heq
      cases hq
      exact ⟨m, hf.metas, hf.cid.trans heq.symm⟩
    · obtain ⟨m', hm', hcid⟩ := h.filed cid q hq
      exact ⟨m', hf.old q m' hm', hcid⟩
  held := by
    intro contextId slice cid q hslice hq
    rw [hf.sliceMap] at hslice
    exact hf.of_lookup (h.held contextId slice cid q hslice hq)
  stored := by
    intro contextId slice cid q hslice hq
    rw [hf.sliceMap] at hslice
    obtain ⟨m', data, hm', hstore, hdata⟩ := h.stored contextId slice cid q hslice hq
    exact ⟨m', data, hf.old q m' hm', hstore, hf.memht ▸ hdata⟩
  currentSize := by
    intro contextId slice hslice
    rw [hf.sliceMap] at hslice
    exact h.currentSize contextId slice hslice

theorem WellFormed.congr (h : WellFormed c) (hmetas : c'.metas = c.metas)
    (hmetaMap : c'.metaMap = c.metaMap) (hmemht : c'.memht = c.memht)
    (hslices : ∀ contextId, c'.sliceMap.lookup contextId = c.sliceMap.lookup contextId) :
    WellFormed c' where
  filed := by
    rw [hmetas, hmetaMap]
    exact h.filed
  held := by
    intro contextId slice cid p hslice
    rw [hslices] at hslice
    rw [hmetaMap]
    exact h.held contextId slice cid p hslice
  stored := by
    intro contextId slice cid p hslice
    rw [hslices] at hslice
    rw [hmetas, hmemht]
    exact h.stored contextId slice cid p hslice
  currentSize := by
    intro contextId slice hslice
    rw [hslices] at hslice
    exact h.currentSize contextId slice hslice

theorem lookup_stored_slice (contextId : Int32) :
    (c.stored cmd slice p m).sliceMap.lookup contextId =
      if contextId = cmd.contextId then
        some { slice with metaMap := slice.metaMap.insert cmd.cid p }
      else c.sliceMap.lookup contextId :=
  lookup_insert_eq _ _ _ _

theorem metas_stored (hp : c.metas[p]? = some m) (q : Nat) : (c.stored cmd slice p m).metas[q]? =
      if q = p then some { m.addedToSlice slice with store := some .memHt } else c.metas[q]? := by
  have hlt : p < c.metas.length := (List.getElem?_eq_some_iff.1 hp).1
  simp only [stored, getElem?_set, hlt, if_true]
  by_cases hq : p = q
  · rw [if_pos hq, if_pos hq.symm]
  · rw [if_neg hq, if_neg (Ne.symm hq)]

theorem held_stored {contextId : Int32} {slice' : XcacheSlice} {cid : Bytes} {q : MetaPtr}
    (hslice : c.sliceMap.lookup cmd.contextId = some slice)
    (hslice' : (c.stored cmd slice p m).sliceMap.lookup contextId = some slice')
    (hq : slice'.metaMap.lookup cid = some q) :
    (cid = cmd.cid ∧ q = p) ∨ ∃ old, c.sliceMap.lookup contextId = some old ∧
      old.metaMap.lookup cid = some q := by
  rw [lookup_stored_slice] at hslice'
  split at hslice'
  · rename_i heq
    cases hslice'
    rw [lookup_insert_eq] at hq
    split at hq
    · rename_i hcid
      exact .inl ⟨hcid, (Option.some.inj hq).symm⟩
    · exact .inr ⟨slice, heq ▸ hslice, hq⟩
  · exact .inr ⟨slice', hslice', hq⟩

theorem wellFormed_stored (h : WellFormed c) (hp : c.metas[p]? = some m)
    (hfiled : c.metaMap.lookup cmd.cid = some p)
    (hslice : c.sliceMap.lookup cmd.contextId = some slice) :
    WellFormed (c.stored cmd slice p m) where
  filed := by
    intro cid q hq
    obtain ⟨m', hm', hcid⟩ := h.filed cid q hq
    rw [metas_stored hp]
    split
    · rename_i heq
      rw [heq, hp, some_inj] at hm'
      exact ⟨_, rfl, hm' ▸ hcid⟩
    · exact ⟨m', hm', hcid⟩
  held := by
    intro contextId slice' cid q hslice' hq
    rcases held_stored hslice hslice' hq with ⟨rfl, rfl⟩ | ⟨old, hold, hq⟩
    · exact hfiled
    · exact h.held contextId old cid q hold hq
  stored := by
    intro contextId slice' cid q hslice' hq
    rw [metas_stored hp, show (c.stored cmd slice p m).memht = c.memht.insert p cmd.data from rfl,
      lookup_insert_eq]
    split
    · exact ⟨_, cmd.data, rfl, rfl, rfl⟩
    · rename_i hne
      rcases held_stored hslice hslice' hq with ⟨-, rfl⟩ | ⟨old, hold, hq⟩
      · exact absurd rfl hne
      · exact h.stored contextId old cid q hold hq
  currentSize := by
    intro contextId slice' hslice'
    rw [lookup_stored_slice] at hslice'
    split at hslice'
    · cases hslice'
      exact h.currentSize cmd.contextId slice hslice
    · exact h.currentSize contextId slice' hslice'

theorem wellFormed_store {ret : Int} (h : WellFormed c)
    (hs : c.store junkLen cmd = .ok (ret, c')) : WellFormed c' := by
  obtain ⟨p, c₁, m, hf, heq⟩ := store_eq h junkLen cmd
  have h₁ := hf.wellFormed h
  rw [heq] at hs
  cases hslice : c.sliceMap.lookup cmd.contextId with
  | none =>
    rw [hslice] at hs
    cases hs
    exact h₁
  | some slice =>
    rw [← hf.sliceMap] at hslice
    rw [← hf.sliceMap, hslice] at hs
    dsimp only at hs
    split_ifs at hs
    · cases hs
      exact h₁.congr rfl rfl rfl (lookup_insert_self hslice)
    · cases hs
      exact wellFormed_stored h₁ hf.metas (by rw [hf.lookup, if_pos rfl]) hslice

/-- The slices after a STORE: the one of the command may have the CID besides what it held. -/
theorem slice_of_store {ret : Int} {contextId : Int32} {slice' : XcacheSlice} (h : WellFormed c)
    (hs : c.store junkLen cmd = .ok (ret, c'))
    (hslice' : c'.sliceMap.lookup contextId = some slice') :
    c.sliceMap.lookup contextId = some slice' ∨ ∃ slice p,
      c.sliceMap.lookup contextId = some slice ∧
        slice' = { slice with metaMap := slice.metaMap.insert cmd.cid p } := by
  obtain ⟨p, c₁, m, hf, heq⟩ := store_eq h junkLen cmd
  rw [heq] at hs
  cases hslice : c.sliceMap.lookup cmd.contextId with
  | none =>
    rw [hslice] at hs
    cases hs
    exact .inl (hf.sliceMap ▸ hslice')
  | some slice =>
    rw [hslice] at hs
    dsimp only at hs
    split_ifs at hs
    · cases hs
      rw [← hf.sliceMap] at hslice ⊢
      exact .inl ((lookup_insert_self hslice contextId).symm.trans hslice')
    · cases hs
      rw [lookup_stored_slice, hf.sliceMap] at hslice'
      split at hslice'
      · rename_i hctx
        subst hctx
        exact .inr ⟨slice, p, hslice, (some_inj.1 hslice').symm⟩
      · exact .inl hslice'

theorem lookup_newSlice (hnone : c.lookupSlice cmd = none) (contextId : Int32) :
    (c.newSlice cmd).2.2.sliceMap.lookup contextId =
      if contextId = c.lastContextId + 1 then
        some ((XcacheSlice.new (c.lastContextId + 1)).setSize cmd.cacheSize)
      else c.sliceMap.lookup contextId := by
  simp only [newSlice, hnone, isSome_none, Bool.false_eq_true, if_false]
  exact lookup_insert_eq _ _ _ _

/-- A new slice is empty; an older one with its number, if there is any, is lost. -/
theorem slice_of_newSlice {contextId : Int32}
    (h : (c.newSlice cmd).2.2.sliceMap.lookup contextId = some slice) :
    (slice.metaMap = ∅ ∧ slice.currentSize = 0) ∨ c.sliceMap.lookup contextId = some slice := by
  cases hlook : c.lookupSlice cmd with
  | none =>
    rw [lookup_newSlice hlook] at h
    split at h
    · cases h
      exact .inl ⟨rfl, rfl⟩
    · exact .inr h
  | some old =>
    simp only [newSlice, hlook, isSome_some, if_true] at h
    exact .inr h

theorem newSlice_frame (c : XcacheController) (cmd : XcacheCommand) :
    (c.newSlice cmd).2.2.metas = c.metas ∧ (c.newSlice cmd).2.2.metaMap = c.metaMap ∧
      (c.newSlice cmd).2.2.memht = c.memht := by
  unfold newSlice
  split <;> exact ⟨rfl, rfl, rfl⟩

theorem wellFormed_newSlice (h : WellFormed c) (cmd : XcacheCommand) :
    WellFormed (c.newSlice cmd).2.2 := by
  obtain ⟨hmetas, hmetaMap, hmemht⟩ := newSlice_frame c cmd
  constructor
  · rw [hmetas, hmetaMap]
    exact h.filed
  · intro contextId slice cid p hslice hp
    rw [hmetaMap]
    rcases slice_of_newSlice hslice with ⟨hempty, -⟩ | hold
    · rw [hempty] at hp
      cases hp
    · exact h.held contextId slice cid p hold hp
  · intro contextId slice cid p hslice hp
    rw [hmetas, hmemht]
    rcases slice_of_newSlice hslice with ⟨hempty, -⟩ | hold
    · rw [hempty] at hp
      cases hp
    · exact h.stored contextId slice cid p hold hp
  · intro contextId slice hslice
    rcases slice_of_newSlice hslice with ⟨-, hzero⟩ | hold
    · exact hzero
    · exact h.currentSize contextId slice hold

/-! ### Data -/

/-- The data that the content store returns for a meta. -/
def dataAt (c : XcacheController) (p : MetaPtr) : Bytes := (c.memht.lookup p).getD []

/-- The data of the meta is replaced, in whatever slice it is held. -/
theorem dataAt_stored (c : XcacheController) (cmd : XcacheCommand) (slice : XcacheSlice)
    (p : MetaPtr) (m : XcacheMeta) (q : MetaPtr) :
    (c.stored cmd slice p m).dataAt q = if q = p then cmd.data else c.dataAt q := by
  rw [dataAt, stored, lookup_insert_eq]
  split <;> rfl

theorem metaGet_eq {data : Bytes} (hp : c.metas[p]? = some m) (hstore : m.store = some .memHt)
    (hdata : c.memht.lookup p = some data) : c.metaGet p = .ok (data, c) := by
  rw [metaGet, metaAt_eq hp, ok_bind, hstore, deref_some, ok_bind, hdata]
  rfl

theorem status_eq (h : WellFormed c) {ps : List MetaPtr}
    (hps : ∀ p ∈ ps, ∃ contextId slice cid, c.sliceMap.lookup contextId = some slice ∧
      slice.metaMap.lookup cid = some p) : c.status ps = .ok c := by
  induction ps with
  | nil => rfl
  | cons p ps ih =>
    obtain ⟨contextId, slice, cid, hslice, hp⟩ := hps p mem_cons_self
    obtain ⟨m, data, hm, hstore, hdata⟩ := h.stored contextId slice cid p hslice hp
    rw [status, metaGet_eq hm hstore hdata]
    exact ih fun q hq => hps q (mem_cons_of_mem _ hq)

/-- Every meta that `status` prints is held by a slice. -/
theorem mem_heldMetas (hp : p ∈ c.heldMetas) : ∃ contextId slice cid,
    c.sliceMap.lookup contextId = some slice ∧ slice.metaMap.lookup cid = some p := by
  obtain ⟨⟨contextId, slice⟩, hslice, hp⟩ := mem_flatMap.1 hp
  obtain ⟨⟨cid, q⟩, hq, rfl⟩ := List.mem_map.1 hp
  exact ⟨contextId, slice, cid, mem_lookup_iff.2 hslice, mem_lookup_iff.2 hq⟩

/-! ### Runs -/

theorem step_eq_ok {r : Request} {out : List Response} (h : WellFormed c)
    (hs : step c r = .ok (c', out)) :
    (r.cmd.cmd = .store ∧ ∃ ret, c.store r.junkLen r.cmd = .ok (ret, c')) ∨
      (r.cmd.cmd = .newslice ∧ c' = (c.newSlice r.cmd).2.2) ∨
      (r.cmd.cmd ≠ .store ∧ r.cmd.cmd ≠ .newslice ∧ c' = c) := by
  simp only [step, bind_eq_ok] at hs
  obtain ⟨⟨ret, resp, c₁⟩, hcmd, hs⟩ := hs
  cases hs
  unfold handleCmd at hcmd
  cases hkind : r.cmd.cmd with
  | store =>
    simp only [hkind, bind_eq_ok] at hcmd
    obtain ⟨⟨ret', c₂⟩, hstore, hcmd⟩ := hcmd
    cases hcmd
    exact .inl ⟨rfl, ret', hstore⟩
  | newslice =>
    simp only [hkind, Except.ok.injEq] at hcmd
    exact .inr (.inl ⟨rfl, by rw [hcmd]⟩)
  | status =>
    simp only [hkind, status_eq h fun p => mem_heldMetas, ok_bind] at hcmd
    cases hcmd
    exact .inr (.inr ⟨by decide, by decide, rfl⟩)
  | _ =>
    simp only [hkind, Except.ok.injEq, Prod.mk.injEq] at hcmd
    exact .inr (.inr ⟨by decide, by decide, hcmd.2.2.symm⟩)

theorem step_of_store {r : Request} {ret : Int} (hkind : r.cmd.cmd = .store)
    (hs : c.store r.junkLen r.cmd = .ok (ret, c')) : ∃ out, step c r = .ok (c', out) := by
  simp only [step, handleCmd, hkind, hs, ok_bind]
  exact ⟨_, rfl⟩

theorem exists_step_of_ne_store {r : Request} (h : WellFormed c) (hkind : r.cmd.cmd ≠ .store) :
    ∃ c' out, step c r = .ok (c', out) := by
  unfold step handleCmd
  cases hcmd : r.cmd.cmd with
  | store => exact absurd hcmd hkind
  | status =>
    simp only [status_eq h fun p => mem_heldMetas, ok_bind]
    exact ⟨_, _, rfl⟩
  | _ => exact ⟨_, _, rfl⟩

theorem wellFormed_step {r : Request} {out : List Response} (h : WellFormed c)
    (hs : step c r = .ok (c', out)) : WellFormed c' := by
  rcases step_eq_ok h hs with ⟨-, ret, hstore⟩ | ⟨-, rfl⟩ | ⟨-, -, rfl⟩
  · exact wellFormed_store h hstore
  · exact wellFormed_newSlice h r.cmd
  · exact h

theorem Reachable.wellFormed (h : Reachable c) : WellFormed c := by
  obtain ⟨rs, out, hrun⟩ := h
  exact Machine.run_invariant (fun _ _ _ _ hwf hs => wellFormed_step hwf hs) wellFormed_init hrun

end XcacheController

end Xcache

end Xia
