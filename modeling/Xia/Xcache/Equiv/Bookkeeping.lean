import Xia.Xcache.Equiv.Isolation

/-!
# The maps of the controller agree

The controller files the metas by their CIDs and the slices by their contexts, a slice files the
metas that it holds by their CIDs, and a meta the slices that hold it by their contexts and counts
them.  `Bookkeeping` says that these maps agree, and that the data of a meta is that of the last
STORE of its CID that succeeded.

A new slice gets the number after that of the last one, while `newSlice` looks for a slice under the
number in the command.  The numbers wrap around, but when they do all of them are in use and no
command makes a slice any more, so that no slice is ever replaced (`Numbered`).
-/

namespace Xia

open List Option HashTable AList

namespace Xcache

namespace XcacheController

variable {junkLen : UInt64} {c c₁ c' : XcacheController} {cmd : XcacheCommand} {p : MetaPtr}
  {m : XcacheMeta} {slice : XcacheSlice} {r : Request} {log w : List (Bytes × Bytes)}

/-! ### The agreement -/

/-- The body of the loop in `makeRoom` is entered. -/
def entersLoop (c : XcacheController) (r : Request) : Bool :=
  r.cmd.cmd = .store && ((c.findMeta r.junkLen r.cmd).2.lookupSlice r.cmd).any fun slice =>
      (c.findMeta r.junkLen r.cmd).2.metas[(c.findMeta r.junkLen r.cmd).1]?.any fun m =>
        (slice.metaMap.lookup m.cid).isNone && !slice.hasRoom m

/-- The controller as a machine whose outputs are the objects of the STOREs that succeed. -/
def observe : Machine.Step XcacheController Request Fault (Bytes × Bytes) := fun c r => do
  let (ret, _, c) ← c.handleCmd r.junkLen r.cmd
  return (c, if r.cmd.cmd = .store ∧ 0 ≤ ret then [(r.cmd.cid, r.cmd.data)] else [])

/-- The data of the last STORE of the CID that succeeded. -/
def lastStored (log : List (Bytes × Bytes)) (cid : Bytes) : Option Bytes := log.reverse.lookup cid

/-- The contexts of the slices whose `metaMap` contains the meta. -/
def holders (c : XcacheController) (p : MetaPtr) : List Int32 :=
  (c.sliceMap.entries.filter fun e => p ∈ e.2.metaMap.entries.map Sigma.snd).map Sigma.fst

/-- What the maps of the controller, of the slices and of the metas say about each other after the
successful STOREs `log`. -/
structure Bookkeeping (c : XcacheController) (log : List (Bytes × Bytes)) : Prop where
  slices : ∀ contextId slice, c.sliceMap.lookup contextId = some slice → slice.contextId = contextId
  metas : ∀ cid p, c.metaMap.lookup cid = some p ↔ ∃ m, c.metas[p]? = some m ∧ m.cid = cid
  held : ∀ contextId slice cid p, c.sliceMap.lookup contextId = some slice →
    slice.metaMap.lookup cid = some p → ∃ m, c.metas[p]? = some m ∧ m.cid = cid
  /-- the counter is a `uint32_t` -/
  refCount : ∀ (p : Nat) m, c.metas[p]? = some m → m.refCount = (c.holders p).length.toUInt32 ∧
      (c.sliceMap.entries.length < 2 ^ 32 → m.refCount.toNat = (c.holders p).length)
  sliceMap : ∀ (p : Nat) m, c.metas[p]? = some m → ∀ key contextId,
    m.sliceMap.lookup key = some contextId ↔ key = contextId.toUInt32 ∧ contextId ∈ c.holders p
  store : ∀ (p : Nat) m, c.metas[p]? = some m → c.holders p ≠ [] →
    m.store ≠ none ∧ ∃ data, lastStored log m.cid = some data ∧ c.metaGet p = .ok (data, c)

/-! ### The numbers of the slices -/

/-- How many numbers come before this one, from 1 on. -/
def ordinal (contextId : Int32) : Nat := (contextId.toUInt32 - 1).toNat

/-- The numbers in use are the first `k`. -/
structure Numbered (c : XcacheController) (k : Nat) : Prop where
  le : k ≤ 2 ^ 32
  last : c.lastContextId.toUInt32 = UInt32.ofNat k
  used : ∀ contextId, (c.sliceMap.lookup contextId).isSome ↔ ordinal contextId < k

theorem ordinal_lt (contextId : Int32) : ordinal contextId < 2 ^ 32 :=
  (contextId.toUInt32 - 1).toNat_lt

theorem toUInt32_inj {a b : Int32} : a.toUInt32 = b.toUInt32 ↔ a = b :=
  ⟨fun h => congrArg Int32.ofUInt32 h, fun h => congrArg Int32.toUInt32 h⟩

theorem ordinal_eq_iff {k : Nat} {last : Int32} (hk : k < 2 ^ 32)
    (hlast : last.toUInt32 = UInt32.ofNat k) (contextId : Int32) :
    ordinal contextId = k ↔ contextId = last + 1 := by
  have hnext : (last + 1).toUInt32 = UInt32.ofNat k + 1 := by
    rw [Int32.toUInt32_add, hlast]
    rfl
  rw [← toUInt32_inj, hnext, ← sub_eq_iff_eq_add, ← UInt32.toNat_inj, UInt32.toNat_ofNat',
    Nat.mod_eq_of_lt hk]
  rfl

theorem numbered_init : Numbered init 0 :=
  ⟨by decide, rfl, fun contextId => by simp [init]⟩

theorem Numbered.fresh {k : Nat} (h : Numbered c k) (hnone : c.lookupSlice cmd = none) :
    k < 2 ^ 32 ∧ c.sliceMap.lookup (c.lastContextId + 1) = none := by
  have hlt : ¬ ordinal cmd.contextId < k := by
    rw [← h.used, show c.sliceMap.lookup cmd.contextId = none from hnone]
    simp
  have hk : k < 2 ^ 32 := lt_of_le_of_lt (not_lt.1 hlt) (ordinal_lt cmd.contextId)
  refine ⟨hk, ?_⟩
  rw [← not_isSome_iff_eq_none, h.used, (ordinal_eq_iff hk h.last _).2 rfl]
  exact lt_irrefl k

theorem numbered_newSlice {k : Nat} (h : Numbered c k) (hnone : c.lookupSlice cmd = none) :
    Numbered (c.newSlice cmd).2.2 (k + 1) := by
  obtain ⟨hk, -⟩ := h.fresh hnone
  refine ⟨hk, ?_, fun contextId => ?_⟩
  · simp only [newSlice, hnone, isSome_none, Bool.false_eq_true, if_false]
    rw [Int32.toUInt32_add, h.last]
    apply UInt32.toNat_inj.1
    rw [UInt32.toNat_add, UInt32.toNat_ofNat', UInt32.toNat_ofNat']
    exact (Nat.mod_add_mod k (2 ^ 32) 1)
  · rw [lookup_newSlice hnone]
    by_cases heq : contextId = c.lastContextId + 1
    · rw [if_pos heq, (ordinal_eq_iff hk h.last contextId).2 heq]
      simp
    · have hne : ordinal contextId ≠ k := (ordinal_eq_iff hk h.last contextId).not.2 heq
      rw [if_neg heq, h.used]
      omega

/-! ### The invariant -/

def Holds (c : XcacheController) (p : MetaPtr) (contextId : Int32) : Prop :=
  ∃ slice cid, c.sliceMap.lookup contextId = some slice ∧ slice.metaMap.lookup cid = some p

theorem mem_holders (contextId : Int32) : contextId ∈ c.holders p ↔ c.Holds p contextId := by
  simp only [holders, List.mem_map, mem_filter, decide_eq_true_iff]
  constructor
  · rintro ⟨⟨_, slice⟩, ⟨hslice, ⟨⟨cid, _⟩, hcid, rfl⟩⟩, rfl⟩
    exact ⟨slice, cid, mem_lookup_iff.2 hslice, mem_lookup_iff.2 hcid⟩
  · rintro ⟨slice, cid, hslice, hcid⟩
    exact ⟨⟨contextId, slice⟩, ⟨mem_lookup_iff.1 hslice,
      ⟨⟨cid, p⟩, mem_lookup_iff.1 hcid, rfl⟩⟩, rfl⟩

/-- `Bookkeeping` in terms of what can be looked up. -/
structure Agrees (c : XcacheController) (log : List (Bytes × Bytes)) : Prop where
  slices : ∀ contextId slice, c.sliceMap.lookup contextId = some slice → slice.contextId = contextId
  filed : ∀ (p : Nat) m, c.metas[p]? = some m → c.metaMap.lookup m.cid = some p
  counted : ∀ (p : Nat) m, c.metas[p]? = some m → m.refCount = m.sliceMap.entries.length.toUInt32
  sliceMap : ∀ (p : Nat) m, c.metas[p]? = some m → ∀ key contextId,
    m.sliceMap.lookup key = some contextId ↔ key = contextId.toUInt32 ∧ c.Holds p contextId
  data : ∀ p : Nat, c.memht.lookup p = c.metas[p]?.bind fun m => lastStored log m.cid
  unknown : ∀ cid, c.metaMap.lookup cid = none → lastStored log cid = none

theorem agrees_init : Agrees init [] := by
  constructor
  · intro contextId slice h
    cases h
  · intro p m h
    cases h
  · intro p m h
    cases h
  · intro p m h
    cases h
  · intro p
    rfl
  · intro cid _
    rfl

theorem WellFormed.not_holds (h : WellFormed c) (hp : c.metas[p]? = none) (contextId : Int32) :
    ¬ c.Holds p contextId := by
  rintro ⟨slice, cid, hslice, hcid⟩
  obtain ⟨m, hm, -⟩ := h.filed cid p (h.held contextId slice cid p hslice hcid)
  rw [hp] at hm
  cases hm

theorem agrees_findMeta (h : WellFormed c) (ha : Agrees c log) (junkLen : UInt64)
    (cmd : XcacheCommand) : Agrees (c.findMeta junkLen cmd).2 log := by
  unfold findMeta
  cases hcid : c.metaMap.lookup cmd.cid with
  | some p => exact ha
  | none =>
    have hmetas (q : Nat) : (c.metas ++ [XcacheMeta.new junkLen cmd])[q]? =
        if q = c.metas.length then some (XcacheMeta.new junkLen cmd) else c.metas[q]? := by
      rw [getElem?_append]
      split
      · rw [if_neg (by omega)]
      · split
        · simp [*]
        · rw [getElem?_eq_none (by simp; omega), getElem?_eq_none (by omega)]
    have hfresh : c.metas[c.metas.length]? = none := getElem?_eq_none le_rfl
    refine ⟨ha.slices, fun q m hq => ?_, fun q m hq => ?_, fun q m hq key contextId => ?_,
      fun q => ?_, fun cid hnone => ?_⟩
    · rw [hmetas] at hq
      rw [lookup_insert_eq]
      split at hq
      · rename_i heq
        cases hq
        exact (if_pos rfl).trans (congrArg some heq.symm)
      · have hfiled := ha.filed q m hq
        rw [if_neg, hfiled]
        intro heq
        rw [heq, hcid] at hfiled
        cases hfiled
    · rw [hmetas] at hq
      split at hq
      · cases hq
        rfl
      · exact ha.counted q m hq
    · rw [hmetas] at hq
      split at hq
      · rename_i heq
        cases hq
        refine iff_of_false (by simp [XcacheMeta.new]) fun hholds => ?_
        exact h.not_holds hfresh contextId (heq ▸ hholds.2)
      · exact ha.sliceMap q m hq key contextId
    · show c.memht.lookup q = _
      rw [hmetas, ha.data]
      split
      · rename_i heq
        rw [heq, hfresh]
        exact (ha.unknown cmd.cid hcid).symm
      · rfl
    · rw [lookup_insert_eq] at hnone
      split at hnone
      · cases hnone
      · exact ha.unknown cid hnone

theorem lastStored_concat (log : List (Bytes × Bytes)) (cid : Bytes) (data : Bytes) (cid' : Bytes) :
    lastStored (log ++ [(cid, data)]) cid' =
      if cid' = cid then some data else lastStored log cid' := by
  rw [lastStored, reverse_append, reverse_singleton, singleton_append, lookup_cons]
  by_cases h : cid' = cid
  · rw [if_pos h, beq_iff_eq.2 h]
  · rw [if_neg h, beq_eq_false_iff_ne.2 h, lastStored]

theorem Agrees.congr (ha : Agrees c log) (hmetas : c'.metas = c.metas)
    (hmetaMap : c'.metaMap = c.metaMap) (hmemht : c'.memht = c.memht)
    (hslices : ∀ contextId, c'.sliceMap.lookup contextId = c.sliceMap.lookup contextId) :
    Agrees c' log := by
  refine ⟨fun contextId slice => ?_, ?_, ?_, ?_, ?_, ?_⟩
  · rw [hslices]
    exact ha.slices contextId slice
  · rw [hmetas, hmetaMap]
    exact ha.filed
  · rw [hmetas]
    exact ha.counted
  · simp only [hmetas, Holds, hslices]
    exact ha.sliceMap
  · rw [hmetas, hmemht]
    exact ha.data
  · rw [hmetaMap]
    exact ha.unknown

theorem holds_stored (hslice : c.sliceMap.lookup cmd.contextId = some slice)
    (hnew : slice.metaMap.lookup cmd.cid = none) (m : XcacheMeta) (q : MetaPtr)
    (contextId : Int32) :
    (c.stored cmd slice p m).Holds q contextId ↔
      (q = p ∧ contextId = cmd.contextId) ∨ c.Holds q contextId := by
  simp only [Holds, lookup_stored_slice]
  by_cases hctx : contextId = cmd.contextId
  · subst hctx
    simp only [if_true, hslice, and_true]
    constructor
    · rintro ⟨slice', cid, hslice', hcid⟩
      obtain rfl := some_inj.1 hslice'
      rw [lookup_insert_eq] at hcid
      split at hcid
      · exact .inl (some_inj.1 hcid).symm
      · exact .inr ⟨slice, cid, rfl, hcid⟩
    · rintro (rfl | ⟨slice', cid, hslice', hcid⟩)
      · exact ⟨_, cmd.cid, rfl, by rw [lookup_insert_eq, if_pos rfl]⟩
      · obtain rfl := some_inj.1 hslice'
        refine ⟨_, cid, rfl, ?_⟩
        rw [lookup_insert_eq, if_neg, hcid]
        rintro rfl
        rw [hnew] at hcid
        cases hcid
  · simp only [hctx, if_false, and_false, false_or]

theorem agrees_stored (h : WellFormed c) (ha : Agrees c log) (hp : c.metas[p]? = some m)
    (hcid : m.cid = cmd.cid) (hslice : c.sliceMap.lookup cmd.contextId = some slice)
    (hnew : slice.metaMap.lookup cmd.cid = none) :
    Agrees (c.stored cmd slice p m) (log ++ [(cmd.cid, cmd.data)]) := by
  have hid : slice.contextId = cmd.contextId := ha.slices cmd.contextId slice hslice
  have hfiled : c.metaMap.lookup cmd.cid = some p := hcid ▸ ha.filed p m hp
  -- the slice files its metas by their CIDs, so it does not hold this one under another CID
  have hnot : ¬ c.Holds p cmd.contextId := by
    rintro ⟨slice', cid, hslice', hcid'⟩
    obtain rfl := some_inj.1 (hslice.symm.trans hslice')
    obtain rfl := h.cid_unique (h.held cmd.contextId slice cid p hslice hcid') hfiled
    rw [hnew] at hcid'
    cases hcid'
  have hkey : m.sliceMap.lookup cmd.contextId.toUInt32 = none := by
    rw [eq_none_iff_forall_ne_some]
    intro contextId hlook
    obtain ⟨hkey, hholds⟩ := (ha.sliceMap p m hp _ _).1 hlook
    exact hnot (toUInt32_inj.1 hkey ▸ hholds)
  refine ⟨fun contextId slice' hslice' => ?_, fun q m' hq => ?_, fun q m' hq => ?_,
    fun q m' hq key contextId => ?_, fun q => ?_, fun cid hnone => ?_⟩
  · rw [lookup_stored_slice] at hslice'
    split at hslice'
    · rename_i hctx
      cases hslice'
      exact hid.trans hctx.symm
    · exact ha.slices contextId slice' hslice'
  · show c.metaMap.lookup m'.cid = some q
    rw [metas_stored hp] at hq
    split at hq
    · rename_i heq
      cases hq
      exact heq ▸ ha.filed p m hp
    · exact ha.filed q m' hq
  · rw [metas_stored hp] at hq
    split at hq
    · cases hq
      show m.refCount + 1 = _
      rw [XcacheMeta.addedToSlice, hid,
        entries_insert_of_notMem (lookup_eq_none.1 hkey), length_cons,
        ha.counted p m hp]
      exact (UInt32.ofNat_add _ 1).symm
    · exact ha.counted q m' hq
  · rw [metas_stored hp] at hq
    rw [holds_stored hslice hnew]
    split at hq
    · rename_i heq
      cases hq
      show (m.sliceMap.insert slice.contextId.toUInt32 slice.contextId).lookup key = _ ↔ _
      rw [lookup_insert_eq, hid]
      by_cases hctx : key = cmd.contextId.toUInt32
      · rw [if_pos hctx, some_inj, hctx, toUInt32_inj]
        constructor
        · rintro rfl
          exact ⟨rfl, .inl ⟨heq, rfl⟩⟩
        · exact fun h => h.1
      · rw [if_neg hctx, ha.sliceMap p m hp, heq]
        refine and_congr_right fun hkey => (or_iff_right ?_).symm
        rintro ⟨-, rfl⟩
        exact hctx hkey
    · rename_i hne
      rw [ha.sliceMap q m' hq]
      simp [hne]
  · show (c.memht.insert p cmd.data).lookup q = _
    rw [lookup_insert_eq, metas_stored hp]
    by_cases heq : q = p
    · rw [if_pos heq, if_pos heq, bind_some, lastStored_concat, if_pos]
      exact hcid
    · rw [if_neg heq, if_neg heq, ha.data]
      cases hq : c.metas[q]? with
      | none => rfl
      | some m' =>
        rw [bind_some, bind_some, lastStored_concat, if_neg]
        intro hcid'
        have hfiled' := ha.filed q m' hq
        rw [hcid', hfiled, some_inj] at hfiled'
        exact heq hfiled'.symm
  · replace hnone : c.metaMap.lookup cid = none := hnone
    rw [lastStored_concat, if_neg, ha.unknown cid hnone]
    rintro rfl
    rw [hnone] at hfiled
    cases hfiled

theorem agrees_newSlice {k : Nat} (hk : Numbered c k) (ha : Agrees c log) :
    Agrees (c.newSlice cmd).2.2 log := by
  cases hlook : c.lookupSlice cmd with
  | some slice =>
    simp only [newSlice, hlook, isSome_some, if_true]
    exact ha
  | none =>
    obtain ⟨hmetas, hmetaMap, hmemht⟩ := newSlice_frame c cmd
    obtain ⟨-, hfresh⟩ := hk.fresh hlook
    have hholds (p : MetaPtr) (contextId : Int32) :
        (c.newSlice cmd).2.2.Holds p contextId ↔ c.Holds p contextId := by
      simp only [Holds, lookup_newSlice hlook]
      by_cases heq : contextId = c.lastContextId + 1
      · rw [if_pos heq, heq, hfresh]
        refine iff_of_false ?_ (by simp)
        rintro ⟨slice, cid, hslice, hcid⟩
        obtain rfl := some_inj.1 hslice
        cases hcid
      · rw [if_neg heq]
    refine ⟨fun contextId slice hslice => ?_, ?_, ?_, ?_, ?_, ?_⟩
    · rw [lookup_newSlice hlook] at hslice
      split at hslice
      · rename_i heq
        cases hslice
        exact heq.symm
      · exact ha.slices contextId slice hslice
    · rw [hmetas, hmetaMap]
      exact ha.filed
    · rw [hmetas]
      exact ha.counted
    · simp only [hmetas, hholds]
      exact ha.sliceMap
    · rw [hmetas, hmemht]
      exact ha.data
    · rw [hmetaMap]
      exact ha.unknown

/-! ### Runs -/

/-- The invariant of the runs. -/
structure Kept (c : XcacheController) (log : List (Bytes × Bytes)) : Prop where
  wellFormed : WellFormed c
  agrees : Agrees c log
  numbered : ∃ k, Numbered c k

theorem kept_init : Kept init [] := ⟨wellFormed_init, agrees_init, 0, numbered_init⟩

theorem Numbered.congr {k : Nat} (h : Numbered c k) (hlast : c'.lastContextId = c.lastContextId)
    (hslices : ∀ contextId,
      (c'.sliceMap.lookup contextId).isSome = (c.sliceMap.lookup contextId).isSome) :
    Numbered c' k :=
  ⟨h.le, hlast ▸ h.last, fun contextId => by rw [hslices, h.used]⟩

theorem lastContextId_findMeta (junkLen : UInt64) (c : XcacheController) (cmd : XcacheCommand) :
    (c.findMeta junkLen cmd).2.lastContextId = c.lastContextId := by
  unfold findMeta
  cases c.metaMap.lookup cmd.cid <;> rfl

/-- **A STORE that does not enter the loop succeeds or fails, and keeps the invariant.** -/
theorem kept_store (h : Kept c log) (hkind : r.cmd.cmd = .store) (hloop : c.entersLoop r = false) :
    ∃ ret c', c.store r.junkLen r.cmd = .ok (ret, c') ∧
      Kept c' (log ++ if 0 ≤ ret then [(r.cmd.cid, r.cmd.data)] else []) := by
  obtain ⟨p, c₁, m, hfind, hf⟩ := findMeta_eq h.wellFormed r.junkLen r.cmd
  have heq := store_eq_of_found hfind hf
  have hwf : WellFormed c₁ := hf.wellFormed h.wellFormed
  have ha : Agrees c₁ log := by
    have ha := agrees_findMeta h.wellFormed h.agrees r.junkLen r.cmd
    rwa [hfind] at ha
  have hlast : c₁.lastContextId = c.lastContextId := by
    have hlast := lastContextId_findMeta r.junkLen c r.cmd
    rwa [hfind] at hlast
  obtain ⟨k, hk⟩ := h.numbered
  have hk₁ : Numbered c₁ k := hk.congr hlast fun contextId => by rw [hf.sliceMap]
  cases hslice : c.sliceMap.lookup r.cmd.contextId with
  | none =>
    rw [hslice] at heq
    refine ⟨bad, c₁, heq, ?_⟩
    rw [if_neg (by decide), append_nil]
    exact ⟨hwf, ha, k, hk₁⟩
  | some slice =>
    rw [hslice] at heq
    rw [← hf.sliceMap] at hslice
    dsimp only at heq
    by_cases hheld : (slice.metaMap.lookup r.cmd.cid).isSome
    · rw [if_pos hheld] at heq
      have hsame := lookup_insert_self hslice
      refine ⟨bad, _, heq, ?_⟩
      rw [if_neg (by decide), append_nil]
      exact ⟨hwf.congr rfl rfl rfl hsame, ha.congr rfl rfl rfl hsame, k,
        hk₁.congr rfl fun contextId => congrArg Option.isSome (hsame contextId)⟩
    · have hnew : slice.metaMap.lookup r.cmd.cid = none := by simpa using hheld
      have hnew' : slice.metaMap.lookup m.cid = none := hf.cid ▸ hnew
      have hroom : slice.hasRoom m = true := by
        simpa [entersLoop, hkind, hfind, lookupSlice, hslice, hf.metas, hnew'] using hloop
      rw [if_neg hheld, if_pos hroom] at heq
      refine ⟨0, _, heq, ?_⟩
      rw [if_pos le_rfl]
      refine ⟨wellFormed_stored hwf hf.metas (by rw [hf.lookup, if_pos rfl]) hslice,
        agrees_stored hwf ha hf.metas hf.cid hslice hnew, k, hk₁.congr rfl fun contextId => ?_⟩
      rw [lookup_stored_slice]
      split
      · rename_i hctx
        rw [hctx, hslice]
        rfl
      · rfl

/-- **A command that does not enter the loop keeps the invariant.** -/
theorem kept_observe (h : Kept c log) (hloop : c.entersLoop r = false) :
    ∃ c' w, observe c r = .ok (c', w) ∧ Kept c' (log ++ w) := by
  unfold observe handleCmd
  cases hkind : r.cmd.cmd with
  | store =>
    obtain ⟨ret, c', hs, hkept⟩ := kept_store h hkind hloop
    refine ⟨c', _, ?_, hkept⟩
    simp only [hs, Result.ok_bind, true_and]
    rfl
  | newslice =>
    obtain ⟨k, hk⟩ := h.numbered
    refine ⟨(c.newSlice r.cmd).2.2, [], rfl, ?_⟩
    rw [append_nil]
    refine ⟨wellFormed_newSlice h.wellFormed r.cmd, agrees_newSlice hk h.agrees, ?_⟩
    cases hlook : c.lookupSlice r.cmd with
    | some slice =>
      simp only [newSlice, hlook, isSome_some, if_true]
      exact ⟨k, hk⟩
    | none => exact ⟨k + 1, numbered_newSlice hk hlook⟩
  | status =>
    refine ⟨c, [], ?_, by rwa [append_nil]⟩
    simp only [status_eq h.wellFormed fun p => mem_heldMetas, Result.ok_bind]
    rfl
  | _ => exact ⟨c, [], rfl, by rwa [append_nil]⟩

theorem kept_run {rs : List Request} (h : Kept c log)
    (hloop : Machine.AllTries observe (fun c r => c.entersLoop r = false) c rs) :
    ∃ c' w, Machine.run observe c rs = .ok (c', w) ∧ Kept c' (log ++ w) := by
  induction rs generalizing c log with
  | nil => exact ⟨c, [], rfl, by rwa [append_nil]⟩
  | cons r rs ih =>
    obtain ⟨c₁, w₁, hs, hkept⟩ := kept_observe h hloop.1
    obtain ⟨c', w₂, hrun, hkept'⟩ := ih hkept (hloop.2 c₁ w₁ hs)
    refine ⟨c', w₁ ++ w₂, Machine.run_cons_eq_ok.2 ⟨c₁, w₁, w₂, hs, hrun, rfl⟩, ?_⟩
    rwa [← append_assoc]

theorem length_holders_le : (c.holders p).length ≤ c.sliceMap.entries.length := by
  rw [holders, length_map]
  exact length_filter_le _ _

theorem nodup_holders : (c.holders p).Nodup :=
  c.sliceMap.keys_nodup.sublist (filter_sublist.map Sigma.fst)

theorem Agrees.length_eq (ha : Agrees c log) (hp : c.metas[p]? = some m) :
    m.sliceMap.entries.length = (c.holders p).length := by
  have hkeys : m.sliceMap.keys.Perm ((c.holders p).map Int32.toUInt32) := by
    rw [perm_ext_iff_of_nodup m.sliceMap.keys_nodup
      (nodup_holders.map fun a b h => toUInt32_inj.1 h)]
    intro key
    simp only [mem_keys_iff, ha.sliceMap p m hp, List.mem_map, mem_holders]
    exact exists_congr fun contextId => ⟨fun h => ⟨h.2, h.1.symm⟩, fun h => ⟨h.2.symm, h.1⟩⟩
  have hlength := hkeys.length_eq
  rwa [length_map, AList.keys, List.keys, length_map] at hlength

theorem Kept.bookkeeping (h : Kept c log) : Bookkeeping c log := by
  have ha := h.agrees
  refine ⟨ha.slices, fun cid p => ⟨h.wellFormed.filed cid p, ?_⟩,
    fun contextId slice cid p hslice hp => h.wellFormed.filed cid p
      (h.wellFormed.held contextId slice cid p hslice hp),
    fun p m hp => ?_, fun p m hp key contextId => ?_, fun p m hp hne => ?_⟩
  · rintro ⟨m, hm, rfl⟩
    exact ha.filed p m hm
  · rw [ha.counted p m hp, ha.length_eq hp]
    refine ⟨rfl, fun hlt => ?_⟩
    exact UInt32.toNat_ofNat_of_lt' (lt_of_le_of_lt length_holders_le hlt)
  · rw [ha.sliceMap p m hp, mem_holders]
  · obtain ⟨contextId, hmem⟩ := exists_mem_of_ne_nil _ hne
    obtain ⟨slice, cid, hslice, hcid⟩ := (mem_holders contextId).1 hmem
    obtain ⟨m', data, hm', hstore, hdata⟩ := h.wellFormed.stored contextId slice cid p hslice hcid
    obtain rfl := some_inj.1 (hp.symm.trans hm')
    refine ⟨by simp [hstore], data, ?_, metaGet_eq hp hstore hdata⟩
    have hlog := ha.data p
    rw [hdata, hp] at hlog
    exact hlog.symm

/-- **The maps of the controller agree after every run of commands that does not enter the loop of
`makeRoom`.** -/
theorem bookkeeping_run (rs : List Request)
    (hloop : Machine.AllTries observe (fun c r => c.entersLoop r = false) init rs) :
    ∃ c log, Machine.run observe init rs = .ok (c, log) ∧ Bookkeeping c log := by
  obtain ⟨c, log, hrun, hkept⟩ := kept_run kept_init hloop
  exact ⟨c, log, hrun, hkept.bookkeeping⟩

/-- Two slices, and an object that is stored in both of them and once more in the first. -/
def shared : List Request :=
  [⟨0, newSliceCmd 10⟩, ⟨0, newSliceCmd 10⟩, ⟨0, storeCmd 1 [1]⟩, ⟨0, storeCmd 2 [2]⟩,
    ⟨0, storeCmd 1 [3]⟩]

theorem bookkeeping_shared :
    ∃ c log, Machine.run observe init shared = .ok (c, log) ∧ Bookkeeping c log :=
  bookkeeping_run shared (by decide)

end XcacheController

end Xcache

end Xia
