import Xia.Xcache.Equiv.Controller

/-!
# The size of the slices

A slice should hold at most `maxSize` bytes, take every object that is not larger and make room by
removing its oldest objects.  The code compares `maxSize` with a length that is never set, does not
count what it stores and has no object to evict.

`Keeps c r` is the promise for one command and `Suits c r` the condition under which it is kept;
`keepsCapacity_iff` says that a run keeps the promise exactly if all its commands suit.
-/

namespace Xia

open List Option AList

namespace Xcache

namespace XcacheController

variable {junkLen : UInt64} {c c₁ c' : XcacheController} {cmd : XcacheCommand} {p : MetaPtr}
  {m : XcacheMeta} {slice slice' : XcacheSlice} {r : Request}

/-! ### The promise and the condition -/

def sizeOf (c : XcacheController) (entries : List (Sigma fun _ : Bytes => MetaPtr)) : Nat :=
  (entries.map fun e => (c.dataAt e.2).length).sum

def heldSize (c : XcacheController) (slice : XcacheSlice) : Nat := c.sizeOf slice.metaMap.entries

/-- The same without the object of one CID. -/
def othersSize (c : XcacheController) (slice : XcacheSlice) (cid : Bytes) : Nat :=
  c.sizeOf (slice.metaMap.entries.filter fun e => e.1 ≠ cid)

/-- No slice holds more than its `maxSize`. -/
def Fits (c : XcacheController) : Prop :=
  ∀ contextId slice, c.sliceMap.lookup contextId = some slice →
    c.heldSize slice ≤ slice.maxSize.toNat

/-- The objects that are left of a slice are those stored last.  The newest entry of a table is its
first. -/
def EvictsOldest (slice slice' : XcacheSlice) : Prop :=
  ∃ k, slice.metaMap.entries.filter (fun e => (slice'.metaMap.lookup e.1).isSome) =
    slice.metaMap.entries.take k

/-- The promise: an object that is not larger than the slice is stored, and the command ends in a
state in which every slice fits and has lost its oldest objects at most. -/
structure Keeps (c : XcacheController) (r : Request) : Prop where
  succeeds : r.cmd.cmd = .store → ∀ slice, c.lookupSlice r.cmd = some slice →
    r.cmd.data.length ≤ slice.maxSize.toNat →
      ∃ ret c', c.store r.junkLen r.cmd = .ok (ret, c') ∧ 0 ≤ ret
  returns : ∃ c' out, step c r = .ok (c', out) ∧ Fits c' ∧ ∀ contextId slice slice',
    c.sliceMap.lookup contextId = some slice → c'.sliceMap.lookup contextId = some slice' →
      EvictsOldest slice slice'

/-- The data fits into every slice that holds the CID or is to hold it, next to the other data. -/
def HasSpace (c : XcacheController) (cmd : XcacheCommand) : Prop :=
  ∀ contextId slice, c.sliceMap.lookup contextId = some slice →
    (contextId = cmd.contextId ∨ (slice.metaMap.lookup cmd.cid).isSome) →
      c.othersSize slice cmd.cid + cmd.data.length ≤ slice.maxSize.toNat

/-- The condition on a STORE into a slice that exists: the slice does not hold the CID, the length
found in the meta does not exceed its size, and there is space.  Of an object that is larger than
the slice nothing is promised, but only one that the slice holds is turned away. -/
def Suits (c : XcacheController) (r : Request) : Prop :=
  r.cmd.cmd = .store → ∀ slice, c.lookupSlice r.cmd = some slice →
    if (slice.metaMap.lookup r.cmd.cid).isSome then slice.maxSize.toNat < r.cmd.data.length
    else c.lenOf r.junkLen r.cmd.cid ≤ slice.maxSize ∧ c.HasSpace r.cmd

theorem Keeps.fits {out : List Response} (h : Keeps c r) (hs : step c r = .ok (c', out)) :
    Fits c' := by
  obtain ⟨c'', out', hs', hfits, -⟩ := h.returns
  cases hs'.symm.trans hs
  exact hfits

/-! ### Sizes after a STORE -/

theorem sum_replace {entries : List (Sigma fun _ : Bytes => MetaPtr)} (hnodup : entries.NodupKeys)
    (cid : Bytes) (n : Nat) (f : MetaPtr → Nat) :
    (entries.map fun e => if e.1 = cid then n else f e.2).sum =
      (if cid ∈ entries.keys then n else 0) +
        ((entries.filter fun e => e.1 ≠ cid).map fun e => f e.2).sum := by
  induction entries with
  | nil => simp
  | cons e entries ih =>
    obtain ⟨hnot, hnodup⟩ := nodupKeys_cons.1 hnodup
    rw [map_cons, sum_cons, ih hnodup]
    by_cases heq : e.1 = cid
    · subst heq
      simp [hnot]
    · have hne : ¬ cid = e.1 := fun h => heq h.symm
      simp [heq, hne]
      omega

theorem Found.ptr_eq_iff (hf : Found junkLen c cmd p c₁ m) (h : WellFormed c) {contextId : Int32}
    (hslice : c.sliceMap.lookup contextId = some slice) {e : Sigma fun _ : Bytes => MetaPtr}
    (he : e ∈ slice.metaMap.entries) : e.2 = p ↔ e.1 = cmd.cid := by
  have hfiled := h.held contextId slice e.1 e.2 hslice (mem_lookup_iff.2 he)
  constructor
  · intro hp
    exact hf.unique e.1 (hp ▸ hfiled)
  · intro hcid
    exact hf.known e.2 (hcid ▸ hfiled)

theorem sizeOf_stored (slice : XcacheSlice) (h : WellFormed c) (hf : Found junkLen c cmd p c₁ m)
    {contextId : Int32} {other : XcacheSlice} (hslice : c.sliceMap.lookup contextId = some other) :
    (c₁.stored cmd slice p m).sizeOf other.metaMap.entries =
      (if (other.metaMap.lookup cmd.cid).isSome then cmd.data.length else 0) +
        c.othersSize other cmd.cid := by
  have hentry : other.metaMap.entries.map (fun e =>
        ((c₁.stored cmd slice p m).dataAt e.2).length) =
      other.metaMap.entries.map fun e =>
        if e.1 = cmd.cid then cmd.data.length else (c.dataAt e.2).length := by
    refine map_congr_left fun e he => ?_
    rw [dataAt_stored, if_congr (hf.ptr_eq_iff h hslice he) rfl rfl]
    split
    · rfl
    · rw [dataAt, hf.memht, dataAt]
  rw [sizeOf, hentry, sum_replace other.metaMap.nodupKeys cmd.cid cmd.data.length
    fun q => (c.dataAt q).length, othersSize, sizeOf]
  congr 1
  exact if_congr (AList.mem_keys.symm.trans lookup_isSome.symm) rfl rfl

theorem heldSize_stored_own (h : WellFormed c) (hf : Found junkLen c cmd p c₁ m)
    (hslice : c.sliceMap.lookup cmd.contextId = some slice)
    (hnew : slice.metaMap.lookup cmd.cid = none) :
    (c₁.stored cmd slice p m).heldSize { slice with metaMap := slice.metaMap.insert cmd.cid p } =
      c.othersSize slice cmd.cid + cmd.data.length := by
  have hnot : cmd.cid ∉ slice.metaMap := lookup_eq_none.1 hnew
  have hrest := sizeOf_stored slice h hf hslice
  rw [hnew] at hrest
  rw [heldSize, sizeOf, entries_insert_of_notMem hnot, map_cons, sum_cons,
    dataAt_stored, if_pos rfl, ← sizeOf, hrest]
  simp only [isSome_none, Bool.false_eq_true, if_false]
  omega

/-- **After a STORE all slices fit exactly if there was space.** -/
theorem fits_stored_iff (h : WellFormed c) (hfits : Fits c) (hf : Found junkLen c cmd p c₁ m)
    (hslice : c.sliceMap.lookup cmd.contextId = some slice)
    (hnew : slice.metaMap.lookup cmd.cid = none) :
    Fits (c₁.stored cmd slice p m) ↔ c.HasSpace cmd := by
  have hown := heldSize_stored_own h hf hslice hnew
  have hother : ∀ contextId, contextId ≠ cmd.contextId →
      (c₁.stored cmd slice p m).sliceMap.lookup contextId = c.sliceMap.lookup contextId := by
    intro contextId hne
    rw [lookup_stored_slice, if_neg hne, hf.sliceMap]
  constructor
  · intro hfits' contextId other hlook hcase
    by_cases heq : contextId = cmd.contextId
    · obtain rfl : slice = other := by
        rw [heq, hslice] at hlook
        exact some_inj.1 hlook
      have hle := hfits' cmd.contextId _ (by rw [lookup_stored_slice, if_pos rfl])
      rwa [hown] at hle
    · have hle := hfits' contextId other (by rw [hother contextId heq, hlook])
      have hheld := hcase.resolve_left heq
      rw [heldSize, sizeOf_stored slice h hf hlook, if_pos hheld] at hle
      omega
  · intro hspace contextId slice' hlook
    by_cases heq : contextId = cmd.contextId
    · rw [lookup_stored_slice, if_pos heq, some_inj] at hlook
      rw [← hlook, hown]
      exact hspace cmd.contextId slice hslice (.inl rfl)
    · rw [hother contextId heq] at hlook
      rw [heldSize, sizeOf_stored slice h hf hlook]
      split
      · rename_i hheld
        have hle := hspace contextId slice' hlook (.inr hheld)
        omega
      -- a slice without the CID keeps its size
      · have hle : c.othersSize slice' cmd.cid ≤ c.heldSize slice' :=
          List.Sublist.sum_le_sum (filter_sublist.map _) fun _ _ => Nat.zero_le _
        have := hfits contextId slice' hlook
        omega

/-! ### Steps -/

theorem Fits.congr (h : Fits c) (hmemht : c'.memht = c.memht)
    (hslices : ∀ contextId, c'.sliceMap.lookup contextId = c.sliceMap.lookup contextId) :
    Fits c' := by
  intro contextId slice hlook
  rw [hslices] at hlook
  have hle := h contextId slice hlook
  simp only [heldSize, sizeOf, dataAt, hmemht]
  exact hle

theorem fits_newSlice (h : Fits c) (cmd : XcacheCommand) : Fits (c.newSlice cmd).2.2 := by
  intro contextId slice hlook
  rcases slice_of_newSlice hlook with ⟨hempty, -⟩ | hold
  · rw [heldSize, hempty]
    exact Nat.zero_le _
  · have hle := h contextId slice hold
    simp only [heldSize, sizeOf, dataAt, (newSlice_frame c cmd).2.2]
    exact hle

theorem evictsOldest_of_kept (h : ∀ e ∈ slice.metaMap.entries, (slice'.metaMap.lookup e.1).isSome) :
    EvictsOldest slice slice' :=
  ⟨slice.metaMap.entries.length, by rw [filter_eq_self.2 h, take_length]⟩

theorem evictsOldest_refl (slice : XcacheSlice) : EvictsOldest slice slice :=
  evictsOldest_of_kept fun _ he =>
    lookup_isSome.2 (AList.mem_keys.2 (List.mem_map_of_mem he))

theorem evictsOldest_step {out : List Response} {contextId : Int32} (h : WellFormed c)
    (hs : step c r = .ok (c', out)) (hlook : c.sliceMap.lookup contextId = some slice)
    (hlook' : c'.sliceMap.lookup contextId = some slice') : EvictsOldest slice slice' := by
  have hsame : c.sliceMap.lookup contextId = some slice' → EvictsOldest slice slice' := by
    intro hlook''
    obtain rfl : slice = slice' := some_inj.1 (hlook.symm.trans hlook'')
    exact evictsOldest_refl slice
  rcases step_eq_ok h hs with ⟨-, ret, hstore⟩ | ⟨-, rfl⟩ | ⟨-, -, rfl⟩
  · rcases slice_of_store h hstore hlook' with hlook'' | ⟨old, p, hold, rfl⟩
    · exact hsame hlook''
    · obtain rfl : slice = old := some_inj.1 (hlook.symm.trans hold)
      refine evictsOldest_of_kept fun e he => lookup_isSome.2 ?_
      exact mem_insert _ |>.2 (.inr (AList.mem_keys.2 (List.mem_map_of_mem he)))
  · rcases slice_of_newSlice hlook' with ⟨hempty, -⟩ | hlook''
    · exact ⟨0, by simp [hempty]⟩
    · exact hsame hlook''
  · exact hsame hlook'

/-- `hasRoom` compares the length found in the meta with the size of the slice. -/
theorem Found.hasRoom_iff (hf : Found junkLen c cmd p c₁ m) (h : WellFormed c)
    (hslice : c.sliceMap.lookup cmd.contextId = some slice) :
    slice.hasRoom m = true ↔ c.lenOf junkLen cmd.cid ≤ slice.maxSize := by
  rw [XcacheSlice.hasRoom, h.currentSize _ _ hslice, hf.len, decide_eq_true_iff]
  simp

theorem keeps_of_ne_store (h : WellFormed c) (hfits : Fits c) (hkind : r.cmd.cmd ≠ .store) :
    Keeps c r := by
  obtain ⟨c', out, hs⟩ := exists_step_of_ne_store h hkind
  refine ⟨fun hstore => absurd hstore hkind, c', out, hs, ?_, fun _ _ _ => evictsOldest_step h hs⟩
  rcases step_eq_ok h hs with ⟨hstore, -⟩ | ⟨-, rfl⟩ | ⟨-, -, rfl⟩
  · exact absurd hstore hkind
  · exact fits_newSlice hfits r.cmd
  · exact hfits

theorem keeps_store_iff (h : WellFormed c) (hkind : r.cmd.cmd = .store) : Keeps c r ↔
      (∀ slice, c.lookupSlice r.cmd = some slice → r.cmd.data.length ≤ slice.maxSize.toNat →
          ∃ ret c', c.store r.junkLen r.cmd = .ok (ret, c') ∧ 0 ≤ ret) ∧
      ∃ ret c', c.store r.junkLen r.cmd = .ok (ret, c') ∧ Fits c' := by
  constructor
  · rintro ⟨hsucc, c', out, hs, hfits, -⟩
    rcases step_eq_ok h hs with ⟨-, ret, hstore⟩ | ⟨hne, -⟩ | ⟨hne, -, -⟩
    · exact ⟨hsucc hkind, ret, c', hstore, hfits⟩
    · rw [hkind] at hne
      cases hne
    · exact absurd hkind hne
  · rintro ⟨hsucc, ret, c', hstore, hfits⟩
    obtain ⟨out, hs⟩ := step_of_store hkind hstore
    exact ⟨fun _ => hsucc, c', out, hs, hfits, fun _ _ _ => evictsOldest_step h hs⟩

/-- **The promise is kept for one command exactly if the command suits.** -/
theorem keeps_iff_suits (h : WellFormed c) (hfits : Fits c) : Keeps c r ↔ Suits c r := by
  by_cases hkind : r.cmd.cmd = .store
  · rw [keeps_store_iff h hkind, Suits, lookupSlice]
    obtain ⟨p, c₁, m, hf, heq⟩ := store_eq h r.junkLen r.cmd
    rw [heq]
    cases hslice : c.sliceMap.lookup r.cmd.contextId with
    | none =>
      refine iff_of_true ⟨fun _ hlook => (by cases hlook), bad, c₁, rfl, ?_⟩
        fun _ _ hlook => (by cases hlook)
      exact hfits.congr hf.memht fun _ => by rw [hf.sliceMap]
    | some slice =>
      simp only [hkind, forall_const, Option.some.injEq, forall_eq', hf.hasRoom_iff h hslice]
      split_ifs with hheld hroom
      -- the slice holds the CID: nothing is stored
      · have hsame : Fits { c₁ with sliceMap := c₁.sliceMap.insert r.cmd.contextId slice } := by
          refine hfits.congr hf.memht fun contextId => ?_
          rw [hf.sliceMap]
          exact HashTable.lookup_insert_self hslice contextId
        simp [hsame, bad]
      · have hnew : slice.metaMap.lookup r.cmd.cid = none := by simpa using hheld
        simp [fits_stored_iff h hfits hf hslice hnew, hroom]
      · simp [hroom]
  · exact iff_of_true (keeps_of_ne_store h hfits hkind) fun hstore => absurd hstore hkind

/-! ### Runs -/

/-- **A run keeps the promise at every command exactly if all its commands suit.** -/
theorem keepsCapacity_iff (rs : List Request) :
    Machine.AllTries step Keeps init rs ↔ Machine.AllTries step Suits init rs := by
  refine Machine.allTries_iff (I := fun c => WellFormed c ∧ Fits c) ?_ ?_ ⟨wellFormed_init, ?_⟩
  · rintro c r ⟨h, hfits⟩
    exact keeps_iff_suits h hfits
  · rintro c r c' out ⟨h, hfits⟩ hsuits hs
    exact ⟨wellFormed_step h hs, ((keeps_iff_suits h hfits).2 hsuits).fits hs⟩
  · rintro contextId slice ⟨⟩

def storeSix (cid : UInt8) : XcacheCommand := ⟨.store, 1, [cid], [1, 2, 3, 4, 5, 6], 0⟩

/-- A slice of ten bytes, and two objects of six. -/
def overfill : List Request :=
  [⟨0, ⟨.newslice, 0, [], [], 10⟩⟩, ⟨0, storeSix 65⟩, ⟨0, storeSix 66⟩]

/-- The slice of ten bytes takes twelve, and nothing is evicted. -/
theorem not_keepsCapacity_overfill : ¬ Machine.AllTries step Keeps init overfill := by
  obtain ⟨c₃, o, hrun, slice, hslice, hmax, hheld⟩ : ∃ c₃ o,
      Machine.run step init overfill = .ok (c₃, o) ∧ ∃ slice,
        c₃.sliceMap.lookup 1 = some slice ∧ slice.maxSize.toNat = 10 ∧ c₃.heldSize slice = 12 := by
    decide
  obtain ⟨c₁, o₁, _, hs₁, hrun, -⟩ := Machine.run_cons_eq_ok.1 hrun
  obtain ⟨c₂, o₂, _, hs₂, hrun, -⟩ := Machine.run_cons_eq_ok.1 hrun
  obtain ⟨c₃', o₃, _, hs₃, hrun, -⟩ := Machine.run_cons_eq_ok.1 hrun
  cases hrun
  intro hkeeps
  have hfits := ((hkeeps.2 c₁ o₁ hs₁).2 c₂ o₂ hs₂).1.fits hs₃ 1 slice hslice
  rw [hmax, hheld] at hfits
  omega

end XcacheController

end Xcache

end Xia
