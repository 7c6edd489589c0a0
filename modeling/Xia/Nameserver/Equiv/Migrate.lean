import Xia.Dagaddr.Equiv.Total
import Xia.Nameserver.Migrate

/-!
# Hosts that move

`migrate` replaces the record of the host if it finds an AD with an edge to a HID in the new address
and in the old one (`Updates`).  It reads all other records as well, but leaves them as they are: so
the names that lead to the host through its old AD still do.  `migrates_iff` says exactly when the
table is as it should be.

In a graph `migrate` finds the last AD and the last HID, by the numbers of `get_node`
(`exists_findPair`).
-/

namespace Xia

open List hiding Vector
open AList Result

namespace Nameserver

open Dagaddr Dagaddr.Graph

variable {libc : Libc} {g : Graph} {p q : Node → Bool} {k m : Nat} {n n' : Node} {idx : Int}
  {o : Option Node} {f : Found}

/-! ### Numbers -/

/-- `get_node` finds a node for every number. -/
def Numbered (g : Graph) : Prop := ∀ k < g.numNodes, ∃ n, g.getNode k = .ok n

theorem exists_lastIndex {b : Nat → Bool} (h : ∃ i < m, b i = true) :
    ∃ i < m, Graph.lastIndex m b = some i := by
  have hsome : (Graph.lastIndex m b).isSome = true := by
    simpa [Graph.lastIndex, find?_isSome] using h
  obtain ⟨i, hi⟩ := Option.isSome_iff_exists.1 hsome
  exact ⟨i, by simpa using mem_of_find?_eq_some hi, hi⟩

theorem numNodes_lt (hne : g.nodes ≠ []) : g.numNodes < g.nodes.length := by
  have hpos := length_pos_iff.2 hne
  unfold Graph.numNodes
  omega

theorem indexFromDagStringIndex_lt {source sink : Nat} (hsource : source < g.nodes.length)
    (hsink : sink < g.nodes.length) (hk : k < g.numNodes) :
    g.indexFromDagStringIndex k source sink < g.nodes.length := by
  have hlt : g.numNodes < g.nodes.length := numNodes_lt (length_pos_iff.1 (by omega))
  have hbyte : g.numNodes < 256 := Nat.mod_lt _ (by omega)
  have hreal : ((k : Int) % 2 ^ 64).toNat = k := by omega
  unfold Graph.indexFromDagStringIndex
  rw [if_neg (by omega)]
  split
  · exact hsink
  · dsimp only
    rw [hreal]
    unfold Graph.sizeSucc
    split_ifs <;> omega

theorem numbered_of_acyclic (hg : g.WellFormed) (hne : g.nodes ≠ []) (h : g.Acyclic) :
    Numbered g := by
  obtain ⟨source, hsource, hsrc⟩ := exists_lastIndex (h.exists_source hg hne)
  obtain ⟨sink, hsink, hsnk⟩ := exists_lastIndex (h.exists_sink hg hne)
  intro k hk
  refine ⟨_, inBounds_eq_ok.2 (getElem?_eq_getElem ?_)⟩
  rw [Graph.srcIndex, Graph.sinkIndex, hsrc, hsnk]
  exact indexFromDagStringIndex_lt hsource hsink hk

theorem ne_nil_of_getNode (h : g.getNode k = .ok n) : g.nodes ≠ [] := by
  intro hnil
  simp [Graph.getNode, hnil, inBounds] at h

theorem exists_getOutEdges (hg : g.WellFormed) (h : g.getNode k = .ok n) :
    ∃ out, g.getOutEdges k = .ok out := by
  have hlt := (List.getElem?_eq_some_iff.1 (inBounds_eq_ok.1 h)).1
  rw [← hg.out_length] at hlt
  unfold Graph.getOutEdges
  rw [if_neg (by omega)]
  dsimp only
  rw [getElem?_eq_getElem hlt]
  exact ⟨_, rfl⟩

/-! ### The loops -/

/-- Below `m`, the node `n` with the number `k` is the last one with the property. -/
structure LastBelow (g : Graph) (p : Node → Bool) (m k : Nat) (n : Node) : Prop where
  lt : k < m
  node : g.getNode k = .ok n
  holds : p n = true
  last : ∀ j n', k < j → j < m → g.getNode j = .ok n' → p n' = false

instance : Decidable (LastBelow g p m k n) :=
  decidable_of_iff (k < m ∧ g.getNode k = .ok n ∧ p n = true ∧
      ∀ j < m, k < j → ∀ n', g.getNode j = .ok n' → p n' = false)
    ⟨fun h => ⟨h.1, h.2.1, h.2.2.1, fun j n' hk hj => h.2.2.2 j hj hk n'⟩,
      fun h => ⟨h.lt, h.node, h.holds, fun j hj hk n' => h.last j n' hk hj⟩⟩

theorem LastBelow.unique {k' : Nat} (h : LastBelow g p m k n) (h' : LastBelow g p m k' n') :
    k = k' ∧ n = n' := by
  have hle {a b : Nat} {x y : Node} (ha : LastBelow g p m a x) (hb : LastBelow g p m b y) :
      b ≤ a := by
    by_contra hlt
    have hfalse := ha.last b y (Nat.not_le.1 hlt) hb.lt hb.node
    rw [hb.holds] at hfalse
    cases hfalse
  obtain rfl : k = k' := le_antisymm (hle h' h) (hle h h')
  refine ⟨rfl, ?_⟩
  have hnode := h.node.symm.trans h'.node
  cases hnode
  rfl

/-- An index and a pointer, for the last node below `m` with the property. -/
def Tracks (g : Graph) (p : Node → Bool) (m : Nat) (idx : Int) (o : Option Node) : Prop :=
  (idx = -1 ∧ o = none ∧ ∀ j n, j < m → g.getNode j = .ok n → p n = false) ∨
    ∃ (k : Nat) (n : Node), idx = k ∧ o = some n ∧ LastBelow g p m k n

theorem Tracks.eq_of_last (h : Tracks g p m idx o) (hk : LastBelow g p m k n) : idx = k := by
  rcases h with ⟨-, -, hnone⟩ | ⟨k', n', rfl, -, hk'⟩
  · have hfalse := hnone k n hk.lt hk.node
    rw [hk.holds] at hfalse
    cases hfalse
  · rw [(hk.unique hk').1]

theorem Tracks.keep (h : Tracks g p m idx o) (hn : g.getNode m = .ok n) (hp : p n = false) :
    Tracks g p (m + 1) idx o := by
  have hnew {j : Nat} {x : Node} (hj : j = m) (hx : g.getNode j = .ok x) : p x = false := by
    rw [hj, hn] at hx
    cases hx
    exact hp
  rcases h with ⟨rfl, rfl, hnone⟩ | ⟨k, x, rfl, rfl, hlast⟩
  · refine .inl ⟨rfl, rfl, fun j x hj hx => ?_⟩
    rcases Nat.lt_succ_iff_lt_or_eq.1 hj with hj | hj
    · exact hnone j x hj hx
    · exact hnew hj hx
  · refine .inr ⟨k, x, rfl, rfl, hlast.lt.trans (Nat.lt_succ_self m), hlast.node, hlast.holds, ?_⟩
    intro j y hkj hj hy
    rcases Nat.lt_succ_iff_lt_or_eq.1 hj with hj | hj
    · exact hlast.last j y hkj hj hy
    · exact hnew hj hy

theorem tracks_succ (hn : g.getNode m = .ok n) (hp : p n = true) : Tracks g p (m + 1) m (some n) :=
  .inr ⟨m, n, rfl, rfl, Nat.lt_succ_self m, hn, hp, fun _ _ h₁ h₂ => by omega⟩

/-- A node that is looked for, but not as the AD. -/
def others (p q : Node → Bool) (n : Node) : Bool := !p n && q n

/-- **The loops find the last AD and the last HID.** -/
theorem exists_foldlM_step (h : ∀ k < m, ∃ n, g.getNode k = .ok n) :
    ∃ f, (List.range m).foldlM (Found.step g p q) Found.init = .ok f ∧
      Tracks g p m f.adIndex f.ad ∧ Tracks g (others p q) m f.hidIndex f.hid := by
  induction m with
  | zero =>
    refine ⟨Found.init, rfl, ?_, ?_⟩ <;>
    exact .inl ⟨rfl, rfl, fun j n hj => absurd hj (Nat.not_lt_zero j)⟩
  | succ m ih =>
    obtain ⟨f, hf, had, hhid⟩ := ih fun k hk => h k (hk.trans (Nat.lt_succ_self m))
    obtain ⟨n, hn⟩ := h m (Nat.lt_succ_self m)
    rw [foldlM_range_succ, hf, ok_bind, Found.step, hn, ok_bind]
    refine ⟨_, rfl, ?_⟩
    by_cases hp : p n = true
    · rw [if_pos hp]
      exact ⟨tracks_succ hn hp, hhid.keep hn (by simp [others, hp])⟩
    · rw [if_neg hp]
      have hp' : p n = false := by simpa using hp
      by_cases hq : q n = true
      · rw [if_pos hq]
        exact ⟨had.keep hn hp', tracks_succ hn (by simp [others, hp', hq])⟩
      · rw [if_neg hq]
        exact ⟨had.keep hn hp', hhid.keep hn (by simp [others, hq])⟩

theorem numbered_of_foldlM (h : (List.range m).foldlM (Found.step g p q) Found.init = .ok f) :
    ∀ k < m, ∃ n, g.getNode k = .ok n := by
  induction m generalizing f with
  | zero => exact fun k hk => absurd hk (Nat.not_lt_zero k)
  | succ m ih =>
    simp only [foldlM_range_succ, Found.step, bind_eq_ok] at h
    obtain ⟨f', hf', n, hn, -⟩ := h
    intro k hk
    rcases Nat.lt_succ_iff_lt_or_eq.1 hk with hk | rfl
    · exact ih hf' k hk
    · exact ⟨n, hn⟩

/-! ### An AD with an edge to a HID -/

/-- By the numbers of `get_node`, the last node `x` with the first property has an edge to the last
node `y` with the second one. -/
def Joined (g : Graph) (p q : Node → Bool) (x y : Node) : Prop :=
  ∃ a b : Nat, LastBelow g p g.numNodes a x ∧ LastBelow g q g.numNodes b y ∧
    checkPair g a b = .ok true

theorem exists_checkPair (hg : g.WellFormed) (h : Tracks g p m idx o) (hid : Int) :
    ∃ b, checkPair g idx hid = .ok b := by
  unfold checkPair
  split
  · rename_i hidx
    rcases h with ⟨rfl, -⟩ | ⟨k, n, rfl, -, hlast⟩
    · omega
    · obtain ⟨out, hout⟩ := exists_getOutEdges hg hlast.node
      rw [hout]
      exact ⟨_, rfl⟩
  · exact ⟨false, rfl⟩

theorem checkPair_eq_true {ad hid : Int} (h : checkPair g ad hid = .ok true) :
    0 ≤ ad ∧ 0 ≤ hid := by
  unfold checkPair at h
  split at h
  · assumption
  · cases h

/-- **What `migrate` finds in a graph.** -/
theorem exists_findPair (hg : g.WellFormed) (h : Numbered g) (p q : Node → Bool) :
    ∃ f b, findPair g p q = .ok f ∧ checkPair g f.adIndex f.hidIndex = .ok b ∧
      (b = true ∧ f.adIndex < g.nodes.length ∧
          (∃ x y, f.ad = some x ∧ f.hid = some y ∧ Joined g p (others p q) x y) ∨
        b = false ∧ ∀ x y, ¬ Joined g p (others p q) x y) := by
  obtain ⟨f, hf, had, hhid⟩ := exists_foldlM_step h
  obtain ⟨b, hb⟩ := exists_checkPair hg had f.hidIndex
  refine ⟨f, b, hf, hb, ?_⟩
  cases b with
  | true =>
    obtain ⟨had₀, hhid₀⟩ := checkPair_eq_true hb
    rcases had with ⟨hneg, -⟩ | ⟨a, x, ha, hx, hax⟩
    · omega
    rcases hhid with ⟨hneg, -⟩ | ⟨c, y, hc, hy, hcy⟩
    · omega
    have hlt := hax.lt.trans (numNodes_lt (ne_nil_of_getNode hax.node))
    refine .inl ⟨rfl, by omega, x, y, hx, hy, a, c, hax, hcy, ?_⟩
    rwa [ha, hc] at hb
  | false =>
    refine .inr ⟨rfl, ?_⟩
    rintro x y ⟨a, c, hax, hcy, htrue⟩
    rw [had.eq_of_last hax, hhid.eq_of_last hcy, htrue] at hb
    cases hb

theorem Joined.unique {x y x' y' : Node} (h : Joined g p q x y) (h' : Joined g p q x' y') :
    x = x' ∧ y = y' := by
  obtain ⟨a, b, ha, hb, -⟩ := h
  obtain ⟨a', b', ha', hb', -⟩ := h'
  exact ⟨(ha.unique ha').2, (hb.unique hb').2⟩

theorem Joined.isHid {x y : Node} (h : Joined g p isHid x y) : isHid y = true := by
  obtain ⟨a, b, -, hb, -⟩ := h
  exact hb.holds

theorem others_isHid : others isAd isHid = isHid := by
  funext n
  have hne : Xid.typeHid ≠ Xid.typeAd := by decide
  by_cases hn : n.type = Xid.typeHid
  · simp [others, isAd, isHid, hn, hne]
  · simp [others, isHid, hn]

theorem others_equalTo {hid : Node} (h : isHid hid = true) :
    others isAd (fun n => isHid n && hid.equalTo n) = hid.equalTo := by
  funext n
  have hand : others isAd (fun n => isHid n && hid.equalTo n) n =
      (others isAd isHid n && hid.equalTo n) := by
    simp [others, Bool.and_assoc]
  rw [hand, others_isHid]
  by_cases hn : hid.equalTo n = true
  · have htype : hid.type = n.type := by
      simp only [Node.equalTo, Bool.and_eq_true, decide_eq_true_eq] at hn
      exact hn.1
    simpa [isHid, htype, hn] using h
  · simp [hn]

/-! ### The records -/

/-- The text can be read as a graph, and `get_node` finds its nodes. -/
def RecordReadable (libc : Libc) (t : Text) : Prop :=
  ∃ g, Graph.ofString libc t = .ok g ∧ Numbered g

theorem exists_migrateRecord {newAd newHid oldAd : Node} {ds : Text} :
    (∃ g, migrateRecord libc newAd newHid oldAd ds = .ok g) ↔ RecordReadable libc ds := by
  unfold migrateRecord findOther
  constructor
  · rintro ⟨g', h⟩
    simp only [bind_eq_ok] at h
    obtain ⟨g, hg, f, hf, -⟩ := h
    exact ⟨g, hg, numbered_of_foldlM hf⟩
  · rintro ⟨g, hg, hnum⟩
    obtain ⟨f, b, hf, hb, hcases⟩ := exists_findPair (proper_ofString hg).toWellFormed hnum
      oldAd.equalTo newHid.equalTo
    rw [hg, ok_bind, hf, ok_bind, hb, ok_bind]
    rcases hcases with ⟨rfl, hlt, -⟩ | ⟨rfl, -⟩
    · rw [if_pos rfl, replaceNodeAt, if_pos ⟨(checkPair_eq_true hb).1, hlt⟩]
      exact ⟨_, rfl⟩
    · exact ⟨g, rfl⟩

/-- **The loop over the records changes no record.** -/
theorem migrateRecords_eq_ok {newAd newHid oldAd : Node} {table table' : NameTable}
    {nms : List Text} : migrateRecords libc newAd newHid oldAd table nms = .ok table' ↔
      (∀ nm ∈ nms, RecordReadable libc (table.get nm)) ∧ table' = table := by
  induction nms with
  | nil =>
    rw [migrateRecords, pure_eq_ok, eq_comm]
    simp
  | cons nm nms ih =>
    rw [migrateRecords, bind_eq_ok, forall_mem_cons, ← exists_migrateRecord, ih]
    constructor
    · rintro ⟨g, hg, h, rfl⟩
      exact ⟨⟨⟨g, hg⟩, h⟩, rfl⟩
    · rintro ⟨⟨⟨g, hg⟩, h⟩, rfl⟩
      exact ⟨g, hg, h, rfl⟩

/-! ### The host -/

/-- In the new address there is an AD with an edge to a HID, and in the old one an AD with an edge
to the same HID: the last ones, by their numbers. -/
def Updates (new old : Graph) : Prop :=
  ∃ newAd newHid oldAd oldHid, Joined new isAd isHid newAd newHid ∧
    Joined old isAd newHid.equalTo oldAd oldHid

section

variable {table table' : NameTable} {name dag oldDag : Text} {new old : Graph}

theorem migrate_cases (hrecord : table.lookup name = some oldDag)
    (hnew : Graph.ofString libc dag = .ok new) (hold : Graph.ofString libc oldDag = .ok old)
    (hnumNew : Numbered new) (hnumOld : Numbered old) :
    (Updates new old ∧ ∀ table', migrate libc table name dag = .ok table' ↔
        (∀ nm ∈ table.insert name dag,
          RecordReadable libc (StdMap.get (table.insert name dag) nm)) ∧
          table' = table.insert name dag) ∨
      ¬ Updates new old ∧ migrate libc table name dag = .ok table := by
  obtain ⟨f, b, hf, hb, hcases⟩ :=
    exists_findPair (proper_ofString hnew).toWellFormed hnumNew isAd isHid
  rw [others_isHid] at hcases
  have hmigrate : migrate libc table name dag =
      if b then migrateHost libc table name dag f old else .ok table := by
    rw [migrate, hrecord]
    dsimp only
    rw [hnew, ok_bind, hold, ok_bind, findNew, hf, ok_bind, hb, ok_bind]
    rfl
  rw [hmigrate]
  rcases hcases with ⟨rfl, -, newAd, newHid, hnewAd, hnewHid, hjoined⟩ | ⟨rfl, hnone⟩
  swap
  · refine .inr ⟨?_, rfl⟩
    rintro ⟨x, y, -, -, hxy, -⟩
    exact hnone x y hxy
  obtain ⟨f', b', hf', hb', hcases'⟩ :=
    exists_findPair (proper_ofString hold).toWellFormed hnumOld isAd
      fun n => isHid n && newHid.equalTo n
  rw [others_equalTo hjoined.isHid] at hcases'
  rw [if_pos rfl, migrateHost, hnewHid, deref_some, ok_bind, findOld, hf', ok_bind, hb', ok_bind]
  rcases hcases' with ⟨rfl, -, oldAd, oldHid, holdAd, -, hjoined'⟩ | ⟨rfl, hnone⟩
  · refine .inl ⟨⟨newAd, newHid, oldAd, oldHid, hjoined, hjoined'⟩, fun table' => ?_⟩
    rw [if_pos rfl, hnewAd, deref_some, ok_bind, holdAd, deref_some, ok_bind, migrateRecords_eq_ok]
    simp only [StdMap.mem_order]
  · refine .inr ⟨?_, rfl⟩
    rintro ⟨x, y, x', y', hxy, hxy'⟩
    rw [(hxy.unique hjoined).2] at hxy'
    exact hnone x' y' hxy'

/-- **No record but that of the host is changed.** -/
theorem lookup_of_migrate (h : migrate libc table name dag = .ok table') {nm : Text}
    (hnm : nm ≠ name) : table'.lookup nm = table.lookup nm := by
  unfold migrate at h
  split at h
  · simp only [bind_eq_ok] at h
    obtain ⟨new, -, old, -, f, -, b, -, h⟩ := h
    split at h
    · simp only [migrateHost, bind_eq_ok] at h
      obtain ⟨newHid, -, f', -, b', -, h⟩ := h
      split at h
      · simp only [bind_eq_ok, migrateRecords_eq_ok] at h
        obtain ⟨newAd, -, oldAd, -, -, rfl⟩ := h
        exact lookup_insert_ne hnm
      · rw [pure_eq_ok.1 h]
    · rw [pure_eq_ok.1 h]
  · rw [← pure_eq_ok.1 h]
    exact lookup_insert_ne hnm

end

/-! ### What migration is for -/

/-- The identifier of an AD or a HID. -/
abbrev Identifier := Vector UInt8 xidIdLen

def Leads (g : Graph) (ad hid : Identifier) : Prop :=
  ∃ i j x y, g.nodes[i]? = some x ∧ g.nodes[j]? = some y ∧ j ∈ g.outOf i ∧
    isAd x = true ∧ x.id = ad ∧ isHid y = true ∧ y.id = hid

def replaceAd (g : Graph) (oldAd newAd : Identifier) : Graph :=
  { g with nodes := g.nodes.map fun n =>
      if isAd n = true ∧ n.id = oldAd then { n with id := newAd } else n }

def Follows (libc : Libc) (oldAd hid : Identifier) (t : Text) : Prop :=
  ∃ g, Graph.ofString libc t = .ok g ∧ Leads g oldAd hid

/-- **The table after a host has moved.** -/
structure Migrated (libc : Libc) (table table' : NameTable) (name dag : Text)
    (newAd oldAd hid : Identifier) : Prop where
  /-- the host has its new address -/
  host : table'.lookup name = some dag
  /-- the records that led to the host have its new AD -/
  follow : ∀ nm t g, nm ≠ name → table.lookup nm = some t → Graph.ofString libc t = .ok g →
    Leads g oldAd hid → ∃ t' g' f, table'.lookup nm = some t' ∧ Graph.ofString libc t' = .ok g' ∧
      Iso f g' (replaceAd g oldAd newAd)
  /-- all others are as they were -/
  rest : ∀ nm, nm ≠ name → (∀ t, table.lookup nm = some t → ¬ Follows libc oldAd hid t) →
    table'.lookup nm = table.lookup nm

/-- A host moves: its new address has one AD with an edge to one HID, and its old one has an edge
from one AD to the same HID. -/
structure IsMove (libc : Libc) (table : NameTable) (name dag oldDag : Text) (new old : Graph)
    (newAd oldAd hid : Identifier) : Prop where
  record : table.lookup name = some oldDag
  read_new : Graph.ofString libc dag = .ok new
  read_old : Graph.ofString libc oldDag = .ok old
  acyclic_new : new.Acyclic
  acyclic_old : old.Acyclic
  leads_new : ∀ ad h, Leads new ad h ↔ ad = newAd ∧ h = hid
  leads_old : ∀ ad, Leads old ad hid ↔ ad = oldAd

section

variable {table : NameTable} {name dag oldDag : Text} {new old : Graph}
  {newAd oldAd hid : Identifier}

theorem Leads.ne_nil (h : Leads g oldAd hid) : g.nodes ≠ [] := by
  obtain ⟨i, -, x, -, hi, -⟩ := h
  rintro hnil
  simp [hnil] at hi

theorem iso_replaceAd (g : Graph) (ad : Identifier) : Iso id g (replaceAd g ad ad) := by
  have hsame : replaceAd g ad ad = g := by
    have hmap : (g.nodes.map fun n =>
        if isAd n = true ∧ n.id = ad then { n with id := ad } else n) = g.nodes := by
      rw [map_congr_left (g := id), map_id]
      intro n _
      split_ifs with hn
      · rw [← hn.2]
        rfl
      · rfl
    rw [replaceAd, hmap]
  rw [hsame]
  exact {
    length := rfl
    lt := fun i hi => hi
    inj := fun i _ j _ h => h
    node := fun i n hn => ⟨n, hn, by simp [Node.equalTo]⟩
    edges := fun i _ => (map_id _).symm }

theorem eq_of_iso_replaceAd {f : Nat → Nat} (h : Leads g oldAd hid)
    (hiso : Iso f g (replaceAd g oldAd newAd)) : newAd = oldAd := by
  obtain ⟨i, -, x, -, hi, -, -, hx, hid, -⟩ := h
  obtain ⟨z, hz, heq⟩ := hiso.node i x hi
  simp only [Node.equalTo, Bool.and_eq_true, decide_eq_true_eq] at heq
  obtain ⟨n, -, hn⟩ := mem_map.1 (mem_of_getElem? hz)
  split_ifs at hn with hold
  · rw [← hid, heq.2, ← hn]
  · refine absurd ⟨?_, ?_⟩ hold
    · rw [hn, isAd, ← heq.1]
      exact hx
    · rw [hn, ← heq.2, hid]

theorem IsMove.numbered (h : IsMove libc table name dag oldDag new old newAd oldAd hid) :
    Numbered new ∧ Numbered old :=
  ⟨numbered_of_acyclic (proper_ofString h.read_new).toWellFormed
      ((h.leads_new newAd hid).2 ⟨rfl, rfl⟩).ne_nil h.acyclic_new,
    numbered_of_acyclic (proper_ofString h.read_old).toWellFormed
      ((h.leads_old oldAd).2 rfl).ne_nil h.acyclic_old⟩

theorem migrated_of_same {table' : NameTable} (hhost : table'.lookup name = some dag)
    (hother : ∀ nm, nm ≠ name → table'.lookup nm = table.lookup nm) :
    Migrated libc table table' name dag newAd oldAd hid ↔
      ∀ nm t, nm ≠ name → table.lookup nm = some t →
        newAd = oldAd ∨ ¬ Follows libc oldAd hid t := by
  constructor
  · intro h nm t hnm ht
    by_contra hnot
    push Not at hnot
    obtain ⟨hne, g, hg, hleads⟩ := hnot
    obtain ⟨t', g', f, ht', hg', hiso⟩ := h.follow nm t g hnm ht hg hleads
    rw [hother nm hnm, ht] at ht'
    cases ht'
    rw [hg] at hg'
    cases hg'
    exact hne (eq_of_iso_replaceAd hleads hiso)
  · intro h
    refine ⟨hhost, fun nm t g hnm ht hg hleads => ?_, fun nm hnm _ => hother nm hnm⟩
    rcases h nm t hnm ht with rfl | hnot
    · exact ⟨t, g, id, (hother nm hnm).trans ht, hg, iso_replaceAd g newAd⟩
    · exact absurd ⟨g, hg, hleads⟩ hnot

/-! ### When a host moves -/

/-- The AD of a host, before and after it has moved. -/
def hostAd (moved : Bool) : Identifier := .replicate _ (if moved then 0x11 else 0)

def hostText (moved : Bool) : Text :=
  ['R', 'E', ' ', 'A', 'D', ':'] ++ List.replicate 40 (if moved then '1' else '0') ++
    [' ', 'H', 'I', 'D', ':'] ++ List.replicate 40 '2'

def hostDag (moved : Bool) : Graph where
  nodes := [.dummySource, ⟨1, Xid.typeAd, hostAd moved⟩, ⟨2, Xid.typeHid, .replicate _ 0x22⟩]
  outEdges := [[1], [2], []]
  inEdges := [[], [0], [1]]

theorem ofString_hostText : ∀ moved,
    Graph.ofString default (hostText moved) = .ok (hostDag moved) := by
  decide +kernel

theorem isDag_hostDag (moved : Bool) : (hostDag moved).IsDag 0 2 := by
  have hforward : ∀ moved, (hostDag moved).IsForward 2 := by decide
  have hnodup : ∀ moved, ∀ i < 3, ((hostDag moved).outOf i).Nodup := by decide
  exact (hforward moved).isDag rfl (hnodup moved)

theorem leads_hostDag {moved : Bool} {ad hid : Identifier} :
    Leads (hostDag moved) ad hid ↔ ad = hostAd moved ∧ hid = .replicate _ 0x22 := by
  constructor
  · rintro ⟨i, j, x, y, hx, hy, -, had, rfl, hhid, rfl⟩
    have hi : i = 1 := by
      rcases i with _ | _ | _ | i <;> cases hx <;> first | rfl | exact absurd had (by decide)
    have hj : j = 2 := by
      rcases j with _ | _ | _ | j <;> cases hy <;>
        first | rfl | exact absurd hhid (by simp [isHid]; decide)
    subst hi hj
    cases hx
    cases hy
    exact ⟨rfl, rfl⟩
  · rintro ⟨rfl, rfl⟩
    exact ⟨1, 2, _, _, rfl, rfl, mem_singleton_self 2, rfl, rfl, rfl, rfl⟩

theorem updates_hostDag : Updates (hostDag true) (hostDag false) :=
  ⟨⟨1, Xid.typeAd, hostAd true⟩, ⟨2, Xid.typeHid, .replicate _ 0x22⟩,
    ⟨1, Xid.typeAd, hostAd false⟩, ⟨2, Xid.typeHid, .replicate _ 0x22⟩,
    ⟨0, 1, by decide⟩, ⟨0, 1, by decide⟩⟩

def hostTable (other : Text) : NameTable :=
  (AList.singleton ['h'] (hostText false)).insert ['w'] other

theorem lookup_hostTable {other nm t : Text} (h : nm ≠ ['h'])
    (ht : (hostTable other).lookup nm = some t) : t = other := by
  by_cases hw : nm = ['w']
  · subst hw
    rw [hostTable, lookup_insert] at ht
    exact (Option.some.inj ht).symm
  · rw [hostTable, lookup_insert_ne hw] at ht
    simp [AList.singleton, AList.lookup, List.dlookup, Ne.symm h] at ht

theorem isMove_hostTable (other : Text) :
    IsMove default (hostTable other) ['h'] (hostText true) (hostText false) (hostDag true)
      (hostDag false) (hostAd true) (hostAd false) (.replicate _ 0x22) where
  record := by
    rw [hostTable, lookup_insert_ne (by decide)]
    rfl
  read_new := ofString_hostText true
  read_old := ofString_hostText false
  acyclic_new := (isDag_hostDag true).acyclic
  acyclic_old := (isDag_hostDag false).acyclic
  leads_new := fun _ _ => leads_hostDag
  leads_old := fun _ => leads_hostDag.trans (and_iff_left rfl)

/-- **When a host moves, the table is as it should be exactly if** the ADs and the HIDs are found,
all records can be read, and no other name has led to the host through an AD that it has left; or if
nothing is found, and the record of the host is not a new one. -/
theorem migrates_iff (h : IsMove libc table name dag oldDag new old newAd oldAd hid) :
    (∃ table', migrate libc table name dag = .ok table' ∧
        Migrated libc table table' name dag newAd oldAd hid) ↔
      (Updates new old ∧ ∀ nm t, nm ≠ name → table.lookup nm = some t →
        RecordReadable libc t ∧ (newAd = oldAd ∨ ¬ Follows libc oldAd hid t)) ∨
      (¬ Updates new old ∧ dag = oldDag) := by
  obtain ⟨hnew, hold⟩ := h.numbered
  rcases migrate_cases h.record h.read_new h.read_old hnew hold with ⟨hu, hmigrate⟩ | ⟨hu, hmigrate⟩
  · have hhost : (table.insert name dag).lookup name = some dag := lookup_insert _
    have hother (nm : Text) (hnm : nm ≠ name) :
        (table.insert name dag).lookup nm = table.lookup nm := lookup_insert_ne hnm
    simp only [hmigrate, hu, true_and, not_true_eq_false, false_and, or_false]
    constructor
    · rintro ⟨-, ⟨hread, rfl⟩, hdone⟩ nm t hnm ht
      refine ⟨?_, (migrated_of_same hhost hother).1 hdone nm t hnm ht⟩
      have hlookup := (hother nm hnm).trans ht
      rw [← StdMap.get_of_lookup hlookup]
      exact hread nm (StdMap.exists_lookup.2 ⟨t, hlookup⟩)
    · intro hall
      refine ⟨_, ⟨fun nm hnm => ?_, rfl⟩, (migrated_of_same hhost hother).2 fun nm t hnm ht =>
        (hall nm t hnm ht).2⟩
      by_cases hname : nm = name
      · subst hname
        rw [StdMap.get_of_lookup hhost]
        exact ⟨new, h.read_new, hnew⟩
      · obtain ⟨t, ht⟩ := StdMap.exists_lookup.1 hnm
        rw [StdMap.get_of_lookup ht]
        exact (hall nm t hname ((hother nm hname).symm.trans ht)).1
  · simp only [hmigrate, hu, false_and, false_or, not_false_eq_true, true_and]
    constructor
    · rintro ⟨table', htable, hdone⟩
      cases htable
      have hhost := hdone.host
      rw [h.record] at hhost
      exact (Option.some.inj hhost).symm
    · rintro rfl
      -- the old address is the new one, and so is its AD
      have hsame : new = old := Except.ok.inj (h.read_new.symm.trans h.read_old)
      have had : newAd = oldAd := (h.leads_old newAd).1
        (hsame ▸ (h.leads_new newAd hid).2 ⟨rfl, rfl⟩)
      exact ⟨table, rfl, (migrated_of_same h.record fun _ _ => rfl).2 fun _ _ _ _ => .inl had⟩

/-- The other name has another AD. -/
theorem migrates_hostTable :
    IsMove default (hostTable (hostText true)) ['h'] (hostText true) (hostText false) (hostDag true)
        (hostDag false) (hostAd true) (hostAd false) (.replicate _ 0x22) ∧
      ∃ table', migrate default (hostTable (hostText true)) ['h'] (hostText true) = .ok table' ∧
        Migrated default (hostTable (hostText true)) table' ['h'] (hostText true) (hostAd true)
          (hostAd false) (.replicate _ 0x22) := by
  have hmove := isMove_hostTable (hostText true)
  refine ⟨hmove, (migrates_iff hmove).2 (.inl ⟨updates_hostDag, fun nm t hnm ht => ?_⟩)⟩
  obtain rfl := lookup_hostTable hnm ht
  refine ⟨⟨_, ofString_hostText true, hmove.numbered.1⟩, .inr ?_⟩
  rintro ⟨g, hg, hleads⟩
  rw [ofString_hostText] at hg
  cases hg
  exact absurd ((hmove.leads_new _ _).1 hleads).1 (by decide)

def serviceText : Text := hostText false ++ [' ', 'S', 'I', 'D', ':'] ++ List.replicate 40 '3'

def serviceDag : Graph where
  nodes := (hostDag false).nodes ++ [⟨3, Xid.typeSid, .replicate _ 0x33⟩]
  outEdges := [[1], [2], [3], []]
  inEdges := [[], [0], [1], [2]]

/-- The service is still looked for in the AD that the host has left. -/
theorem not_migrates_serviceText :
    IsMove default (hostTable serviceText) ['h'] (hostText true) (hostText false) (hostDag true)
        (hostDag false) (hostAd true) (hostAd false) (.replicate _ 0x22) ∧
      ¬ ∃ table', migrate default (hostTable serviceText) ['h'] (hostText true) = .ok table' ∧
        Migrated default (hostTable serviceText) table' ['h'] (hostText true) (hostAd true)
          (hostAd false) (.replicate _ 0x22) := by
  have hread : Graph.ofString default serviceText = .ok serviceDag := by decide +kernel
  have hrecord : (hostTable serviceText).lookup ['w'] = some serviceText := lookup_insert _
  have hleads : Leads serviceDag (hostAd false) (.replicate _ 0x22) :=
    ⟨1, 2, _, _, rfl, rfl, by decide, by decide, rfl, by decide, rfl⟩
  refine ⟨isMove_hostTable serviceText, ?_⟩
  rintro ⟨table', hmigrate, hdone⟩
  obtain ⟨t', g', f, ht', hg', hiso⟩ :=
    hdone.follow ['w'] serviceText serviceDag (by decide) hrecord hread hleads
  rw [lookup_of_migrate hmigrate (by decide), hrecord] at ht'
  cases ht'
  rw [hread] at hg'
  cases hg'
  exact absurd (eq_of_iso_replaceAd hleads hiso) (by decide)

end

end Nameserver

end Xia
