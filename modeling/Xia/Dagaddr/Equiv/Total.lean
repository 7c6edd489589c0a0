import Xia.Dagaddr.Equiv.Fallbacks
import Xia.Dagaddr.Equiv.Lines
import Xia.Dagaddr.Equiv.Sockaddr

/-!
# Addresses from a peer

The constructors of `Graph` check nothing, so what comes from a peer or from the name server can
lead outside a vector.  `constructors_total_iff` says exactly when it does not; the graph is then
well formed.
-/

namespace Xia

namespace Dagaddr

namespace Graph

/-- The constructor stays inside its vectors, and the edges of the graph lead to its nodes. -/
def Constructed (r : Result Graph) : Prop := ∃ g, r = .ok g ∧ g.WellFormed

def Readable (s : Text) : Prop :=
  if ['D', 'A', 'G'] <:+: s then ReadableDag (dagLines s)
  else if ['R', 'E'] <:+: s then ReadableRe (split ' ' s).tail
  else True

/-- The edges of the socket address that are used lead to its nodes or to the source. -/
def ReadableSock (s : Sockaddr) : Prop :=
  ∀ (k : Nat) (n : SockNode), k < s.count.toNat → s.addr[k]? = some n →
    ∀ e ∈ usedEdges n, e ≤ s.count.toNat

theorem proper_ofString {libc : Libc} {s : Text} {g : Graph} (h : ofString libc s = .ok g) :
    g.Proper := by
  unfold ofString at h
  split_ifs at h with hdag hre
  · obtain ⟨hs, rfl⟩ := constructFromDagString_eq_ok.1 h
    exact proper_dagGraph hs
  · obtain ⟨-, rfl⟩ := constructFromReString_eq_ok.1 h
    exact (inv_run libc _).proper
  · cases h
    exact proper_empty.addNode _ _

theorem exists_ofString (libc : Libc) (s : Text) : (∃ g, ofString libc s = .ok g) ↔ Readable s := by
  unfold ofString Readable
  split_ifs with hdag hre
  · simp [constructFromDagString_eq_ok]
  · simp [constructFromReString_eq_ok]
  · exact iff_of_true ⟨_, rfl⟩ trivial

theorem constructed_ofString (libc : Libc) (s : Text) :
    Constructed (ofString libc s) ↔ Readable s := by
  rw [← exists_ofString libc]
  exact exists_congr fun g => and_iff_left_of_imp fun h => (proper_ofString h).toWellFormed

theorem constructed_fromSockaddr (libc : Libc) {s : Sockaddr} (hcount : s.count ≤ 20) :
    Constructed (fromSockaddr libc s) ↔ ReadableSock s := by
  have hm : s.count.toNat ≤ nodesMax := hcount
  have haddr {k : Nat} (hk : k < s.count.toNat) :
      s.addr[k]? = some ((s.addr[k]?).getD default) := by
    have hlt : k < nodesMax := by omega
    simp [hlt]
  have hread (g : Graph) : fromSockaddr libc s = .ok g ↔ _ :=
    fromSockaddr_eq_ok UInt8.ofNat_toNat.symm hm fun k hk => haddr hk
  unfold Constructed ReadableSock
  simp only [hread]
  constructor
  · rintro ⟨g, ⟨h, -⟩, -⟩ k n hk hn e he
    refine h k hk e ?_
    rwa [hn]
  · intro h
    have hedges : ∀ k < s.count.toNat, ∀ e ∈ usedEdges ((s.addr[k]?).getD default),
        e ≤ s.count.toNat := fun k hk => h k _ hk (haddr hk)
    refine ⟨_, ⟨hedges, rfl⟩, (proper_sockNodes _).toWellFormed.links fun e he => ?_⟩
    obtain ⟨k, hk, he⟩ := List.mem_flatMap.1 he
    rw [List.mem_range] at hk
    exact inside_sockLinks hk (hedges k hk) e he

/-- **The constructors do what they should exactly for inputs that can be read.** -/
theorem constructors_total_iff (libc : Libc) :
    (∀ s : Text, Constructed (ofString libc s) ↔ Readable s) ∧
      ∀ s : Sockaddr, s.count ≤ 20 → (Constructed (fromSockaddr libc s) ↔ ReadableSock s) :=
  ⟨constructed_ofString libc, fun _ hcount => constructed_fromSockaddr libc hcount⟩

/-- A socket address with one node, and the given edge from the source. -/
def oneNode (edge : UInt8) : Sockaddr where
  family := afXia
  count := 1
  addr := Vector.replicate _ ⟨Xid.typeSid, Vector.replicate _ 1, #v[edge, 127, 127, 127]⟩

theorem constructors_total_oneNode :
    (oneNode 0).count ≤ 20 ∧ Constructed (fromSockaddr default (oneNode 0)) := by
  have hcount : (oneNode 0).count ≤ 20 := by decide
  refine ⟨hcount, ((constructors_total_iff default).2 (oneNode 0) hcount).2 ?_⟩
  intro k n hk hn e he
  have hmem : n ∈ (oneNode 0).addr := Vector.mem_of_getElem? hn
  rw [Vector.eq_of_mem_replicate hmem] at he
  have hall : ∀ e ∈ usedEdges ⟨Xid.typeSid, Vector.replicate _ 1, #v[0, 127, 127, 127]⟩,
      e ≤ 1 := by decide
  exact hall e he

/-- A text with the number of a line that is not there, and a socket address with the number of such
a node. -/
theorem not_constructed_outside :
    ¬ Constructed (ofString default ['D', 'A', 'G', ' ', '5', ' ', '-']) ∧
      (oneNode 9).count ≤ 20 ∧ ¬ Constructed (fromSockaddr default (oneNode 9)) := by
  have htext : ofString default ['D', 'A', 'G', ' ', '5', ' ', '-'] = .error .outOfBounds := by
    decide +kernel
  have hsock : fromSockaddr default (oneNode 9) = .error .outOfBounds := by decide +kernel
  refine ⟨?_, by decide, ?_⟩
  · rintro ⟨g, hg, -⟩
    rw [htext] at hg
    cases hg
  · rintro ⟨g, hg, -⟩
    rw [hsock] at hg
    cases hg

end Graph

end Dagaddr

end Xia
