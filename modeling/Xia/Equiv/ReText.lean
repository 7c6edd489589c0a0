import Xia.Equiv.Path
import Xia.Equiv.Words

/-!
# The RE form of a path

The RE form of an address is a list of hops: the XIDs of a fallback path in parentheses, if there is
one, and the XID of the next main node.

Reading the text of a list of hops gives the path `rePath hops` (`parseRe_reText`), and a valid path
has an RE form exactly if its nodes are a chain of hops (`Valid.unparseRe_iff`), whose text is then
written.
-/

namespace Xia

open List Option Result

/-! ### Hops -/

/-- A main node of an address, with the fallback path that leads to it. -/
structure Hop where
  fallback : List Xid
  main : Xid

namespace Hop

def words (h : Hop) : List Text :=
  (if h.fallback = [] then [] else ['('] :: (h.fallback.map Xid.unparse ++ [[')']])) ++
    [h.main.unparse]

def size (h : Hop) : Nat := h.fallback.length + 1

def ReadsBack (h : Hop) : Prop := ∀ x ∈ h.fallback ++ [h.main], Xid.parse x.unparse = some x

theorem mem_words {h : Hop} {w : Text} (hw : w ∈ h.words) :
    w = ['('] ∨ w = [')'] ∨ ∃ x ∈ h.fallback ++ [h.main], w = x.unparse := by
  unfold words at hw
  split at hw
  · simp only [nil_append, mem_singleton] at hw
    exact .inr (.inr ⟨h.main, by simp, hw⟩)
  · simp only [cons_append, mem_cons, mem_append, List.mem_map, not_mem_nil, or_false] at hw
    rcases hw with rfl | (⟨x, hx, rfl⟩ | rfl) | rfl
    · exact .inl rfl
    · exact .inr (.inr ⟨x, by simp [hx], rfl⟩)
    · exact .inr (.inl rfl)
    · exact .inr (.inr ⟨h.main, by simp, rfl⟩)

theorem isWord_of_mem_words {h : Hop} {w : Text} (hw : w ∈ h.words) : IsWord w := by
  rcases mem_words hw with rfl | rfl | ⟨x, -, rfl⟩
  · exact ⟨by decide, by decide⟩
  · exact ⟨by decide, by decide⟩
  · exact x.isWord_unparse

end Hop

namespace XiaPath

def reText (hops : List Hop) : Text := unwords (hops.flatMap Hop.words)

/-- The number of nodes that a list of hops has besides the source. -/
def reSize (hops : List Hop) : Nat := (hops.map Hop.size).sum

theorem cpSpacevec_reText (hops : List Hop) :
    cpSpacevec (reText hops) = hops.flatMap Hop.words := by
  refine cpSpacevec_unwords fun w hw => ?_
  obtain ⟨h, -, hw⟩ := mem_flatMap.1 hw
  exact Hop.isWord_of_mem_words hw

theorem length_le_length_words (hops : List Hop) :
    hops.length ≤ (hops.flatMap Hop.words).length := by
  induction hops with
  | nil => simp
  | cons h hops ih =>
    have hpos : 0 < h.words.length := by simp [Hop.words]
    rw [flatMap_cons, length_append, length_cons]
    omega

theorem reText_concat (hne : hops ≠ []) (x : Xid) :
    reText (hops ++ [⟨[], x⟩]) = reText hops ++ [' '] ++ x.unparse := by
  have hwords : hops.flatMap Hop.words ≠ [] := by
    obtain ⟨h, hops, rfl⟩ := exists_cons_of_ne_nil hne
    simp [Hop.words]
  rw [reText, flatMap_append, show [(⟨[], x⟩ : Hop)].flatMap Hop.words = [x.unparse] by
    simp [Hop.words], unwords_concat hwords, reText]

/-! ### Reading -/

theorem parseFallback_map {xs : List Xid} (hxs : ∀ x ∈ xs, Xid.parse x.unparse = some x)
    (ws : List Text) : parseFallback (xs.map Xid.unparse ++ [')'] :: ws) = some (xs, ws) := by
  induction xs with
  | nil => rfl
  | cons x xs ih =>
    rw [map_cons, cons_append, parseFallback,
      if_neg (x.unparse_ne_singleton (by decide)), hxs x mem_cons_self]
    dsimp only
    rw [ih fun y hy => hxs y (mem_cons_of_mem _ hy)]
    rfl

theorem parseReLoop_words {h : Hop} (hback : h.ReadsBack) (ws : List Text) (fuel : Nat)
    (st : ReState) : parseReLoop (fuel + 1) (h.words ++ ws) st =
      parseReLoop fuel ws (st.push h.fallback h.main) := by
  have hmain : Xid.parse h.main.unparse = some h.main := hback h.main (by simp)
  unfold Hop.words
  split
  · rename_i hnil
    rw [nil_append, singleton_append, parseReLoop, if_neg (h.main.unparse_ne_singleton (by decide))]
    simp only [hmain, hnil]
  · have hfallback : parseFallback (h.fallback.map Xid.unparse ++ [')'] :: h.main.unparse :: ws) =
        some (h.fallback, h.main.unparse :: ws) :=
      parseFallback_map (fun x hx => hback x (mem_append_left _ hx)) _
    rw [show ['('] :: (h.fallback.map Xid.unparse ++ [[')']]) ++ [h.main.unparse] ++ ws =
      ['('] :: (h.fallback.map Xid.unparse ++ [')'] :: h.main.unparse :: ws) by simp,
      parseReLoop, if_pos rfl, hfallback]
    simp only [hmain]

def pushAll (hops : List Hop) (st : ReState) : ReState :=
  hops.foldl (fun st h => st.push h.fallback h.main) st

theorem parseReLoop_flatMap (hback : ∀ h ∈ hops, h.ReadsBack) {fuel : Nat}
    (hfuel : hops.length ≤ fuel) (st : ReState) :
    parseReLoop fuel (hops.flatMap Hop.words) st = (true, pushAll hops st) := by
  induction hops generalizing fuel st with
  | nil => cases fuel <;> rfl
  | cons h hops ih =>
    obtain ⟨fuel, rfl⟩ : ∃ k, fuel = k + 1 := ⟨fuel - 1, by simp at hfuel; omega⟩
    rw [flatMap_cons, parseReLoop_words (hback h mem_cons_self)]
    exact ih (fun g hg => hback g (mem_cons_of_mem _ hg)) (by simpa using hfuel) _

/-- The node before a hop: it leads to the main node, and to the first fallback node if there is
one.  The nodes of the hop have the numbers from `next` on. -/
def hopNode (next : Nat) (prev : Xid) (h : Hop) : PathNode :=
  ⟨prev, if h.fallback = [] then [next + h.fallback.length]
    else [next + h.fallback.length, next]⟩

def fallbackNodes (next : Nat) (h : Hop) : List PathNode :=
  h.fallback.mapIdx fun i x => ⟨x, if i + 1 < h.fallback.length
    then [next + h.fallback.length, next + i + 1] else [next + h.fallback.length]⟩

def reNodes : Nat → Xid → List Hop → List PathNode
  | _, prev, [] => [⟨prev, []⟩]
  | next, prev, h :: hops =>
    hopNode next prev h :: (fallbackNodes next h ++ reNodes (next + h.size) h.main hops)

/-- The path of a list of hops: the source is stored behind the nodes of the hops. -/
def rePath (hops : List Hop) : XiaPath :=
  ofNodes (reNodes 0 Xid.zero hops).tail ((reNodes 0 Xid.zero hops).headD ⟨Xid.zero, []⟩)

theorem push_eq (st : ReState) (h : Hop) : st.push h.fallback h.main =
    { next := st.next + h.size
      prevXid := h.main
      srcNode := if st.next = 0 then hopNode st.next st.prevXid h else st.srcNode
      nodes := (if st.next = 0 then st.nodes else st.nodes ++ [hopNode st.next st.prevXid h]) ++
        fallbackNodes st.next h } := by
  rfl

theorem pushAll_of_pos (hops : List Hop) (st : ReState) (hst : 0 < st.next) :
    (pushAll hops st).nodes ++ [⟨(pushAll hops st).prevXid, []⟩] =
        st.nodes ++ reNodes st.next st.prevXid hops ∧
      (pushAll hops st).srcNode = st.srcNode ∧ 0 < (pushAll hops st).next := by
  induction hops generalizing st with
  | nil => exact ⟨rfl, rfl, hst⟩
  | cons h hops ih =>
    have hpush := push_eq st h
    rw [if_neg hst.ne', if_neg hst.ne'] at hpush
    obtain ⟨hnodes, hsrc, hnext⟩ := ih (st.push h.fallback h.main) (by rw [hpush]; simp; omega)
    refine ⟨?_, ?_, hnext⟩
    · refine hnodes.trans ?_
      rw [hpush]
      simp [reNodes]
    · refine hsrc.trans ?_
      rw [hpush]

/-- **Reading the text of a list of hops.** -/
theorem parseRe_reText (hne : hops ≠ []) (hback : ∀ h ∈ hops, h.ReadsBack) :
    parseRe (reText hops) = (true, rePath hops) := by
  obtain ⟨h, hops, rfl⟩ := exists_cons_of_ne_nil hne
  rw [parseRe, cpSpacevec_reText, parseReWords,
    parseReLoop_flatMap hback (length_le_length_words _)]
  -- the first hop makes the source node
  obtain ⟨hnodes, hsrc, hnext⟩ := pushAll_of_pos hops
    ((⟨0, Xid.zero, ⟨Xid.zero, []⟩, []⟩ : ReState).push h.fallback h.main)
    (by rw [push_eq]; simp [Hop.size])
  have hcons : ∀ st, pushAll (h :: hops) st = pushAll hops (st.push h.fallback h.main) :=
    fun _ => rfl
  dsimp only
  rw [hcons, if_neg hnext.ne', hnodes, hsrc]
  simp [push_eq, rePath, reNodes]

/-! ### Chains of hops in a path -/

variable {p : XiaPath} {src dst : Nat}
variable {hops : List Hop} {main i e : Nat} {is l : List Nat}

/-- The fallback nodes from a node on: each leads to the main node, all but the last to the next
one. -/
inductive FallbackFrom (p : XiaPath) (main : Nat) : Nat → List Nat → Prop
  | last {i : Nat} (h : p.edgesOf i = [main]) : FallbackFrom p main i [i]
  | next {i j : Nat} {is : List Nat} (h : p.edgesOf i = [main, j])
      (hrest : FallbackFrom p main j is) : FallbackFrom p main i (i :: is)

/-- The hops from a node on: the fallback nodes and the main node of each of them. -/
inductive Chain (p : XiaPath) : Nat → List (List Nat × Nat) → Prop
  | nil {i : Nat} (h : p.edgesOf i = []) : Chain p i []
  | main {i m : Nat} {hops : List (List Nat × Nat)} (h : p.edgesOf i = [m])
      (hrest : Chain p m hops) : Chain p i (([], m) :: hops)
  | fallback {i m j : Nat} {is : List Nat} {hops : List (List Nat × Nat)}
      (h : p.edgesOf i = [m, j]) (hf : FallbackFrom p m j is) (hrest : Chain p m hops) :
      Chain p i ((is, m) :: hops)

def hopOf (p : XiaPath) (h : List Nat × Nat) : Hop := ⟨h.1.map p.xidOf, p.xidOf h.2⟩

def trace (hops : List (List Nat × Nat)) : List Nat := hops.flatMap fun h => h.1 ++ [h.2]

theorem FallbackFrom.ne_nil (h : FallbackFrom p main i is) : is ≠ [] := by
  cases h <;> simp

theorem FallbackFrom.head? (h : FallbackFrom p main i is) : is.head? = some i := by
  cases h <;> rfl

/-! The edges of a node decide how fallback nodes and hops go on from it. -/

theorem fallbackFrom_single (h : p.edgesOf i = [e]) :
    FallbackFrom p main i is ↔ e = main ∧ is = [i] := by
  constructor
  · intro hf
    cases hf with
    | last h' => exact ⟨(List.cons.inj (h.symm.trans h')).1, rfl⟩
    | next h' => cases h.symm.trans h'
  · rintro ⟨rfl, rfl⟩
    exact .last h

theorem fallbackFrom_pair {k : Nat} (h : p.edgesOf i = [e, k]) :
    FallbackFrom p main i is ↔ e = main ∧ ∃ rest, FallbackFrom p main k rest ∧ is = i :: rest := by
  constructor
  · intro hf
    cases hf with
    | last h' => cases h.symm.trans h'
    | next h' hrest =>
      cases h.symm.trans h'
      exact ⟨rfl, _, hrest, rfl⟩
  · rintro ⟨rfl, rest, hrest, rfl⟩
    exact .next h hrest

theorem chain_nil {hops : List (List Nat × Nat)} (h : p.edgesOf i = []) :
    Chain p i hops ↔ hops = [] := by
  constructor
  · intro hc
    cases hc with
    | nil => rfl
    | main h' | fallback h' => cases h.symm.trans h'
  · rintro rfl
    exact .nil h

theorem chain_single {m : Nat} {hops : List (List Nat × Nat)} (h : p.edgesOf i = [m]) :
    Chain p i hops ↔ ∃ rest, Chain p m rest ∧ hops = ([], m) :: rest := by
  constructor
  · intro hc
    cases hc with
    | main h' hrest =>
      cases h.symm.trans h'
      exact ⟨_, hrest, rfl⟩
    | nil h' | fallback h' => cases h.symm.trans h'
  · rintro ⟨rest, hrest, rfl⟩
    exact .main h hrest

theorem chain_pair {m j : Nat} {hops : List (List Nat × Nat)} (h : p.edgesOf i = [m, j]) :
    Chain p i hops ↔
      ∃ is, FallbackFrom p m j is ∧ ∃ rest, Chain p m rest ∧ hops = (is, m) :: rest := by
  constructor
  · intro hc
    cases hc with
    | fallback h' hf hrest =>
      cases h.symm.trans h'
      exact ⟨_, hf, _, hrest, rfl⟩
    | nil h' | main h' => cases h.symm.trans h'
  · rintro ⟨is, hf, rest, hrest, rfl⟩
    exact .fallback h hf hrest

def spaced (ws : List Text) : Text := ws.flatMap (· ++ [' '])

theorem unparseFallback_iff (hp : p.InRange) {fuel : Nat} (hi : i < p.nodes.length) {t : Text} :
    p.unparseFallback main fuel i = .ok (some t) ↔
      ∃ is, FallbackFrom p main i is ∧ is.length ≤ fuel ∧
        t = spaced (is.map fun j => (p.xidOf j).unparse) := by
  induction fuel generalizing i t with
  | zero =>
    simp only [unparseFallback, Except.ok.injEq, reduceCtorEq, false_iff]
    rintro ⟨is, hf, hlen, -⟩
    exact hf.ne_nil (length_eq_zero_iff.1 (by omega))
  | succ fuel ih =>
    rw [unparseFallback, inBounds_nodes hi, ok_bind]
    rcases hedges : p.edgesOf i with _ | ⟨e, _ | ⟨k, _ | ⟨l, ls⟩⟩⟩
    · simp only [pure_eq_ok, reduceCtorEq, false_iff]
      rintro ⟨is, hf, -, -⟩
      cases hf <;> simp_all
    · simp only [pure_eq_ok, fallbackFrom_single hedges]
      by_cases he : e = main
      · simp [he, spaced, eq_comm]
      · simp [he]
    · have hk : k < p.nodes.length := hp i k (by simp [hedges])
      dsimp only
      by_cases he : e = main
      · rw [if_pos he, bind_map_eq_ok]
        constructor
        · rintro ⟨rest, hrest, rfl⟩
          obtain ⟨is, hf, hlen, rfl⟩ := (ih hk).1 hrest
          exact ⟨i :: is, (fallbackFrom_pair hedges).2 ⟨he, is, hf, rfl⟩, Nat.succ_le_succ hlen,
            by simp [spaced]⟩
        · rintro ⟨is, hf, hlen, rfl⟩
          obtain ⟨-, rest, hrest, rfl⟩ := (fallbackFrom_pair hedges).1 hf
          exact ⟨_, (ih hk).2 ⟨rest, hrest, Nat.le_of_succ_le_succ hlen, rfl⟩, by simp [spaced]⟩
      · simp [he, fallbackFrom_pair hedges]
    · simp only [pure_eq_ok, reduceCtorEq, false_iff]
      rintro ⟨is, hf, -, -⟩
      cases hf <;> simp_all

/-- The text that the main loop writes for a list of hops. -/
def hopsText (p : XiaPath) (hops : List (List Nat × Nat)) : Text :=
  spaced ((hops.map p.hopOf).flatMap Hop.words)

theorem hopsText_main (p : XiaPath) (m : Nat) (hops : List (List Nat × Nat)) :
    p.hopsText (([], m) :: hops) = (p.xidOf m).unparse ++ [' '] ++ p.hopsText hops := by
  simp [hopsText, spaced, hopOf, Hop.words]

theorem hopsText_fallback (p : XiaPath) (his : is ≠ []) (m : Nat) (hops : List (List Nat × Nat)) :
    p.hopsText ((is, m) :: hops) =
      ['(', ' '] ++ spaced (is.map fun j => (p.xidOf j).unparse) ++ [')', ' '] ++
        (p.xidOf m).unparse ++ [' '] ++ p.hopsText hops := by
  simp [hopsText, spaced, hopOf, Hop.words, his, Function.comp_def]

theorem unparseReLoop_iff (hp : p.InRange) {fuel : Nat} (hi : i < p.nodes.length) {t : Text} :
    p.unparseReLoop fuel i = .ok (some t) ↔
      ∃ hops, Chain p i hops ∧ hops.length < fuel ∧ (∀ h ∈ hops, h.1.length ≤ p.nodes.length) ∧
        t = p.hopsText hops := by
  induction fuel generalizing i t with
  | zero =>
    simp only [unparseReLoop, Except.ok.injEq, reduceCtorEq, false_iff]
    rintro ⟨hops, -, hlen, -⟩
    omega
  | succ fuel ih =>
    rw [unparseReLoop, inBounds_nodes hi, ok_bind]
    rcases hedges : p.edgesOf i with _ | ⟨m, _ | ⟨j, _ | ⟨l, ls⟩⟩⟩
    · rw [pure_eq_ok, Option.some.injEq, eq_comm]
      simp [chain_nil hedges, hopsText, spaced]
    · have hm : m < p.nodes.length := hp i m (by simp [hedges])
      dsimp only
      rw [inBounds_nodes hm, ok_bind, bind_map_eq_ok]
      constructor
      · rintro ⟨rest, hrest, rfl⟩
        obtain ⟨hops, hc, hlen, hsmall, rfl⟩ := (ih hm).1 hrest
        exact ⟨([], m) :: hops, .main hedges hc, Nat.succ_lt_succ hlen,
          forall_mem_cons.2 ⟨Nat.zero_le _, hsmall⟩, (p.hopsText_main m hops).symm⟩
      · rintro ⟨hops, hc, hlen, hsmall, rfl⟩
        obtain ⟨rest, hrest, rfl⟩ := (chain_single hedges).1 hc
        exact ⟨_, (ih hm).2 ⟨rest, hrest, Nat.lt_of_succ_lt_succ hlen,
          (forall_mem_cons.1 hsmall).2, rfl⟩, (p.hopsText_main m rest).symm⟩
    · have hm : m < p.nodes.length := hp i m (by simp [hedges])
      have hj : j < p.nodes.length := hp i j (by simp [hedges])
      dsimp only
      rw [bind_eq_ok]
      constructor
      · rintro ⟨found, hfound, h⟩
        cases found with
        | none => cases h
        | some f =>
          obtain ⟨is, hf, hislen, rfl⟩ := (unparseFallback_iff hp hj).1 hfound
          dsimp only at h
          rw [inBounds_nodes hm, ok_bind, bind_map_eq_ok] at h
          obtain ⟨rest, hrest, rfl⟩ := h
          obtain ⟨hops, hc, hlen, hsmall, rfl⟩ := (ih hm).1 hrest
          exact ⟨(is, m) :: hops, .fallback hedges hf hc, Nat.succ_lt_succ hlen,
            forall_mem_cons.2 ⟨hislen, hsmall⟩, (p.hopsText_fallback hf.ne_nil m hops).symm⟩
      · rintro ⟨hops, hc, hlen, hsmall, rfl⟩
        obtain ⟨is, hf, rest, hrest, rfl⟩ := (chain_pair hedges).1 hc
        obtain ⟨hislen, hsmall⟩ := forall_mem_cons.1 hsmall
        refine ⟨_, (unparseFallback_iff hp hj).2 ⟨is, hf, hislen, rfl⟩, ?_⟩
        dsimp only
        rw [inBounds_nodes hm, ok_bind, bind_map_eq_ok]
        exact ⟨_, (ih hm).2 ⟨rest, hrest, Nat.lt_of_succ_lt_succ hlen, hsmall, rfl⟩,
          (p.hopsText_fallback hf.ne_nil m rest).symm⟩
    · simp only [pure_eq_ok, reduceCtorEq, false_iff]
      rintro ⟨hops, hc, -⟩
      cases hc <;> simp_all

/-! ### Walks -/

/-- Every node of the list leads to the next one, and to later nodes of the list only. -/
def Walk (p : XiaPath) : List Nat → Prop
  | [] => True
  | i :: l => (∀ e ∈ p.edgesOf i, e ∈ l) ∧ (∀ e ∈ l.head?, e ∈ p.edgesOf i) ∧ Walk p l

theorem FallbackFrom.walk {rest : List Nat} (h : FallbackFrom p main i is)
    (hrest : Walk p (main :: rest)) : Walk p (is ++ main :: rest) := by
  induction h with
  | last h => exact ⟨by simp [h], by simp [h], hrest⟩
  | @next i j is h hf ih =>
    have hhead : (is ++ main :: rest).head? = some j := by rw [head?_append, hf.head?]; rfl
    refine ⟨fun e he => ?_, fun e he => ?_, ih⟩
    · rw [h] at he
      rcases mem_pair.1 he with rfl | rfl
      · exact mem_append_right _ mem_cons_self
      · exact mem_of_mem_head? hhead
    · obtain rfl : j = e := some_inj.1 (hhead.symm.trans he)
      simp [h]

theorem Chain.walk {hops : List (List Nat × Nat)} (h : Chain p i hops) :
    Walk p (i :: trace hops) := by
  induction h with
  | nil h => exact ⟨by simp [h], by simp [trace], trivial⟩
  | main h _ ih => exact ⟨by simp [h, trace], by simp [h, trace], ih⟩
  | @fallback i m j is hops h hf _ ih =>
    have htrace : trace ((is, m) :: hops) = is ++ m :: trace hops := by simp [trace]
    have hhead : (is ++ m :: trace hops).head? = some j := by rw [head?_append, hf.head?]; rfl
    rw [htrace]
    refine ⟨fun e he => ?_, fun e he => ?_, hf.walk ih⟩
    · rw [h] at he
      rcases mem_pair.1 he with rfl | rfl
      · simp
      · exact mem_of_mem_head? hhead
    · obtain rfl : j = e := some_inj.1 (hhead.symm.trans he)
      simp [h]

theorem Walk.edges_mem (h : Walk p l) (hi : i ∈ l) (he : e ∈ p.edgesOf i) : e ∈ l := by
  induction l with
  | nil => cases hi
  | cons j l ih =>
    rcases mem_cons.1 hi with rfl | hi
    · exact mem_cons_of_mem _ (h.1 e he)
    · exact mem_cons_of_mem _ (ih h.2.2 hi)

/-- In a list without repetition the edges of a walk go forward. -/
theorem Walk.idxOf_lt (h : Walk p l) (hnodup : l.Nodup) (hi : i ∈ l) (he : e ∈ p.edgesOf i) :
    l.idxOf i < l.idxOf e := by
  induction l with
  | nil => cases hi
  | cons j l ih =>
    obtain ⟨hj, hnodup⟩ := nodup_cons.1 hnodup
    rcases mem_cons.1 hi with rfl | hi
    · have hne : i ≠ e := by
        rintro rfl
        exact hj (h.1 i he)
      rw [idxOf_cons_self, idxOf_cons_ne _ hne]
      omega
    · have hne : j ≠ i := by
        rintro rfl
        exact hj hi
      have hne' : j ≠ e := by
        rintro rfl
        exact hj (h.2.2.edges_mem hi he)
      rw [idxOf_cons_ne _ hne, idxOf_cons_ne _ hne']
      have := ih h.2.2 hnodup hi
      omega

theorem Walk.exists_edge (h : Walk p (i :: l)) (he : e ∈ l) : ∃ j, e ∈ p.edgesOf j := by
  induction l generalizing i with
  | nil => cases he
  | cons k l ih =>
    rcases mem_cons.1 he with rfl | he
    · exact ⟨i, h.2.1 e rfl⟩
    · exact ih h.2.2 he

theorem Walk.edgesOf_eq_nil_iff (h : Walk p l) (hnodup : l.Nodup) (hi : i ∈ l) :
    p.edgesOf i = [] ↔ l.getLast? = some i := by
  induction l with
  | nil => cases hi
  | cons j l ih =>
    obtain ⟨hj, hnodup⟩ := nodup_cons.1 hnodup
    rcases mem_cons.1 hi with rfl | hi
    · cases l with
      | nil =>
        refine iff_of_true (eq_nil_iff_forall_not_mem.2 fun e he => ?_) rfl
        exact absurd (h.1 e he) not_mem_nil
      | cons k l =>
        have hk : k ∈ p.edgesOf i := h.2.1 k rfl
        refine iff_of_false (ne_nil_of_mem hk) fun hlast => hj ?_
        rw [getLast?_cons_cons] at hlast
        exact mem_of_getLast? hlast
    · rw [ih h.2.2 hnodup hi, getLast?_cons]
      cases l with
      | nil => cases hi
      | cons k l => simp [getLast?_cons]

theorem Valid.nodup_of_walk (hp : p.Valid src dst) (h : Walk p l) : l.Nodup := by
  have hplace : ∀ l i, Walk p (i :: l) → ∀ e ∈ l, p.place i < p.place e := by
    intro l
    induction l with
    | nil => simp
    | cons k l ih =>
      intro i hw e he
      have hk : p.place i < p.place k := hp.place_lt (hw.2.1 k rfl)
      rcases mem_cons.1 he with rfl | he
      · exact hk
      · exact hk.trans (ih k hw.2.2 e he)
  induction l with
  | nil => exact nodup_nil
  | cons i l ih =>
    refine nodup_cons.2 ⟨fun hi => ?_, ih h.2.2⟩
    exact lt_irrefl _ (hplace l i h i hi)

theorem Valid.mem_of_walk (hp : p.Valid src dst) (h : Walk p (src :: l)) (hi : i < p.nodes.length) :
    i ∈ src :: l := by
  obtain ⟨rank, hrank⟩ := hp.acyclic
  induction hn : rank i using Nat.strong_induction_on generalizing i with
  | h n ih =>
    by_cases hsrc : i = src
    · simp [hsrc]
    · obtain ⟨j, hj⟩ := (hp.incoming i hi).2 hsrc
      have hmem := ih (rank j) (hn ▸ hrank j i hj) (lt_of_mem_edgesOf hj) rfl
      exact h.edges_mem hmem hj

theorem Valid.lt_of_walk (hp : p.Valid src dst) (h : Walk p (src :: l)) (hi : i ∈ src :: l) :
    i < p.nodes.length := by
  rcases mem_cons.1 hi with rfl | hi
  · exact hp.src_lt
  · obtain ⟨j, hj⟩ := h.exists_edge hi
    exact hp.inRange j i hj

/-- **A walk from the source of a valid path visits every node once.** -/
theorem Valid.perm_of_walk (hp : p.Valid src dst) (h : Walk p (src :: l)) :
    (src :: l).Perm (List.range p.nodes.length) :=
  (perm_ext_iff_of_nodup (hp.nodup_of_walk h) nodup_range).2 fun _ =>
    ⟨fun hi => mem_range.2 (hp.lt_of_walk h hi), fun hi => hp.mem_of_walk h (mem_range.1 hi)⟩

/-- **A path that is a walk through all its nodes is valid.** -/
theorem valid_of_walk (hsrc : p.src = some src) (hdst : p.dst = some dst) (h : Walk p (src :: l))
    (hperm : (src :: l).Perm (List.range p.nodes.length)) (hlast : l.getLast? = some dst)
    (hdegree : ∀ i, (p.edgesOf i).length ≤ xidEdgeNum) : p.Valid src dst := by
  have hnodup : (src :: l).Nodup := hperm.nodup_iff.2 nodup_range
  have hmem : ∀ i, i ∈ src :: l ↔ i < p.nodes.length := fun i => by
    rw [hperm.mem_iff, mem_range]
  have hdstl : dst ∈ l := mem_of_getLast? hlast
  have hlast' : (src :: l).getLast? = some dst := by
    rw [getLast?_cons, hlast]
    rfl
  have hedge : ∀ i, ∀ e ∈ p.edgesOf i, i ∈ src :: l ∧ e ∈ src :: l := fun i e he =>
    have hi := (hmem i).2 (lt_of_mem_edgesOf he)
    ⟨hi, h.edges_mem hi he⟩
  refine ⟨hsrc, hdst, (hmem src).1 mem_cons_self, (hmem dst).1 (mem_cons_of_mem _ hdstl),
    ?_, fun i e he => (hmem e).1 (hedge i e he).2,
    ⟨(src :: l).idxOf, fun i e he => h.idxOf_lt hnodup (hedge i e he).1 he⟩,
    fun j hj => ⟨?_, fun hne => ?_⟩, fun i hi => ?_, hdegree⟩
  · rintro rfl
    exact (nodup_cons.1 hnodup).1 hdstl
  · rintro ⟨i, hi⟩ rfl
    have hlt := h.idxOf_lt hnodup (hedge i j hi).1 hi
    rw [idxOf_cons_self] at hlt
    omega
  · exact h.exists_edge (((mem_cons.1 ((hmem j).2 hj)).resolve_left hne))
  · rw [h.edgesOf_eq_nil_iff hnodup ((hmem i).2 hi), hlast', some_inj, eq_comm]

/-! ### Writing -/

theorem length_trace (hops : List (List Nat × Nat)) :
    (trace hops).length = reSize (hops.map p.hopOf) := by
  induction hops with
  | nil => rfl
  | cons h hops ih =>
    have hsize : reSize ((h :: hops).map p.hopOf) = h.1.length + 1 + reSize (hops.map p.hopOf) := by
      simp [reSize, hopOf, Hop.size]
    rw [hsize, ← ih]
    simp only [trace, flatMap_cons, length_append, length_cons, length_nil, Nat.zero_add]

theorem Valid.length_of_chain (hp : p.Valid src dst) {hops : List (List Nat × Nat)}
    (h : Chain p src hops) : p.nodes.length = reSize (hops.map p.hopOf) + 1 := by
  have hlen := (hp.perm_of_walk h.walk).length_eq
  rw [length_range, length_cons, length_trace (p := p)] at hlen
  exact hlen.symm

theorem length_le_reSize (hops : List Hop) : hops.length ≤ reSize hops := by
  rw [reSize, ← length_map Hop.size]
  exact length_le_sum_of_one_le _ fun k hk => by
    obtain ⟨h, -, rfl⟩ := List.mem_map.1 hk
    simp [Hop.size]

theorem length_fallback_le_reSize {h : Hop} (hh : h ∈ hops) : h.fallback.length ≤ reSize hops := by
  have hle : h.size ≤ reSize hops := single_le_sum (by simp) _ (List.mem_map_of_mem hh)
  rw [Hop.size] at hle
  omega

/-- **The RE text of a valid path** is written exactly if its nodes are a chain of hops. -/
theorem Valid.unparseRe_iff (hp : p.Valid src dst) {t : Text} (ht : t ≠ []) : p.unparseRe = .ok t ↔
      ∃ hops, Chain p src hops ∧ t = reText (hops.map p.hopOf) := by
  rw [unparseRe, isValid_iff.2 ⟨_, _, hp⟩, hp.src_eq]
  simp only [ok_bind, if_true]
  rw [bind_eq_ok]
  constructor
  · rintro ⟨found, hfound, h⟩
    rw [pure_eq_ok] at h
    cases found with
    | none =>
      rw [← h] at ht
      exact absurd rfl ht
    | some r =>
      obtain ⟨hops, hc, -, -, rfl⟩ := (unparseReLoop_iff hp.inRange hp.src_lt).1 hfound
      exact ⟨hops, hc, h.symm⟩
  · rintro ⟨hops, hc, rfl⟩
    have hsize := hp.length_of_chain hc
    refine ⟨_, (unparseReLoop_iff hp.inRange hp.src_lt).2 ⟨hops, hc, ?_, fun h hh => ?_, rfl⟩, rfl⟩
    · have hle := length_le_reSize (hops.map p.hopOf)
      rw [length_map] at hle
      omega
    · have hle := length_fallback_le_reSize (List.mem_map_of_mem (f := p.hopOf) hh)
      simp only [hopOf, length_map] at hle
      omega

theorem reText_ne_nil (hne : hops ≠ []) : reText hops ≠ [] := by
  intro hnil
  have hwords := cpSpacevec_reText hops
  obtain ⟨h, hops, rfl⟩ := exists_cons_of_ne_nil hne
  rw [hnil] at hwords
  exact absurd hwords.symm (by simp [cpSpacevec, cpSpacevecAux, Hop.words])

/-! ### The path that was read -/

/-- The numbers of the nodes of hops that are stored from `next` on. -/
def hopIndices : Nat → List Hop → List (List Nat × Nat)
  | _, [] => []
  | next, h :: hops =>
    (List.range' next h.fallback.length, next + h.fallback.length) ::
      hopIndices (next + h.size) hops

theorem trace_hopIndices (next : Nat) (hops : List Hop) :
    trace (hopIndices next hops) = List.range' next (reSize hops) := by
  induction hops generalizing next with
  | nil => rfl
  | cons h hops ih =>
    have hsize : reSize (h :: hops) = h.fallback.length + 1 + reSize hops := by
      simp [reSize, Hop.size]
    have htrace : trace (hopIndices next (h :: hops)) =
        List.range' next h.fallback.length ++ [next + h.fallback.length] ++
          trace (hopIndices (next + h.size) hops) := by
      simp [trace, hopIndices]
    rw [htrace, ih, hsize, Hop.size, ← range'_append_1, ← range'_append_1]
    simp

theorem fallbackFrom_range' {m : Nat} (n a : Nat)
    (h : ∀ k ≤ n, p.edgesOf (a + k) = if k < n then [m, a + k + 1] else [m]) :
    FallbackFrom p m a (List.range' a (n + 1)) := by
  induction n generalizing a with
  | zero => exact .last (h 0 le_rfl)
  | succ n ih =>
    rw [range'_succ]
    refine .next ((h 0 (by omega)).trans (if_pos (by omega))) (ih (a + 1) fun k hk => ?_)
    have hnext := h (k + 1) (by omega)
    rw [show a + (k + 1) = a + 1 + k by omega] at hnext
    rw [hnext]
    simp

theorem length_reNodes (next : Nat) (prev : Xid) (hops : List Hop) :
    (reNodes next prev hops).length = reSize hops + 1 := by
  induction hops generalizing next prev with
  | nil => rfl
  | cons h hops ih =>
    simp only [reNodes, length_cons, length_append, ih, fallbackNodes, length_mapIdx,
      reSize, map_cons, sum_cons, Hop.size]
    omega

theorem chain_reNodes (hops : List Hop) (next : Nat) (prev : Xid) (i : Nat)
    (hhead : p.nodes[i]? = (reNodes next prev hops)[0]?)
    (htail : ∀ k < reSize hops, p.nodes[next + k]? = (reNodes next prev hops)[k + 1]?) :
    Chain p i (hopIndices next hops) ∧ (hopIndices next hops).map p.hopOf = hops := by
  induction hops generalizing next prev i with
  | nil => exact ⟨.nil (edgesOf_eq hhead), rfl⟩
  | cons h hops ih =>
    have hsize : reSize (h :: hops) = h.fallback.length + 1 + reSize hops := by
      simp [reSize, Hop.size]
    have hlen : (fallbackNodes next h).length = h.fallback.length := length_mapIdx
    have hnode : p.edgesOf i = (hopNode next prev h).edges := edgesOf_eq hhead
    -- the fallback nodes, then the main node and the rest
    have hfall : ∀ k < h.fallback.length, p.nodes[next + k]? = (fallbackNodes next h)[k]? := by
      intro k hk
      rw [htail k (by omega), reNodes, getElem?_cons_succ, getElem?_append_left (by omega)]
    have hrest : ∀ k ≤ reSize hops, p.nodes[next + h.fallback.length + k]? =
        (reNodes (next + h.size) h.main hops)[k]? := by
      intro k hk
      rw [Nat.add_assoc, htail (h.fallback.length + k) (by omega), reNodes,
        getElem?_cons_succ, getElem?_append_right (by omega), hlen,
        Nat.add_sub_cancel_left]
    obtain ⟨hchain, hhops⟩ := ih (next + h.size) h.main (next + h.fallback.length)
      (hrest 0 (Nat.zero_le _)) fun k hk => by
        rw [← hrest (k + 1) (by omega), Hop.size]
        congr 1
        omega
    have hmain : p.xidOf (next + h.fallback.length) = h.main := by
      have hget := hrest 0 (Nat.zero_le _)
      cases hops with
      | nil => exact xidOf_eq hget
      | cons g hops => exact xidOf_eq hget
    have hfallXid : (List.range' next h.fallback.length).map p.xidOf = h.fallback := by
      apply ext_getElem?
      intro k
      rw [getElem?_map]
      by_cases hk : k < h.fallback.length
      · have hget := hfall k hk
        rw [fallbackNodes, getElem?_mapIdx, getElem?_eq_getElem hk] at hget
        rw [getElem?_range' hk, map_some, Nat.one_mul, xidOf_eq hget, getElem?_eq_getElem hk]
      · rw [getElem?_eq_none (by simpa using hk), getElem?_eq_none (by omega)]
        rfl
    refine ⟨?_, ?_⟩
    · unfold hopNode at hnode
      dsimp only at hnode
      split at hnode
      · rename_i hnil
        have hidx : List.range' next h.fallback.length = [] := by rw [hnil]; rfl
        rw [hopIndices, hidx]
        exact .main hnode hchain
      · rename_i hne
        obtain ⟨n, hn⟩ : ∃ n, h.fallback.length = n + 1 :=
          ⟨h.fallback.length - 1, by have := length_pos_iff.2 hne; omega⟩
        refine .fallback hnode ?_ hchain
        rw [hn]
        refine fallbackFrom_range' n next fun k hk => ?_
        have hk' : k < h.fallback.length := by omega
        have hget := hfall k hk'
        rw [fallbackNodes, getElem?_mapIdx, getElem?_eq_getElem hk'] at hget
        rw [edgesOf_eq hget, hn]
        simp
    · rw [hopIndices, map_cons, hhops, hopOf, hfallXid, hmain]

theorem length_edges_reNodes {next : Nat} {prev : Xid} {node : PathNode}
    (hnode : node ∈ reNodes next prev hops) : node.edges.length ≤ xidEdgeNum := by
  induction hops generalizing next prev with
  | nil =>
    rw [mem_singleton.1 hnode]
    exact Nat.zero_le _
  | cons h hops ih =>
    rw [reNodes, mem_cons, mem_append] at hnode
    rcases hnode with rfl | hnode | hnode
    · unfold hopNode
      dsimp only
      split <;> simp [xidEdgeNum]
    · obtain ⟨k, hk, rfl⟩ := mem_mapIdx.1 hnode
      dsimp only
      split <;> simp [xidEdgeNum]
    · exact ih hnode

theorem mem_reNodes_of_mem_rePath {node : PathNode} (h : node ∈ (rePath hops).nodes) :
    node ∈ reNodes 0 Xid.zero hops := by
  cases hnodes : reNodes 0 Xid.zero hops with
  | nil => simpa [hnodes] using length_reNodes 0 Xid.zero hops
  | cons head nodes =>
    rw [rePath, ofNodes, hnodes, mem_append, mem_singleton] at h
    rcases h with h | h
    · exact mem_cons_of_mem _ h
    · exact mem_cons.2 (.inl h)

theorem length_rePath (hops : List Hop) : (rePath hops).nodes.length = reSize hops + 1 := by
  rw [rePath, ofNodes, length_append, length_tail, length_reNodes, length_singleton,
    Nat.add_sub_cancel]

theorem chain_rePath (hops : List Hop) : Chain (rePath hops) (reSize hops) (hopIndices 0 hops) ∧
      (hopIndices 0 hops).map (rePath hops).hopOf = hops := by
  have hlen := length_reNodes 0 Xid.zero hops
  have htail : (reNodes 0 Xid.zero hops).tail.length = reSize hops := by
    rw [length_tail, hlen, Nat.add_sub_cancel]
  refine chain_reNodes hops 0 Xid.zero (reSize hops) ?_ fun k hk => ?_
  · rw [rePath, ofNodes, ← htail, getElem?_concat_length]
    cases hnodes : reNodes 0 Xid.zero hops with
    | nil => simp [hnodes] at hlen
    | cons node nodes => rfl
  · rw [rePath, ofNodes, Nat.zero_add, getElem?_append_left (by omega), getElem?_tail]

/-- **The path that is read from a list of hops is valid.** -/
theorem valid_rePath (hne : hops ≠ []) : (rePath hops).Valid (reSize hops) (reSize hops - 1) := by
  have hpos : 0 < reSize hops :=
    lt_of_lt_of_le (length_pos_iff.2 hne) (length_le_reSize hops)
  have hwalk := (chain_rePath hops).1.walk
  rw [trace_hopIndices] at hwalk
  have hlength : (reNodes 0 Xid.zero hops).tail.length = reSize hops := by
    rw [length_tail, length_reNodes, Nat.add_sub_cancel]
  refine valid_of_walk ?_ ?_ hwalk ?_ ?_ fun i => ?_
  · rw [rePath, ofNodes, hlength]
  · rw [rePath, ofNodes, hlength, if_neg (by omega)]
  · rw [length_rePath, range_succ, range_eq_range']
    exact (perm_append_singleton _ _).symm
  · rw [getLast?_eq_getElem?, length_range', getElem?_range' (by omega)]
    simp
  · by_cases hi : i < (rePath hops).nodes.length
    · have hmem := mem_of_getElem? (getElem?_nodes hi)
      exact length_edges_reNodes (mem_reNodes_of_mem_rePath hmem)
    · rw [edgesOf, getElem?_eq_none (by omega)]
      exact Nat.zero_le _

theorem unparseRe_rePath (hne : hops ≠ []) : (rePath hops).unparseRe = .ok (reText hops) := by
  obtain ⟨hchain, hhops⟩ := chain_rePath hops
  rw [(valid_rePath hne).unparseRe_iff (reText_ne_nil hne)]
  exact ⟨_, hchain, by rw [hhops]⟩

theorem getLast?_reNodes (hops : List Hop) (h : Hop) (next : Nat) (prev : Xid) :
    (reNodes next prev (hops ++ [h])).getLast? = some ⟨h.main, []⟩ := by
  induction hops generalizing next prev with
  | nil => simp [reNodes, getLast?_cons, getLast?_append]
  | cons g hops ih => simp [reNodes, getLast?_cons, getLast?_append, ih]

theorem destXid_rePath (hops : List Hop) (h : Hop) :
    (rePath (hops ++ [h])).destXid = .ok h.main := by
  have hv := valid_rePath (append_ne_nil_of_right_ne_nil hops (cons_ne_nil h []))
  have hpos : 0 < reSize (hops ++ [h]) := by simp [reSize, Hop.size]
  have hlen := length_reNodes 0 Xid.zero (hops ++ [h])
  have hlast := getLast?_reNodes hops h 0 Xid.zero
  rw [getLast?_eq_getElem?, hlen, Nat.add_sub_cancel] at hlast
  rw [destXid, xid, destinationNode, hv.dst_eq, bind_some, rePath, ofNodes,
    getElem?_append_left (by rw [length_tail, hlen]; omega), getElem?_tail,
    Nat.sub_add_cancel hpos, hlast]
  rfl

end XiaPath

end Xia
